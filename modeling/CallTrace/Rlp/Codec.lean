import CallTrace.Rlp.Header

/-!
# Codecs of single values

A codec writes the values of a type as RLP and reads one value off the front of
an input.  This file has the codecs of byte strings, numbers and text, whose
encodings are all RLP strings.
-/

namespace CallTrace.Rlp

/-- A way of writing the values of a type and of reading one off the front of an
input.  `size` is the length of the encoding, worked out without writing it. -/
structure Codec (α : Type) where
  encode : α → Bytes
  size : α → Nat
  decode : Bytes → Except Error (α × Bytes)

/-- The encoding of a byte string.  A single byte below `0x80` stands for itself. -/
def encodeString : Bytes → Bytes
  | [byte] => if byte.toNat < 0x80 then [byte] else (Header.mk .string 1).encode ++ [byte]
  | bytes => (Header.mk .string bytes.length).encode ++ bytes

/-- The length of the encoding of a byte string. -/
def stringSize : Bytes → Nat
  | [byte] => if byte.toNat < 0x80 then 1 else Header.size 1 + 1
  | bytes => Header.size bytes.length + bytes.length

theorem length_encodeString (bytes : Bytes) :
    (encodeString bytes).length = stringSize bytes := by
  match bytes with
  | [] => simp [encodeString, stringSize]
  | [byte] =>
      simp only [encodeString, stringSize]
      split <;> simp
  | first :: second :: rest => simp [encodeString, stringSize]

namespace Codec

variable {α β : Type}

/-- A codec of strings that hold the spellings of other values.  Reading may find
fault with a spelling. -/
def ofString (spell : α → Bytes) (read : Bytes → Except Error α) : Codec α where
  encode value := encodeString (spell value)
  size value := stringSize (spell value)
  decode input := do
    let (payload, rest) ← decodePayload .string input
    let value ← read payload
    return (value, rest)

/-- The same encodings for the values of another type. -/
def map (codec : Codec α) (into : α → β) (back : β → α) : Codec β where
  encode value := codec.encode (back value)
  size value := codec.size (back value)
  decode input := do
    let (value, rest) ← codec.decode input
    return (into value, rest)

/-- Byte strings. -/
def bytes : Codec Bytes :=
  ofString id .ok

/-- Byte strings of one length only. -/
def fixedBytes (width : Nat) : Codec (FixedBytes width) :=
  ofString FixedBytes.bytes fun payload =>
    match FixedBytes.ofBytes? width payload with
    | some fixed => .ok fixed
    | none => .error .unexpectedLength

/-- Numbers in the fewest bytes, at most `width` of them.  A spelling that is too
long is refused before one with a leading zero. -/
def natural (width : Nat) : Codec Nat :=
  ofString Bytes.ofNat fun payload =>
    if width < payload.length then
      .error .overflow
    else if payload.head? = some 0 then
      .error .leadingZero
    else
      .ok (Bytes.toNat payload)

/-- One-byte numbers. -/
def uint8 : Codec UInt8 :=
  (natural 1).map UInt8.ofNat UInt8.toNat

/-- Four-byte numbers. -/
def uint32 : Codec UInt32 :=
  (natural 4).map UInt32.ofNat UInt32.toNat

/-- Eight-byte numbers. -/
def uint64 : Codec UInt64 :=
  (natural 8).map UInt64.ofNat UInt64.toNat

/-- Machine words in the fewest bytes.  A leading zero is refused before a
spelling that is too long. -/
def word : Codec Word :=
  ofString (fun value => Bytes.ofNat value.toNat) fun payload =>
    if payload.head? = some 0 then
      .error .leadingZero
    else if 32 < payload.length then
      .error .overflow
    else
      .ok (BitVec.ofNat 256 (Bytes.toNat payload))

/-- Text as its UTF-8 bytes. -/
def text : Codec String :=
  ofString (fun value => value.toUTF8.data.toList) fun payload =>
    match String.fromUTF8? (ByteArray.mk payload.toArray) with
    | some value => .ok value
    | none => .error .invalidText

end Codec

end CallTrace.Rlp
