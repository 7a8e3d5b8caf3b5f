import CallTrace.Bytes.Basic

/-!
# Headers of RLP items

An RLP item is a string of bytes or a list of items.  Its header gives the shape
and the length of the payload that follows.  A byte below `0x80` is a header and
its own payload at once.

Reading is strict: a length has one spelling only, and a payload that the input
does not hold in full is refused before anything else is asked of it.
-/

namespace CallTrace.Rlp

/-- Why bytes are not the encoding of the item that was asked for. -/
inductive Error where
  | inputTooShort
  | nonCanonicalSingleByte
  | nonCanonicalSize
  | leadingZero
  | overflow
  | unexpectedLength
  | unexpectedString
  | unexpectedList
  | lengthMismatch (got expected : Nat)
  | invalidText
deriving DecidableEq, Repr

/-- The wording of an error. -/
def Error.message : Error → String
  | inputTooShort => "input too short"
  | nonCanonicalSingleByte => "non-canonical single byte"
  | nonCanonicalSize => "non-canonical size"
  | leadingZero => "leading zero"
  | overflow => "overflow"
  | unexpectedLength => "unexpected length"
  | unexpectedString => "unexpected string"
  | unexpectedList => "unexpected list"
  | lengthMismatch got expected =>
      "unexpected list length (got " ++ toString got ++ ", expected " ++ toString expected ++ ")"
  | invalidText => "invalid string"

/-- The two shapes of an item. -/
inductive Shape where
  | string
  | list
deriving DecidableEq, Repr

namespace Shape

/-- The first byte of an item of this shape with an empty payload. -/
def base : Shape → Nat
  | string => 0x80
  | list => 0xc0

/-- The complaint about an item of this shape where the other was wanted. -/
def unexpected : Shape → Error
  | string => .unexpectedString
  | list => .unexpectedList

end Shape

/-- The shape of an item and the length of its payload. -/
structure Header where
  shape : Shape
  payloadLength : Nat
deriving DecidableEq, Repr

namespace Header

/-- The bytes of a header.  Lengths below 56 fit the first byte; longer ones are
spelled out behind it. -/
def encode (header : Header) : Bytes :=
  if header.payloadLength < 56 then
    [UInt8.ofNat (header.shape.base + header.payloadLength)]
  else
    UInt8.ofNat (header.shape.base + 55 + Bytes.digitCount header.payloadLength) ::
      Bytes.ofNat header.payloadLength

/-- How many bytes the header of a payload takes. -/
def size (payloadLength : Nat) : Nat :=
  if payloadLength < 56 then 1 else 1 + Bytes.digitCount payloadLength

@[simp]
theorem length_encode (header : Header) :
    header.encode.length = size header.payloadLength := by
  unfold encode size
  split
  · rfl
  · simp [Nat.add_comm]

/-- A length spelled out in the next `count` bytes. -/
def readLength (count : Nat) (input : Bytes) : Except Error (Nat × Bytes) :=
  let spelling := input.take count
  if input.length < count then
    .error .inputTooShort
  else if spelling.head? = some 0 then
    .error .leadingZero
  else if Bytes.toNat spelling < 56 then
    .error .nonCanonicalSize
  else
    .ok (Bytes.toNat spelling, input.drop count)

/-- The header that begins with `first`, and the input from its payload on. -/
def readFrom (first : UInt8) (rest : Bytes) : Except Error (Header × Bytes) :=
  let code := first.toNat
  if code < 0x80 then
    .ok (⟨.string, 1⟩, first :: rest)
  else if code = 0x81 then
    match rest with
    | [] => .error .inputTooShort
    | next :: _ =>
        if next.toNat < 0x80 then
          .error .nonCanonicalSingleByte
        else
          .ok (⟨.string, 1⟩, rest)
  else if code < 0xb8 then
    .ok (⟨.string, code - 0x80⟩, rest)
  else if code < 0xc0 then do
    let (payloadLength, payload) ← readLength (code - 0xb7) rest
    return (⟨.string, payloadLength⟩, payload)
  else if code < 0xf8 then
    .ok (⟨.list, code - 0xc0⟩, rest)
  else do
    let (payloadLength, payload) ← readLength (code - 0xf7) rest
    return (⟨.list, payloadLength⟩, payload)

/-- Reads a header off the front of the input.  The input is left at the payload,
all of which is there. -/
def decode : Bytes → Except Error (Header × Bytes)
  | [] => .error .inputTooShort
  | first :: rest => do
      let (header, payload) ← readFrom first rest
      if payload.length < header.payloadLength then
        .error .inputTooShort
      else
        .ok (header, payload)

/-- Reads the header of an item of the wanted shape: the length of the payload
and the input from the payload on. -/
def decodeAs (shape : Shape) (input : Bytes) : Except Error (Nat × Bytes) := do
  let (header, payload) ← decode input
  if header.shape = shape then
    .ok (header.payloadLength, payload)
  else
    .error header.shape.unexpected

end Header

/-- Reads an item of the wanted shape: its payload and the input behind it. -/
def decodePayload (shape : Shape) (input : Bytes) : Except Error (Bytes × Bytes) := do
  let (length, payload) ← Header.decodeAs shape input
  return (payload.take length, payload.drop length)

end CallTrace.Rlp
