import CallTrace.Rlp.Codec

/-!
# Codecs of compound values

Lists, optional values and records are all RLP lists, but they differ in how far
their readers look:

* the items of a list are read from its payload until that is used up;
* an optional value is a list of no or one item, and the item is read from the
  payload alone;
* the fields of a record are read one after the other from all of the input that
  is left, and only afterwards is the number of bytes they took compared with the
  length of the payload.
-/

namespace CallTrace.Rlp.Codec

variable {α β : Type}

/-- Puts the header of a list in front of a payload. -/
def wrapList (size : Nat) (payload : Bytes) : Bytes :=
  (Header.mk .list size).encode ++ payload

/-- Reads items until the input is used up.  Each item takes a byte at least, so
the length of the input bounds the number of items. -/
def decodeItems (item : Codec α) : Nat → Bytes → Except Error (List α)
  | _, [] => .ok []
  | 0, _ :: _ => .error .inputTooShort
  | fuel + 1, input => do
      let (value, rest) ← item.decode input
      let values ← decodeItems item fuel rest
      return value :: values

/-- The total size of the items of a list. -/
def itemsSize (item : Codec α) : List α → Nat
  | [] => 0
  | value :: values => item.size value + itemsSize item values

/-- Lists of any length. -/
def list (item : Codec α) : Codec (List α) where
  encode values := wrapList (itemsSize item values) (values.flatMap item.encode)
  size values := Header.size (itemsSize item values) + itemsSize item values
  decode input := do
    let (payload, rest) ← decodePayload .list input
    let values ← decodeItems item payload.length payload
    return (values, rest)

/-- The size of an optional value's item, if it is there. -/
def optionSize (item : Codec α) (value? : Option α) : Nat :=
  value?.elim 0 item.size

/-- Values that may be absent.  A present value is a list of one item, so it never
looks like an absent one, whatever it is. -/
def option (item : Codec α) : Codec (Option α) where
  encode value? := wrapList (optionSize item value?) (value?.elim [] item.encode)
  size value? := Header.size (optionSize item value?) + optionSize item value?
  decode input := do
    let (payload, rest) ← decodePayload .list input
    if payload.isEmpty then
      .ok (none, rest)
    else do
      let (value, surplus) ← item.decode payload
      if surplus.isEmpty then
        .ok (some value, rest)
      else
        .error (.lengthMismatch (payload.length - surplus.length) payload.length)

/-- Two values one behind the other, without a header of their own. -/
def both (first : Codec α) (second : Codec β) : Codec (α × β) where
  encode values := first.encode values.1 ++ second.encode values.2
  size values := first.size values.1 + second.size values.2
  decode input := do
    let (firstValue, rest) ← first.decode input
    let (secondValue, rest) ← second.decode rest
    return ((firstValue, secondValue), rest)

/-- A list whose payload is the given fields. -/
def record (fields : Codec α) : Codec α where
  encode value := wrapList (fields.size value) (fields.encode value)
  size value := Header.size (fields.size value) + fields.size value
  decode input := do
    let (length, payload) ← Header.decodeAs .list input
    let (value, rest) ← fields.decode payload
    let taken := payload.length - rest.length
    if taken = length then
      .ok (value, rest)
    else
      .error (.lengthMismatch taken length)

end CallTrace.Rlp.Codec
