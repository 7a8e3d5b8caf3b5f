import CallTrace.Json.Reader

/-!
# Records as JSON values

A record is written as an object with named members.  It is read from an object in
which each known name occurs once at most, whatever other members there are, or
from an array of its fields in their order, of which some may be left out at the
end.
-/

namespace CallTrace.Json

/-! ## Writing -/

/-- A member that is always there. -/
def member (name : String) (value : Json) : List (Option String × Json) :=
  [(some name, value)]

/-- A member that is left out if its value is absent. -/
def optionalMember (name : String) (value? : Option Json) : List (Option String × Json) :=
  value?.elim [] (member name)

/-- A member that is null if its value is absent. -/
def nullableMember (name : String) (value? : Option Json) : List (Option String × Json) :=
  member name (value?.getD null)

/-! ## Reading -/

/-- The fields of a record that have been found, by name. -/
abbrev Fields := List (String × Json)

/-- The members of an object with the given names.  None of these may occur twice,
and all names must be text. -/
def knownMembers (names : List String) : List (Option String × Json) → Option Fields
  | [] => some []
  | (none, _) :: _ => none
  | (some name, value) :: members => do
      let fields ← knownMembers names members
      if name ∈ names then
        if (fields.lookup name).isSome then none else some ((name, value) :: fields)
      else
        some fields

/-- The fields of a record with the given layout. -/
def fields? (layout : List (String × Shape)) : Json → Option Fields
  | object members => knownMembers (layout.map Prod.fst) members
  | array items =>
      if items.length ≤ layout.length then
        some ((layout.map Prod.fst).zip items)
      else
        none
  | _ => none

namespace Fields

variable {α : Type}

/-- A field that must be there. -/
def required (name : String) (read : Json → Option α) (fields : Fields) : Option α :=
  (fields.lookup name).bind read

/-- A field that may be left out or null. -/
def optional (name : String) (read : Json → Option α) (fields : Fields) :
    Option (Option α) :=
  match fields.lookup name with
  | none => some none
  | some null => some none
  | some value => (read value).map some

end Fields

/-! ## Values of fields -/

/-- Text. -/
def readText : Json → Option String
  | string text? => text?
  | _ => none

/-- A number below a bound, written in plain digits. -/
def readNatural (bound : Nat) : Json → Option Nat
  | natural value => if value < bound then some value else none
  | _ => none

/-- An array of values. -/
def readArray {α : Type} (read : Json → Option α) : Json → Option (List α)
  | array items => items.mapM read
  | _ => none

/-- The number spelled by digits of a base below a bound.  Underscores do not
count. -/
def ofDigits? (base bound : Nat) (digits : List Char) : Option Nat :=
  digits.foldlM (fun total digit =>
    if digit = '_' then
      some total
    else do
      let value ← Hex.digitValue? digit
      let next := total * base + value
      if value < base ∧ next < bound then some next else none) 0

/-- The number below a bound that a quantity spells: in base sixteen, eight or two
behind a mark that says so, else in base ten. -/
def quantity? (bound : Nat) : List Char → Option Nat
  | '0' :: 'x' :: digits | '0' :: 'X' :: digits => ofDigits? 16 bound digits
  | '0' :: 'o' :: digits | '0' :: 'O' :: digits => ofDigits? 8 bound digits
  | '0' :: 'b' :: digits | '0' :: 'B' :: digits => ofDigits? 2 bound digits
  | digits => ofDigits? 10 bound digits

/-- A quantity below a bound: a number of 64 bits, or text that spells it. -/
def readQuantity (bound : Nat) : Json → Option Nat
  | natural value => if value < UInt64.size ∧ value < bound then some value else none
  | string (some content) => quantity? bound content.toList
  | _ => none

/-- A byte string: hexadecimal text, or an array of bytes. -/
def readBytes : Json → Option Bytes
  | string (some content) => Hex.toBytes? content
  | array items => items.mapM fun item => (readNatural 256 item).map UInt8.ofNat
  | _ => none

/-- A byte string of a certain length. -/
def readFixedBytes (width : Nat) (value : Json) : Option (FixedBytes width) :=
  (readBytes value).bind (FixedBytes.ofBytes? width)

/-- A word. -/
def readWord (value : Json) : Option Word :=
  (readQuantity Word.size value).map (BitVec.ofNat 256)

/-- A 64-bit quantity. -/
def readGas (value : Json) : Option UInt64 :=
  (readQuantity UInt64.size value).map UInt64.ofNat

/-- A 64-bit number. -/
def readUInt64 (value : Json) : Option UInt64 :=
  (readNatural UInt64.size value).map UInt64.ofNat

/-- A 32-bit number. -/
def readUInt32 (value : Json) : Option UInt32 :=
  (readNatural UInt32.size value).map UInt32.ofNat

end CallTrace.Json
