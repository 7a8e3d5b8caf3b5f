/-!
# Shapes of JSON values

What a value is expected to hold.  This matters only for the place where a byte
string of a certain length ends, so a shape says where such byte strings stand.
-/

namespace CallTrace.Json

/-- The shape that is expected of a value. -/
inductive Shape where
  | any
  | fixedBytes (width : Nat)
  | list (item : Shape)
  | record (fields : List (String × Shape))

namespace Shape

/-- The shape of a member of an object. -/
def member (shape : Shape) (name? : Option String) : Shape :=
  match shape, name? with
  | record fields, some name => (fields.lookup name).getD any
  | _, _ => any

/-- The shape of the first item of an array. -/
def head : Shape → Shape
  | list item => item
  | record ((_, shape) :: _) => shape
  | _ => any

/-- The shape of an array without its first item. -/
def tail : Shape → Shape
  | fixedBytes (width + 1) => fixedBytes width
  | list item => list item
  | record (_ :: fields) => record fields
  | _ => any

/-- Whether no items are left of a byte string. -/
def isComplete : Shape → Bool
  | fixedBytes 0 => true
  | _ => false

end Shape

end CallTrace.Json
