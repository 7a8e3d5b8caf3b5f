import CallTrace.Json.Text

/-!
# JSON values

A value as it stands in a JSON text, and the compact way of writing it.  Whole
numbers that are written with digits only are numbers here; other numbers are kept
as they were written, since nobody asks for their value.

A string that is no text, because half of a surrogate pair stands alone in it, is
kept as absent text.  It does no harm in a value that nobody reads.
-/

namespace CallTrace

/-- A JSON value. -/
inductive Json where
  | null
  | bool (value : Bool)
  | natural (value : Nat)
  | otherNumber (literal : String)
  | string (text? : Option String)
  | array (items : List Json)
  | object (members : List (Option String × Json))
deriving Inhabited

namespace Json

/-- A string that is text. -/
abbrev text (content : String) : Json :=
  string (some content)

/-- A quoted string.  Absent text is written as half of a surrogate pair. -/
def quote? (text? : Option String) : List Char :=
  text?.elim ['"', '\\', 'u', 'd', '8', '0', '0', '"'] quote

mutual

/-- A value without any blanks. -/
def render : Json → List Char
  | null => ['n', 'u', 'l', 'l']
  | bool true => ['t', 'r', 'u', 'e']
  | bool false => ['f', 'a', 'l', 's', 'e']
  | natural value => Nat.toDigits 10 value
  | otherNumber literal => literal.toList
  | string text? => quote? text?
  | array [] => ['[', ']']
  | array (item :: items) => '[' :: render item ++ renderItems items
  | object [] => ['{', '}']
  | object ((name?, value) :: members) =>
      '{' :: quote? name? ++ ':' :: render value ++ renderMembers members

/-- The items of an array after the first, and its closing bracket. -/
def renderItems : List Json → List Char
  | [] => [']']
  | item :: items => ',' :: render item ++ renderItems items

/-- The members of an object after the first, and its closing brace. -/
def renderMembers : List (Option String × Json) → List Char
  | [] => ['}']
  | (name?, value) :: members =>
      ',' :: quote? name? ++ ':' :: render value ++ renderMembers members

end

/-- The text of a value. -/
def toText (value : Json) : String :=
  String.ofList value.render

end Json

end CallTrace
