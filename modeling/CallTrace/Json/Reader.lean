import CallTrace.Json.Shape
import CallTrace.Json.Surplus

/-!
# Reading JSON texts

A strict reader of JSON texts.  It is told the shape of the value that it looks for,
which says where a surplus behind a byte string is let pass.  The surplus is no part
of the value.
-/

namespace CallTrace.Json

mutual

/-- A value.  The fuel bounds how deep and how far the scan goes. -/
def scanValue : Nat → Shape → List Char → Option (Json × List Char)
  | 0, _, _ => none
  | fuel + 1, shape, input =>
      match skipBlanks input with
      | '"' :: rest => do
          let (symbols, rest) ← scanString rest
          some (string (textOfSymbols? symbols), rest)
      | '[' :: rest =>
          match skipBlanks rest with
          | ']' :: rest => some (array [], rest)
          | rest => do
              let (items, rest) ← scanItems fuel shape rest
              some (array items, rest)
      | '{' :: rest =>
          match skipBlanks rest with
          | '}' :: rest => some (object [], rest)
          | rest => do
              let (members, rest) ← scanMembers fuel shape rest
              some (object members, rest)
      | input => scanAtom input

/-- One or more items of an array of the given shape, and its closing bracket. -/
def scanItems : Nat → Shape → List Char → Option (List Json × List Char)
  | 0, _, _ => none
  | fuel + 1, shape, input => do
      let (item, rest) ← scanValue fuel shape.head input
      match skipBlanks rest with
      | ']' :: rest => some ([item], rest)
      | ',' :: rest =>
          if shape.tail.isComplete then do
            let rest ← closeSurplus rest
            some ([item], rest)
          else do
            let (items, rest) ← scanItems fuel shape.tail rest
            some (item :: items, rest)
      | _ => none

/-- One or more members of an object of the given shape, and its closing brace. -/
def scanMembers :
    Nat → Shape → List Char → Option (List (Option String × Json) × List Char)
  | 0, _, _ => none
  | fuel + 1, shape, input => do
      let (name?, rest) ← scanName input
      let (value, rest) ← scanValue fuel (shape.member name?) rest
      match skipBlanks rest with
      | '}' :: rest => some ([(name?, value)], rest)
      | ',' :: rest => do
          let (members, rest) ← scanMembers fuel shape rest
          some ((name?, value) :: members, rest)
      | _ => none

end

/-- The one value of the given shape that a text holds.  Every character can at most
open one value and lead on to one more item, which bounds the fuel. -/
def ofText? (shape : Shape) (source : String) : Option Json := do
  let input := source.toList
  let (value, rest) ← scanValue (2 * input.length + 2) shape input
  if (skipBlanks rest).isEmpty then some value else none

end CallTrace.Json
