import CallTrace.Json.Value

/-!
# Tokens of JSON texts

The parts of a JSON text that hold no other values.  Scanning functions take what
they look for off the front of the input and return it with the rest of the input.
-/

namespace CallTrace.Json

/-- Whether a character may stand between the parts of a JSON text. -/
def isBlank (char : Char) : Bool :=
  char == ' ' || char == '\t' || char == '\n' || char == '\r'

/-- The input behind its leading blanks. -/
def skipBlanks (input : List Char) : List Char :=
  input.dropWhile isBlank

/-- The input behind a word with which it begins. -/
def scanWord (word input : List Char) : Option (List Char) :=
  if word.isPrefixOf input then some (input.drop word.length) else none

/-- One or more digits. -/
def scanDigits (input : List Char) : Option (List Char × List Char) :=
  let digits := input.takeWhile Char.isDigit
  if digits.isEmpty then none else some (digits, input.dropWhile Char.isDigit)

/-- The digits before a fraction or an exponent.  A zero is not followed by other
digits. -/
def scanWhole : List Char → Option (List Char × List Char)
  | '0' :: rest => some (['0'], rest)
  | input => scanDigits input

/-- A fraction, if there is one. -/
def scanFraction : List Char → Option (List Char × List Char)
  | '.' :: rest => (scanDigits rest).map fun (digits, rest) => ('.' :: digits, rest)
  | input => some ([], input)

/-- The sign of an exponent, if there is one. -/
def scanSign : List Char → List Char × List Char
  | '+' :: rest => (['+'], rest)
  | '-' :: rest => (['-'], rest)
  | input => ([], input)

/-- An exponent, if there is one. -/
def scanExponent : List Char → Option (List Char × List Char)
  | [] => some ([], [])
  | mark :: rest =>
      if mark = 'e' ∨ mark = 'E' then
        let (sign, rest) := scanSign rest
        (scanDigits rest).map fun (digits, rest) => (mark :: sign ++ digits, rest)
      else
        some ([], mark :: rest)

/-- A number without a sign, as it is written: its digits, and what follows them in
the number. -/
def scanUnsigned (input : List Char) :
    Option ((List Char × List Char) × List Char) := do
  let (digits, rest) ← scanWhole input
  let (fraction, rest) ← scanFraction rest
  let (exponent, rest) ← scanExponent rest
  return ((digits, fraction ++ exponent), rest)

/-- A number. -/
def scanNumber : List Char → Option (Json × List Char)
  | '-' :: rest => do
      let ((digits, more), rest) ← scanUnsigned rest
      return (otherNumber (String.ofList ('-' :: digits ++ more)), rest)
  | input => do
      let ((digits, more), rest) ← scanUnsigned input
      if more.isEmpty then
        some (natural (Nat.ofDigitChars 10 digits 0), rest)
      else
        some (otherNumber (String.ofList (digits ++ more)), rest)

/-- A value that is neither a string nor made of other values. -/
def scanAtom (input : List Char) : Option (Json × List Char) :=
  match input with
  | 'n' :: rest => (scanWord ['u', 'l', 'l'] rest).map (null, ·)
  | 't' :: rest => (scanWord ['r', 'u', 'e'] rest).map (bool true, ·)
  | 'f' :: rest => (scanWord ['a', 'l', 's', 'e'] rest).map (bool false, ·)
  | input => scanNumber input

/-- The name of a member with the colon behind it. -/
def scanName (input : List Char) : Option (Option String × List Char) :=
  match skipBlanks input with
  | '"' :: rest => do
      let (symbols, rest) ← scanString rest
      match skipBlanks rest with
      | ':' :: rest => some (textOfSymbols? symbols, rest)
      | _ => none
  | _ => none

end CallTrace.Json
