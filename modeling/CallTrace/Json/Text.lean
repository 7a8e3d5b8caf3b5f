import CallTrace.Bytes.Hex

/-!
# Quoted text

How text is quoted in JSON.  Writing escapes the quote, the backslash and control
characters, and nothing else.

Reading goes in two stages.  The first splits a quoted string into symbols and is
content with any escape of four hexadecimal digits.  The second makes text of the
symbols, which fails if half of a surrogate pair stands alone.
-/

namespace CallTrace.Json

/-- One symbol of a quoted string: a character, or half of a surrogate pair. -/
inductive Symbol where
  | char (value : Char)
  | half (code : Nat)
deriving DecidableEq, Repr

/-- The symbol for a 16-bit code. -/
def Symbol.ofCode (code : Nat) : Symbol :=
  if 0xd800 ≤ code ∧ code < 0xe000 then half code else char (Char.ofNat code)

/-- The code of four hexadecimal digits. -/
def codeOfDigits? (first second third fourth : Char) : Option Nat := do
  let firstValue ← Hex.digitValue? first
  let secondValue ← Hex.digitValue? second
  let thirdValue ← Hex.digitValue? third
  let fourthValue ← Hex.digitValue? fourth
  return ((firstValue * 16 + secondValue) * 16 + thirdValue) * 16 + fourthValue

/-- The character behind a backslash and one more character. -/
def shortEscape? (char : Char) : Option Char :=
  match char with
  | '"' => some '"'
  | '\\' => some '\\'
  | '/' => some '/'
  | 'b' => some '\x08'
  | 'f' => some '\x0c'
  | 'n' => some '\n'
  | 'r' => some '\r'
  | 't' => some '\t'
  | _ => none

/-- Puts a symbol in front of a scanned string. -/
def consSymbol (symbol : Symbol) : List Symbol × List Char → List Symbol × List Char
  | (symbols, rest) => (symbol :: symbols, rest)

/-- Scans a quoted string from behind its opening quote: its symbols and the input
behind its closing quote. -/
def scanString : List Char → Option (List Symbol × List Char)
  | [] => none
  | '"' :: rest => some ([], rest)
  | '\\' :: 'u' :: first :: second :: third :: fourth :: rest =>
      match codeOfDigits? first second third fourth with
      | some code => (scanString rest).map (consSymbol (.ofCode code))
      | none => none
  | '\\' :: char :: rest =>
      match shortEscape? char with
      | some value => (scanString rest).map (consSymbol (.char value))
      | none => none
  | char :: rest =>
      if char = '\\' ∨ char.toNat < 0x20 then
        none
      else
        (scanString rest).map (consSymbol (.char char))

/-- The characters of symbols.  A first half must be followed by a second half. -/
def charsOfSymbols? : List Symbol → Option (List Char)
  | [] => some []
  | .char value :: rest => (charsOfSymbols? rest).map (value :: ·)
  | .half first :: .half second :: rest =>
      if first < 0xdc00 ∧ 0xdc00 ≤ second then
        let code := 0x10000 + (first - 0xd800) * 0x400 + (second - 0xdc00)
        (charsOfSymbols? rest).map (Char.ofNat code :: ·)
      else
        none
  | .half _ :: _ => none

/-- The text of symbols. -/
def textOfSymbols? (symbols : List Symbol) : Option String :=
  (charsOfSymbols? symbols).map String.ofList

/-- A character as it is written between quotes. -/
def escape (char : Char) : List Char :=
  match char with
  | '"' => ['\\', '"']
  | '\\' => ['\\', '\\']
  | '\x08' => ['\\', 'b']
  | '\x0c' => ['\\', 'f']
  | '\n' => ['\\', 'n']
  | '\r' => ['\\', 'r']
  | '\t' => ['\\', 't']
  | char =>
      if char.toNat < 0x20 then
        ['\\', 'u', '0', '0', Nat.digitChar (char.toNat / 16), Nat.digitChar (char.toNat % 16)]
      else
        [char]

/-- Text between quotes. -/
def quote (text : String) : List Char :=
  '"' :: text.toList.flatMap escape ++ ['"']

end CallTrace.Json
