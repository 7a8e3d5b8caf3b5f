import CallTrace.Json.Token

/-!
# Surplus behind a byte string

A byte string of a certain length may be written as an array of that many bytes.
Once these have been read, one further byte is attempted.  If there is one, the array
is too long.  An attempt that fails is overlooked: the array is over if its bracket
closes at the place where the attempt gave up.  So one thing that is no byte may
stand there, be it a value without parts, the beginning of one, or nothing at all
behind a last comma.

All of this is about places in the input.  A place is given by the rest of the input
from there on.  Only blanks and a bracket are of interest at the place found, so one
within a character is as good as the place in front of that character.
-/

namespace CallTrace.Json

/-- The input behind some bytes.  A character that goes beyond them is kept. -/
def dropBytes : Nat → List Char → List Char
  | _, [] => []
  | count, char :: rest =>
      if char.utf8Size ≤ count then dropBytes (count - char.utf8Size) rest else char :: rest

/-- Where the attempt at a word ends: behind the word, or behind the first byte that
differs. -/
def wordEnd : List Char → List Char → List Char
  | [], input => input
  | _, [] => []
  | expected :: word, char :: rest =>
      if char = expected then wordEnd word rest else dropBytes 1 (char :: rest)

/-- Where the digits of an exponent end, whose digits so far have the given value.
A bounded exponent ends behind the digit that takes it beyond 31 bits. -/
def exponentEnd (bounded : Bool) : Nat → List Char → List Char
  | _, [] => []
  | total, char :: rest =>
      if char.isDigit then
        let next := total * 10 + (char.toNat - '0'.toNat)
        if bounded ∧ 0x80000000 ≤ next then rest else exponentEnd bounded next rest
      else
        char :: rest

/-- Where the attempt at a number ends of which at most the exponent is left.
Without digits the exponent ends behind the byte in place of the first.  It is
bounded if it makes a number large, which it cannot if all digits in front of it are
zeros. -/
def powerEnd (zero : Bool) : List Char → List Char
  | [] => []
  | mark :: rest =>
      if mark = 'e' ∨ mark = 'E' then
        let (sign, rest) := scanSign rest
        if (scanDigits rest).isSome then
          exponentEnd (!zero && sign != ['-']) 0 rest
        else
          dropBytes 1 rest
      else
        mark :: rest

/-- Where the attempt at a number ends of which the fraction and the exponent are
left.  Without digits the fraction ends behind its point. -/
def fractionEnd (zero : Bool) : List Char → List Char
  | '.' :: rest =>
      match scanDigits rest with
      | some (digits, rest) => powerEnd (zero && digits.all (· == '0')) rest
      | none => rest
  | input => powerEnd zero input

/-- Where the attempt at a number ends, from behind its sign.  Without digits it ends
behind the byte in place of the first. -/
def numberEnd (input : List Char) : List Char :=
  match scanWhole input with
  | some (digits, rest) => fractionEnd (digits == ['0']) rest
  | none => dropBytes 1 input

/-- Whether a code is the first half of a surrogate pair. -/
def isFirstHalf (code : Nat) : Bool :=
  0xd800 ≤ code && code < 0xdc00

/-- Whether a code is the second half of a surrogate pair. -/
def isSecondHalf (code : Nat) : Bool :=
  0xdc00 ≤ code && code < 0xe000

/-- Where the attempt at a quoted string ends, from behind its opening quote: behind
its closing quote or behind what makes it no text.  The four bytes of a code are
taken together.  What follows the first half of a surrogate pair has to be an escape
with the second half. -/
def stringEnd : (halved : Bool) → List Char → List Char
  | _, [] => []
  | halved, '\\' :: 'u' :: first :: second :: third :: fourth :: rest =>
      match codeOfDigits? first second third fourth with
      | some code =>
          if isSecondHalf code == halved then stringEnd (isFirstHalf code) rest else rest
      | none => dropBytes 4 (first :: second :: third :: fourth :: rest)
  | _, '\\' :: 'u' :: rest => dropBytes 4 rest
  | halved, '\\' :: char :: rest =>
      if !halved && (shortEscape? char).isSome then
        stringEnd false rest
      else
        dropBytes 1 (char :: rest)
  | halved, char :: rest =>
      if halved || char == '\\' || char.toNat < 0x20 then
        dropBytes 1 (char :: rest)
      else if char = '"' then
        rest
      else
        stringEnd false rest

/-- Where the attempt at a byte ends if it fails.  Nothing is taken of an array, of
an object, and of what cannot begin a value. -/
def attemptEnd : List Char → List Char
  | '-' :: rest => numberEnd rest
  | 'n' :: rest => wordEnd ['u', 'l', 'l'] rest
  | 't' :: rest => wordEnd ['r', 'u', 'e'] rest
  | 'f' :: rest => wordEnd ['a', 'l', 's', 'e'] rest
  | '"' :: rest => stringEnd false rest
  | char :: rest => if char.isDigit then numberEnd (char :: rest) else char :: rest
  | [] => []

/-- Whether the input begins with a byte. -/
def beginsWithByte (input : List Char) : Bool :=
  match scanNumber input with
  | some (natural value, _) => value < 256
  | _ => false

/-- The input behind the bracket that closes a complete byte string, from behind a
further comma. -/
def closeSurplus (input : List Char) : Option (List Char) :=
  let input := skipBlanks input
  if beginsWithByte input then
    none
  else
    match skipBlanks (attemptEnd input) with
    | ']' :: rest => some rest
    | _ => none

end CallTrace.Json
