import CallTrace.Bytes.Basic

/-!
# Hexadecimal text

Byte strings are written as `0x` followed by two lower-case digits a byte, and
quantities as `0x` followed by their digits without leading zeros.  Reading byte
strings accepts digits of either case.
-/

namespace CallTrace.Hex

/-- The two lower-case digits of a byte. -/
def byteDigits (byte : UInt8) : List Char :=
  [Nat.digitChar (byte.toNat / 16), Nat.digitChar (byte.toNat % 16)]

/-- The digits of a byte string. -/
def digits (bytes : Bytes) : List Char :=
  bytes.flatMap byteDigits

/-- A byte string as `0x` text. -/
def ofBytes (bytes : Bytes) : String :=
  String.ofList ('0' :: 'x' :: digits bytes)

/-- A number as `0x` text without leading zeros.  Zero is `0x0`. -/
def ofNat (n : Nat) : String :=
  String.ofList ('0' :: 'x' :: Nat.toDigits 16 n)

/-- The value of a digit in any base up to sixteen, letters in either case. -/
def digitValue? (char : Char) : Option Nat :=
  if '0' ≤ char ∧ char ≤ '9' then
    some (char.toNat - '0'.toNat)
  else if 'a' ≤ char ∧ char ≤ 'f' then
    some (char.toNat - 'a'.toNat + 10)
  else if 'A' ≤ char ∧ char ≤ 'F' then
    some (char.toNat - 'A'.toNat + 10)
  else
    none

/-- The bytes spelled by pairs of digits.  An odd digit out is refused. -/
def bytesOfDigits? : List Char → Option Bytes
  | [] => some []
  | [_] => none
  | high :: low :: rest => do
      let highValue ← digitValue? high
      let lowValue ← digitValue? low
      let bytes ← bytesOfDigits? rest
      return UInt8.ofNat (highValue * 16 + lowValue) :: bytes

/-- Text without the `0x` or `0X` it may begin with. -/
def dropMark : List Char → List Char
  | '0' :: 'x' :: rest => rest
  | '0' :: 'X' :: rest => rest
  | chars => chars

/-- The byte string written by hexadecimal text, with or without its mark. -/
def toBytes? (text : String) : Option Bytes :=
  bytesOfDigits? (dropMark text.toList)

theorem digitValue?_digitChar {value : Nat} (hvalue : value < 16) :
    digitValue? (Nat.digitChar value) = some value := by
  revert value
  decide

/-- Reading the digits of a byte string gives it back. -/
theorem bytesOfDigits?_digits (bytes : Bytes) : bytesOfDigits? (digits bytes) = some bytes := by
  induction bytes with
  | nil => rfl
  | cons byte bytes ih =>
      have hhigh : byte.toNat / 16 < 16 := by
        have hbound := byte.toNat_lt
        omega
      have hlow : byte.toNat % 16 < 16 := by omega
      have hbyte : byte.toNat / 16 * 16 + byte.toNat % 16 = byte.toNat := by omega
      change bytesOfDigits? (_ :: _ :: digits bytes) = _
      rw [bytesOfDigits?, digitValue?_digitChar hhigh, digitValue?_digitChar hlow, ih]
      change some (UInt8.ofNat _ :: bytes) = _
      rw [hbyte, UInt8.ofNat_toNat]

@[simp]
theorem toBytes?_ofBytes (bytes : Bytes) : toBytes? (ofBytes bytes) = some bytes := by
  simp [toBytes?, ofBytes, dropMark, bytesOfDigits?_digits]

end CallTrace.Hex
