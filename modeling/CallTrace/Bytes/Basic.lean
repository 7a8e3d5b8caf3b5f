/-!
# Byte strings

Byte strings are lists of bytes.  This file reads them as numbers in base 256,
most significant byte first, and spells numbers in the two ways the rest of the
library needs: in a fixed width, and in as few bytes as possible.
-/

namespace CallTrace

/-- A byte string. -/
abbrev Bytes := List UInt8

namespace Bytes

/-- The number a byte string spells, most significant byte first. -/
def toNat (bytes : Bytes) : Nat :=
  bytes.foldl (fun total byte => total * 256 + byte.toNat) 0

/-- The last `width` base-256 digits of a number, most significant first. -/
def ofNatPadded : Nat → Nat → Bytes
  | 0, _ => []
  | width + 1, n => ofNatPadded width (n / 256) ++ [UInt8.ofNat n]

/-- How many base-256 digits a number has.  Zero has none. -/
def digitCount (n : Nat) : Nat :=
  if n = 0 then 0 else n.log2 / 8 + 1

/-- The shortest spelling of a number.  Zero is spelled by no bytes at all. -/
def ofNat (n : Nat) : Bytes :=
  ofNatPadded (digitCount n) n

@[simp]
theorem toNat_append_singleton (bytes : Bytes) (byte : UInt8) :
    toNat (bytes ++ [byte]) = toNat bytes * 256 + byte.toNat := by
  simp [toNat, List.foldl_append]

@[simp]
theorem length_ofNatPadded (width n : Nat) : (ofNatPadded width n).length = width := by
  induction width generalizing n with
  | zero => rfl
  | succ width ih => simp [ofNatPadded, ih]

@[simp]
theorem length_ofNat (n : Nat) : (ofNat n).length = digitCount n :=
  length_ofNatPadded _ _

end Bytes

/-- A byte string whose length is part of its type. -/
structure FixedBytes (width : Nat) where
  bytes : Bytes
  length_eq : bytes.length = width
deriving DecidableEq

namespace FixedBytes

variable {width : Nat}

@[ext]
theorem ext {left right : FixedBytes width} (hbytes : left.bytes = right.bytes) :
    left = right := by
  cases left
  cases right
  cases hbytes
  rfl

/-- The string of zero bytes. -/
def zero (width : Nat) : FixedBytes width :=
  ⟨List.replicate width 0, List.length_replicate⟩

instance : Inhabited (FixedBytes width) :=
  ⟨zero width⟩

/-- A byte string of exactly the wanted length. -/
def ofBytes? (width : Nat) (bytes : Bytes) : Option (FixedBytes width) :=
  if hlength : bytes.length = width then some ⟨bytes, hlength⟩ else none

/-- The last `width` base-256 digits of a number. -/
def ofNat (width n : Nat) : FixedBytes width :=
  ⟨Bytes.ofNatPadded width n, Bytes.length_ofNatPadded width n⟩

theorem ofBytes?_eq_some_iff {bytes : Bytes} {fixed : FixedBytes width} :
    ofBytes? width bytes = some fixed ↔ bytes = fixed.bytes := by
  unfold ofBytes?
  constructor
  · intro hfixed
    split at hfixed
    · cases hfixed
      rfl
    · cases hfixed
  · rintro rfl
    simp [fixed.length_eq]

end FixedBytes

/-- An account address. -/
abbrev Address := FixedBytes 20

/-- A 32-byte hash. -/
abbrev Hash := FixedBytes 32

/-- A 256-bit machine word. -/
abbrev Word := BitVec 256

/-- The number of words. -/
def Word.size : Nat := Nat.pow 2 256

/-- The address in the low 20 bytes of a word. -/
def Address.ofWord (word : Word) : Address :=
  FixedBytes.ofNat 20 word.toNat

/-- The address in the last 20 bytes of a hash. -/
def Address.ofHash (hash : Hash) : Address :=
  ⟨hash.bytes.drop 12, by simp [hash.length_eq]⟩

/-- The 32 bytes of a word, most significant byte first. -/
def Hash.ofWord (word : Word) : Hash :=
  FixedBytes.ofNat 32 word.toNat

end CallTrace
