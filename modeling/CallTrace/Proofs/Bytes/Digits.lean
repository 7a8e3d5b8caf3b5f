import CallTrace.Bytes.Basic
import Mathlib.Algebra.Group.Nat.Defs
import Mathlib.Data.List.Induction

/-!
# Numbers and their spellings

The shortest spelling of a number is the one that does not begin with a zero byte.
Such byte strings and numbers are in bijection, and the length of the spelling says
below which power of 256 the number lies.
-/

namespace CallTrace.Bytes

/-- A number that is carried through a byte string counts for more than all of it. -/
theorem foldl_eq (start : Nat) (bytes : Bytes) :
    bytes.foldl (fun total byte => total * 256 + byte.toNat) start =
      start * 256 ^ bytes.length + toNat bytes := by
  unfold toNat
  induction bytes generalizing start with
  | nil => simp
  | cons first rest ih =>
      rw [List.foldl_cons, List.foldl_cons, ih, ih (0 * 256 + first.toNat), List.length_cons,
        Nat.pow_succ']
      simp only [Nat.add_mul, Nat.mul_assoc, Nat.zero_mul, Nat.zero_add, Nat.add_assoc]

theorem toNat_cons (first : UInt8) (rest : Bytes) :
    toNat (first :: rest) = first.toNat * 256 ^ rest.length + toNat rest := by
  change rest.foldl _ (0 * 256 + first.toNat) = _
  rw [foldl_eq, Nat.zero_mul, Nat.zero_add]

theorem toNat_lt (bytes : Bytes) : toNat bytes < 256 ^ bytes.length := by
  induction bytes with
  | nil => exact Nat.zero_lt_one
  | cons first rest ih =>
      have hfirst : first.toNat + 1 ≤ 256 := first.toNat_lt
      calc
        toNat (first :: rest) = first.toNat * 256 ^ rest.length + toNat rest := toNat_cons _ _
        _ < first.toNat * 256 ^ rest.length + 256 ^ rest.length := Nat.add_lt_add_left ih _
        _ = (first.toNat + 1) * 256 ^ rest.length := by rw [Nat.succ_mul]
        _ ≤ 256 * 256 ^ rest.length := Nat.mul_le_mul_right _ hfirst
        _ = 256 ^ (first :: rest).length := by rw [List.length_cons, Nat.pow_succ']

/-- A number has few digits exactly if it is small. -/
theorem digitCount_le_iff {n count : Nat} : digitCount n ≤ count ↔ n < 256 ^ count := by
  have hpow : 256 ^ count = 2 ^ (8 * count) := by rw [Nat.pow_mul]
  unfold digitCount
  by_cases hzero : n = 0
  · rw [if_pos hzero, hzero]
    exact iff_of_true (Nat.zero_le count) (Nat.pow_pos (by decide))
  · rw [if_neg hzero, hpow, ← Nat.log2_lt hzero]
    omega

theorem digitCount_pos {n : Nat} (hn : n ≠ 0) : 0 < digitCount n := by
  simp [digitCount, hn]

theorem toNat_ofNatPadded (width n : Nat) : toNat (ofNatPadded width n) = n % 256 ^ width := by
  induction width generalizing n with
  | zero => exact (Nat.mod_one n).symm
  | succ width ih =>
      rw [ofNatPadded, toNat_append_singleton, ih, Nat.pow_succ', Nat.mod_mul,
        UInt8.toNat_ofNat']
      omega

@[simp]
theorem toNat_ofNat (n : Nat) : toNat (ofNat n) = n := by
  have hsmall : n < 256 ^ digitCount n := digitCount_le_iff.mp (Nat.le_refl _)
  rw [ofNat, toNat_ofNatPadded, Nat.mod_eq_of_lt hsmall]

theorem ofNatPadded_toNat (bytes : Bytes) : ofNatPadded bytes.length (toNat bytes) = bytes := by
  induction bytes using List.reverseRecOn with
  | nil => rfl
  | append_singleton bytes byte ih =>
      have hquotient : (toNat bytes * 256 + byte.toNat) / 256 = toNat bytes := by
        have hbyte := byte.toNat_lt
        omega
      have hlast : UInt8.ofNat (toNat bytes * 256 + byte.toNat) = byte := by
        apply UInt8.toNat_inj.mp
        have hbyte := byte.toNat_lt
        rw [UInt8.toNat_ofNat']
        omega
      rw [List.length_append, List.length_singleton, toNat_append_singleton, ofNatPadded,
        hquotient, hlast, ih]

/-- A spelling that begins with another digit than zero is as short as can be. -/
theorem digitCount_toNat {bytes : Bytes} (hhead : bytes.head? ≠ some 0) :
    digitCount (toNat bytes) = bytes.length := by
  apply Nat.le_antisymm
  · exact digitCount_le_iff.mpr (toNat_lt bytes)
  · cases bytes with
    | nil => exact Nat.zero_le _
    | cons first rest =>
        have hfirst : first.toNat ≠ 0 := by
          rintro hzero
          apply hhead
          rw [List.head?_cons, UInt8.toNat_inj.mp (hzero.trans UInt8.toNat_zero.symm)]
        rw [List.length_cons, Nat.succ_le_iff, ← Nat.not_le, digitCount_le_iff, toNat_cons]
        have hle : 256 ^ rest.length ≤ first.toNat * 256 ^ rest.length :=
          Nat.le_mul_of_pos_left _ (Nat.pos_of_ne_zero hfirst)
        omega

/-- The shortest spelling of a number never begins with zero. -/
theorem head?_ofNat (n : Nat) : (ofNat n).head? ≠ some 0 := by
  intro hhead
  obtain ⟨rest, hrest⟩ := List.head?_eq_some_iff.mp hhead
  have hn : n = toNat rest := by
    rw [← toNat_ofNat n, hrest, toNat_cons]
    simp
  have hlength : digitCount n = rest.length + 1 := by
    rw [← length_ofNat, hrest, List.length_cons]
  have hle : digitCount n ≤ rest.length := digitCount_le_iff.mpr (hn ▸ toNat_lt rest)
  omega

/-- Spellings that do not begin with zero and numbers are in bijection. -/
theorem eq_ofNat_iff {bytes : Bytes} {n : Nat} :
    bytes = ofNat n ↔ bytes.head? ≠ some 0 ∧ toNat bytes = n := by
  constructor
  · rintro rfl
    exact ⟨head?_ofNat n, toNat_ofNat n⟩
  · rintro ⟨hhead, rfl⟩
    rw [ofNat, digitCount_toNat hhead, ofNatPadded_toNat]

end CallTrace.Bytes
