import CallTrace.Proofs.Rlp.Header
import CallTrace.Rlp.Compound

/-!
# Encodings that are at most twice as long

An encoding that takes the place of another one may be longer.  That it is at most twice
as long follows from the same of the parts of a compound value: a header for a payload of
up to twice the length takes one more byte at most.
-/

namespace CallTrace.Rlp

theorem Header.size_le_two_mul {length other : Nat} (hlength : length ≤ 2 * other) :
    size length ≤ 2 * size other := by
  have hother := size_pos other
  unfold size at hother ⊢
  by_cases hshort : length < 56
  · rw [if_pos hshort]
    omega
  rw [if_neg hshort]
  by_cases hshortOther : other < 56
  · -- The length is below 112, so it is spelled in one byte.
    have hcount : Bytes.digitCount length ≤ 1 := Bytes.digitCount_le_iff.mpr (by omega)
    rw [if_pos hshortOther]
    omega
  · have hlarge : other < 256 ^ Bytes.digitCount other :=
      Bytes.digitCount_le_iff.mp (Nat.le_refl _)
    have hcount : Bytes.digitCount length ≤ Bytes.digitCount other + 1 := by
      rw [Bytes.digitCount_le_iff, Nat.pow_succ]
      omega
    rw [if_neg hshortOther]
    omega

theorem stringSize_pos (bytes : Bytes) : 0 < stringSize bytes := by
  rw [← length_encodeString]
  exact List.length_pos_iff.mpr (encodeString_ne_nil bytes)

namespace Codec

variable {α β : Type}

/-- Whether the encoding of a value is at most twice as long as that of another value. -/
def AtMostTwice (codec : Codec α) (value other : α) : Prop :=
  codec.size value ≤ 2 * codec.size other

namespace AtMostTwice

variable {codec first item fields : Codec α} {second : Codec β}

theorem refl (codec : Codec α) (value : α) : codec.AtMostTwice value value :=
  Nat.le_mul_of_pos_left _ (by decide)

/-- An empty string is not longer than any string. -/
theorem ofString_nil {spell : α → Bytes} {read : Bytes → Except Error α} {value other : α}
    (hvalue : spell value = []) : (ofString spell read).AtMostTwice value other := by
  have hother := stringSize_pos (spell other)
  have hsize : stringSize [] = 1 := rfl
  simp only [AtMostTwice, ofString, hvalue, hsize]
  omega

theorem map {into : α → β} {back : β → α} {value other : β}
    (hvalue : codec.AtMostTwice (back value) (back other)) :
    (codec.map into back).AtMostTwice value other :=
  hvalue

theorem both {value other : α × β} (hfirst : first.AtMostTwice value.1 other.1)
    (hsecond : second.AtMostTwice value.2 other.2) :
    (first.both second).AtMostTwice value other := by
  simp only [AtMostTwice, Codec.both] at hfirst hsecond ⊢
  omega

/-- A list is at most twice as long as another one if its payload is. -/
theorem wrapped {length other : Nat} (hlength : length ≤ 2 * other) :
    Header.size length + length ≤ 2 * (Header.size other + other) := by
  have hheader := Header.size_le_two_mul hlength
  omega

theorem record {value other : α} (hvalue : fields.AtMostTwice value other) :
    (record fields).AtMostTwice value other :=
  wrapped hvalue

theorem option_none (value? : Option α) : (option item).AtMostTwice none value? :=
  wrapped (Nat.zero_le _)

theorem option_some {value other : α} (hvalue : item.AtMostTwice value other) :
    (option item).AtMostTwice (some value) (some other) :=
  wrapped hvalue

/-- A present value of one byte takes the place of an absent one. -/
theorem option_getD {value? : Option α} {default : α} (hdefault : item.size default = 1) :
    (option item).AtMostTwice (some (value?.getD default)) value? := by
  cases value? with
  | none =>
      have hpresent : optionSize item (some default) = 1 := hdefault
      have habsent : optionSize item none = 0 := rfl
      simp only [AtMostTwice, Codec.option, Option.getD_none, hpresent, habsent]
      decide
  | some value => exact refl _ _

theorem list {replace : α → α} (hreplace : ∀ value, item.AtMostTwice (replace value) value)
    (values : List α) : (list item).AtMostTwice (values.map replace) values := by
  apply wrapped
  induction values with
  | nil => exact Nat.zero_le _
  | cons value values ih =>
      have hvalue := hreplace value
      simp only [AtMostTwice, List.map_cons, itemsSize] at hvalue ⊢
      omega

end AtMostTwice

end Codec

end CallTrace.Rlp
