import CallTrace.Proofs.Bytes.Digits
import CallTrace.Proofs.Except
import CallTrace.Rlp.Compound

/-!
# Reading headers

Reading a header undoes writing it, and accepts nothing else.  The one header that is
not written is that of a single byte below `0x80`, so what stands in front of a payload
depends on the payload itself.

Lengths are spelled in at most eight bytes, which is why payloads stay below `2 ^ 64`
bytes throughout.
-/

namespace CallTrace.Rlp

/-- Whether a byte string begins with a byte that can be its own header. -/
def startsLow (bytes : Bytes) : Bool :=
  bytes.head?.any fun byte => byte.toNat < 0x80

namespace Header

/-- The bytes in front of a payload.  A single low byte has none. -/
def spell (header : Header) (payload : Bytes) : Bytes :=
  if header = ⟨.string, 1⟩ ∧ startsLow payload then [] else header.encode

theorem size_pos (payloadLength : Nat) : 0 < size payloadLength := by
  unfold size
  split <;> omega

theorem spell_list (length : Nat) (payload : Bytes) :
    (Header.mk .list length).spell payload = (Header.mk .list length).encode := by
  simp [spell]

/-- What stands in front of a payload does not depend on what comes behind it. -/
theorem spell_append {header : Header} {payload : Bytes}
    (hlength : payload.length = header.payloadLength) (rest : Bytes) :
    header.spell (payload ++ rest) = header.spell payload := by
  unfold spell
  by_cases hone : header = ⟨.string, 1⟩
  · cases payload with
    | nil => simp [hone] at hlength
    | cons first payload => rfl
  · rw [if_neg (fun hlow => hone hlow.1), if_neg (fun hlow => hone hlow.1)]

/-- A length that is spelled out is read if and only if it needs to be, and is spelled
in as few bytes as it can be. -/
theorem readLength_eq_ok_iff {count length : Nat} {input rest : Bytes} :
    readLength count input = .ok (length, rest) ↔
      56 ≤ length ∧ Bytes.digitCount length = count ∧ input = Bytes.ofNat length ++ rest := by
  constructor
  · intro hread
    simp only [readLength] at hread
    by_cases hcount : input.length < count
    · rw [if_pos hcount] at hread
      cases hread
    rw [if_neg hcount] at hread
    by_cases hhead : (input.take count).head? = some 0
    · rw [if_pos hhead] at hread
      cases hread
    rw [if_neg hhead] at hread
    by_cases hsmall : Bytes.toNat (input.take count) < 56
    · rw [if_pos hsmall] at hread
      cases hread
    · rw [if_neg hsmall] at hread
      cases hread
      have hspelling : input.take count = Bytes.ofNat (Bytes.toNat (input.take count)) :=
        Bytes.eq_ofNat_iff.mpr ⟨hhead, rfl⟩
      have hdigits : Bytes.digitCount (Bytes.toNat (input.take count)) = count := by
        rw [Bytes.digitCount_toNat hhead]
        exact List.length_take_of_le (Nat.not_lt.mp hcount)
      rw [← hspelling, List.take_append_drop]
      exact ⟨Nat.not_lt.mp hsmall, hdigits, rfl⟩
  · rintro ⟨hlarge, rfl, rfl⟩
    have htake : (Bytes.ofNat length ++ rest).take (Bytes.digitCount length) =
        Bytes.ofNat length :=
      List.take_left' (Bytes.length_ofNat length)
    have hdrop : (Bytes.ofNat length ++ rest).drop (Bytes.digitCount length) = rest :=
      List.drop_left' (Bytes.length_ofNat length)
    simp only [readLength, htake, hdrop, Bytes.toNat_ofNat]
    rw [if_neg (by simp), if_neg (Bytes.head?_ofNat length), if_neg (Nat.not_lt.mpr hlarge)]

/-- Up to 55 the length of a payload is added to the first byte. -/
theorem spell_short (first : UInt8) {shape : Shape} {length : Nat} {payload : Bytes}
    (hshort : length < 56) (hfirst : first.toNat = shape.base + length)
    (hlow : ¬ (Header.mk shape length = ⟨.string, 1⟩ ∧ startsLow payload)) :
    (Header.mk shape length).spell payload = [first] := by
  rw [spell, if_neg hlow, encode, if_pos hshort, ← hfirst, UInt8.ofNat_toNat]

/-- From 56 on it is the number of digits of the length that is added. -/
theorem spell_long {shape : Shape} {length : Nat} {first : UInt8} {payload : Bytes}
    (hlong : 56 ≤ length) (hfirst : first.toNat = shape.base + 55 + Bytes.digitCount length) :
    (Header.mk shape length).spell payload = first :: Bytes.ofNat length := by
  have hlow : ¬ (Header.mk shape length = ⟨.string, 1⟩ ∧ startsLow payload) := by
    rintro ⟨hone, -⟩
    cases hone
    omega
  rw [spell, if_neg hlow, encode, if_neg (Nat.not_lt.mpr hlong), ← hfirst, UInt8.ofNat_toNat]

theorem eq_of_readLength {shape : Shape} {count length : Nat} {first : UInt8}
    {rest payload : Bytes} (hread : readLength count rest = .ok (length, payload))
    (hcount : count ≤ 8) (hfirst : first.toNat = shape.base + 55 + count) :
    first :: rest = (Header.mk shape length).spell payload ++ payload ∧ length < 2 ^ 64 := by
  obtain ⟨hlong, rfl, rfl⟩ := readLength_eq_ok_iff.mp hread
  constructor
  · rw [spell_long hlong hfirst]
    rfl
  · exact Bytes.digitCount_le_iff.mp hcount

/-- The bytes read as a header are the ones that stand in front of the payload. -/
theorem eq_of_readFrom {first : UInt8} {rest payload : Bytes} {header : Header}
    (hread : readFrom first rest = .ok (header, payload)) :
    first :: rest = header.spell payload ++ payload ∧ header.payloadLength < 2 ^ 64 := by
  have hfirst := first.toNat_lt
  simp only [readFrom] at hread
  by_cases hlow : first.toNat < 0x80
  · rw [if_pos hlow] at hread
    cases hread
    simp [spell, startsLow, hlow]
  rw [if_neg hlow] at hread
  by_cases hone : first.toNat = 0x81
  · rw [if_pos hone] at hread
    cases rest with
    | nil => cases hread
    | cons next behind =>
        by_cases hnext : next.toNat < 0x80
        · simp only [hnext, if_true] at hread
          cases hread
        · simp only [hnext, if_false] at hread
          cases hread
          constructor
          · rw [spell_short first (by decide) hone (by simp [startsLow, hnext])]
            rfl
          · decide
  rw [if_neg hone] at hread
  by_cases hshort : first.toNat < 0xb8
  · rw [if_pos hshort] at hread
    cases hread
    have hlength : first.toNat - 0x80 ≠ 1 := by omega
    constructor
    · rw [spell_short first (by omega) (by simp only [Shape.base]; omega) (by simp [hlength])]
      rfl
    · exact Nat.lt_of_le_of_lt (Nat.sub_le _ _) (Nat.lt_trans hfirst (by decide))
  rw [if_neg hshort] at hread
  by_cases hstring : first.toNat < 0xc0
  · rw [if_pos hstring] at hread
    obtain ⟨⟨length, behind⟩, hlength, hpair⟩ := bind_eq_ok_iff.mp hread
    cases hpair
    exact eq_of_readLength hlength (by omega) (by simp only [Shape.base]; omega)
  rw [if_neg hstring] at hread
  by_cases hlist : first.toNat < 0xf8
  · rw [if_pos hlist] at hread
    cases hread
    constructor
    · rw [spell_short first (by omega) (by simp only [Shape.base]; omega) (by simp)]
      rfl
    · exact Nat.lt_of_le_of_lt (Nat.sub_le _ _) (Nat.lt_trans hfirst (by decide))
  · rw [if_neg hlist] at hread
    obtain ⟨⟨length, behind⟩, hlength, hpair⟩ := bind_eq_ok_iff.mp hread
    cases hpair
    exact eq_of_readLength hlength (by omega) (by simp only [Shape.base]; omega)

theorem readFrom_short {shape : Shape} {length : Nat} {first : UInt8} {payload : Bytes}
    (hshort : length < 56) (hfirst : first.toNat = shape.base + length)
    (hlow : ¬ (Header.mk shape length = ⟨.string, 1⟩ ∧ startsLow payload))
    (hlength : length ≤ payload.length) :
    readFrom first payload = .ok (⟨shape, length⟩, payload) := by
  cases shape with
  | string =>
      simp only [Shape.base] at hfirst
      simp only [readFrom]
      rw [if_neg (by omega)]
      by_cases hone : length = 1
      · subst hone
        rw [if_pos (by omega)]
        cases payload with
        | nil => cases hlength
        | cons next behind =>
            have hnext : ¬ next.toNat < 0x80 := by simpa [startsLow] using hlow
            simp only
            rw [if_neg hnext]
      · rw [if_neg (by omega), if_pos (by omega), hfirst, Nat.add_sub_cancel_left]
  | list =>
      simp only [Shape.base] at hfirst
      simp only [readFrom]
      rw [if_neg (by omega), if_neg (by omega), if_neg (by omega), if_neg (by omega),
        if_pos (by omega), hfirst, Nat.add_sub_cancel_left]

theorem readFrom_long {shape : Shape} {length : Nat} {first : UInt8} {payload : Bytes}
    (hlong : 56 ≤ length) (hbound : length < 2 ^ 64)
    (hfirst : first.toNat = shape.base + 55 + Bytes.digitCount length) :
    readFrom first (Bytes.ofNat length ++ payload) = .ok (⟨shape, length⟩, payload) := by
  have hpositive : 0 < Bytes.digitCount length := Bytes.digitCount_pos (by omega)
  have hcount : Bytes.digitCount length ≤ 8 := Bytes.digitCount_le_iff.mpr hbound
  have hread : readLength (Bytes.digitCount length) (Bytes.ofNat length ++ payload) =
      .ok (length, payload) :=
    readLength_eq_ok_iff.mpr ⟨hlong, rfl, rfl⟩
  cases shape with
  | string =>
      simp only [Shape.base] at hfirst
      have hdifference : first.toNat - 0xb7 = Bytes.digitCount length := by omega
      simp only [readFrom]
      rw [if_neg (by omega), if_neg (by omega), if_neg (by omega), if_pos (by omega),
        hdifference, hread]
      rfl
  | list =>
      simp only [Shape.base] at hfirst
      have hdifference : first.toNat - 0xf7 = Bytes.digitCount length := by omega
      simp only [readFrom]
      rw [if_neg (by omega), if_neg (by omega), if_neg (by omega), if_neg (by omega),
        if_neg (by omega), hdifference, hread]
      rfl

/-- A payload is read behind what stands in front of it. -/
theorem decode_spell {header : Header} {payload : Bytes}
    (hbound : header.payloadLength < 2 ^ 64)
    (hlength : header.payloadLength ≤ payload.length) :
    decode (header.spell payload ++ payload) = .ok (header, payload) := by
  obtain ⟨shape, length⟩ := header
  simp only at hbound hlength
  have hdecode {first : UInt8} {rest : Bytes}
      (hread : readFrom first rest = .ok (⟨shape, length⟩, payload)) :
      decode (first :: rest) = .ok (⟨shape, length⟩, payload) := by
    simp only [decode]
    rw [hread]
    exact if_neg (Nat.not_lt.mpr hlength)
  have hbase : shape.base ≤ 0xc0 := by cases shape <;> decide
  by_cases hlow : Header.mk shape length = ⟨.string, 1⟩ ∧ startsLow payload
  · rw [spell, if_pos hlow, List.nil_append]
    obtain ⟨hone, hstarts⟩ := hlow
    cases payload with
    | nil => cases hstarts
    | cons first rest =>
        apply hdecode
        have hfirst : first.toNat < 0x80 := by simpa [startsLow] using hstarts
        simp only [readFrom]
        rw [if_pos hfirst, hone]
  · by_cases hshort : length < 56
    · have hfirst : (UInt8.ofNat (shape.base + length)).toNat = shape.base + length := by
        rw [UInt8.toNat_ofNat']
        omega
      rw [spell_short _ hshort hfirst hlow]
      exact hdecode (readFrom_short hshort hfirst hlow hlength)
    · have hlong : 56 ≤ length := Nat.not_lt.mp hshort
      have hcount : Bytes.digitCount length ≤ 8 := Bytes.digitCount_le_iff.mpr hbound
      have hfirst : (UInt8.ofNat (shape.base + 55 + Bytes.digitCount length)).toNat =
          shape.base + 55 + Bytes.digitCount length := by
        rw [UInt8.toNat_ofNat']
        omega
      rw [spell_long hlong hfirst]
      exact hdecode (readFrom_long hlong hbound hfirst)

/-- A header is read if and only if it stands in front of its payload, and all of the
payload is there. -/
theorem decode_eq_ok_iff {input payload : Bytes} {header : Header} :
    decode input = .ok (header, payload) ↔
      input = header.spell payload ++ payload ∧ header.payloadLength < 2 ^ 64 ∧
        header.payloadLength ≤ payload.length := by
  constructor
  · intro hdecode
    cases input with
    | nil => cases hdecode
    | cons first rest =>
        obtain ⟨⟨header, payload⟩, hread, hlength⟩ := bind_eq_ok_iff.mp hdecode
        simp only at hlength
        split at hlength
        · cases hlength
        · next hle =>
          cases hlength
          obtain ⟨hinput, hbound⟩ := eq_of_readFrom hread
          exact ⟨hinput, hbound, Nat.not_lt.mp hle⟩
  · rintro ⟨rfl, hbound, hlength⟩
    exact decode_spell hbound hlength

theorem decodeAs_eq_ok_iff {shape : Shape} {input payload : Bytes} {length : Nat} :
    decodeAs shape input = .ok (length, payload) ↔
      input = (Header.mk shape length).spell payload ++ payload ∧ length < 2 ^ 64 ∧
        length ≤ payload.length := by
  have hiff : decodeAs shape input = .ok (length, payload) ↔
      decode input = .ok (⟨shape, length⟩, payload) := by
    constructor
    · intro hdecode
      obtain ⟨⟨header, behind⟩, hheader, hshape⟩ := bind_eq_ok_iff.mp hdecode
      simp only at hshape
      split at hshape
      · next heq =>
        cases heq
        cases hshape
        exact hheader
      · cases hshape
    · intro hdecode
      exact bind_eq_ok hdecode (if_pos rfl)
  rw [hiff, decode_eq_ok_iff]

end Header

/-- An item is read off the front of an input if and only if it is there. -/
theorem decodePayload_eq_ok_iff {shape : Shape} {input payload rest : Bytes} :
    decodePayload shape input = .ok (payload, rest) ↔
      input = (Header.mk shape payload.length).spell payload ++ payload ++ rest ∧
        payload.length < 2 ^ 64 := by
  constructor
  · intro hdecode
    obtain ⟨⟨length, behind⟩, hheader, hpair⟩ := bind_eq_ok_iff.mp hdecode
    cases hpair
    obtain ⟨rfl, hbound, hlength⟩ := Header.decodeAs_eq_ok_iff.mp hheader
    have htake : (behind.take length).length = length := List.length_take_of_le hlength
    have hspell : (Header.mk shape length).spell (behind.take length ++ behind.drop length) =
        (Header.mk shape length).spell (behind.take length) :=
      Header.spell_append htake _
    rw [List.take_append_drop] at hspell
    rw [htake, hspell, List.append_assoc, List.take_append_drop]
    exact ⟨rfl, hbound⟩
  · rintro ⟨rfl, hbound⟩
    have hlength : payload.length ≤ (payload ++ rest).length := by simp
    have hheader : Header.decodeAs shape
        ((Header.mk shape payload.length).spell payload ++ payload ++ rest) =
          .ok (payload.length, payload ++ rest) := by
      apply Header.decodeAs_eq_ok_iff.mpr
      rw [Header.spell_append rfl, List.append_assoc]
      exact ⟨rfl, hbound, hlength⟩
    apply bind_eq_ok hheader
    simp only [List.take_left', List.drop_left']
    rfl

/-- The encoding of a byte string is its header and then the bytes. -/
theorem encodeString_eq (bytes : Bytes) :
    encodeString bytes = (Header.mk .string bytes.length).spell bytes ++ bytes := by
  match bytes with
  | [] => rfl
  | [byte] =>
      by_cases hlow : byte.toNat < 0x80
      · simp [encodeString, Header.spell, startsLow, hlow]
      · simp [encodeString, Header.spell, startsLow, hlow]
  | first :: second :: rest => simp [encodeString, Header.spell]

theorem encodeString_ne_nil (bytes : Bytes) : encodeString bytes ≠ [] := by
  match bytes with
  | [] => simp [encodeString, Header.encode]
  | [byte] =>
      simp only [encodeString]
      split <;> simp
  | first :: second :: rest => simp [encodeString]

/-- A byte string is read if and only if it is there. -/
theorem decodePayload_string_eq_ok_iff {input payload rest : Bytes} :
    decodePayload .string input = .ok (payload, rest) ↔
      input = encodeString payload ++ rest ∧ payload.length < 2 ^ 64 := by
  rw [decodePayload_eq_ok_iff, encodeString_eq]

/-- The payload of a list is read if and only if the list is there. -/
theorem decodePayload_list_eq_ok_iff {input payload rest : Bytes} :
    decodePayload .list input = .ok (payload, rest) ↔
      input = Codec.wrapList payload.length payload ++ rest ∧ payload.length < 2 ^ 64 := by
  rw [decodePayload_eq_ok_iff, Header.spell_list]
  rfl

end CallTrace.Rlp
