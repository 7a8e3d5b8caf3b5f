import CallTrace.Proofs.Rlp.Header

/-!
# Lawful codecs

A codec is lawful if it reads a value exactly where the value is written.  Codecs of
single values are lawful if their spellings are; those of compound values are lawful if
the codecs of their parts are.

Writing is total, but a header has room for lengths below `2 ^ 64` only, so reading is
the inverse of writing as far as encodings stay below that.
-/

namespace CallTrace.Rlp.Codec

variable {α β : Type}

/-- Reading undoes writing, whatever comes behind, and accepts nothing else. -/
structure Lawful (codec : Codec α) : Prop where
  size_eq (value : α) : codec.size value = (codec.encode value).length
  encode_ne_nil (value : α) : codec.encode value ≠ []
  decode_encode (value : α) (rest : Bytes) (hlength : (codec.encode value).length < 2 ^ 64) :
    codec.decode (codec.encode value ++ rest) = .ok (value, rest)
  eq_of_decode {input rest : Bytes} {value : α} (hdecode : codec.decode input = .ok (value, rest)) :
    input = codec.encode value ++ rest

section Single

theorem ofString_decode_eq_ok_iff {spell : α → Bytes} {read : Bytes → Except Error α}
    {input rest : Bytes} {value : α} :
    (ofString spell read).decode input = .ok (value, rest) ↔
      ∃ payload, input = encodeString payload ++ rest ∧ payload.length < 2 ^ 64 ∧
        read payload = .ok value := by
  constructor
  · intro hdecode
    obtain ⟨⟨payload, behind⟩, hpayload, hvalue⟩ := bind_eq_ok_iff.mp hdecode
    obtain ⟨_, hread, hpair⟩ := bind_eq_ok_iff.mp hvalue
    cases hpair
    obtain ⟨hinput, hlength⟩ := decodePayload_string_eq_ok_iff.mp hpayload
    exact ⟨payload, hinput, hlength, hread⟩
  · rintro ⟨payload, hinput, hlength, hread⟩
    have hpayload : decodePayload .string input = .ok (payload, rest) :=
      decodePayload_string_eq_ok_iff.mpr ⟨hinput, hlength⟩
    exact bind_eq_ok hpayload (bind_eq_ok hread rfl)

theorem map_decode_eq_ok_iff {codec : Codec α} {into : α → β} {back : β → α}
    {input rest : Bytes} {value : β} :
    (codec.map into back).decode input = .ok (value, rest) ↔
      ∃ source, codec.decode input = .ok (source, rest) ∧ into source = value := by
  constructor
  · intro hdecode
    obtain ⟨⟨source, behind⟩, hsource, hpair⟩ := bind_eq_ok_iff.mp hdecode
    cases hpair
    exact ⟨source, hsource, rfl⟩
  · rintro ⟨source, hsource, rfl⟩
    exact bind_eq_ok hsource rfl

theorem length_le_encodeString (bytes : Bytes) : bytes.length ≤ (encodeString bytes).length := by
  simp [encodeString_eq]

/-- A codec of spellings is lawful if each value has one spelling, which is read as it. -/
theorem lawful_ofString {spell : α → Bytes} {read : Bytes → Except Error α}
    (hread : ∀ payload value, read payload = .ok value ↔ payload = spell value) :
    (ofString spell read).Lawful where
  size_eq value := (length_encodeString (spell value)).symm
  encode_ne_nil value := encodeString_ne_nil (spell value)
  decode_encode value rest hlength := by
    have hspelling : (spell value).length < 2 ^ 64 :=
      Nat.lt_of_le_of_lt (length_le_encodeString _) hlength
    apply ofString_decode_eq_ok_iff.mpr
    exact ⟨spell value, rfl, hspelling, (hread _ _).mpr rfl⟩
  eq_of_decode hdecode := by
    obtain ⟨payload, hinput, -, hvalue⟩ := ofString_decode_eq_ok_iff.mp hdecode
    rw [hinput, (hread _ _).mp hvalue]
    rfl

theorem lawful_map {codec : Codec α} (hcodec : codec.Lawful) {into : α → β} {back : β → α}
    (hinto : ∀ value, into (back value) = value) (hback : ∀ source, back (into source) = source) :
    (codec.map into back).Lawful where
  size_eq value := hcodec.size_eq (back value)
  encode_ne_nil value := hcodec.encode_ne_nil (back value)
  decode_encode value rest hlength := by
    apply map_decode_eq_ok_iff.mpr
    exact ⟨back value, hcodec.decode_encode _ _ hlength, hinto value⟩
  eq_of_decode hdecode := by
    obtain ⟨source, hsource, rfl⟩ := map_decode_eq_ok_iff.mp hdecode
    rw [hcodec.eq_of_decode hsource]
    exact congrArg (codec.encode · ++ _) (hback source).symm

theorem lawful_bytes : bytes.Lawful :=
  lawful_ofString fun payload value => by simp

theorem lawful_fixedBytes (width : Nat) : (fixedBytes width).Lawful := by
  apply lawful_ofString
  intro payload value
  rw [← FixedBytes.ofBytes?_eq_some_iff]
  cases FixedBytes.ofBytes? width payload with
  | none => simp
  | some fixed => simp

/-- A number is read if it is small enough for its width. -/
theorem natural_decode_eq_ok_iff {width n : Nat} {input rest : Bytes} :
    (natural width).decode input = .ok (n, rest) ↔
      input = encodeString (Bytes.ofNat n) ++ rest ∧ Bytes.digitCount n < 2 ^ 64 ∧
        n < 256 ^ width := by
  unfold natural
  rw [ofString_decode_eq_ok_iff]
  constructor
  · rintro ⟨payload, rfl, hlength, hread⟩
    by_cases hlong : width < payload.length
    · rw [if_pos hlong] at hread
      cases hread
    rw [if_neg hlong] at hread
    by_cases hhead : payload.head? = some 0
    · rw [if_pos hhead] at hread
      cases hread
    · rw [if_neg hhead] at hread
      cases hread
      have hpayload : payload = Bytes.ofNat (Bytes.toNat payload) :=
        Bytes.eq_ofNat_iff.mpr ⟨hhead, rfl⟩
      have hcount : Bytes.digitCount (Bytes.toNat payload) = payload.length :=
        Bytes.digitCount_toNat hhead
      have hsmall : Bytes.toNat payload < 256 ^ width := by
        rw [← Bytes.digitCount_le_iff, hcount]
        exact Nat.not_lt.mp hlong
      rw [← hpayload, hcount]
      exact ⟨rfl, hlength, hsmall⟩
  · rintro ⟨rfl, hcount, hn⟩
    have hwidth : ¬ width < (Bytes.ofNat n).length := by
      rw [Bytes.length_ofNat]
      exact Nat.not_lt.mpr (Bytes.digitCount_le_iff.mpr hn)
    rw [← Bytes.length_ofNat] at hcount
    refine ⟨Bytes.ofNat n, rfl, hcount, ?_⟩
    rw [if_neg hwidth, if_neg (Bytes.head?_ofNat n), Bytes.toNat_ofNat]

/-- Machine numbers are lawful if they are all the numbers of their width. -/
theorem lawful_natural_map {width : Nat} {into : Nat → β} {back : β → Nat}
    (hinto : ∀ value, into (back value) = value)
    (hback : ∀ n, n < 256 ^ width → back (into n) = n)
    (hbound : ∀ value, back value < 256 ^ width) (hwidth : width < 2 ^ 64) :
    ((natural width).map into back).Lawful where
  size_eq value := (length_encodeString (Bytes.ofNat (back value))).symm
  encode_ne_nil value := encodeString_ne_nil (Bytes.ofNat (back value))
  decode_encode value rest _ := by
    have hcount : Bytes.digitCount (back value) < 2 ^ 64 :=
      Nat.lt_of_le_of_lt (Bytes.digitCount_le_iff.mpr (hbound value)) hwidth
    apply map_decode_eq_ok_iff.mpr
    exact ⟨back value, natural_decode_eq_ok_iff.mpr ⟨rfl, hcount, hbound value⟩, hinto value⟩
  eq_of_decode hdecode := by
    obtain ⟨n, hn, rfl⟩ := map_decode_eq_ok_iff.mp hdecode
    obtain ⟨rfl, -, hsmall⟩ := natural_decode_eq_ok_iff.mp hn
    exact congrArg (fun number => encodeString (Bytes.ofNat number) ++ _) (hback n hsmall).symm

theorem lawful_uint8 : uint8.Lawful :=
  lawful_natural_map (fun _ => UInt8.ofNat_toNat) (fun _ hn => UInt8.toNat_ofNat_of_lt' hn)
    UInt8.toNat_lt (by decide)

theorem lawful_uint32 : uint32.Lawful :=
  lawful_natural_map (fun _ => UInt32.ofNat_toNat) (fun _ hn => UInt32.toNat_ofNat_of_lt' hn)
    UInt32.toNat_lt (by decide)

theorem lawful_uint64 : uint64.Lawful :=
  lawful_natural_map (fun _ => UInt64.ofNat_toNat) (fun _ hn => UInt64.toNat_ofNat_of_lt' hn)
    UInt64.toNat_lt (by decide)

theorem lawful_word : word.Lawful := by
  apply lawful_ofString
  intro payload value
  have hvalue : value.toNat < 256 ^ 32 := value.isLt
  rw [Bytes.eq_ofNat_iff]
  by_cases hhead : payload.head? = some 0
  · simp [hhead]
  have hcount := Bytes.digitCount_toNat hhead
  rw [if_neg hhead]
  by_cases hlong : 32 < payload.length
  · have hlarge : ¬ Bytes.toNat payload < 256 ^ 32 := by
      rw [← Bytes.digitCount_le_iff, hcount]
      exact Nat.not_le.mpr hlong
    rw [if_pos hlong]
    constructor
    · intro hread
      cases hread
    · rintro ⟨-, heq⟩
      exact absurd (heq ▸ hvalue) hlarge
  · have hsmall : Bytes.toNat payload < 256 ^ 32 := by
      rw [← Bytes.digitCount_le_iff, hcount]
      exact Nat.not_lt.mp hlong
    rw [if_neg hlong]
    constructor
    · intro hread
      cases hread
      exact ⟨hhead, (Nat.mod_eq_of_lt hsmall).symm⟩
    · rintro ⟨-, heq⟩
      rw [heq, BitVec.ofNat_toNat, BitVec.setWidth_eq]

/-- Text is read if its bytes are valid UTF-8. -/
theorem lawful_text : text.Lawful := by
  apply lawful_ofString
  intro payload value
  unfold String.fromUTF8?
  constructor
  · intro hread
    split at hread
    · next text htext =>
      cases hread
      split at htext
      · cases htext
        rfl
      · cases htext
    · cases hread
  · rintro rfl
    have hvalid : ByteArray.IsValidUTF8 ⟨value.toUTF8.data.toList.toArray⟩ := value.isValidUTF8
    rw [dif_pos hvalid]
    rfl

end Single

section Compound

variable {first : Codec α} {second : Codec β} {item fields : Codec α}

theorem lawful_both (hfirst : first.Lawful) (hsecond : second.Lawful) :
    (first.both second).Lawful where
  size_eq values := by
    simp only [both, List.length_append]
    rw [hfirst.size_eq, hsecond.size_eq]
  encode_ne_nil values hnil := hfirst.encode_ne_nil values.1 (List.append_eq_nil_iff.mp hnil).1
  decode_encode values rest hlength := by
    simp only [both, List.length_append] at hlength
    have hfirstValue := hfirst.decode_encode values.1 (second.encode values.2 ++ rest) (by omega)
    have hsecondValue := hsecond.decode_encode values.2 rest (by omega)
    rw [← List.append_assoc] at hfirstValue
    exact bind_eq_ok hfirstValue (bind_eq_ok hsecondValue rfl)
  eq_of_decode hdecode := by
    obtain ⟨⟨firstValue, middle⟩, hfirstValue, hbehind⟩ := bind_eq_ok_iff.mp hdecode
    obtain ⟨⟨secondValue, behind⟩, hsecondValue, hpair⟩ := bind_eq_ok_iff.mp hbehind
    cases hpair
    rw [hfirst.eq_of_decode hfirstValue, hsecond.eq_of_decode hsecondValue, ← List.append_assoc]
    rfl

theorem length_wrapList (size : Nat) (payload : Bytes) :
    (wrapList size payload).length = Header.size size + payload.length := by
  simp [wrapList]

/-- A list takes more bytes than its payload. -/
theorem length_lt_wrapList (size : Nat) (payload : Bytes) :
    payload.length < (wrapList size payload).length := by
  rw [length_wrapList]
  exact Nat.lt_add_of_pos_left (Header.size_pos size)

theorem wrapList_ne_nil (size : Nat) (payload : Bytes) : wrapList size payload ≠ [] :=
  List.ne_nil_of_length_pos (Nat.zero_lt_of_lt (length_lt_wrapList size payload))

/-- The fields of a record fill its payload, although their reader sees all that comes
behind. -/
theorem lawful_record (hfields : fields.Lawful) : (record fields).Lawful where
  size_eq value := by
    simp only [record]
    rw [length_wrapList, ← hfields.size_eq]
  encode_ne_nil value := wrapList_ne_nil _ _
  decode_encode value rest hlength := by
    simp only [record, length_wrapList, ← hfields.size_eq] at hlength
    have htotal : (fields.encode value ++ rest).length = fields.size value + rest.length := by
      rw [List.length_append, hfields.size_eq]
    have hheader : Header.decodeAs .list ((record fields).encode value ++ rest) =
        .ok (fields.size value, fields.encode value ++ rest) := by
      apply Header.decodeAs_eq_ok_iff.mpr
      rw [htotal, Header.spell_list, ← List.append_assoc]
      exact ⟨rfl, by omega, Nat.le_add_right _ _⟩
    have hvalue := hfields.decode_encode value rest (by rw [← hfields.size_eq]; omega)
    have htaken : (fields.encode value ++ rest).length - rest.length = fields.size value := by
      rw [htotal, Nat.add_sub_cancel]
    exact bind_eq_ok hheader (bind_eq_ok hvalue (if_pos htaken))
  eq_of_decode {input rest value} hdecode := by
    obtain ⟨⟨length, payload⟩, hheader, hbehind⟩ := bind_eq_ok_iff.mp hdecode
    obtain ⟨⟨found, behind⟩, hvalue, htaken⟩ := bind_eq_ok_iff.mp hbehind
    simp only at htaken
    split at htaken
    · next hlength =>
      cases htaken
      obtain ⟨rfl, -, -⟩ := Header.decodeAs_eq_ok_iff.mp hheader
      have hpayload := hfields.eq_of_decode hvalue
      have hsize : length = fields.size value := by
        rw [← hlength, hpayload, hfields.size_eq, List.length_append]
        omega
      rw [Header.spell_list, hpayload, hsize, ← List.append_assoc]
      rfl
    · cases htaken

/-- The header of a record that is read declares all the bytes that are taken behind it,
and no others. -/
theorem record_fills_payload (hfields : fields.Lawful) {input rest : Bytes} {value : α}
    (hdecode : (record fields).decode input = .ok (value, rest)) :
    ∃ payload, Header.decodeAs .list input = .ok (payload.length, payload ++ rest) := by
  obtain ⟨⟨length, payload⟩, hheader, hbehind⟩ := bind_eq_ok_iff.mp hdecode
  obtain ⟨⟨found, behind⟩, hvalue, htaken⟩ := bind_eq_ok_iff.mp hbehind
  simp only at htaken
  split at htaken
  · next hlength =>
    cases htaken
    have hpayload := hfields.eq_of_decode hvalue
    have hsize : length = (fields.encode value).length := by
      rw [← hlength, hpayload, List.length_append, Nat.add_sub_cancel]
    rw [hsize, hpayload] at hheader
    exact ⟨fields.encode value, hheader⟩
  · cases htaken

theorem decodeItems_nil (fuel : Nat) : decodeItems item fuel [] = .ok [] := by
  cases fuel <;> rfl

theorem decodeItems_succ {input : Bytes} (hinput : input ≠ []) (fuel : Nat) :
    decodeItems item (fuel + 1) input = (do
      let (value, rest) ← item.decode input
      let values ← decodeItems item fuel rest
      return value :: values) := by
  cases input with
  | nil => exact absurd rfl hinput
  | cons first rest => rfl

/-- Items written one after the other are read one after the other. -/
theorem decodeItems_flatMap (hitem : item.Lawful) {values : List α} {fuel : Nat}
    (hlength : (values.flatMap item.encode).length < 2 ^ 64)
    (hfuel : (values.flatMap item.encode).length ≤ fuel) :
    decodeItems item fuel (values.flatMap item.encode) = .ok values := by
  induction values generalizing fuel with
  | nil => exact decodeItems_nil fuel
  | cons value values ih =>
      rw [List.flatMap_cons, List.length_append] at hlength hfuel
      have hvalue : 0 < (item.encode value).length :=
        List.length_pos_iff.mpr (hitem.encode_ne_nil value)
      obtain ⟨fuel, rfl⟩ : ∃ less, fuel = less + 1 := ⟨fuel - 1, by omega⟩
      have hinput : item.encode value ++ values.flatMap item.encode ≠ [] := fun hnil =>
        hitem.encode_ne_nil value (List.append_eq_nil_iff.mp hnil).1
      rw [List.flatMap_cons, decodeItems_succ hinput]
      exact bind_eq_ok (hitem.decode_encode value _ (by omega))
        (bind_eq_ok (ih (by omega) (by omega)) rfl)

/-- Items are read where they are written. -/
theorem eq_of_decodeItems (hitem : item.Lawful) {fuel : Nat} {input : Bytes} {values : List α}
    (hdecode : decodeItems item fuel input = .ok values) :
    input = values.flatMap item.encode := by
  induction fuel generalizing input values with
  | zero =>
      cases input with
      | nil =>
          cases hdecode
          rfl
      | cons first rest => cases hdecode
  | succ fuel ih =>
      by_cases hinput : input = []
      · subst hinput
        rw [decodeItems_nil] at hdecode
        cases hdecode
        rfl
      · rw [decodeItems_succ hinput] at hdecode
        obtain ⟨⟨value, rest⟩, hvalue, hbehind⟩ := bind_eq_ok_iff.mp hdecode
        obtain ⟨others, hothers, hpair⟩ := bind_eq_ok_iff.mp hbehind
        cases hpair
        rw [List.flatMap_cons, ← ih hothers]
        exact hitem.eq_of_decode hvalue

theorem itemsSize_eq (hitem : item.Lawful) (values : List α) :
    itemsSize item values = (values.flatMap item.encode).length := by
  induction values with
  | nil => rfl
  | cons value values ih =>
      rw [itemsSize, hitem.size_eq, ih, List.flatMap_cons, List.length_append]

theorem lawful_list (hitem : item.Lawful) : (list item).Lawful where
  size_eq values := by
    simp only [list]
    rw [length_wrapList, itemsSize_eq hitem]
  encode_ne_nil values := wrapList_ne_nil _ _
  decode_encode values rest hlength := by
    simp only [list, length_wrapList] at hlength
    have hpayload : decodePayload .list ((list item).encode values ++ rest) =
        .ok (values.flatMap item.encode, rest) := by
      apply decodePayload_list_eq_ok_iff.mpr
      simp only [list]
      rw [itemsSize_eq hitem]
      exact ⟨rfl, by omega⟩
    have hbound : (values.flatMap item.encode).length < 2 ^ 64 := by omega
    have hitems := decodeItems_flatMap hitem hbound (Nat.le_refl _)
    exact bind_eq_ok hpayload (bind_eq_ok hitems rfl)
  eq_of_decode hdecode := by
    obtain ⟨⟨payload, behind⟩, hpayload, hvalues⟩ := bind_eq_ok_iff.mp hdecode
    obtain ⟨found, hitems, hpair⟩ := bind_eq_ok_iff.mp hvalues
    cases hpair
    obtain ⟨rfl, -⟩ := decodePayload_list_eq_ok_iff.mp hpayload
    rw [eq_of_decodeItems hitem hitems]
    simp only [list]
    rw [itemsSize_eq hitem]

end Compound

end CallTrace.Rlp.Codec
