import CallTrace.Proofs.Rlp.Lawful
import Mathlib.Data.List.Nodup

/-!
# Optional values

The reader of an optional value cuts its payload off first and reads the item from that
alone.  So its answer, be it a value or an error, is settled by the payload and is the same
whatever comes behind.

If items are read exactly where they are written, so are optional values.  Absent, present
and, where the item is optional itself, present but absent inside never look alike.
-/

namespace CallTrace.Rlp.Codec

variable {α : Type} {item codec : Codec α}

/-- A codec whose values are read exactly where they are written, as far as inputs stay
below the lengths that a header has room for.  Nothing is asked about longer inputs. -/
structure IsExact (codec : Codec α) : Prop where
  size_eq (value : α) (hlength : (codec.encode value).length < 2 ^ 64) :
    codec.size value = (codec.encode value).length
  encode_ne_nil (value : α) : codec.encode value ≠ []
  decode_eq_ok_iff (value : α) (input rest : Bytes) (hlength : input.length < 2 ^ 64) :
    codec.decode input = .ok (value, rest) ↔ input = codec.encode value ++ rest

theorem Lawful.isExact (hcodec : codec.Lawful) : codec.IsExact where
  size_eq value _ := hcodec.size_eq value
  encode_ne_nil := hcodec.encode_ne_nil
  decode_eq_ok_iff value input rest hlength := by
    constructor
    · exact hcodec.eq_of_decode
    · rintro rfl
      rw [List.length_append] at hlength
      exact hcodec.decode_encode value rest (Nat.lt_of_le_of_lt (Nat.le_add_right _ _) hlength)

/-- The bytes of a value tell which value it is and where it ends. -/
theorem IsExact.append_inj (hcodec : codec.IsExact) {value other : α} {rest behind : Bytes}
    (hlength : (codec.encode value ++ rest).length < 2 ^ 64)
    (heq : codec.encode value ++ rest = codec.encode other ++ behind) :
    value = other ∧ rest = behind := by
  have hvalue := (hcodec.decode_eq_ok_iff value _ rest hlength).mpr rfl
  have hother := (hcodec.decode_eq_ok_iff other _ behind hlength).mpr heq
  rw [hvalue] at hother
  cases hother
  exact ⟨rfl, rfl⟩

/-! ## The payload -/

/-- What is written as the payload of an optional value. -/
def writeOption (item : Codec α) (value? : Option α) : Bytes :=
  value?.elim [] item.encode

/-- What the payload of an optional value is read as. -/
def readOption (item : Codec α) (payload : Bytes) : Except Error (Option α) :=
  if payload.isEmpty then
    .ok none
  else do
    let (value, surplus) ← item.decode payload
    if surplus.isEmpty then
      .ok (some value)
    else
      .error (.lengthMismatch (payload.length - surplus.length) payload.length)

theorem readOption_of_ne_nil {payload : Bytes} (hpayload : payload ≠ []) :
    readOption item payload = (do
      let (value, surplus) ← item.decode payload
      if surplus.isEmpty then
        .ok (some value)
      else
        .error (.lengthMismatch (payload.length - surplus.length) payload.length)) :=
  if_neg (by simpa using hpayload)

/-- An item that leaves bytes of its payload over is refused. -/
theorem readOption_of_surplus {payload surplus : Bytes} {value : α} (hpayload : payload ≠ [])
    (hvalue : item.decode payload = .ok (value, surplus)) (hsurplus : surplus ≠ []) :
    readOption item payload =
      .error (.lengthMismatch (payload.length - surplus.length) payload.length) := by
  rw [readOption_of_ne_nil hpayload, bind_eq_of_ok hvalue]
  exact if_neg (by simpa using hsurplus)

/-- Only an empty payload is an absent value. -/
theorem readOption_eq_none_iff {payload : Bytes} :
    readOption item payload = .ok none ↔ payload = [] := by
  constructor
  · intro hread
    cases payload with
    | nil => rfl
    | cons first rest =>
        rw [readOption_of_ne_nil (List.cons_ne_nil first rest)] at hread
        obtain ⟨⟨value, surplus⟩, -, hend⟩ := bind_eq_ok_iff.mp hread
        simp only at hend
        split at hend
        · cases hend
        · cases hend
  · rintro rfl
    rfl

/-- A value is present if its item takes all of a payload that is not empty. -/
theorem readOption_eq_some_iff {payload : Bytes} {value : α} :
    readOption item payload = .ok (some value) ↔
      payload ≠ [] ∧ item.decode payload = .ok (value, []) := by
  constructor
  · intro hread
    have hpayload : payload ≠ [] := by
      rintro rfl
      cases hread
    rw [readOption_of_ne_nil hpayload] at hread
    obtain ⟨⟨found, surplus⟩, hvalue, hend⟩ := bind_eq_ok_iff.mp hread
    simp only at hend
    split at hend
    · next hempty =>
      cases hend
      rw [List.isEmpty_iff.mp hempty] at hvalue
      exact ⟨hpayload, hvalue⟩
    · cases hend
  · rintro ⟨hpayload, hvalue⟩
    rw [readOption_of_ne_nil hpayload]
    exact bind_eq_ok hvalue rfl

/-- A payload is read as a value if and only if it is what is written for it. -/
theorem IsExact.readOption_eq_ok_iff (hitem : item.IsExact) {payload : Bytes}
    (hlength : payload.length < 2 ^ 64) {value? : Option α} :
    readOption item payload = .ok value? ↔ payload = writeOption item value? := by
  cases value? with
  | none => exact readOption_eq_none_iff
  | some value =>
      rw [readOption_eq_some_iff, hitem.decode_eq_ok_iff value payload [] hlength,
        List.append_nil]
      constructor
      · rintro ⟨-, hpayload⟩
        exact hpayload
      · rintro rfl
        exact ⟨hitem.encode_ne_nil value, rfl⟩

theorem optionSize_eq {value? : Option α}
    (hsize : ∀ value ∈ value?, item.size value = (item.encode value).length) :
    optionSize item value? = (writeOption item value?).length := by
  cases value? with
  | none => rfl
  | some value => exact hsize value rfl

theorem IsExact.optionSize_eq (hitem : item.IsExact) {value? : Option α}
    (hlength : (writeOption item value?).length < 2 ^ 64) :
    optionSize item value? = (writeOption item value?).length := by
  apply Codec.optionSize_eq
  rintro value rfl
  exact hitem.size_eq value hlength

/-! ## Reading behind the header -/

/-- The payload is all that an optional value is read from. -/
theorem option_decode_eq (item : Codec α) (input : Bytes) :
    (option item).decode input =
      decodePayload .list input >>= fun (payload, rest) =>
        (readOption item payload).map fun value? => (value?, rest) := by
  apply congrArg (decodePayload .list input >>= ·)
  funext ⟨payload, rest⟩
  unfold readOption
  by_cases hempty : payload.isEmpty
  · simp only [if_pos hempty]
    rfl
  · simp only [if_neg hempty]
    cases item.decode payload with
    | error error => rfl
    | ok answer =>
        obtain ⟨value, surplus⟩ := answer
        simp only [ok_bind]
        split <;> rfl

theorem option_decode_wrapList (item : Codec α) {payload : Bytes}
    (hlength : payload.length < 2 ^ 64) (rest : Bytes) :
    (option item).decode (wrapList payload.length payload ++ rest) =
      (readOption item payload).map fun value? => (value?, rest) := by
  have hpayload : decodePayload .list (wrapList payload.length payload ++ rest) =
      .ok (payload, rest) :=
    decodePayload_list_eq_ok_iff.mpr ⟨rfl, hlength⟩
  rw [option_decode_eq, bind_eq_of_ok hpayload]

/-- An optional value is read off the front of an input if and only if it is there and its
payload is not too long for a header. -/
theorem IsExact.option_decode_eq_ok_iff (hitem : item.IsExact) {value? : Option α}
    {input rest : Bytes} :
    (option item).decode input = .ok (value?, rest) ↔
      (writeOption item value?).length < 2 ^ 64 ∧
        input = (option item).encode value? ++ rest := by
  constructor
  · intro hdecode
    rw [option_decode_eq] at hdecode
    obtain ⟨⟨payload, behind⟩, hpayload, hvalue⟩ := bind_eq_ok_iff.mp hdecode
    obtain ⟨found, hread, hpair⟩ := map_eq_ok_iff.mp hvalue
    cases hpair
    -- The header bounds the payload, so the item is exact on it however long the input is.
    obtain ⟨rfl, hlength⟩ := decodePayload_list_eq_ok_iff.mp hpayload
    obtain rfl := (hitem.readOption_eq_ok_iff hlength).mp hread
    refine ⟨hlength, ?_⟩
    rw [← hitem.optionSize_eq hlength]
    rfl
  · rintro ⟨hlength, rfl⟩
    have hread := (hitem.readOption_eq_ok_iff hlength).mpr rfl
    have hdecode := option_decode_wrapList item hlength rest
    rw [hread, ← hitem.optionSize_eq hlength] at hdecode
    exact hdecode

/-- Behind the header of a list the whole payload is there, and just it is read. -/
theorem option_decode_of_header (item : Codec α) {input behind : Bytes} {length : Nat}
    (hheader : Header.decodeAs .list input = .ok (length, behind)) :
    ∃ payload rest, payload.length = length ∧ behind = payload ++ rest ∧
      (option item).decode input = (readOption item payload).map fun value? => (value?, rest) := by
  obtain ⟨-, -, hlength⟩ := Header.decodeAs_eq_ok_iff.mp hheader
  have hpayload : decodePayload .list input = .ok (behind.take length, behind.drop length) :=
    bind_eq_ok hheader rfl
  refine ⟨behind.take length, behind.drop length, List.length_take_of_le hlength,
    (List.take_append_drop length behind).symm, ?_⟩
  rw [option_decode_eq, bind_eq_of_ok hpayload]

/-! ## Optional values of exact items -/

theorem length_writeOption_lt (item : Codec α) (value? : Option α) :
    (writeOption item value?).length < ((option item).encode value?).length :=
  length_lt_wrapList _ _

/-- Optional values are read exactly where they are written if their items are. -/
theorem isExact_option (hitem : item.IsExact) : (option item).IsExact where
  size_eq value? hlength := by
    have hpayload := Nat.lt_trans (length_writeOption_lt item value?) hlength
    simp only [option]
    rw [length_wrapList, hitem.optionSize_eq hpayload]
    rfl
  encode_ne_nil value? := wrapList_ne_nil _ _
  decode_eq_ok_iff value? input rest hlength := by
    rw [hitem.option_decode_eq_ok_iff, and_iff_right_iff_imp]
    rintro rfl
    rw [List.length_append] at hlength
    exact Nat.lt_trans (length_writeOption_lt item value?)
      (Nat.lt_of_le_of_lt (Nat.le_add_right _ _) hlength)

/-- An optional value is a list of its own, and nothing but the value is in it. -/
theorem lawful_option (hitem : item.Lawful) : (option item).Lawful where
  size_eq value? := by
    simp only [option]
    rw [length_wrapList, optionSize_eq fun value _ => hitem.size_eq value]
    rfl
  encode_ne_nil value? := wrapList_ne_nil _ _
  decode_encode value? rest hlength := by
    have hpayload := Nat.lt_trans (length_writeOption_lt item value?) hlength
    exact hitem.isExact.option_decode_eq_ok_iff.mpr ⟨hpayload, rfl⟩
  eq_of_decode hdecode := (hitem.isExact.option_decode_eq_ok_iff.mp hdecode).2

/-- A present value takes two bytes at least. -/
theorem one_lt_length_encode_some (hencode : ∀ value, item.encode value ≠ []) (value : α) :
    1 < ((option item).encode (some value)).length :=
  Nat.lt_of_le_of_lt (List.length_pos_iff.mpr (hencode value))
    (length_writeOption_lt item (some value))

/-- An absent value, one that is present but absent inside, and one that is present in both
ways have encodings of different lengths. -/
theorem nodup_encode_option (hencode : ∀ value, item.encode value ≠ []) (value : α) :
    [(option (option item)).encode none, (option (option item)).encode (some none),
      (option (option item)).encode (some (some value))].Nodup := by
  have hpresent := one_lt_length_encode_some hencode value
  have htwice : 2 < ((option (option item)).encode (some (some value))).length :=
    Nat.lt_of_le_of_lt hpresent (length_writeOption_lt (option item) (some (some value)))
  have hnone : ((option (option item)).encode none).length = 1 := rfl
  have hinside : ((option (option item)).encode (some none)).length = 2 := rfl
  apply List.Nodup.of_map List.length
  simpa [hnone, hinside] using ⟨Nat.ne_of_lt (Nat.lt_of_succ_lt htwice), Nat.ne_of_lt htwice⟩

/-- What optional values have from their items. -/
structure LiftsToOption (item : Codec α) : Prop where
  /-- The size of an optional value is the length of its encoding, and it is read off the
  front of an input if and only if its encoding is there. -/
  isExact : (option item).IsExact
  /-- No encoding is that of another value, not even with other bytes behind it. -/
  append_inj {value? other? : Option α} {rest behind : Bytes}
    (hlength : ((option item).encode value? ++ rest).length < 2 ^ 64)
    (heq : (option item).encode value? ++ rest = (option item).encode other? ++ behind) :
    value? = other? ∧ rest = behind
  /-- An absent value looks like no present one, whatever that is. -/
  absent_ne_present (value : α) : (option item).encode none ≠ (option item).encode (some value)
  /-- Absent, present but absent inside, and present in both ways are told apart. -/
  nested_absence (value : α) :
    [(option (option item)).encode none, (option (option item)).encode (some none),
      (option (option item)).encode (some (some value))].Nodup
  /-- The answer to a payload, be it a value or an error, is the same whatever follows. -/
  payload_decides (payload : Bytes) (hlength : payload.length < 2 ^ 64) :
    ∃ answer : Except Error (Option α), ∀ rest,
      (option item).decode ((Header.mk .list payload.length).encode ++ payload ++ rest) =
        answer.map fun value? => (value?, rest)
  /-- Bytes that the item leaves over are an error, which counts those that it took. -/
  surplus_refused {payload surplus : Bytes} {value : α} (rest : Bytes)
    (hlength : payload.length < 2 ^ 64) (hvalue : item.decode payload = .ok (value, surplus))
    (hsurplus : surplus ≠ []) :
    surplus.length < payload.length ∧
      (option item).decode ((Header.mk .list payload.length).encode ++ payload ++ rest) =
        .error (.lengthMismatch (payload.length - surplus.length) payload.length)
  /-- Where the header of a list is read, as many bytes as it says are there, and exactly
  they are read. -/
  payload_in_bounds {input behind : Bytes} {length : Nat}
    (hheader : Header.decodeAs .list input = .ok (length, behind)) :
    ∃ payload rest, payload.length = length ∧ behind = payload ++ rest ∧
      (option item).decode input = (readOption item payload).map fun value? => (value?, rest)

theorem IsExact.liftsToOption (hitem : item.IsExact) : item.LiftsToOption where
  isExact := isExact_option hitem
  append_inj := (isExact_option hitem).append_inj
  absent_ne_present value heq := by
    have hpresent := one_lt_length_encode_some hitem.encode_ne_nil value
    rw [← heq] at hpresent
    exact absurd hpresent (Nat.lt_irrefl 1)
  nested_absence := nodup_encode_option hitem.encode_ne_nil
  payload_decides payload hlength :=
    ⟨readOption item payload, option_decode_wrapList item hlength⟩
  surplus_refused {payload surplus value} rest hlength hvalue hsurplus := by
    have hpayload := (hitem.decode_eq_ok_iff value payload surplus hlength).mp hvalue
    have hshorter : surplus.length < payload.length := by
      rw [hpayload, List.length_append]
      exact Nat.lt_add_of_pos_left (List.length_pos_iff.mpr (hitem.encode_ne_nil value))
    have hpresent : payload ≠ [] := List.ne_nil_of_length_pos (Nat.zero_lt_of_lt hshorter)
    have hread := readOption_of_surplus hpresent hvalue hsurplus
    refine ⟨hshorter, (option_decode_wrapList item hlength rest).trans ?_⟩
    rw [hread]
    rfl
  payload_in_bounds := option_decode_of_header item

/-- Optional values are read exactly where they are written, and from nothing but their own
payload, if their items are read exactly where they are written.  Records and lists of
lawful parts are such items, and so are optional values again. -/
theorem option_exact_and_local (item : Codec α) :
    (item.IsExact → item.LiftsToOption ∧ (option item).LiftsToOption) ∧
      (item.Lawful → (record item).LiftsToOption ∧ (list item).LiftsToOption) := by
  constructor
  · intro hitem
    exact ⟨hitem.liftsToOption, (isExact_option hitem).liftsToOption⟩
  · intro hitem
    exact ⟨(lawful_record hitem).isExact.liftsToOption,
      (lawful_list hitem).isExact.liftsToOption⟩

/-- A record whose last field is missing from its payload takes it from the bytes behind,
and has the wrong length then.  As an optional value it is too short, whatever these bytes
are.  An absent value that leaves bytes of its payload over has the wrong length. -/
theorem option_exact_and_local_of_short_record :
    let fields : Codec (UInt64 × Bytes) := uint64.both bytes
    fields.Lawful ∧ (record fields).IsExact ∧
      (record fields).decode ([0xc1, 5] ++ [0x80]) = .error (.lengthMismatch 2 1) ∧
      (option (record fields)).decode ([0xc2, 0xc1, 5] ++ [0x80]) = .error .inputTooShort ∧
      (option (option (record fields))).decode ([0xc3, 0xc0, 1, 2] ++ [0x80]) =
        .error (.lengthMismatch 1 3) := by
  intro fields
  have hfields : fields.Lawful := lawful_both lawful_uint64 lawful_bytes
  have hrecord : (record fields).IsExact := (lawful_record hfields).isExact
  have hlifts := ((option_exact_and_local fields).2 hfields).1
  have hnested := ((option_exact_and_local (record fields)).1 hrecord).2
  refine ⟨hfields, hrecord, by decide, ?_, ?_⟩
  · obtain ⟨answer, hanswer⟩ := hlifts.payload_decides [0xc1, 5] (by decide)
    have halone : answer.map (fun value? => (value?, [])) = .error .inputTooShort :=
      (hanswer []).symm.trans (by decide)
    exact (hanswer [0x80]).trans (map_eq_error_iff.mpr (map_eq_error_iff.mp halone))
  · have hvalue : (option (record fields)).decode [0xc0, 1, 2] = .ok (none, [1, 2]) := by
      decide
    exact (hnested.surplus_refused [0x80] (by decide) hvalue (by decide)).2

/-- Zero is not absence. -/
example :
    (option uint64).encode none = [0xc0] ∧ (option uint64).encode (some 0) = [0xc1, 0x80] ∧
      (option (option uint64)).encode (some none) = [0xc1, 0xc0] := by
  decide

end CallTrace.Rlp.Codec
