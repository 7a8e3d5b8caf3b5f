import CallTrace.Proofs.Rlp.Delimited

/-!
# Truncated lists

The header of a list says how long its payload is, and nothing is read before all of
the payload is there.  So a list that is cut off anywhere, be it inside its header, is
found to be too short.
-/

namespace CallTrace.Rlp

namespace Header

/-- A length that is spelled out but cut off is too short. -/
theorem readLength_of_short {count : Nat} {input : Bytes} (hshort : input.length < count) :
    readLength count input = .error .inputTooShort :=
  if_pos hshort

/-- The first byte of a list is never the header of a string. -/
theorem readFrom_list {first : UInt8} (hfirst : 0xc0 ≤ first.toNat) (rest : Bytes) :
    readFrom first rest =
      if first.toNat < 0xf8 then .ok (⟨.list, first.toNat - 0xc0⟩, rest)
      else do
        let (payloadLength, payload) ← readLength (first.toNat - 0xf7) rest
        return (⟨.list, payloadLength⟩, payload) := by
  simp only [readFrom]
  rw [if_neg (by omega), if_neg (by omega), if_neg (by omega), if_neg (by omega)]

/-- A payload that is shorter than its header says is refused. -/
theorem decode_of_short_payload {first : UInt8} {rest payload : Bytes} {header : Header}
    (hread : readFrom first rest = .ok (header, payload))
    (hshort : payload.length < header.payloadLength) :
    decode (first :: rest) = .error .inputTooShort :=
  (bind_eq_of_ok hread).trans (if_pos hshort)

/-- Behind a header of one byte only the payload can be cut off. -/
theorem decode_truncated_short {first : UInt8} {rest : Bytes} {length : Nat}
    (hsize : length < 56) (hfirst : first.toNat = Shape.list.base + length)
    (hshort : rest.length < length) : decode (first :: rest) = .error .inputTooShort := by
  simp only [Shape.base] at hfirst
  have hread : readFrom first rest = .ok (⟨.list, length⟩, rest) := by
    rw [readFrom_list (by omega), if_pos (by omega), hfirst, Nat.add_sub_cancel_left]
  exact decode_of_short_payload hread hshort

/-- Behind the first byte of a longer header, either the spelling of the length is cut off
or the payload is. -/
theorem decode_truncated_long {first : UInt8} {rest payload : Bytes}
    (hlong : 56 ≤ payload.length) (hbound : payload.length < 2 ^ 64)
    (hfirst : first.toNat = Shape.list.base + 55 + Bytes.digitCount payload.length)
    (hstarts : rest <+: Bytes.ofNat payload.length ++ payload)
    (hshort : rest.length < (Bytes.ofNat payload.length ++ payload).length) :
    decode (first :: rest) = .error .inputTooShort := by
  have hcode : first.toNat = 0xf7 + Bytes.digitCount payload.length := hfirst
  by_cases hspelled : rest.length < Bytes.digitCount payload.length
  · have hread : readFrom first rest = .error .inputTooShort := by
      rw [readFrom_list (by omega), if_neg (by omega)]
      exact bind_eq_error (readLength_of_short (by omega))
    exact bind_eq_error hread
  · have hspelling : Bytes.ofNat payload.length <+: rest := by
      apply List.prefix_of_prefix_length_le (List.prefix_append _ payload) hstarts
      rw [Bytes.length_ofNat]
      exact Nat.not_lt.mp hspelled
    obtain ⟨cut, rfl⟩ := hspelling
    apply decode_of_short_payload (readFrom_long hlong hbound hfirst)
    simpa using hshort

/-- A list that is cut off is refused while its header is read. -/
theorem decode_truncated {input payload : Bytes} (hbound : payload.length < 2 ^ 64)
    (hstarts : input <+: (Header.mk .list payload.length).encode ++ payload)
    (hshort : input.length < ((Header.mk .list payload.length).encode ++ payload).length) :
    decode input = .error .inputTooShort := by
  cases input with
  | nil => rfl
  | cons first rest =>
      by_cases hsize : payload.length < 56
      · have hencode : (Header.mk .list payload.length).encode =
            [UInt8.ofNat (Shape.list.base + payload.length)] := if_pos hsize
        rw [hencode, List.singleton_append] at hstarts hshort
        obtain ⟨rfl, -⟩ := List.cons_prefix_cons.mp hstarts
        apply decode_truncated_short hsize _ (by simpa using hshort)
        rw [UInt8.toNat_ofNat', Shape.base]
        omega
      · have hencode : (Header.mk .list payload.length).encode =
            UInt8.ofNat (Shape.list.base + 55 + Bytes.digitCount payload.length) ::
              Bytes.ofNat payload.length := if_neg hsize
        have hcount : Bytes.digitCount payload.length ≤ 8 := Bytes.digitCount_le_iff.mpr hbound
        rw [hencode, List.cons_append] at hstarts hshort
        obtain ⟨rfl, hrest⟩ := List.cons_prefix_cons.mp hstarts
        apply decode_truncated_long (Nat.not_lt.mp hsize) hbound _ hrest (by simpa using hshort)
        rw [UInt8.toNat_ofNat', Shape.base]
        omega

end Header

namespace Codec

variable {α : Type}

theorem record_decode_truncated {fields : Codec α} (hfields : fields.Lawful) {value : α}
    {input : Bytes} (hlength : ((record fields).encode value).length < 2 ^ 64)
    (hstarts : input <+: (record fields).encode value)
    (hshort : input.length < ((record fields).encode value).length) :
    (record fields).decode input = .error .inputTooShort := by
  simp only [record] at hlength hstarts hshort
  rw [hfields.size_eq] at hlength hstarts hshort
  have hbound : (fields.encode value).length < 2 ^ 64 := by
    rw [length_wrapList] at hlength
    omega
  have hheader : Header.decode input = .error .inputTooShort :=
    Header.decode_truncated hbound hstarts hshort
  exact bind_eq_error (bind_eq_error hheader)

/-- A record that is cut off anywhere is too short. -/
theorem IsRecord.decode_truncated {codec : Codec α} (hcodec : codec.IsRecord) {value : α}
    {input : Bytes} (hlength : (codec.encode value).length < 2 ^ 64)
    (hstarts : input <+: codec.encode value) (hne : input ≠ codec.encode value) :
    codec.decode input = .error .inputTooShort := by
  have hshort : input.length < (codec.encode value).length := by
    apply Nat.lt_of_le_of_ne hstarts.length_le
    intro heq
    exact hne (hstarts.eq_of_length heq)
  cases hcodec with
  | of_fields hfields => exact record_decode_truncated hfields hlength hstarts hshort

end Codec

end CallTrace.Rlp
