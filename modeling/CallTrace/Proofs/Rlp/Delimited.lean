import CallTrace.Proofs.Rlp.Lawful

/-!
# Records that delimit themselves

A record is read by a reader that sees all of the input, and still its bytes are told
apart from those behind it.  Its encoding is the only one that is read as it, and the
length that its header declares is used up to the last byte.
-/

namespace CallTrace.Rlp.Codec

variable {α : Type}

/-- A codec whose values are read exactly where they are written, each behind a header
that says where it ends. -/
structure SelfDelimiting (codec : Codec α) : Prop where
  /-- A value is read off the front of an input if and only if its encoding is there. -/
  decode_eq_ok_iff (value : α) (input rest : Bytes)
    (hlength : (codec.encode value).length < 2 ^ 64) :
    codec.decode input = .ok (value, rest) ↔ input = codec.encode value ++ rest
  /-- No two inputs are read as the same value with the same rest. -/
  input_unique {input other rest : Bytes} {value : α}
    (hinput : codec.decode input = .ok (value, rest))
    (hother : codec.decode other = .ok (value, rest)) : input = other
  /-- The bytes taken behind the header are as many as it declares. -/
  payload_filled {input rest : Bytes} {value : α}
    (hdecode : codec.decode input = .ok (value, rest)) :
    ∃ payload, Header.decodeAs .list input = .ok (payload.length, payload ++ rest)

/-- A codec of records whose fields have lawful codecs. -/
inductive IsRecord : Codec α → Prop where
  | of_fields {fields : Codec α} (hfields : fields.Lawful) : IsRecord (record fields)

namespace IsRecord

variable {codec : Codec α}

theorem lawful (hcodec : codec.IsRecord) : codec.Lawful := by
  cases hcodec with
  | of_fields hfields => exact lawful_record hfields

theorem fills_payload (hcodec : codec.IsRecord) {input rest : Bytes} {value : α}
    (hdecode : codec.decode input = .ok (value, rest)) :
    ∃ payload, Header.decodeAs .list input = .ok (payload.length, payload ++ rest) := by
  cases hcodec with
  | of_fields hfields => exact record_fills_payload hfields hdecode

theorem selfDelimiting (hcodec : codec.IsRecord) : codec.SelfDelimiting where
  decode_eq_ok_iff value input rest hlength := by
    constructor
    · exact hcodec.lawful.eq_of_decode
    · rintro rfl
      exact hcodec.lawful.decode_encode value rest hlength
  input_unique hinput hother := by
    rw [hcodec.lawful.eq_of_decode hinput, hcodec.lawful.eq_of_decode hother]
  payload_filled := hcodec.fills_payload

end IsRecord

end CallTrace.Rlp.Codec
