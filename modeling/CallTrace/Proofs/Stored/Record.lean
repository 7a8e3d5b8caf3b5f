import CallTrace.Proofs.Rlp.Delimited
import CallTrace.Proofs.Rlp.Optional
import CallTrace.Stored.Record

/-!
# Stored records are self-delimiting

Each record is put together from lawful codecs, so it is read exactly where it is
written.
-/

namespace CallTrace.Stored

open Rlp (Codec)
open Rlp.Codec

theorem lawful_optionalAddress : optionalAddress.Lawful :=
  lawful_option (lawful_fixedBytes 20)

theorem lawful_optionalWord : optionalWord.Lawful :=
  lawful_option lawful_word

theorem ActionRecord.isRecord_codec : ActionRecord.codec.IsRecord := by
  apply IsRecord.of_fields
  refine lawful_map ?_ (fun _ => rfl) (fun _ => rfl)
  apply lawful_both lawful_uint8
  apply lawful_both lawful_optionalAddress
  apply lawful_both lawful_optionalAddress
  apply lawful_both lawful_optionalWord
  apply lawful_both lawful_uint64
  apply lawful_both lawful_bytes
  apply lawful_both lawful_bytes
  apply lawful_both lawful_optionalAddress
  exact lawful_both lawful_optionalAddress lawful_optionalWord

theorem ResultRecord.isRecord_codec : ResultRecord.codec.IsRecord := by
  apply IsRecord.of_fields
  refine lawful_map ?_ (fun _ => rfl) (fun _ => rfl)
  apply lawful_both lawful_uint64
  apply lawful_both lawful_bytes
  exact lawful_both lawful_bytes lawful_optionalAddress

theorem NodeRecord.isRecord_codec : NodeRecord.codec.IsRecord := by
  apply IsRecord.of_fields
  refine lawful_map ?_ (fun _ => rfl) (fun _ => rfl)
  apply lawful_both ActionRecord.isRecord_codec.lawful
  apply lawful_both (lawful_option ResultRecord.isRecord_codec.lawful)
  apply lawful_both (lawful_option lawful_text)
  exact lawful_both (lawful_list lawful_uint32) lawful_uint32

theorem SetRecord.isRecord_codec : SetRecord.codec.IsRecord := by
  apply IsRecord.of_fields
  refine lawful_map ?_ (fun _ => rfl) (fun _ => rfl)
  apply lawful_both (lawful_list NodeRecord.isRecord_codec.lawful)
  apply lawful_both (lawful_fixedBytes 32)
  apply lawful_both lawful_uint64
  exact lawful_both (lawful_fixedBytes 32) lawful_uint64

theorem SetRecord.lawful_codec : SetRecord.codec.Lawful :=
  SetRecord.isRecord_codec.lawful

/-- Each of the four records is read exactly where it is written: no two byte strings are
read as the same record, and none takes bytes that belong to its neighbour. -/
theorem selfDelimiting_codecs :
    ActionRecord.codec.SelfDelimiting ∧ ResultRecord.codec.SelfDelimiting ∧
      NodeRecord.codec.SelfDelimiting ∧ SetRecord.codec.SelfDelimiting :=
  ⟨ActionRecord.isRecord_codec.selfDelimiting, ResultRecord.isRecord_codec.selfDelimiting,
    NodeRecord.isRecord_codec.selfDelimiting, SetRecord.isRecord_codec.selfDelimiting⟩

/-- A record with an output that needs a long header is read in front of another byte. -/
theorem selfDelimiting_codecs_of_long_output :
    let record : ResultRecord := ⟨9, List.replicate 56 0xfe, [], none⟩
    (ResultRecord.codec.encode record).length < 2 ^ 64 ∧
      ResultRecord.codec.decode (ResultRecord.codec.encode record ++ [0x80]) =
        .ok (record, [0x80]) := by
  intro record
  have hlength : (ResultRecord.codec.encode record).length < 2 ^ 64 := by decide +kernel
  exact ⟨hlength, (selfDelimiting_codecs.2.1.decode_eq_ok_iff record _ [0x80] hlength).mpr rfl⟩

end CallTrace.Stored
