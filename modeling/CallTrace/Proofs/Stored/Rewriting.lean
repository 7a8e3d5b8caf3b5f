import CallTrace.Proofs.Rlp.SizeBound
import CallTrace.Proofs.Stored.Fault
import CallTrace.Proofs.Stored.RoundTrip

/-!
# Reading a stored trace and writing it again

There are records that are read but that nothing is stored as: they have fields that are
foreign to their kind, or lack an amount.  Writing what was read from them leaves such
fields out and fills such amounts in.  The trace stays the same all the same, and so do
the bytes if every record was clean to begin with.
-/

namespace CallTrace.Stored

open Rlp (Codec)
open Rlp.Codec

theorem eq_some_getD_iff {α : Type} {value? : Option α} {default : α} :
    value? = some (value?.getD default) ↔ value?.isSome := by
  cases value? with
  | none => simp
  | some value => simp

namespace ActionRecord

/-- Whether a record has the amount of a kind of action, and no field that is foreign to
the kind. -/
def CleanFor (record : ActionRecord) : Kind → Prop
  | .create =>
      record.target = none ∧ record.value.isSome ∧ record.input = [] ∧
        record.beneficiary = none ∧ record.balance = none
  | .call _ =>
      record.value.isSome ∧ record.initCode = [] ∧ record.contract = none ∧
        record.beneficiary = none ∧ record.balance = none
  | .selfDestruct =>
      record.sender = none ∧ record.target = none ∧ record.value = none ∧ record.gas = 0 ∧
        record.initCode = [] ∧ record.input = [] ∧ record.balance.isSome

instance (record : ActionRecord) (kind : Kind) : Decidable (record.CleanFor kind) :=
  match kind with
  | .create => inferInstanceAs (Decidable (_ ∧ _))
  | .call _ => inferInstanceAs (Decidable (_ ∧ _))
  | .selfDestruct => inferInstanceAs (Decidable (_ ∧ _))

/-- The record without the fields that are foreign to a kind of action, and with an
amount. -/
def cleaned (record : ActionRecord) : Kind → ActionRecord
  | .create =>
      { record with
        target := none
        value := some (record.value.getD 0)
        input := []
        beneficiary := none
        balance := none }
  | .call _ =>
      { record with
        value := some (record.value.getD 0)
        initCode := []
        contract := none
        beneficiary := none
        balance := none }
  | .selfDestruct =>
      { record with
        sender := none
        target := none
        value := none
        gas := 0
        initCode := []
        input := []
        balance := some (record.balance.getD 0) }

theorem eq_cleaned_iff {record : ActionRecord} {kind : Kind} :
    record = record.cleaned kind ↔ record.CleanFor kind := by
  cases record
  cases kind with
  | create => simp [cleaned, CleanFor, eq_some_getD_iff]
  | call variant => simp [cleaned, CleanFor, eq_some_getD_iff]
  | selfDestruct => simp [cleaned, CleanFor, eq_some_getD_iff]

theorem required_eq_ok_iff {kind : Kind} {field : Field} {address? : Option Address}
    {address : Address} :
    required kind field address? = .ok address ↔ address? = some address := by
  cases address? with
  | none => simp [required]
  | some found => simp [required]

/-- The action that is read from a record is written as the record without what was
ignored. -/
theorem ofAction_eq_cleaned {record : ActionRecord} {action : Action}
    (haction : record.toAction = .ok action) :
    kindOfTag? record.tag = some action.kind ∧ ofAction action = record.cleaned action.kind := by
  unfold toAction at haction
  split at haction
  · cases haction
  · next variant hkind =>
    obtain ⟨caller, hcaller, hbehind⟩ := bind_eq_ok_iff.mp haction
    obtain ⟨callee, hcallee, hpure⟩ := bind_eq_ok_iff.mp hbehind
    cases hpure
    refine ⟨hkind, ?_⟩
    simp only [ofAction, Action.kind, cleaned, blank, required_eq_ok_iff.mp hcaller,
      required_eq_ok_iff.mp hcallee, kindOfTag?_eq_some_iff.mp hkind]
  · next hkind =>
    obtain ⟨creator, hcreator, hpure⟩ := bind_eq_ok_iff.mp haction
    cases hpure
    refine ⟨hkind, ?_⟩
    simp only [ofAction, Action.kind, cleaned, blank, required_eq_ok_iff.mp hcreator,
      kindOfTag?_eq_some_iff.mp hkind]
  · next hkind =>
    obtain ⟨contract, hcontract, hbehind⟩ := bind_eq_ok_iff.mp haction
    obtain ⟨beneficiary, hbeneficiary, hpure⟩ := bind_eq_ok_iff.mp hbehind
    cases hpure
    refine ⟨hkind, ?_⟩
    simp only [ofAction, Action.kind, cleaned, blank, required_eq_ok_iff.mp hcontract,
      required_eq_ok_iff.mp hbeneficiary, kindOfTag?_eq_some_iff.mp hkind]

/-- Only the amount can get longer. -/
theorem atMostTwice_cleaned (record : ActionRecord) (kind : Kind) :
    codec.AtMostTwice (record.cleaned kind) record := by
  have hvalue : optionalWord.AtMostTwice (some (record.value.getD 0)) record.value :=
    .option_getD rfl
  have hbalance : optionalWord.AtMostTwice (some (record.balance.getD 0)) record.balance :=
    .option_getD rfl
  have hinitCode : bytes.AtMostTwice [] record.initCode := .ofString_nil rfl
  have hinput : bytes.AtMostTwice [] record.input := .ofString_nil rfl
  have hgas : uint64.AtMostTwice 0 record.gas := .map (.ofString_nil rfl)
  apply AtMostTwice.record
  apply AtMostTwice.map
  cases kind with
  | create =>
      exact .both (.refl _ _) <| .both (.refl _ _) <| .both (.option_none _) <| .both hvalue <|
        .both (.refl _ _) <| .both (.refl _ _) <| .both hinput <| .both (.refl _ _) <|
        .both (.option_none _) (.option_none _)
  | call variant =>
      exact .both (.refl _ _) <| .both (.refl _ _) <| .both (.refl _ _) <| .both hvalue <|
        .both (.refl _ _) <| .both hinitCode <| .both (.refl _ _) <| .both (.option_none _) <|
        .both (.option_none _) (.option_none _)
  | selfDestruct =>
      exact .both (.refl _ _) <| .both (.option_none _) <| .both (.option_none _) <|
        .both (.option_none _) <| .both hgas <| .both hinitCode <| .both hinput <|
        .both (.refl _ _) <| .both (.refl _ _) hbalance

end ActionRecord

namespace ResultRecord

/-- Whether a record has no field that is foreign to results of a kind of action. -/
def CleanFor (record : ResultRecord) : Kind → Prop
  | .create => record.output = []
  | .call _ => record.code = [] ∧ record.created = none
  | .selfDestruct =>
      record.gasUsed = 0 ∧ record.output = [] ∧ record.code = [] ∧ record.created = none

instance (record : ResultRecord) (kind : Kind) : Decidable (record.CleanFor kind) :=
  match kind with
  | .create => inferInstanceAs (Decidable (_ = _))
  | .call _ => inferInstanceAs (Decidable (_ ∧ _))
  | .selfDestruct => inferInstanceAs (Decidable (_ ∧ _))

/-- The record without the fields that are foreign to results of a kind of action. -/
def cleaned (record : ResultRecord) : Kind → ResultRecord
  | .create => { record with output := [] }
  | .call _ => { record with code := [], created := none }
  | .selfDestruct => ⟨0, [], [], none⟩

theorem eq_cleaned_iff {record : ResultRecord} {kind : Kind} :
    record = record.cleaned kind ↔ record.CleanFor kind := by
  obtain ⟨gasUsed, output, code, created⟩ := record
  cases kind with
  | create => simp [cleaned, CleanFor]
  | call variant => simp [cleaned, CleanFor]
  | selfDestruct => simp [cleaned, CleanFor]

theorem ofResult_toResult (record : ResultRecord) (action : Action) :
    ofResult (record.toResult action) = record.cleaned action.kind := by
  cases action <;> rfl

theorem toResult_fits (record : ResultRecord) (action : Action) :
    (record.toResult action).fits action := by
  cases action <;> rfl

theorem atMostTwice_cleaned (record : ResultRecord) (kind : Kind) :
    codec.AtMostTwice (record.cleaned kind) record := by
  have houtput : bytes.AtMostTwice [] record.output := .ofString_nil rfl
  have hcode : bytes.AtMostTwice [] record.code := .ofString_nil rfl
  have hgas : uint64.AtMostTwice 0 record.gasUsed := .map (.ofString_nil rfl)
  apply AtMostTwice.record
  apply AtMostTwice.map
  cases kind with
  | create => exact .both (.refl _ _) <| .both houtput <| .both (.refl _ _) (.refl _ _)
  | call variant => exact .both (.refl _ _) <| .both (.refl _ _) <| .both hcode (.option_none _)
  | selfDestruct => exact .both hgas <| .both houtput <| .both hcode (.option_none _)

end ResultRecord

namespace NodeRecord

/-- Whether a record is clean for a kind of action: its action and its result are, and it
has no result next to an error. -/
def CleanFor (record : NodeRecord) (kind : Kind) : Prop :=
  record.action.CleanFor kind ∧ ¬ (record.result.isSome ∧ record.error.isSome) ∧
    ∀ result ∈ record.result, result.CleanFor kind

instance (record : NodeRecord) (kind : Kind) : Decidable (record.CleanFor kind) :=
  inferInstanceAs (Decidable (_ ∧ _))

/-- Whether a record is clean for the kind that its tag says it is of. -/
def IsClean (record : NodeRecord) : Prop :=
  ∀ kind ∈ kindOfTag? record.action.tag, record.CleanFor kind

instance (record : NodeRecord) : Decidable record.IsClean :=
  inferInstanceAs (Decidable (∀ kind ∈ kindOfTag? record.action.tag, _))

/-- The record without what is foreign to a kind of action. -/
def cleaned (record : NodeRecord) (kind : Kind) : NodeRecord :=
  { record with
    action := record.action.cleaned kind
    result :=
      match record.error with
      | some _ => none
      | none => record.result.map (·.cleaned kind) }

/-- The record that is written for the node that is read from a record. -/
def rewritten (record : NodeRecord) : NodeRecord :=
  match kindOfTag? record.action.tag with
  | some kind => record.cleaned kind
  | none => record

theorem eq_cleaned_iff {record : NodeRecord} {kind : Kind} :
    record = record.cleaned kind ↔ record.CleanFor kind := by
  obtain ⟨action, result, error, path, subtraces⟩ := record
  cases error with
  | some message => cases result <;> simp [cleaned, CleanFor, ActionRecord.eq_cleaned_iff]
  | none =>
      cases result with
      | none => simp [cleaned, CleanFor, ActionRecord.eq_cleaned_iff]
      | some result =>
          simp [cleaned, CleanFor, ActionRecord.eq_cleaned_iff, ResultRecord.eq_cleaned_iff]

theorem eq_rewritten_iff {record : NodeRecord} : record = record.rewritten ↔ record.IsClean := by
  unfold rewritten IsClean
  cases kindOfTag? record.action.tag with
  | none => simp
  | some kind => simp [eq_cleaned_iff]

/-- The node that is read from a record is written as the record without what was
ignored. -/
theorem ofNode_eq_rewritten {record : NodeRecord} {node : Node} (hnode : record.toNode = .ok node) :
    ofNode node = record.rewritten := by
  obtain ⟨action, haction, hpure⟩ := bind_eq_ok_iff.mp hnode
  obtain ⟨hkind, hrecord⟩ := ActionRecord.ofAction_eq_cleaned haction
  cases hpure
  obtain ⟨_, result, error, path, subtraces⟩ := record
  simp only [rewritten, hkind, cleaned, ofNode, hrecord]
  cases error with
  | some message => simp [outcome, Node.result?, Node.error?]
  | none =>
      cases result with
      | none => simp [outcome, Node.result?, Node.error?]
      | some result => simp [outcome, Node.result?, Node.error?, ResultRecord.ofResult_toResult]

/-- The result that is read with a node is of the kind of its action. -/
theorem resultFits_of_toNode {record : NodeRecord} {node : Node}
    (hnode : record.toNode = .ok node) : node.resultFits := by
  obtain ⟨action, haction, hpure⟩ := bind_eq_ok_iff.mp hnode
  cases hpure
  obtain ⟨_, _ | result, _ | message, path, subtraces⟩ := record
  · rfl
  · rfl
  · exact result.toResult_fits action
  · rfl

theorem atMostTwice_rewritten (record : NodeRecord) :
    codec.AtMostTwice record.rewritten record := by
  unfold rewritten
  cases kindOfTag? record.action.tag with
  | none => exact .refl _ _
  | some kind =>
      have haction := record.action.atMostTwice_cleaned kind
      have hresult : (Codec.option ResultRecord.codec).AtMostTwice (record.cleaned kind).result
          record.result := by
        obtain ⟨_, _ | result, _ | message, path, subtraces⟩ := record
        · exact .refl _ _
        · exact .refl _ _
        · exact .option_some (result.atMostTwice_cleaned kind)
        · exact .option_none _
      exact .record <| .map <| .both haction <| .both hresult (.refl _ _)

end NodeRecord

/-- Nodes that are read are written as their records without what was ignored. -/
theorem map_ofNode_eq_map_rewritten {records : List NodeRecord} {nodes : List Node}
    (hnodes : records.mapM NodeRecord.toNode = .ok nodes) :
    nodes.map NodeRecord.ofNode = records.map NodeRecord.rewritten ∧
      ∀ node ∈ nodes, node.resultFits := by
  induction records generalizing nodes with
  | nil =>
      cases hnodes
      simp
  | cons record records ih =>
      rw [List.mapM_cons] at hnodes
      obtain ⟨node, hnode, hbehind⟩ := bind_eq_ok_iff.mp hnodes
      obtain ⟨rest, hrest, hpure⟩ := bind_eq_ok_iff.mp hbehind
      cases hpure
      obtain ⟨hrecords, hfits⟩ := ih hrest
      constructor
      · rw [List.map_cons, List.map_cons, NodeRecord.ofNode_eq_rewritten hnode, hrecords]
      · exact List.forall_mem_cons.mpr ⟨NodeRecord.resultFits_of_toNode hnode, hfits⟩

namespace SetRecord

/-- The record that is written for the trace that is read from a record. -/
def rewritten (record : SetRecord) : SetRecord :=
  { record with nodes := record.nodes.map NodeRecord.rewritten }

theorem eq_rewritten_iff {record : SetRecord} :
    record = record.rewritten ↔ ∀ node ∈ record.nodes, node.IsClean := by
  have hnodes : record = record.rewritten ↔
      record.nodes.map id = record.nodes.map NodeRecord.rewritten := by
    rw [List.map_id]
    cases record
    simp [rewritten]
  rw [hnodes, List.map_inj_left]
  exact forall₂_congr fun node _ => NodeRecord.eq_rewritten_iff

theorem ofTraceSet_eq_rewritten {record : SetRecord} {trace : TraceSet}
    (htrace : record.toTraceSet = .ok trace) :
    ofTraceSet trace = record.rewritten ∧ ∀ node ∈ trace.nodes, node.resultFits := by
  obtain ⟨nodes, hnodes, hpure⟩ := bind_eq_ok_iff.mp htrace
  obtain ⟨hrecords, hfits⟩ := map_ofNode_eq_map_rewritten hnodes
  cases hpure
  refine ⟨?_, hfits⟩
  simp only [ofTraceSet, rewritten, hrecords]

theorem atMostTwice_rewritten (record : SetRecord) : codec.AtMostTwice record.rewritten record :=
  .record <| .map <| .both (.list NodeRecord.atMostTwice_rewritten record.nodes) (.refl _ _)

theorem length_encode_rewritten_le (record : SetRecord) :
    (codec.encode record.rewritten).length ≤ 2 * (codec.encode record).length := by
  rw [← lawful_codec.size_eq, ← lawful_codec.size_eq]
  exact record.atMostTwice_rewritten

end SetRecord

/-- A record is read from its encoding and from nothing else. -/
theorem eq_encode_of_decodeRecord {input : Bytes} {record : SetRecord}
    (hrecord : decodeRecord input = .ok record) : input = SetRecord.codec.encode record := by
  unfold decodeRecord at hrecord
  split at hrecord
  · cases hrecord
  · next found rest hdecode =>
    split at hrecord
    · next hempty =>
      cases hrecord
      rw [SetRecord.lawful_codec.eq_of_decode hdecode, List.isEmpty_iff.mp hempty, List.append_nil]
    · cases hrecord

/-- A trace that is read is the same after it has been written and read again.  The bytes
are the same exactly if every node was stored without fields that are foreign to its kind
and with an amount.  The bound is that of byte strings in memory; it keeps what is written,
which may be longer than the input, within what a header can declare. -/
theorem decode_encode_of_decode_eq_ok (input : Bytes) (trace : TraceSet)
    (hlength : input.length < 2 ^ 63) (hdecode : decode input = .ok trace) :
    decode (encode trace) = .ok trace ∧
      ∃ record, decodeRecord input = .ok record ∧
        (encode trace = input ↔ ∀ node ∈ record.nodes, node.IsClean) := by
  obtain ⟨record, hrecord, htrace⟩ := bind_eq_ok_iff.mp hdecode
  obtain ⟨hrewritten, hfits⟩ := SetRecord.ofTraceSet_eq_rewritten htrace
  have hinput := eq_encode_of_decodeRecord hrecord
  have hencode : encode trace = SetRecord.codec.encode record.rewritten :=
    congrArg SetRecord.codec.encode hrewritten
  have hbound : (encode trace).length < 2 ^ 64 := by
    have hle := record.length_encode_rewritten_le
    rw [← hencode, ← hinput] at hle
    omega
  refine ⟨?_, record, hrecord, ?_⟩
  · rw [decode_encode hbound, (map_stored_eq_iff trace.nodes).mpr hfits]
  · rw [← SetRecord.eq_rewritten_iff]
    constructor
    · intro hsame
      have hagain := decodeRecord_encode (hencode ▸ hbound)
      rw [← hencode, hsame, hrecord] at hagain
      exact Except.ok.inj hagain
    · intro hclean
      rw [hencode, ← hclean, hinput]

/-- A call stored with init code and without a value loses the code and gains a value. -/
theorem decode_encode_of_decode_eq_ok_of_foreign_code :
    let action : ActionRecord :=
      { ActionRecord.blank 1 with
        sender := some default
        target := some default
        initCode := [0x60] }
    let record : SetRecord := ⟨[⟨action, none, some "oog", [], 0⟩], default, 7, default, 0⟩
    let input := SetRecord.codec.encode record
    let call : Action := .call ⟨.call, default, default, 0, 0, []⟩
    let trace : TraceSet := ⟨⟨default, 7, default, 0⟩, [⟨call, some (.failure "oog"), [], 0⟩]⟩
    input.length < 2 ^ 63 ∧ decode input = .ok trace ∧
      decode (encode trace) = .ok trace ∧ encode trace ≠ input := by
  intro action record input call trace
  have hlength : input.length < 2 ^ 63 := by decide +kernel
  have hrecord : decodeRecord input = .ok record :=
    decodeRecord_encode (Nat.lt_trans hlength (by decide))
  have hdecode : decode input = .ok trace := bind_eq_ok hrecord rfl
  obtain ⟨hagain, found, hfound, hiff⟩ := decode_encode_of_decode_eq_ok input trace hlength hdecode
  cases hrecord.symm.trans hfound
  have hunclean : ¬ ∀ node ∈ record.nodes, node.IsClean := by decide
  exact ⟨hlength, hdecode, hagain, fun hsame => hunclean (hiff.mp hsame)⟩

end CallTrace.Stored
