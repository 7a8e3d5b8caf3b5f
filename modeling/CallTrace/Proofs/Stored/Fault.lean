import CallTrace.Proofs.Except
import CallTrace.Stored.Trace

/-!
# What can be wrong with a stored record

Bytes may be the encoding of a record that no trace has: its tag may be unknown, or it
may lack a field that its kind of action cannot do without.  The conversion of records
reports the first fault there is, and converts those without a fault.
-/

namespace CallTrace.Stored

/-- The fields that an action of a kind cannot do without, in the order in which they are
missed. -/
def requiredFields : Kind → List Field
  | .create => [.sender]
  | .call _ => [.sender, .target]
  | .selfDestruct => [.contract, .beneficiary]

example (variant : CallVariant) :
    (requiredFields (.call variant)).map Field.label = ["from", "to"] := by
  rfl

theorem kindOfTag?_eq_some_iff {tag : UInt8} {kind : Kind} :
    kindOfTag? tag = some kind ↔ tag = tagOfKind kind := by
  constructor
  · intro hkind
    unfold kindOfTag? at hkind
    split at hkind <;> cases hkind <;> rfl
  · rintro rfl
    exact kindOfTag?_tagOfKind kind

/-- The tags up to 5 are the ones in use. -/
theorem kindOfTag?_eq_none_iff {tag : UInt8} : kindOfTag? tag = none ↔ 5 < tag := by
  constructor
  · intro hnone
    unfold kindOfTag? at hnone
    split at hnone
    case h_7 => grind
    all_goals cases hnone
  · intro htag
    cases hkind : kindOfTag? tag with
    | none => rfl
    | some kind =>
        rw [kindOfTag?_eq_some_iff.mp hkind] at htag
        match kind with
        | .create | .selfDestruct => exact absurd htag (by decide)
        | .call .call | .call .callCode => exact absurd htag (by decide)
        | .call .delegateCall | .call .staticCall => exact absurd htag (by decide)

namespace ActionRecord

/-- The address in a field that may be required. -/
def address? (record : ActionRecord) : Field → Option Address
  | .sender => record.sender
  | .target => record.target
  | .contract => record.contract
  | .beneficiary => record.beneficiary

/-- What is wrong with a record: its tag, or else the first required field that is
absent. -/
inductive HasFault (record : ActionRecord) : Error → Prop where
  | unknownKind (htag : 5 < record.tag) : record.HasFault (.unknownKind record.tag)
  | missingField (kind : Kind) (field : Field) (htag : record.tag = tagOfKind kind)
      (hfirst : (requiredFields kind).find? (fun field => (record.address? field).isNone) =
        some field) :
      record.HasFault (.missingField kind field)

/-- Whether nothing is wrong with a record. -/
def Usable (record : ActionRecord) : Prop :=
  ∀ error, ¬ record.HasFault error

/-- A record of a known kind fails on the first required field that is absent. -/
theorem toAction_eq_error_iff_of_kind {record : ActionRecord} {kind : Kind}
    (hkind : kindOfTag? record.tag = some kind) {error : Error} :
    record.toAction = .error error ↔
      ∃ field, (requiredFields kind).find? (fun field => (record.address? field).isNone) =
        some field ∧ error = .missingField kind field := by
  unfold toAction
  rw [hkind]
  cases kind with
  | create =>
      cases hsender : record.sender <;>
        simp [-bind_pure_comp, error_bind, required, requiredFields, address?, hsender, pure,
          Except.pure, eq_comm]
  | call variant =>
      cases hsender : record.sender <;> cases htarget : record.target <;>
        simp [-bind_pure_comp, error_bind, required, requiredFields, address?, hsender, htarget,
          pure, Except.pure, eq_comm]
  | selfDestruct =>
      cases hcontract : record.contract <;> cases hbeneficiary : record.beneficiary <;>
        simp [-bind_pure_comp, error_bind, required, requiredFields, address?, hcontract,
          hbeneficiary, pure, Except.pure, eq_comm]

/-- The conversion of a record fails with what is wrong with it. -/
theorem toAction_eq_error_iff {record : ActionRecord} {error : Error} :
    record.toAction = .error error ↔ record.HasFault error := by
  cases hkind : kindOfTag? record.tag with
  | none =>
      have haction : record.toAction = .error (.unknownKind record.tag) := by
        simp only [toAction, hkind]
      rw [haction]
      constructor
      · intro herror
        cases herror
        exact .unknownKind (kindOfTag?_eq_none_iff.mp hkind)
      · intro hfaulty
        cases hfaulty with
        | unknownKind htag => rfl
        | missingField kind field htag hfirst => simp [htag] at hkind
  | some kind =>
      have htag : record.tag = tagOfKind kind := kindOfTag?_eq_some_iff.mp hkind
      rw [toAction_eq_error_iff_of_kind hkind]
      constructor
      · rintro ⟨field, hfirst, rfl⟩
        exact .missingField kind field htag hfirst
      · intro hfaulty
        cases hfaulty with
        | unknownKind hlarge => simp [kindOfTag?_eq_none_iff.mpr hlarge] at hkind
        | missingField other field hother hfirst =>
            have hkinds : kindOfTag? record.tag = some other := kindOfTag?_eq_some_iff.mpr hother
            cases hkind.symm.trans hkinds
            exact ⟨field, hfirst, rfl⟩

end ActionRecord

namespace NodeRecord

theorem toNode_eq_error_iff {record : NodeRecord} {error : Error} :
    record.toNode = .error error ↔ record.action.HasFault error := by
  rw [← ActionRecord.toAction_eq_error_iff]
  exact bind_ok_eq_error_iff

/-- A record without a fault is converted. -/
theorem usable_iff {record : NodeRecord} :
    record.action.Usable ↔ ∃ node, record.toNode = .ok node := by
  rw [exists_eq_ok_iff]
  exact forall_congr' fun error => not_congr toNode_eq_error_iff.symm

end NodeRecord

namespace SetRecord

/-- What is wrong with the first of some nodes that has a fault. -/
inductive FirstFault : List NodeRecord → Error → Prop where
  | head {node : NodeRecord} {error : Error} (hnode : node.action.HasFault error)
      (nodes : List NodeRecord) : FirstFault (node :: nodes) error
  | tail {node : NodeRecord} {nodes : List NodeRecord} {error : Error}
      (hnode : node.action.Usable) (hnodes : FirstFault nodes error) :
      FirstFault (node :: nodes) error

theorem firstFault_cons_iff {node : NodeRecord} {nodes : List NodeRecord} {error : Error} :
    FirstFault (node :: nodes) error ↔
      node.action.HasFault error ∨ node.action.Usable ∧ FirstFault nodes error := by
  constructor
  · intro hfault
    cases hfault with
    | head hnode => exact .inl hnode
    | tail hnode hnodes => exact .inr ⟨hnode, hnodes⟩
  · rintro (hnode | ⟨hnode, hnodes⟩)
    · exact .head hnode nodes
    · exact .tail hnode hnodes

theorem mapM_toNode_eq_error_iff {nodes : List NodeRecord} {error : Error} :
    nodes.mapM NodeRecord.toNode = .error error ↔ FirstFault nodes error := by
  induction nodes with
  | nil =>
      constructor
      · intro hnil
        cases hnil
      · intro hfault
        cases hfault
  | cons node nodes ih =>
      rw [List.mapM_cons, bind_eq_error_iff, NodeRecord.toNode_eq_error_iff, firstFault_cons_iff,
        NodeRecord.usable_iff, ← exists_and_right]
      apply or_congr_right
      apply exists_congr
      intro first
      apply and_congr_right
      intro _
      exact bind_ok_eq_error_iff.trans ih

/-- Of several bad nodes the first is reported. -/
theorem toTraceSet_eq_error_iff {record : SetRecord} {error : Error} :
    record.toTraceSet = .error error ↔ FirstFault record.nodes error := by
  rw [← mapM_toNode_eq_error_iff]
  exact bind_ok_eq_error_iff

/-- Either all nodes are usable or there is a first that is not. -/
theorem forall_usable_iff {nodes : List NodeRecord} :
    (∀ node ∈ nodes, node.action.Usable) ↔ ∀ error, ¬ FirstFault nodes error := by
  induction nodes with
  | nil =>
      refine iff_of_true (by simp) ?_
      intro error hfault
      cases hfault
  | cons node nodes ih =>
      rw [List.forall_mem_cons, ih]
      constructor
      · rintro ⟨hnode, hnodes⟩ error hfault
        cases hfault with
        | head hfirst => exact hnode error hfirst
        | tail _ hlater => exact hnodes error hlater
      · intro hnone
        have hnode : node.action.Usable := fun error hfirst => hnone error (.head hfirst nodes)
        exact ⟨hnode, fun error hlater => hnone error (.tail hnode hlater)⟩

end SetRecord

end CallTrace.Stored
