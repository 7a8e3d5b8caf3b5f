import CallTrace.Proofs.Stored.Record
import CallTrace.Stored.Trace
import Mathlib.Data.List.Forall2

/-!
# Storing a trace and reading it back

A stored result does not say of which kind it is: it is read as a result of the kind of
its action.  So a trace comes back as it was if each of its results is of that kind, and
otherwise the outcomes of the other nodes are what changes.
-/

namespace CallTrace

/-- Whether a result is of the same kind as an action. -/
def Result.fits : Result → Action → Bool
  | call _ _, .call _ => true
  | create _ _ _, .create _ => true
  | selfDestruct, .selfDestruct _ => true
  | _, _ => false

/-- The outcome that is read back after that of an action has been stored. -/
def Outcome.stored (action : Action) : Outcome → Outcome
  | success result => .success ((Stored.ResultRecord.ofResult result).toResult action)
  | failure message => .failure message

namespace Node

/-- Whether the result of a node, if it has one, is of the same kind as its action. -/
def resultFits (node : Node) : Bool :=
  node.result?.all fun result => result.fits node.action

/-- The node that is read back after the given one has been stored. -/
def stored (node : Node) : Node :=
  { node with outcome := node.outcome.map (Outcome.stored node.action) }

end Node

namespace Stored

@[simp]
theorem ActionRecord.toAction_ofAction (action : Action) :
    (ofAction action).toAction = .ok action := by
  cases action with
  | call details =>
      obtain ⟨variant, caller, callee, value, gas, input⟩ := details
      cases variant <;> rfl
  | create details => rfl
  | selfDestruct details => rfl

/-- A result is read back as it was exactly if it is of the kind of its action. -/
theorem ResultRecord.toResult_ofResult_eq_iff {result : Result} {action : Action} :
    (ofResult result).toResult action = result ↔ result.fits action := by
  cases result <;> cases action <;> simp [ofResult, toResult, Result.fits]

theorem NodeRecord.outcome_ofNode (node : Node) (action : Action) :
    (ofNode node).outcome action = node.outcome.map (Outcome.stored action) := by
  rcases node with ⟨_, _ | _ | _, _, _⟩ <;> rfl

@[simp]
theorem NodeRecord.toNode_ofNode (node : Node) : (ofNode node).toNode = .ok node.stored := by
  apply bind_eq_ok (ActionRecord.toAction_ofAction node.action)
  rw [outcome_ofNode]
  rfl

theorem mapM_toNode (nodes : List Node) :
    (nodes.map NodeRecord.ofNode).mapM NodeRecord.toNode = .ok (nodes.map Node.stored) := by
  induction nodes with
  | nil => rfl
  | cons node nodes ih =>
      rw [List.map_cons, List.mapM_cons, NodeRecord.toNode_ofNode, ih]
      rfl

theorem SetRecord.toTraceSet_ofTraceSet (trace : TraceSet) :
    (ofTraceSet trace).toTraceSet = .ok ⟨trace.context, trace.nodes.map Node.stored⟩ :=
  bind_eq_ok (mapM_toNode trace.nodes) rfl

/-- A record that fills the input is read. -/
theorem decodeRecord_encode {record : SetRecord}
    (hlength : (SetRecord.codec.encode record).length < 2 ^ 64) :
    decodeRecord (SetRecord.codec.encode record) = .ok record := by
  have hdecode := SetRecord.lawful_codec.decode_encode record [] hlength
  rw [List.append_nil] at hdecode
  simp only [decodeRecord]
  rw [hdecode]
  rfl

theorem decode_encode {trace : TraceSet} (hlength : (encode trace).length < 2 ^ 64) :
    decode (encode trace) = .ok ⟨trace.context, trace.nodes.map Node.stored⟩ :=
  bind_eq_ok (decodeRecord_encode hlength) (SetRecord.toTraceSet_ofTraceSet trace)

end Stored

namespace Node

/-- An outcome is read back as it was exactly if its result is of the right kind. -/
theorem outcome_stored_eq_iff (node : Node) :
    node.stored.outcome = node.outcome ↔ node.resultFits := by
  rcases node with ⟨action, _ | ⟨result⟩ | message, path, subtraces⟩
  · simp [stored, resultFits, result?]
  · simp [stored, Outcome.stored, resultFits, result?, Stored.ResultRecord.toResult_ofResult_eq_iff]
  · simp [stored, Outcome.stored, resultFits, result?]

theorem stored_eq_iff (node : Node) : node.stored = node ↔ node.resultFits := by
  rw [← outcome_stored_eq_iff]
  constructor
  · intro hstored
    rw [hstored]
  · intro houtcome
    exact congrArg (fun outcome => { node with outcome }) houtcome

end Node

namespace Stored

theorem map_stored_eq_iff (nodes : List Node) :
    nodes.map Node.stored = nodes ↔ ∀ node ∈ nodes, node.resultFits := by
  have hmap : nodes.map Node.stored = nodes.map id ↔ ∀ node ∈ nodes, node.stored = id node :=
    List.map_inj_left
  rw [List.map_id] at hmap
  rw [hmap]
  exact forall₂_congr fun node _ => node.stored_eq_iff

/-- Every trace is read back after it has been stored.  It is the same if and only if the
result of each node is of the kind of its action, and it differs in the outcomes of those
nodes only where this is not so. -/
theorem decode_encode_eq_iff (trace : TraceSet) (hlength : (encode trace).length < 2 ^ 64) :
    ∃ decoded, decode (encode trace) = .ok decoded ∧
      (decoded = trace ↔ ∀ node ∈ trace.nodes, node.resultFits) ∧
      decoded.context = trace.context ∧
      List.Forall₂
        (fun node other => other = { node with outcome := other.outcome } ∧
          (other.outcome = node.outcome ↔ node.resultFits))
        trace.nodes decoded.nodes := by
  refine ⟨_, decode_encode hlength, ?_, rfl, ?_⟩
  · rw [← map_stored_eq_iff]
    constructor
    · intro hdecoded
      exact congrArg TraceSet.nodes hdecoded
    · intro hnodes
      rw [hnodes]
  · rw [List.forall₂_map_right_iff, List.forall₂_same]
    intro node _
    exact ⟨rfl, node.outcome_stored_eq_iff⟩

/-- A self-destruct in the place of the result of a creation is not read back. -/
theorem decode_encode_eq_iff_of_misfit :
    let creation : Action := .create ⟨default, 0, 9, [0x60], none⟩
    let trace : TraceSet :=
      ⟨default, [⟨creation, some (.success .selfDestruct), [], 1⟩,
        ⟨creation, some (.failure "out of gas"), [0], 0⟩]⟩
    (encode trace).length < 2 ^ 64 ∧
      ∃ decoded, decode (encode trace) = .ok decoded ∧ decoded ≠ trace := by
  intro creation trace
  have hlength : (encode trace).length < 2 ^ 64 := by decide +kernel
  have hmisfit : ¬ ∀ node ∈ trace.nodes, node.resultFits := by decide
  obtain ⟨decoded, hdecode, hiff, -⟩ := decode_encode_eq_iff trace hlength
  exact ⟨hlength, decoded, hdecode, fun hdecoded => hmisfit (hiff.mp hdecoded)⟩

end Stored

end CallTrace
