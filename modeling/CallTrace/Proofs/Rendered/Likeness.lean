import CallTrace.Proofs.Stored.RoundTrip
import CallTrace.Rendered.Entry
import Mathlib.Data.List.Forall2

/-!
# What the rendered form forgets

The entries of a trace tell everything about it but two things: the address of a new contract
as far as it is only known to the action, and whether a node is still open or has the result
of a self-destruct, since neither is rendered.

A trace without nodes has no entries at all, so nothing is told of its transaction.
-/

namespace CallTrace

/-- The ways of calling have different labels. -/
theorem CallVariant.label_injective : Function.Injective label := by
  intro variant other hlabel
  cases variant <;> cases other <;> first | rfl | simp [label] at hlabel

/-- The action without what it knows of the address of a new contract. -/
def Action.withoutCreated : Action → Action
  | create details => create { details with created := none }
  | action => action

theorem Action.kind_withoutCreated (action : Action) :
    action.withoutCreated.kind = action.kind := by
  cases action <;> rfl

namespace Node

/-- Whether the node has no outcome, or the result of a self-destruct. -/
def IsSilent (node : Node) : Prop :=
  node.outcome = none ∨ node.outcome = some (.success .selfDestruct)

/-- Two nodes that only differ in what is not rendered. -/
structure RendersLike (node other : Node) : Prop where
  path_eq : node.path = other.path
  subtraces_eq : node.subtraces = other.subtraces
  action_eq : node.action.withoutCreated = other.action.withoutCreated
  outcome_eq : node.outcome = other.outcome ∨ node.IsSilent ∧ other.IsSilent

/-- A call or a creation with a result of its own kind is silent only while it is open. -/
theorem IsSilent.outcome_eq_none {node : Node} (hsilent : node.IsSilent)
    (hfits : node.resultFits) (hkind : node.action.kind ≠ .selfDestruct) :
    node.outcome = none := by
  rcases hsilent with hnone | hdestroyed
  · exact hnone
  · exfalso
    apply hkind
    simp only [resultFits, result?, hdestroyed, Option.all_some] at hfits
    cases haction : node.action with
    | call details => simp [haction, Result.fits] at hfits
    | create details => simp [haction, Result.fits] at hfits
    | selfDestruct details => rfl

/-- What is not rendered of a call or a creation with a result of its own kind does not
concern its outcome. -/
theorem RendersLike.outcome_eq_of_fits {node other : Node} (hlike : node.RendersLike other)
    (hnode : node.resultFits) (hother : other.resultFits)
    (hkind : node.action.kind ≠ .selfDestruct) : node.outcome = other.outcome := by
  have hkinds : other.action.kind = node.action.kind := by
    rw [← other.action.kind_withoutCreated, ← hlike.action_eq, node.action.kind_withoutCreated]
  rcases hlike.outcome_eq with heq | ⟨hsilent, hsilentOther⟩
  · exact heq
  · rw [hsilent.outcome_eq_none hnode hkind,
      hsilentOther.outcome_eq_none hother (hkinds ▸ hkind)]

end Node

namespace Rendered

/-- Of an action all is rendered but the address of a new contract. -/
theorem ActionEntry.ofAction_eq_iff {action other : Action} :
    ofAction action = ofAction other ↔ action.withoutCreated = other.withoutCreated := by
  rcases action with
    ⟨variant, caller, callee, value, gas, input⟩ | ⟨creator, value, gas, initCode, created⟩ |
    ⟨contract, beneficiary, balance⟩ <;>
  rcases other with
    ⟨variant', caller', callee', value', gas', input'⟩ |
    ⟨creator', value', gas', initCode', created'⟩ | ⟨contract', beneficiary', balance'⟩ <;>
  simp [ofAction, blank, Action.withoutCreated, CallVariant.label_injective.eq_iff]

/-- The kind of an action shows in its entry, so the label adds nothing. -/
theorem labelOfKind_eq {action other : Action}
    (haction : action.withoutCreated = other.withoutCreated) :
    labelOfKind action.kind = labelOfKind other.kind := by
  rw [← action.kind_withoutCreated, haction, other.kind_withoutCreated]

namespace ResultEntry

/-- Results are told apart by their entries. -/
theorem ofResult?_injective : Function.Injective ofResult? := by
  intro result other hresult
  cases result <;> cases other <;> simp_all [ofResult?]

theorem ofResult?_eq_none_iff {result : Result} :
    ofResult? result = none ↔ result = .selfDestruct :=
  ofResult?_injective.eq_iff' rfl

end ResultEntry

/-- Outcomes are told apart by the result and the error that are rendered, unless both nodes
are silent and have neither. -/
theorem outcome_eq_or_isSilent_iff {node other : Node} :
    node.outcome = other.outcome ∨ node.IsSilent ∧ other.IsSilent ↔
      node.result?.bind ResultEntry.ofResult? = other.result?.bind ResultEntry.ofResult? ∧
        node.error? = other.error? := by
  have hnone (result : Result) : none = ResultEntry.ofResult? result ↔ result = .selfDestruct :=
    eq_comm.trans ResultEntry.ofResult?_eq_none_iff
  have hsame (result result' : Result) :
      result = result' ∨ result = .selfDestruct ∧ result' = .selfDestruct ↔ result = result' :=
    or_iff_left_of_imp fun hboth => hboth.1.trans hboth.2.symm
  rcases node with ⟨action, _ | result | message, path, subtraces⟩ <;>
  rcases other with ⟨action', _ | result' | message', path', subtraces'⟩ <;>
  simp [Node.IsSilent, Node.result?, Node.error?, ResultEntry.ofResult?_eq_none_iff, hnone,
    ResultEntry.ofResult?_injective.eq_iff, hsame]

/-- A node is rendered together with its transaction. -/
theorem Entry.ofNode_eq_iff {context later : Context} {node other : Node} :
    ofNode context node = ofNode later other ↔ context = later ∧ node.RendersLike other := by
  constructor
  · intro hentry
    have houtcome : node.outcome = other.outcome ∨ node.IsSilent ∧ other.IsSilent :=
      outcome_eq_or_isSilent_iff.mpr ⟨congrArg result hentry, congrArg error hentry⟩
    obtain ⟨blockHash, blockNumber, transactionHash, transactionPosition⟩ := context
    obtain ⟨blockHash', blockNumber', transactionHash', transactionPosition'⟩ := later
    constructor
    · rw [Context.mk.injEq]
      exact ⟨congrArg Entry.blockHash hentry, congrArg Entry.blockNumber hentry,
        congrArg Entry.transactionHash hentry, congrArg Entry.transactionPosition hentry⟩
    · exact {
        path_eq := congrArg path hentry
        subtraces_eq := congrArg subtraces hentry
        action_eq := ActionEntry.ofAction_eq_iff.mp (congrArg action hentry)
        outcome_eq := houtcome }
  · rintro ⟨rfl, hlike⟩
    obtain ⟨hresult, herror⟩ := outcome_eq_or_isSilent_iff.mp hlike.outcome_eq
    unfold ofNode
    rw [ActionEntry.ofAction_eq_iff.mpr hlike.action_eq, labelOfKind_eq hlike.action_eq,
      hlike.path_eq, hlike.subtraces_eq, hresult, herror]

/-- Traces are rendered as the same entries exactly if both have no nodes, or if they belong to
one transaction and their nodes differ in pairs only in what is not rendered. -/
theorem ofTraceSet_eq_iff {trace other : TraceSet} :
    ofTraceSet trace = ofTraceSet other ↔
      trace.nodes = [] ∧ other.nodes = [] ∨
        trace.context = other.context ∧
          List.Forall₂ Node.RendersLike trace.nodes other.nodes := by
  unfold ofTraceSet
  rw [← List.forall₂_eq_eq_eq, List.forall₂_map_left_iff, List.forall₂_map_right_iff]
  simp only [Entry.ofNode_eq_iff, List.forall₂_and_left]
  constructor
  · rintro ⟨hcontext, hnodes⟩
    cases hfirst : trace.nodes with
    | nil =>
        rw [hfirst] at hnodes
        exact .inl ⟨rfl, List.forall₂_nil_left_iff.mp hnodes⟩
    | cons node nodes =>
        rw [← hfirst]
        exact .inr ⟨hcontext node (hfirst ▸ List.mem_cons_self), hnodes⟩
  · rintro (⟨hnodes, hothers⟩ | ⟨hcontext, hnodes⟩)
    · rw [hnodes, hothers]
      exact ⟨nofun, .nil⟩
    · exact ⟨fun _ _ => hcontext, hnodes⟩

/-- The entries of a trace tell all but the addresses that only actions know, and which silent
nodes are open.  So they tell the outcomes of all calls and creations whose results are of
their own kind. -/
theorem rendered_alike_iff (trace other : TraceSet) :
    (ofTraceSet trace = ofTraceSet other ↔
      trace.nodes = [] ∧ other.nodes = [] ∨
        trace.context = other.context ∧
          List.Forall₂ Node.RendersLike trace.nodes other.nodes) ∧
      ∀ (context later : Context) (node next : Node), node.resultFits → next.resultFits →
        node.action.kind ≠ .selfDestruct →
        Entry.ofNode context node = Entry.ofNode later next → node.outcome = next.outcome := by
  refine ⟨ofTraceSet_eq_iff, ?_⟩
  intro context later node next hnode hnext hkind hentry
  exact (Entry.ofNode_eq_iff.mp hentry).2.outcome_eq_of_fits hnode hnext hkind

/-- A creation that fails is rendered alike whether its address was known or not, and a
self-destruct that is open like one that has exited, but neither is a creation that is open. -/
theorem rendered_alike_iff_of_failed_creation :
    let creation (created : Option Address) : Action := .create ⟨default, 0, 0, [], created⟩
    let failed (created : Option Address) : Node :=
      { Node.fresh (creation created) [] with outcome := some .reverted }
    let destruction : Node := .fresh (.selfDestruct ⟨default, default, 0⟩) [0]
    let exited : Node := { destruction with outcome := some (.success .selfDestruct) }
    ofTraceSet ⟨default, [failed none, destruction]⟩ =
        ofTraceSet ⟨default, [failed (some default), exited]⟩ ∧
      (failed none).resultFits ∧ (failed (some default)).resultFits ∧
      (failed none).action.kind ≠ .selfDestruct ∧
      (failed none).outcome = (failed (some default)).outcome ∧
      Entry.ofNode default (failed none) ≠ Entry.ofNode default (.fresh (creation none) []) := by
  intro creation failed destruction exited
  have halike : ofTraceSet ⟨default, [failed none, destruction]⟩ =
      ofTraceSet ⟨default, [failed (some default), exited]⟩ := by
    apply (rendered_alike_iff _ _).1.mpr
    right
    refine ⟨rfl, .cons ⟨rfl, rfl, rfl, .inl rfl⟩ (.cons ⟨rfl, rfl, rfl, ?_⟩ .nil)⟩
    exact .inr ⟨.inl rfl, .inr rfl⟩
  have hkind : (failed none).action.kind ≠ .selfDestruct := by decide
  have houtcome := (rendered_alike_iff ⟨default, []⟩ ⟨default, []⟩).2 default default
  refine ⟨halike, rfl, rfl, hkind, ?_, ?_⟩
  · exact houtcome _ _ rfl rfl hkind (List.cons.inj halike).1
  · intro hentry
    cases houtcome _ _ rfl rfl hkind hentry

end Rendered

end CallTrace
