import CallTrace.Proofs.Forest.Deferred
import CallTrace.Proofs.Forest.Segments
import Mathlib.Data.List.Forall2

/-!
# The two builders agree

Run on the same events, the streaming and the deferred builder have the same open
frames and refuse the same events.  The trace that the deferred builder has written
out is the last complete segment of the streamed one, but for the gas of its calls
and creations.

Both builders are pictures of one forest, so it is enough to compare the settled trace
of a tree with its plain trace.  Child counts wrap around alike in both builders, so
there is no bound on the number of calls made in a frame.
-/

namespace CallTrace

/-- Two nodes that agree on everything but the gas of their actions. -/
structure Node.AgreesUpToGas (node other : Node) : Prop where
  path_eq : node.path = other.path
  subtraces_eq : node.subtraces = other.subtraces
  outcome_eq : node.outcome = other.outcome
  action_eq : node.action.withGas 0 = other.action.withGas 0

namespace Node

theorem AgreesUpToGas.rfl {node : Node} : node.AgreesUpToGas node :=
  ⟨.refl _, .refl _, .refl _, .refl _⟩

theorem AgreesUpToGas.symm {node other : Node} (hagree : node.AgreesUpToGas other) :
    other.AgreesUpToGas node :=
  ⟨hagree.path_eq.symm, hagree.subtraces_eq.symm, hagree.outcome_eq.symm, hagree.action_eq.symm⟩

theorem AgreesUpToGas.trans {node middle other : Node} (hnode : node.AgreesUpToGas middle)
    (hmiddle : middle.AgreesUpToGas other) : node.AgreesUpToGas other :=
  ⟨hnode.path_eq.trans hmiddle.path_eq, hnode.subtraces_eq.trans hmiddle.subtraces_eq,
    hnode.outcome_eq.trans hmiddle.outcome_eq, hnode.action_eq.trans hmiddle.action_eq⟩

theorem withGas_agreesUpToGas (node : Node) (gas : UInt64) :
    (node.withGas gas).AgreesUpToGas node := by
  refine ⟨.refl _, .refl _, .refl _, ?_⟩
  cases haction : node.action <;> simp [withGas, haction, Action.withGas]

theorem takeShare_agreesUpToGas (parentGas? : Option UInt64) (node : Node) :
    (node.takeShare parentGas?).AgreesUpToGas node := by
  rcases node.takeShare_cases parentGas? with hshare | ⟨gas, hshare⟩
  · rw [hshare]
    exact .rfl
  · rw [hshare]
    exact node.withGas_agreesUpToGas gas

end Node

namespace CallTree

mutual

theorem settledTrace_agreesUpToGas (parentGas? : Option UInt64) (path : Path) :
    (tree : CallTree) →
      List.Forall₂ Node.AgreesUpToGas (tree.settledTrace parentGas? path) (tree.trace path)
  | node _ _ _ calls =>
      .cons (Node.takeShare_agreesUpToGas parentGas? _) (settledBelow_agreesUpToGas _ path 0 calls)

theorem settledBelow_agreesUpToGas (gas : UInt64) (path : Path) (count : Nat) :
    (trees : List CallTree) →
      List.Forall₂ Node.AgreesUpToGas (settledBelow gas path count trees)
        (traceBelow path count trees)
  | [] => .nil
  | tree :: trees =>
      List.rel_append (settledTrace_agreesUpToGas (some gas) _ tree)
        (settledBelow_agreesUpToGas gas path (count + 1) trees)

end

/-- Charging a root with its gas changes nothing else in the trace. -/
theorem settledTrace_charged_agreesUpToGas (tree : CallTree) :
    List.Forall₂ Node.AgreesUpToGas (tree.charged.settledTrace none []) (tree.trace []) := by
  cases tree with
  | node frame isReverted completion calls =>
      simp only [charged, settledTrace, trace]
      apply List.Forall₂.cons
      · rw [← Node.withGas_exited]
        exact Node.withGas_agreesUpToGas _ _
      · exact settledBelow_agreesUpToGas _ [] 0 calls

end CallTree

theorem Deferred.nodes_ofForest_agreesUpToGas (forest : Forest) :
    List.Forall₂ Node.AgreesUpToGas (Deferred.ofForest forest).nodes
      (Streaming.ofForest forest).lastCompleted := by
  rw [Streaming.lastCompleted_ofForest]
  unfold Deferred.ofForest Forest.lastSettled
  cases forest.roots.getLast? with
  | none => exact .nil
  | some tree => exact tree.settledTrace_charged_agreesUpToGas

/-- Images of one state under two maps of builders refuse the same events. -/
theorem Builder.Morphism.refuses_iff {α β γ : Type} [Builder α] [Builder β] [Builder γ]
    {left : α → β} {right : α → γ} (hleft : Morphism left) (hright : Morphism right)
    (builder : α) (event : Event) (error : EventError) :
    apply (left builder) event = .error error ↔ apply (right builder) event = .error error := by
  rw [hleft.apply_map, hright.apply_map]
  cases apply builder event <;> simp [Except.map]

/-- After any events, the two builders have the same number of open frames, refuse the
same events next, and agree up to gas on the last segment that is complete. -/
theorem deferred_agrees_with_streaming (settings : Settings) (context : Context)
    (events : List Event) :
    let streaming := Builder.run (Streaming.empty settings context) events
    let deferred := Builder.run (Deferred.empty settings context) events
    Builder.depth deferred = Builder.depth streaming ∧
      (∀ event error, Builder.apply deferred event = .error error ↔
        Builder.apply streaming event = .error error) ∧
      (Builder.trace deferred).context = (Builder.trace streaming).context ∧
      List.Forall₂ Node.AgreesUpToGas (Builder.trace deferred).nodes streaming.lastCompleted := by
  intro streaming deferred
  let forest := Builder.run (Forest.empty settings context) events
  have hstreaming : streaming = Streaming.ofForest forest :=
    Streaming.run_eq_ofForest settings context events
  have hdeferred : deferred = Deferred.ofForest forest :=
    Deferred.run_eq_ofForest settings context events
  rw [hstreaming, hdeferred]
  refine ⟨?_, ?_, ?_, ?_⟩
  · exact (Deferred.morphism_ofForest.depth_map forest).trans
      (Streaming.morphism_ofForest.depth_map forest).symm
  · intro event error
    exact Deferred.morphism_ofForest.refuses_iff Streaming.morphism_ofForest forest event error
  · rfl
  · exact Deferred.nodes_ofForest_agreesUpToGas forest

end CallTrace
