import CallTrace.Proofs.Builder.Invariant

/-!
# Growth of the states of a builder

Between two resets a builder only adds to what it has.  What that means is a relation
between an earlier and a later state, which has to hold across each operation in states of
which an invariant holds.  Then it holds across runs.
-/

namespace CallTrace

/-- Whether an event makes a builder start anew. -/
def Event.isReset : Event → Bool
  | reset _ => true
  | _ => false

namespace Builder

variable {β : Type} [Builder β]

/-- A relation between earlier and later states that the operations of a builder respect in
certain states, but for resets. -/
structure Growth (holds : β → Prop) (grows : β → β → Prop) : Prop where
  refl : ∀ builder, grows builder builder
  trans : ∀ builder middle next, grows builder middle → grows middle next → grows builder next
  openFrame_grows : ∀ builder frame, holds builder → grows builder (openFrame builder frame)
  closeFrame?_grows : ∀ builder completion next, holds builder →
    closeFrame? builder completion = some next → grows builder next
  revert_grows : ∀ builder, holds builder → grows builder (revert builder)

namespace Growth

variable {holds : β → Prop} {grows : β → β → Prop} {builder next : β}

theorem exit_grows (growth : Growth holds grows) (hbuilder : holds builder)
    {completion : Completion} (hexit : exit builder completion = .ok next) : grows builder next :=
  growth.closeFrame?_grows builder completion next hbuilder (exit_eq_ok_iff.mp hexit)

theorem observe_grows (growth : Growth holds grows) (invariant : Invariant holds)
    (hbuilder : holds builder) {step : Step} (hobserve : observe builder step = .ok next) :
    grows builder next := by
  rcases observe_cases hobserve with ⟨-, rfl⟩ | ⟨rejection, -, hadd⟩ | ⟨-, rfl⟩
  · exact growth.revert_grows builder hbuilder
  · apply growth.trans _ _ _ (growth.openFrame_grows builder rejection.frame hbuilder)
    exact growth.exit_grows (invariant.openFrame_holds builder _ hbuilder) hadd
  · exact growth.refl next

theorem advance_grows (growth : Growth holds grows) (invariant : Invariant holds)
    (hbuilder : holds builder) {event : Event} (hevent : event.isReset = false) :
    grows builder (advance builder event) := by
  unfold advance
  cases happly : apply builder event with
  | error error => exact growth.refl builder
  | ok next =>
      cases event with
      | start frame | enter frame =>
          cases happly
          exact growth.openFrame_grows builder frame hbuilder
      | exit completion => exact growth.exit_grows hbuilder happly
      | opcode step => exact growth.observe_grows invariant hbuilder happly
      | fault step =>
          cases happly
          exact growth.refl builder
      | revert =>
          cases happly
          exact growth.revert_grows builder hbuilder
      | reset context => cases hevent

/-- States of a run without resets are related in the order in which they are reached. -/
theorem run_grows (growth : Growth holds grows) (invariant : Invariant holds)
    (hbuilder : holds builder) {events : List Event}
    (hevents : ∀ event ∈ events, event.isReset = false) : grows builder (run builder events) := by
  induction events generalizing builder with
  | nil => exact growth.refl builder
  | cons event events ih =>
      rw [List.forall_mem_cons] at hevents
      apply growth.trans _ _ _ (growth.advance_grows invariant hbuilder hevents.1)
      exact ih (invariant.advance_holds event hbuilder) hevents.2

end Growth

end Builder

end CallTrace
