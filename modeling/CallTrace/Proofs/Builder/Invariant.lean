import CallTrace.Proofs.Builder.Run

/-!
# Invariants of builders

A property that the operations of a builder keep is kept by every event, and so by
every run.
-/

namespace CallTrace.Builder

variable {β : Type} [Builder β]

/-- A property of a builder's states that its operations keep. -/
structure Invariant (holds : β → Prop) : Prop where
  openFrame_holds : ∀ builder frame, holds builder → holds (openFrame builder frame)
  closeFrame?_holds : ∀ builder completion next,
    closeFrame? builder completion = some next → holds builder → holds next
  revert_holds : ∀ builder, holds builder → holds (revert builder)
  reset_holds : ∀ builder context, holds builder → holds (reset builder context)

namespace Invariant

variable {holds : β → Prop} {builder next : β}

theorem exit_holds (invariant : Invariant holds) {completion : Completion}
    (hexit : exit builder completion = .ok next) (hbuilder : holds builder) : holds next :=
  invariant.closeFrame?_holds builder completion next (exit_eq_ok_iff.mp hexit) hbuilder

theorem observe_holds (invariant : Invariant holds) {step : Step}
    (hobserve : observe builder step = .ok next) (hbuilder : holds builder) : holds next := by
  rcases observe_cases hobserve with ⟨-, rfl⟩ | ⟨rejection, -, hadd⟩ | ⟨-, rfl⟩
  · exact invariant.revert_holds builder hbuilder
  · exact invariant.exit_holds hadd (invariant.openFrame_holds builder _ hbuilder)
  · exact hbuilder

theorem apply_holds (invariant : Invariant holds) {event : Event}
    (happly : apply builder event = .ok next) (hbuilder : holds builder) : holds next := by
  cases event with
  | start frame =>
      cases happly
      exact invariant.openFrame_holds builder frame hbuilder
  | enter frame =>
      cases happly
      exact invariant.openFrame_holds builder frame hbuilder
  | exit completion => exact invariant.exit_holds happly hbuilder
  | opcode step => exact invariant.observe_holds happly hbuilder
  | fault step =>
      cases happly
      exact hbuilder
  | revert =>
      cases happly
      exact invariant.revert_holds builder hbuilder
  | reset context =>
      cases happly
      exact invariant.reset_holds builder context hbuilder

theorem advance_holds (invariant : Invariant holds) (event : Event) (hbuilder : holds builder) :
    holds (advance builder event) := by
  unfold advance
  cases happly : apply builder event with
  | ok next => exact invariant.apply_holds happly hbuilder
  | error error => exact hbuilder

/-- A property that the operations keep holds throughout a run that begins with it. -/
theorem run_holds (invariant : Invariant holds) (events : List Event) (hbuilder : holds builder) :
    holds (run builder events) := by
  induction events generalizing builder with
  | nil => exact hbuilder
  | cons event events ih => exact ih (invariant.advance_holds event hbuilder)

end Invariant

end CallTrace.Builder
