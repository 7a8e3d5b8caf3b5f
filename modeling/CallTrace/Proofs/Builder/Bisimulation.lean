import CallTrace.Proofs.Builder.Run

/-!
# Builders that run side by side

A relation between the states of two builders that their operations keep is kept by
every event, and so by runs on the same events.  Related builders refuse the same events.
-/

namespace CallTrace.Builder

variable {β γ : Type} [Builder β] [Builder γ]

/-- A relation between the states of two builders that their operations keep. -/
structure Bisimulation (related : β → γ → Prop) : Prop where
  settings_eq : ∀ builder other, related builder other → settings builder = settings other
  openFrame_related : ∀ builder other frame, related builder other →
    related (openFrame builder frame) (openFrame other frame)
  closeFrame?_related : ∀ builder other completion, related builder other →
    Option.Rel related (closeFrame? builder completion) (closeFrame? other completion)
  revert_related : ∀ builder other, related builder other → related (revert builder) (revert other)
  reset_related : ∀ builder other context, related builder other →
    related (reset builder context) (reset other context)

/-- Whether two builders both took in an event, with related states after it, or both
refused it. -/
inductive Alike (related : β → γ → Prop) : Except EventError β → Except EventError γ → Prop
  | ok {next : β} {otherNext : γ} (hnext : related next otherNext) : Alike related (.ok next)
      (.ok otherNext)
  | error (error : EventError) : Alike related (.error error) (.error error)

namespace Bisimulation

variable {related : β → γ → Prop} {builder : β} {other : γ}

theorem exit_alike (bisimulation : Bisimulation related) (hrelated : related builder other)
    (completion : Completion) :
    Alike related (exit builder completion) (exit other completion) := by
  have hclose := bisimulation.closeFrame?_related builder other completion hrelated
  unfold exit
  generalize closeFrame? builder completion = next?, closeFrame? other completion = otherNext?
    at hclose ⊢
  cases hclose with
  | none => exact .error _
  | some hnext => exact .ok hnext

theorem observe_alike (bisimulation : Bisimulation related) (hrelated : related builder other)
    (step : Step) : Alike related (observe builder step) (observe other step) := by
  unfold observe
  rw [bisimulation.settings_eq builder other hrelated]
  split
  · exact .ok (bisimulation.revert_related builder other hrelated)
  · cases (settings other).rejection? step with
    | none => exact .ok hrelated
    | some rejection =>
        exact bisimulation.exit_alike
          (bisimulation.openFrame_related builder other _ hrelated) _

theorem apply_alike (bisimulation : Bisimulation related) (hrelated : related builder other)
    (event : Event) : Alike related (apply builder event) (apply other event) := by
  cases event with
  | start frame => exact .ok (bisimulation.openFrame_related builder other frame hrelated)
  | enter frame => exact .ok (bisimulation.openFrame_related builder other frame hrelated)
  | exit completion => exact bisimulation.exit_alike hrelated completion
  | opcode step => exact bisimulation.observe_alike hrelated step
  | fault step => exact .ok hrelated
  | revert => exact .ok (bisimulation.revert_related builder other hrelated)
  | reset context => exact .ok (bisimulation.reset_related builder other context hrelated)

theorem advance_related (bisimulation : Bisimulation related) (hrelated : related builder other)
    (event : Event) : related (advance builder event) (advance other event) := by
  have happly := bisimulation.apply_alike hrelated event
  unfold advance
  generalize apply builder event = answer, apply other event = otherAnswer at happly ⊢
  cases happly with
  | ok hnext => exact hnext
  | error error => exact hrelated

/-- Runs on the same events lead from related states to related states. -/
theorem run_related (bisimulation : Bisimulation related) (hrelated : related builder other)
    (events : List Event) : related (run builder events) (run other events) := by
  induction events generalizing builder other with
  | nil => exact hrelated
  | cons event events ih => exact ih (bisimulation.advance_related hrelated event)

end Bisimulation

end CallTrace.Builder
