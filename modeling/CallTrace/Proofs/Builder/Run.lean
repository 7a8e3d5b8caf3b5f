import CallTrace.Builder.Event

/-!
# Runs of builders

Runs follow one another, and an event that is taken in is a run by itself.
-/

namespace CallTrace.Builder

variable {β : Type} [Builder β] {builder middle next : β}

/-- An exit is taken in if there is a frame to close. -/
theorem exit_eq_ok_iff {completion : Completion} :
    exit builder completion = .ok next ↔ closeFrame? builder completion = some next := by
  unfold exit
  cases closeFrame? builder completion <;> simp

theorem exit_of_closeFrame? {completion : Completion}
    (hclose : closeFrame? builder completion = some next) :
    exit builder completion = .ok next :=
  exit_eq_ok_iff.mpr hclose

/-- The opcode that reverts its frame is never rejected. -/
theorem isRevert_of_rejection {settings : Settings} {step : Step} {rejection : Precheck.Rejection}
    (hrejection : settings.rejection? step = some rejection) : step.isRevert = false := by
  cases hrevert : step.isRevert with
  | false => rfl
  | true => simp [Settings.rejection?, hrevert] at hrejection

theorem observe_of_isRevert (builder : β) {step : Step} (hrevert : step.isRevert = true) :
    observe builder step = .ok (revert builder) := by
  simp [observe, hrevert]

theorem observe_of_rejection {step : Step} {rejection : Precheck.Rejection}
    (hrejection : (settings builder).rejection? step = some rejection) :
    observe builder step = addRejected builder rejection := by
  simp [observe, isRevert_of_rejection hrejection, hrejection]

theorem observe_of_none {step : Step} (hrevert : step.isRevert = false)
    (hrejection : (settings builder).rejection? step = none) :
    observe builder step = .ok builder := by
  simp [observe, hrevert, hrejection]

/-- An opcode reverts the innermost open frame, adds a frame that it rejects, or does
nothing. -/
theorem observe_cases {step : Step} (hobserve : observe builder step = .ok next) :
    step.isRevert = true ∧ next = revert builder ∨
      (∃ rejection, (settings builder).rejection? step = some rejection ∧
        addRejected builder rejection = .ok next) ∨
      step.isRevert = false ∧ next = builder := by
  cases hrevert : step.isRevert with
  | true =>
      rw [observe_of_isRevert builder hrevert] at hobserve
      cases hobserve
      exact .inl ⟨rfl, rfl⟩
  | false =>
      cases hrejection : (settings builder).rejection? step with
      | some rejection =>
          rw [observe_of_rejection hrejection] at hobserve
          exact .inr (.inl ⟨rejection, rfl, hobserve⟩)
      | none =>
          rw [observe_of_none hrevert hrejection] at hobserve
          cases hobserve
          exact .inr (.inr ⟨rfl, rfl⟩)

theorem advance_of_apply {event : Event} (happly : apply builder event = .ok next) :
    advance builder event = next := by
  simp [advance, happly]

theorem run_singleton_of_apply {event : Event} (happly : apply builder event = .ok next) :
    run builder [event] = next :=
  advance_of_apply happly

theorem run_append (builder : β) (events others : List Event) :
    run builder (events ++ others) = run (run builder events) others :=
  List.foldl_append

/-- Whether there are events that lead from one state of a builder to another. -/
def Reaches (builder next : β) : Prop :=
  ∃ events, run builder events = next

namespace Reaches

theorem refl (builder : β) : Reaches builder builder :=
  ⟨[], rfl⟩

theorem trans (hbuilder : Reaches builder middle) (hmiddle : Reaches middle next) :
    Reaches builder next := by
  obtain ⟨events, rfl⟩ := hbuilder
  obtain ⟨others, rfl⟩ := hmiddle
  exact ⟨events ++ others, run_append builder events others⟩

theorem advance (builder : β) (event : Event) : Reaches builder (Builder.advance builder event) :=
  ⟨[event], rfl⟩

theorem of_apply {event : Event} (happly : apply builder event = .ok next) :
    Reaches builder next :=
  ⟨[event], run_singleton_of_apply happly⟩

end Reaches

end CallTrace.Builder
