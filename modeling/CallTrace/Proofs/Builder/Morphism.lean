import CallTrace.Builder.Event

/-!
# Maps between builders

What an event means is defined once, on top of the few operations in which
builders differ.  So a map between the states of two builders that respects these
operations respects events, and with them whole runs: both builders refuse the
same events, and the map takes each state of the one run to the state of the
other.
-/

namespace CallTrace.Builder

variable {β γ : Type} [Builder β] [Builder γ]

/-- A map between the states of two builders that respects what is done to frames. -/
structure FrameMorphism (map : β → γ) : Prop where
  openFrame_map : ∀ builder frame, openFrame (map builder) frame = map (openFrame builder frame)
  closeFrame?_map : ∀ builder completion,
    closeFrame? (map builder) completion = (closeFrame? builder completion).map map
  revert_map : ∀ builder, revert (map builder) = map (revert builder)
  reset_map : ∀ builder context, reset (map builder) context = map (reset builder context)

theorem FrameMorphism.exit_map {map : β → γ} (morphism : FrameMorphism map) (builder : β)
    (completion : Completion) :
    exit (map builder) completion = (exit builder completion).map map := by
  unfold exit
  rw [morphism.closeFrame?_map]
  cases closeFrame? builder completion <;> rfl

/-- A map between the states of two builders that respects the operations in which
they differ. -/
structure Morphism (map : β → γ) : Prop extends FrameMorphism map where
  settings_map : ∀ builder, settings (map builder) = settings builder
  depth_map : ∀ builder, depth (map builder) = depth builder

namespace Morphism

variable {map : β → γ}

theorem observe_map (morphism : Morphism map) (builder : β) (step : Step) :
    observe (map builder) step = (observe builder step).map map := by
  unfold observe
  rw [morphism.settings_map, morphism.revert_map]
  split
  · rfl
  · cases (settings builder).rejection? step with
    | none => rfl
    | some rejection =>
        simp only [addRejected]
        rw [morphism.openFrame_map, morphism.exit_map]

/-- An event is refused on both sides of the map or on none, and leads from related
states to related states. -/
theorem apply_map (morphism : Morphism map) (builder : β) (event : Event) :
    apply (map builder) event = (apply builder event).map map := by
  cases event with
  | start frame => exact congrArg Except.ok (morphism.openFrame_map builder frame)
  | enter frame => exact congrArg Except.ok (morphism.openFrame_map builder frame)
  | exit completion => exact morphism.exit_map builder completion
  | opcode step => exact morphism.observe_map builder step
  | fault step => rfl
  | revert => exact congrArg Except.ok (morphism.revert_map builder)
  | reset context => exact congrArg Except.ok (morphism.reset_map builder context)

theorem advance_map (morphism : Morphism map) (builder : β) (event : Event) :
    advance (map builder) event = map (advance builder event) := by
  unfold advance
  rw [morphism.apply_map]
  cases apply builder event <;> rfl

/-- The map takes each state of a run to the state of the other builder. -/
theorem run_map (morphism : Morphism map) (builder : β) (events : List Event) :
    run (map builder) events = map (run builder events) := by
  induction events generalizing builder with
  | nil => rfl
  | cons event events ih =>
      change run (advance (map builder) event) events = map (run (advance builder event) events)
      rw [morphism.advance_map, ih]

end Morphism

end CallTrace.Builder
