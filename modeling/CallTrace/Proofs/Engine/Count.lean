import CallTrace.Proofs.Engine.Translation
import CallTrace.Proofs.Forest.Basic

/-!
# Counting frames while listening

A listener counts frames by itself, and the builder has a stack of them.  Around the
forest builder, the two stay in step.  So a signal is refused if and only if it closes
a frame while none is open, and all others do to the forest what their events do.
-/

namespace CallTrace

namespace Listener

variable {β : Type} [Builder β]

/-- Whether the listener counts as many frames as the builder has open. -/
def InStep (listener : Listener β) : Prop :=
  listener.depth = Builder.depth listener.builder

theorem advance_of_apply {listener next : Listener β} {signal : Signal}
    (happly : listener.apply signal = .ok next) : listener.advance signal = next := by
  simp [advance, happly]

theorem advance_of_opened {signal : Signal} {frame : Frame} (listener : Listener β)
    (hopened : signal.opened? = some frame) :
    listener.advance signal =
      ⟨Builder.openFrame listener.builder frame, listener.depth + 1⟩ :=
  advance_of_apply (apply_of_opened listener hopened)

theorem advance_step (listener : Listener β) (code : Bytes) (position : Nat) (gas : UInt64) :
    listener.advance (.step code position gas) =
      { listener with builder :=
        if (Signal.step code position gas).isRevert then Builder.revert listener.builder
        else listener.builder } :=
  advance_of_apply (apply_step listener code position gas)

section

variable {listener : Listener Forest} {signal : Signal}

theorem advance_of_closing_nil {completion : Completion}
    (hopen : listener.builder.openCalls = []) (hclosing : signal.closing? = some completion) :
    listener.advance signal = ⟨listener.builder, listener.depth - 1⟩ := by
  unfold advance
  rw [apply_of_closing listener hclosing, Forest.exit_of_nil hopen]
  rfl

theorem advance_of_closing_cons {completion : Completion} {call : OpenCall}
    {outer : List OpenCall} (hopen : listener.builder.openCalls = call :: outer)
    (hclosing : signal.closing? = some completion) :
    listener.advance signal =
      ⟨{ listener.builder with openCalls := outer }.addTree (call.exit completion),
        listener.depth - 1⟩ := by
  apply advance_of_apply
  rw [apply_of_closing listener hclosing, Forest.exit_of_cons hopen]
  rfl

theorem advance_selfDestruct (listener : Listener Forest) (contract beneficiary : Address)
    (balance : Word) :
    listener.advance (.selfDestruct contract beneficiary balance) =
      ⟨listener.builder.addTree
        (.node (.ofDestruction contract beneficiary balance) false default []),
        listener.depth⟩ := by
  apply advance_of_apply
  rw [apply_selfDestruct, Forest.exit_openFrame]
  rfl

/-- One signal leaves the listener in step with the forest. -/
theorem InStep.advance (hstep : listener.InStep) (signal : Signal) :
    (listener.advance signal).InStep := by
  change listener.depth = listener.builder.openCalls.length at hstep
  obtain ⟨frame, hopened⟩ | ⟨completion, hclosing⟩ | ⟨contract, beneficiary, balance, rfl⟩ |
    ⟨code, position, gas, rfl⟩ | ⟨context, rfl⟩ := signal.opens_or_closes
  · rw [advance_of_opened _ hopened]
    exact congrArg (· + 1) hstep
  · cases hopen : listener.builder.openCalls with
    | nil =>
        rw [advance_of_closing_nil hopen hclosing]
        change listener.depth - 1 = listener.builder.openCalls.length
        rw [hstep, hopen]
        rfl
    | cons call outer =>
        rw [advance_of_closing_cons hopen hclosing]
        change listener.depth - 1 = (Forest.addTree _ _).openCalls.length
        rw [Forest.length_openCalls_addTree, hstep, hopen]
        rfl
  · rw [advance_selfDestruct]
    change listener.depth = (Forest.addTree _ _).openCalls.length
    rw [Forest.length_openCalls_addTree, hstep]
  · rw [advance_step]
    change listener.depth = (ite _ (Forest.revert _) listener.builder).openCalls.length
    split
    · rw [Forest.length_openCalls_revert, hstep]
    · exact hstep
  · rfl

theorem InStep.run (hstep : listener.InStep) (signals : List Signal) :
    (listener.run signals).InStep := by
  induction signals generalizing listener with
  | nil => exact hstep
  | cons signal signals ih => exact ih (hstep.advance signal)

/-- A signal is refused if and only if it closes a frame and none is open. -/
theorem InStep.apply_eq_error_iff (hstep : listener.InStep) {error : EventError} :
    listener.apply signal = .error error ↔
      (∃ completion, signal.closing? = some completion) ∧ listener.depth = 0 := by
  change listener.depth = listener.builder.openCalls.length at hstep
  obtain ⟨frame, hopened⟩ | ⟨completion, hclosing⟩ | ⟨contract, beneficiary, balance, rfl⟩ |
    ⟨code, position, gas, rfl⟩ | ⟨context, rfl⟩ := signal.opens_or_closes
  · rw [apply_of_opened _ hopened, Signal.closing?_of_opened hopened]
    simp
  · rw [hstep, apply_of_closing _ hclosing]
    cases hopen : listener.builder.openCalls with
    | nil =>
        rw [Forest.exit_of_nil hopen]
        simp [Except.map, hclosing]
    | cons call outer =>
        rw [Forest.exit_of_cons hopen]
        simp [Except.map]
  · rw [apply_selfDestruct, Forest.exit_openFrame]
    simp [Except.map, Signal.closing?]
  · rw [apply_step]
    simp [Signal.closing?]
  · rw [apply_reset]
    simp [Signal.closing?]

/-- A signal that is refused changes nothing.  With no frame open there is none to count
off. -/
theorem InStep.advance_of_refused (hstep : listener.InStep) {error : EventError}
    (hrefused : listener.apply signal = .error error) : listener.advance signal = listener := by
  obtain ⟨⟨completion, hclosing⟩, hdepth⟩ := hstep.apply_eq_error_iff.mp hrefused
  have hopen : listener.builder.openCalls = [] :=
    List.eq_nil_of_length_eq_zero (hstep.symm.trans hdepth)
  have hcount : listener.depth - 1 = listener.depth := by rw [hdepth]
  rw [advance_of_closing_nil hopen hclosing, hcount]

/-- A signal does to the forest what its events do. -/
theorem builder_advance (listener : Listener Forest) (signal : Signal) :
    (listener.advance signal).builder =
      Builder.run listener.builder (signal.events listener.depth) := by
  obtain ⟨frame, hopened⟩ | ⟨completion, hclosing⟩ | ⟨contract, beneficiary, balance, rfl⟩ |
    ⟨code, position, gas, rfl⟩ | ⟨context, rfl⟩ := signal.opens_or_closes
  · rw [advance_of_opened _ hopened, Signal.events_of_opened hopened]
    exact (Builder.run_singleton_of_apply (Builder.apply_opening _ _ _)).symm
  · rw [Signal.events_of_closing hclosing]
    change _ = Builder.advance listener.builder (.exit completion)
    unfold Builder.advance
    cases hopen : listener.builder.openCalls with
    | nil =>
        have happly : Builder.apply listener.builder (.exit completion) = _ :=
          Forest.exit_of_nil hopen completion
        rw [advance_of_closing_nil hopen hclosing, happly]
    | cons call outer =>
        have happly : Builder.apply listener.builder (.exit completion) = _ :=
          Forest.exit_of_cons hopen completion
        rw [advance_of_closing_cons hopen hclosing, happly]
  · have hopened : Builder.run listener.builder
        [.opening listener.depth (.ofDestruction contract beneficiary balance)] =
          Builder.openFrame listener.builder (.ofDestruction contract beneficiary balance) :=
      Builder.run_singleton_of_apply (Builder.apply_opening _ _ _)
    rw [advance_selfDestruct, Signal.events, ← List.singleton_append, Builder.run_append, hopened]
    symm
    apply Builder.run_singleton_of_apply
    exact Forest.exit_openFrame _ _ _
  · rw [advance_step]
    symm
    apply Builder.run_singleton_of_apply
    exact Builder.observe_of_scope_none _ rfl
  · rfl

/-- Signals do to the forest what their events do. -/
theorem InStep.builder_run (hstep : listener.InStep) (signals : List Signal) :
    (listener.run signals).builder =
      Builder.run listener.builder (Signal.translate listener.builder signals) := by
  induction signals generalizing listener with
  | nil => rfl
  | cons signal signals ih =>
      change ((listener.advance signal).run signals).builder = _
      rw [ih (hstep.advance signal), builder_advance, hstep, ← Builder.run_append]
      rfl

end

end Listener

end CallTrace
