import CallTrace.Engine.Listener
import CallTrace.Proofs.Builder.Morphism
import CallTrace.Proofs.Builder.Run
import CallTrace.Proofs.Except

/-!
# What a listener passes on

Each signal comes down to opening a frame, closing one, both at once, stepping or
starting over.  A listener passes it on as events, and which they are depends on
nothing but the number of open frames.

The events of steps have no scope, so no frame is rejected at them.  What a listener
does therefore depends on no settings: it respects all maps between builders that
respect what is done to frames.
-/

namespace CallTrace

/-- A completion as it is recorded for a frame that was ended with an exit code.  The
message of the exit code, if there is one, takes the place of the error. -/
def Completion.endedBy (exitCode : ExitCode) (completion : Completion) : Completion :=
  { completion with error := exitCode.message?.or completion.error }

/-- The event that a frame is opened while the given number of frames is open. -/
def Event.opening (depth : Nat) (frame : Frame) : Event :=
  if depth = 0 then .start frame else .enter frame

namespace Signal

/-- The frame that a signal opens. -/
def opened? : Signal → Option Frame
  | openFrame frame => some frame
  | call inputs => some inputs.frame
  | create inputs => some inputs.frame
  | _ => none

/-- How the frame ended that a signal closes. -/
def closing? : Signal → Option Completion
  | closeFrame exitCode completion => some (completion.endedBy exitCode)
  | callEnd ending =>
      some ((Completion.success ending.output ending.gasSpent).endedBy ending.exitCode)
  | createEnd ending =>
      let completion := Completion.success ending.output ending.gasSpent
      some (Completion.endedBy ending.exitCode { completion with created := ending.created })
  | _ => none

/-- The frame that an engine announces. -/
def announced? : Signal → Option Frame
  | call inputs => some inputs.frame
  | create inputs => some inputs.frame
  | _ => none

/-- The ending of a frame that an engine reports. -/
def ending? : Signal → Option Ending
  | callEnd ending => some ending
  | createEnd ending => some ending
  | _ => none

/-- Whether a signal is a step at the opcode that reverts its frame. -/
def isRevert : Signal → Bool
  | step code position _ => code[position]?.getD 0 == 0xfd
  | _ => false

/-- The events that a signal comes down to while the given number of frames is open. -/
def events (depth : Nat) : Signal → List Event
  | openFrame frame => [.opening depth frame]
  | call inputs => [.opening depth inputs.frame]
  | create inputs => [.opening depth inputs.frame]
  | closeFrame exitCode completion => [.exit (completion.endedBy exitCode)]
  | callEnd ending =>
      [.exit ((Completion.success ending.output ending.gasSpent).endedBy ending.exitCode)]
  | createEnd ending =>
      let completion := Completion.success ending.output ending.gasSpent
      [.exit (Completion.endedBy ending.exitCode { completion with created := ending.created })]
  | selfDestruct contract beneficiary balance =>
      [.opening depth (.ofDestruction contract beneficiary balance), .exit default]
  | step code position gas =>
      [.opcode ⟨code[position]?.getD 0, gas, depth, none, none, none⟩]
  | reset context => [.reset context]

/-- The events that signals come down to, for a builder that takes in nothing else. -/
def translate {β : Type} [Builder β] (builder : β) : List Signal → List Event
  | [] => []
  | signal :: signals =>
      let events := signal.events (Builder.depth builder)
      events ++ translate (Builder.run builder events) signals

/-- A signal opens a frame, closes one, does both, steps or starts over. -/
theorem opens_or_closes (signal : Signal) :
    (∃ frame, signal.opened? = some frame) ∨ (∃ completion, signal.closing? = some completion) ∨
      (∃ contract beneficiary balance, signal = .selfDestruct contract beneficiary balance) ∨
      (∃ code position gas, signal = .step code position gas) ∨
      ∃ context, signal = .reset context := by
  cases signal <;> simp [opened?, closing?]

variable {signal : Signal}

theorem opened?_of_announced {frame : Frame} (hannounced : signal.announced? = some frame) :
    signal.opened? = some frame := by
  cases signal <;> simp [announced?] at hannounced <;> simp [opened?, hannounced]

/-- An engine gives no error besides its exit code. -/
theorem exists_closing_of_ending {ending : Ending} (hending : signal.ending? = some ending) :
    ∃ completion, signal.closing? = some completion ∧
      completion.error = ending.exitCode.message? := by
  cases signal <;> simp [ending?] at hending <;> subst hending <;>
    exact ⟨_, rfl, Option.or_none⟩

theorem events_of_opened {frame : Frame} (hopened : signal.opened? = some frame) (depth : Nat) :
    signal.events depth = [.opening depth frame] := by
  cases signal <;> simp [opened?] at hopened <;> simp [events, hopened]

theorem events_of_closing {completion : Completion} (hclosing : signal.closing? = some completion)
    (depth : Nat) : signal.events depth = [.exit completion] := by
  cases signal <;> simp [closing?] at hclosing <;> simp [events, hclosing]

theorem closing?_of_opened {frame : Frame} (hopened : signal.opened? = some frame) :
    signal.closing? = none := by
  cases signal <;> simp [opened?] at hopened <;> rfl

theorem isRevert_of_opened {frame : Frame} (hopened : signal.opened? = some frame) :
    signal.isRevert = false := by
  cases signal <;> simp [opened?] at hopened <;> rfl

theorem isRevert_of_closing {completion : Completion}
    (hclosing : signal.closing? = some completion) : signal.isRevert = false := by
  cases signal <;> simp [closing?] at hclosing <;> rfl

end Signal

namespace Builder

variable {β γ : Type} [Builder β] [Builder γ]

theorem apply_opening (builder : β) (depth : Nat) (frame : Frame) :
    apply builder (.opening depth frame) = .ok (openFrame builder frame) := by
  unfold Event.opening
  split <;> rfl

/-- Without a scope no frame is rejected at a step. -/
theorem rejection?_of_scope_none (settings : Settings) {step : Step} (hscope : step.scope = none) :
    settings.rejection? step = none := by
  unfold Settings.rejection?
  split
  · simp [Precheck.rejection?, Precheck.inquiry, hscope, Inquiry.result]
  · rfl

theorem observe_of_scope_none (builder : β) {step : Step} (hscope : step.scope = none) :
    observe builder step = .ok (if step.isRevert then revert builder else builder) := by
  cases hrevert : step.isRevert with
  | true => exact observe_of_isRevert builder hrevert
  | false => exact observe_of_none hrevert (rejection?_of_scope_none _ hscope)

end Builder

namespace Listener

variable {β γ : Type} [Builder β] [Builder γ]

theorem openFrame_eq (listener : Listener β) (frame : Frame) :
    listener.openFrame frame =
      ⟨Builder.openFrame listener.builder frame, listener.depth + 1⟩ := by
  change (⟨Builder.advance listener.builder (.opening listener.depth frame), _⟩ : Listener β) = _
  rw [Builder.advance_of_apply (Builder.apply_opening listener.builder listener.depth frame)]

theorem closeFrame_eq (listener : Listener β) (exitCode : ExitCode) (completion : Completion) :
    listener.closeFrame exitCode completion =
      (Builder.exit listener.builder (completion.endedBy exitCode)).map
        (⟨·, listener.depth - 1⟩) := by
  unfold closeFrame Completion.endedBy
  rw [← bind_ok_eq_map]
  cases exitCode.message? <;> rfl

section

variable {signal : Signal}

theorem apply_of_opened {frame : Frame} (listener : Listener β)
    (hopened : signal.opened? = some frame) :
    listener.apply signal =
      .ok ⟨Builder.openFrame listener.builder frame, listener.depth + 1⟩ := by
  rw [← openFrame_eq]
  cases signal <;> simp [Signal.opened?] at hopened <;> subst hopened <;> rfl

theorem apply_of_closing {completion : Completion} (listener : Listener β)
    (hclosing : signal.closing? = some completion) :
    listener.apply signal =
      (Builder.exit listener.builder completion).map (⟨·, listener.depth - 1⟩) := by
  cases signal <;> simp [Signal.closing?] at hclosing <;> subst hclosing <;>
    exact listener.closeFrame_eq _ _

end

/-- A self-destruct is closed as soon as it is opened, and the count is as before. -/
theorem apply_selfDestruct (listener : Listener β) (contract beneficiary : Address)
    (balance : Word) :
    listener.apply (.selfDestruct contract beneficiary balance) =
      (Builder.exit (Builder.openFrame listener.builder
        (.ofDestruction contract beneficiary balance)) default).map (⟨·, listener.depth⟩) := by
  change (listener.openFrame (.ofDestruction contract beneficiary balance)).closeFrame
    .selfDestructed default = _
  rw [openFrame_eq, closeFrame_eq]
  rfl

/-- A step does nothing to the builder but for reporting a revert. -/
theorem apply_step (listener : Listener β) (code : Bytes) (position : Nat) (gas : UInt64) :
    listener.apply (.step code position gas) =
      .ok { listener with builder :=
        if (Signal.step code position gas).isRevert then Builder.revert listener.builder
        else listener.builder } := by
  change (Builder.observe listener.builder (listener.stepAt code position gas) >>= _) = _
  rw [Builder.observe_of_scope_none listener.builder rfl]
  rfl

theorem apply_reset (listener : Listener β) (context : Context) :
    listener.apply (.reset context) = .ok ⟨Builder.reset listener.builder context, 0⟩ :=
  rfl

/-- The listener with the image of its builder. -/
def mapBuilder (map : β → γ) (listener : Listener β) : Listener γ :=
  ⟨map listener.builder, listener.depth⟩

section

variable {map : β → γ}

/-- A signal is refused on both sides of a map or on none, and leads from related
listeners to related listeners. -/
theorem apply_mapBuilder (morphism : Builder.FrameMorphism map) (listener : Listener β)
    (signal : Signal) :
    (listener.mapBuilder map).apply signal = (listener.apply signal).map (mapBuilder map) := by
  obtain ⟨frame, hopened⟩ | ⟨completion, hclosing⟩ | ⟨contract, beneficiary, balance, rfl⟩ |
    ⟨code, position, gas, rfl⟩ | ⟨context, rfl⟩ := signal.opens_or_closes
  · rw [apply_of_opened _ hopened, apply_of_opened _ hopened]
    simp only [mapBuilder, Except.map, morphism.openFrame_map]
  · rw [apply_of_closing _ hclosing, apply_of_closing _ hclosing]
    simp only [mapBuilder, morphism.exit_map]
    cases Builder.exit listener.builder completion <;> rfl
  · rw [apply_selfDestruct, apply_selfDestruct]
    simp only [mapBuilder, morphism.openFrame_map, morphism.exit_map]
    cases Builder.exit (Builder.openFrame listener.builder _) _ <;> rfl
  · rw [apply_step, apply_step]
    simp only [mapBuilder, Except.map, morphism.revert_map]
    split <;> rfl
  · rw [apply_reset, apply_reset]
    simp only [mapBuilder, Except.map, morphism.reset_map]

theorem advance_mapBuilder (morphism : Builder.FrameMorphism map) (listener : Listener β)
    (signal : Signal) :
    (listener.mapBuilder map).advance signal = (listener.advance signal).mapBuilder map := by
  unfold advance
  rw [apply_mapBuilder morphism]
  cases listener.apply signal <;> rfl

/-- A map takes each state of a listener to that of the other. -/
theorem run_mapBuilder (morphism : Builder.FrameMorphism map) (listener : Listener β)
    (signals : List Signal) :
    (listener.mapBuilder map).run signals = (listener.run signals).mapBuilder map := by
  induction signals generalizing listener with
  | nil => rfl
  | cons signal signals ih =>
      change ((listener.mapBuilder map).advance signal).run signals = _
      rw [advance_mapBuilder morphism, ih]
      rfl

/-- Signals come down to the same events on both sides of a map. -/
theorem translate_map (morphism : Builder.Morphism map) (builder : β) (signals : List Signal) :
    Signal.translate (map builder) signals = Signal.translate builder signals := by
  induction signals generalizing builder with
  | nil => rfl
  | cons signal signals ih =>
      simp only [Signal.translate]
      rw [morphism.depth_map, morphism.run_map, ih]

end

end Listener

end CallTrace
