import CallTrace.Proofs.Builder.Run

/-!
# Counting the frames of a run

How many frames have been opened and closed since the last reset is counted along a
run, event by event.  What is counted is what a builder takes in: an exit counts only
if it is not refused, and a rejected frame is opened and closed by one opcode.

A builder that changes its depth by one with each frame has as many frames open as it
has opened more than it has closed.
-/

namespace CallTrace

/-- How many frames were opened and how many were closed. -/
structure Traffic where
  opened : Nat
  closed : Nat
deriving DecidableEq

namespace Traffic

/-- Counts a frame that is opened. -/
def addOpened (traffic : Traffic) : Traffic :=
  { traffic with opened := traffic.opened + 1 }

/-- Counts a frame that is closed. -/
def addClosed (traffic : Traffic) : Traffic :=
  { traffic with closed := traffic.closed + 1 }

section

variable {β : Type} [Builder β]

/-- Counts what an event opens and closes that reaches a builder in the given state. -/
def count (traffic : Traffic) (builder : β) : Event → Traffic
  | .start _ | .enter _ => traffic.addOpened
  | .exit completion =>
      match Builder.exit builder completion with
      | .ok _ => traffic.addClosed
      | .error _ => traffic
  | .opcode step =>
      match (Builder.settings builder).rejection? step with
      | some _ => traffic.addOpened.addClosed
      | none => traffic
  | .fault _ | .revert => traffic
  | .reset _ => ⟨0, 0⟩

/-- Counts what a run opens and closes, from its last reset on. -/
def countAll (traffic : Traffic) (builder : β) : List Event → Traffic
  | [] => traffic
  | event :: events =>
      (traffic.count builder event).countAll (Builder.advance builder event) events

end

end Traffic

namespace Builder

variable {β : Type} [Builder β]

/-- A builder whose depth changes by one with each frame that is opened or closed. -/
structure CountsFrames (β : Type) [Builder β] : Prop where
  depth_openFrame : ∀ (builder : β) frame, depth (openFrame builder frame) = depth builder + 1
  depth_closeFrame? : ∀ (builder next : β) completion,
    closeFrame? builder completion = some next → depth next + 1 = depth builder
  depth_revert : ∀ builder : β, depth (revert builder) = depth builder
  depth_reset : ∀ (builder : β) context, depth (reset builder context) = 0

namespace CountsFrames

variable {builder next : β}

theorem depth_exit (counts : CountsFrames β) {completion : Completion}
    (hexit : exit builder completion = .ok next) : depth next + 1 = depth builder :=
  counts.depth_closeFrame? builder next completion (exit_eq_ok_iff.mp hexit)

/-- A rejected frame is closed as soon as it is opened. -/
theorem depth_addRejected (counts : CountsFrames β) {rejection : Precheck.Rejection}
    (hadd : addRejected builder rejection = .ok next) : depth next = depth builder := by
  have hexit := counts.depth_exit hadd
  rw [counts.depth_openFrame] at hexit
  exact Nat.succ.inj hexit

theorem depth_observe (counts : CountsFrames β) {step : Step}
    (hobserve : observe builder step = .ok next) : depth next = depth builder := by
  rcases observe_cases hobserve with ⟨-, rfl⟩ | ⟨rejection, -, hadd⟩ | ⟨-, rfl⟩
  · exact counts.depth_revert builder
  · exact counts.depth_addRejected hadd
  · rfl

/-- An event changes the depth by the frames that it opens and closes. -/
theorem depth_advance (counts : CountsFrames β) (event : Event) {traffic : Traffic}
    (hbuilder : depth builder + traffic.closed = traffic.opened) :
    depth (advance builder event) + (traffic.count builder event).closed =
      (traffic.count builder event).opened := by
  cases event with
  | start frame | enter frame =>
      change depth (openFrame builder frame) + traffic.closed = traffic.opened + 1
      rw [counts.depth_openFrame, Nat.add_right_comm, hbuilder]
  | exit completion =>
      cases hexit : exit builder completion with
      | error error => simpa [advance, apply, Traffic.count, hexit] using hbuilder
      | ok next =>
          have hnext := counts.depth_exit hexit
          simp only [advance, apply, Traffic.count, hexit, Traffic.addClosed]
          rw [← Nat.add_assoc, Nat.add_right_comm, hnext, hbuilder]
  | opcode step =>
      have hdepth : depth (advance builder (.opcode step)) = depth builder := by
        cases hobserve : observe builder step with
        | error error => simp [advance, apply, hobserve]
        | ok next => simpa [advance, apply, hobserve] using counts.depth_observe hobserve
      rw [hdepth]
      cases hrejection : (settings builder).rejection? step with
      | none => simpa [Traffic.count, hrejection] using hbuilder
      | some rejection =>
          simp only [Traffic.count, hrejection, Traffic.addClosed, Traffic.addOpened]
          rw [← Nat.add_assoc, hbuilder]
  | fault step => exact hbuilder
  | revert =>
      change depth (revert builder) + traffic.closed = traffic.opened
      rw [counts.depth_revert, hbuilder]
  | reset context => exact counts.depth_reset builder context

/-- Throughout a run, the frames that are open are those that were opened and not
closed. -/
theorem depth_run (counts : CountsFrames β) (events : List Event) {traffic : Traffic}
    (hbuilder : depth builder + traffic.closed = traffic.opened) :
    depth (run builder events) + (traffic.countAll builder events).closed =
      (traffic.countAll builder events).opened := by
  induction events generalizing builder traffic with
  | nil => exact hbuilder
  | cons event events ih => exact ih (counts.depth_advance event hbuilder)

end CountsFrames

end Builder

end CallTrace
