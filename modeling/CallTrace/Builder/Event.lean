import CallTrace.Precheck.Rejection

/-!
# Events and trace builders

An engine reports the course of a transaction as events: frames are opened and
closed, opcodes are about to run.  A trace builder consumes them.  Builders differ
in how they keep the frames, but share what an event means; this is set down here
once, on top of the few operations in which they differ.
-/

namespace CallTrace

/-- What builders can be told in advance. -/
structure Settings where
  /-- The depth below which no frame may be opened. -/
  maxCallDepth : Nat
  /-- Whether frames that the engine rejects without announcing them are added to
  the trace. -/
  addsRejected : Bool
deriving DecidableEq

instance : Inhabited Settings :=
  ⟨⟨1024, true⟩⟩

/-- What an engine reports. -/
inductive Event where
  | start (frame : Frame)
  | enter (frame : Frame)
  | exit (completion : Completion)
  | opcode (step : Step)
  | fault (step : Step)
  | revert
  | reset (context : Context)

/-- Why an event is refused. -/
inductive EventError where
  | unmatchedExit
deriving DecidableEq, Repr

/-- The wording of an error. -/
def EventError.message : EventError → String
  | unmatchedExit => "exit event without a matching enter"

/-- The operations in which trace builders differ. -/
class Builder (β : Type) where
  settings : β → Settings
  /-- The number of open frames. -/
  depth : β → Nat
  /-- The trace as far as it is known. -/
  trace : β → TraceSet
  /-- Opens a frame below the innermost open one, or a root. -/
  openFrame : β → Frame → β
  /-- Closes the innermost open frame, if there is one. -/
  closeFrame? : β → Completion → Option β
  /-- Marks the innermost open frame as reverted. -/
  revert : β → β
  /-- Drops everything and turns to another transaction. -/
  reset : β → Context → β

/-- Whether an opcode is the one that reverts its frame. -/
def Step.isRevert (step : Step) : Bool :=
  step.opcode == 0xfd

namespace Settings

/-- The frame that has to be added to the trace at a step. -/
def rejection? (settings : Settings) (step : Step) : Option Precheck.Rejection :=
  if settings.addsRejected ∧ ¬ step.isRevert then
    Precheck.rejection? settings.maxCallDepth step
  else
    none

/-- The questions about the state that are put at a step. -/
def questions (settings : Settings) (step : Step) : List Question :=
  if settings.addsRejected ∧ ¬ step.isRevert then
    Precheck.questions settings.maxCallDepth step
  else
    []

end Settings

namespace Builder

variable {β : Type} [Builder β]

/-- Closes the innermost open frame. -/
def exit (builder : β) (completion : Completion) : Except EventError β :=
  match closeFrame? builder completion with
  | some next => .ok next
  | none => .error .unmatchedExit

/-- Adds a rejected frame: opened, and closed at once with its failure. -/
def addRejected (builder : β) (rejection : Precheck.Rejection) : Except EventError β :=
  exit (openFrame builder rejection.frame) (.failure rejection.failure.message 0)

/-- Observes an opcode about to run. -/
def observe (builder : β) (step : Step) : Except EventError β :=
  if step.isRevert then
    .ok (revert builder)
  else
    match (settings builder).rejection? step with
    | some rejection => addRejected builder rejection
    | none => .ok builder

/-- Takes in an event.  Faults are reported again when their frame exits, so they
change nothing. -/
def apply (builder : β) : Event → Except EventError β
  | .start frame => .ok (openFrame builder frame)
  | .enter frame => .ok (openFrame builder frame)
  | .exit completion => exit builder completion
  | .opcode step => observe builder step
  | .fault _ => .ok builder
  | .revert => .ok (revert builder)
  | .reset context => .ok (reset builder context)

/-- The questions about the state that an event gives rise to. -/
def questions (builder : β) : Event → List Question
  | .opcode step => (settings builder).questions step
  | _ => []

/-- The builder after an event.  An event that is refused changes nothing. -/
def advance (builder : β) (event : Event) : β :=
  match apply builder event with
  | .ok next => next
  | .error _ => builder

/-- The builder after a sequence of events. -/
def run (builder : β) (events : List Event) : β :=
  events.foldl advance builder

end Builder

end CallTrace
