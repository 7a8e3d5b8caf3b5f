import CallTrace.Builder.Event
import CallTrace.Engine.ExitCode

/-!
# Listening to an engine

A listener is called by an engine at the beginning and at the end of each frame
and before each opcode, and passes on to a trace builder what happens.  It counts
the open frames by itself, so as to tell the root from other frames.

The engine makes its prechecks inside a frame, so opcodes are passed on without a
scope and no rejected frame is ever added.
-/

namespace CallTrace

/-- How an engine runs a message call. -/
inductive CallScheme where
  | call
  | callCode
  | delegateCall
  | staticCall
  | extCall
  | extStaticCall
  | extDelegateCall
deriving DecidableEq, Repr

/-- The way of calling under which a scheme is recorded. -/
def CallScheme.variant : CallScheme → CallVariant
  | callCode => .callCode
  | delegateCall => .delegateCall
  | staticCall => .staticCall
  | call | extCall | extStaticCall | extDelegateCall => .call

/-- The input of a call: bytes of its own, or a part of the caller's memory. -/
inductive CallInput where
  | own (bytes : Bytes)
  | shared (start stop : Nat) (memory : Bytes)
deriving DecidableEq

/-- The bytes of an input.  A part that the memory does not have is empty. -/
def CallInput.bytes : CallInput → Bytes
  | own bytes => bytes
  | shared start stop memory =>
      if start ≤ stop ∧ stop ≤ memory.length then (memory.drop start).take (stop - start) else []

/-- A call that an engine is about to run.  The target is the account whose state
the call works on, and the code is taken from an account of its own. -/
structure CallInputs where
  scheme : CallScheme
  caller : Address
  target : Address
  codeAccount : Address
  value : Word
  gasLimit : UInt64
  input : CallInput
deriving DecidableEq

/-- The frame of a call.  A delegate call runs in the place of its caller: it goes
out from the account it works on.  Only plain calls and calls of code carry a
value. -/
def CallInputs.frame (inputs : CallInputs) : Frame :=
  let frame := Frame.ofCall inputs.scheme.variant
  let input := inputs.input.bytes
  match inputs.scheme.variant with
  | .delegateCall => frame inputs.target inputs.codeAccount input inputs.gasLimit 0
  | .callCode => frame inputs.caller inputs.codeAccount input inputs.gasLimit inputs.value
  | .staticCall => frame inputs.caller inputs.target input inputs.gasLimit 0
  | .call => frame inputs.caller inputs.target input inputs.gasLimit inputs.value

/-- A creation that an engine is about to run. -/
structure CreateInputs where
  creator : Address
  value : Word
  initCode : Bytes
  gasLimit : UInt64
deriving DecidableEq

/-- The frame of a creation.  Its address is learnt at the end. -/
def CreateInputs.frame (inputs : CreateInputs) : Frame :=
  .ofCreation inputs.creator none inputs.initCode inputs.gasLimit inputs.value

/-- How an engine ended a frame. -/
structure Ending where
  exitCode : ExitCode
  output : Bytes
  gasSpent : UInt64
  created : Option Address
deriving DecidableEq

/-- A trace builder that listens to an engine, and the number of frames open. -/
structure Listener (β : Type) where
  builder : β
  depth : Nat
deriving DecidableEq

namespace Listener

variable {β : Type} [Builder β]

/-- A listener with a builder that has no open frames. -/
def ofBuilder (builder : β) : Listener β :=
  ⟨builder, 0⟩

/-- Opens a frame, as the root if no frame is open. -/
def openFrame (listener : Listener β) (frame : Frame) : Listener β :=
  let event : Event := if listener.depth = 0 then .start frame else .enter frame
  ⟨Builder.advance listener.builder event, listener.depth + 1⟩

/-- Closes the innermost frame.  The message of the exit code, if there is one,
takes the place of the error. -/
def closeFrame (listener : Listener β) (exitCode : ExitCode) (completion : Completion) :
    Except EventError (Listener β) := do
  let error :=
    match exitCode.message? with
    | some message => some message
    | none => completion.error
  let builder ← Builder.apply listener.builder (.exit { completion with error })
  return ⟨builder, listener.depth - 1⟩

/-- Records a self-destruct: a frame that is opened and closed at once. -/
def selfDestruct (listener : Listener β) (contract beneficiary : Address) (balance : Word) :
    Except EventError (Listener β) :=
  (listener.openFrame (.ofDestruction contract beneficiary balance)).closeFrame
    .selfDestructed default

/-- A call begins. -/
def call (listener : Listener β) (inputs : CallInputs) : Listener β :=
  listener.openFrame inputs.frame

/-- A call has ended. -/
def callEnd (listener : Listener β) (ending : Ending) : Except EventError (Listener β) :=
  listener.closeFrame ending.exitCode (.success ending.output ending.gasSpent)

/-- A creation begins. -/
def create (listener : Listener β) (inputs : CreateInputs) : Listener β :=
  listener.openFrame inputs.frame

/-- A creation has ended. -/
def createEnd (listener : Listener β) (ending : Ending) : Except EventError (Listener β) :=
  listener.closeFrame ending.exitCode
    { Completion.success ending.output ending.gasSpent with created := ending.created }

/-- The step at a position of the running code.  The code is followed by zeros. -/
def stepAt (listener : Listener β) (code : Bytes) (position : Nat) (gas : UInt64) : Step where
  opcode := code[position]?.getD 0
  gas
  depth := listener.depth
  error := none
  scope := none
  state := none

/-- An opcode is about to run. -/
def step (listener : Listener β) (code : Bytes) (position : Nat) (gas : UInt64) :
    Except EventError (Listener β) := do
  let builder ← Builder.apply listener.builder (.opcode (listener.stepAt code position gas))
  return { listener with builder }

/-- Turns to another transaction. -/
def reset (listener : Listener β) (context : Context) : Listener β :=
  ⟨Builder.advance listener.builder (.reset context), 0⟩

end Listener

/-- What an engine tells a listener. -/
inductive Signal where
  | openFrame (frame : Frame)
  | closeFrame (exitCode : ExitCode) (completion : Completion)
  | selfDestruct (contract beneficiary : Address) (balance : Word)
  | call (inputs : CallInputs)
  | callEnd (ending : Ending)
  | create (inputs : CreateInputs)
  | createEnd (ending : Ending)
  | step (code : Bytes) (position : Nat) (gas : UInt64)
  | reset (context : Context)

namespace Listener

variable {β : Type} [Builder β]

/-- Takes in a signal. -/
def apply (listener : Listener β) : Signal → Except EventError (Listener β)
  | .openFrame frame => .ok (listener.openFrame frame)
  | .closeFrame exitCode completion => listener.closeFrame exitCode completion
  | .selfDestruct contract beneficiary balance =>
      listener.selfDestruct contract beneficiary balance
  | .call inputs => .ok (listener.call inputs)
  | .callEnd ending => listener.callEnd ending
  | .create inputs => .ok (listener.create inputs)
  | .createEnd ending => listener.createEnd ending
  | .step code position gas => listener.step code position gas
  | .reset context => .ok (listener.reset context)

/-- The listener after a signal.  By the time the builder refuses a signal, the frame
that it ends has been counted off already. -/
def advance (listener : Listener β) (signal : Signal) : Listener β :=
  match listener.apply signal with
  | .ok next => next
  | .error _ => { listener with depth := listener.depth - 1 }

/-- The listener after a sequence of signals. -/
def run (listener : Listener β) (signals : List Signal) : Listener β :=
  signals.foldl advance listener

end Listener

end CallTrace
