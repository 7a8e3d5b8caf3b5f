import CallTrace.Trace.Node

/-!
# Frames as an engine announces them

An engine announces a frame before it runs and reports how the frame ended.  This
file turns the announcement into an action and the report into an outcome.
-/

namespace CallTrace

/-- A frame about to run.  The target of a creation is the address of the new
contract, if that is known; a self-destruct goes from the contract to the
beneficiary, and its value is the balance. -/
structure Frame where
  kind : Kind
  sender : Address
  target : Option Address
  input : Bytes
  gas : UInt64
  value : Word
deriving DecidableEq

namespace Frame

/-- The frame of a message call. -/
def ofCall (variant : CallVariant) (caller callee : Address) (input : Bytes)
    (gas : UInt64) (value : Word) : Frame :=
  ⟨.call variant, caller, some callee, input, gas, value⟩

/-- The frame of a creation. -/
def ofCreation (creator : Address) (created : Option Address) (initCode : Bytes)
    (gas : UInt64) (value : Word) : Frame :=
  ⟨.create, creator, created, initCode, gas, value⟩

/-- The frame of a self-destruct. -/
def ofDestruction (contract beneficiary : Address) (balance : Word) : Frame :=
  ⟨.selfDestruct, contract, some beneficiary, [], 0, balance⟩

/-- The action that the frame stands for.  A target that is missing where the
action needs one is the zero address. -/
def toAction (frame : Frame) : Action :=
  match frame.kind with
  | .call variant =>
      .call {
        variant
        caller := frame.sender
        callee := frame.target.getD default
        value := frame.value
        gas := frame.gas
        input := frame.input }
  | .create =>
      .create {
        creator := frame.sender
        value := frame.value
        gas := frame.gas
        initCode := frame.input
        created := frame.target }
  | .selfDestruct =>
      .selfDestruct {
        contract := frame.sender
        beneficiary := frame.target.getD default
        balance := frame.value }

end Frame

/-- How a frame ended.  The output of a creation is the code of the new contract.
The error is present if the frame failed, whatever its text. -/
structure Completion where
  output : Bytes
  gasUsed : UInt64
  error : Option String
  created : Option Address
deriving DecidableEq

namespace Completion

/-- A frame that succeeded. -/
def success (output : Bytes) (gasUsed : UInt64) : Completion :=
  ⟨output, gasUsed, none, none⟩

/-- A frame that failed. -/
def failure (message : String) (gasUsed : UInt64) : Completion :=
  ⟨[], gasUsed, some message, none⟩

instance : Inhabited Completion :=
  ⟨success [] 0⟩

/-- The outcome of an action that ended so. -/
def outcome (completion : Completion) (action : Action) : Outcome :=
  match completion.error with
  | some message => .failure message
  | none => .success (action.succeed completion.gasUsed completion.output)

end Completion

/-- Closes a node.  A failure that was recorded while the frame was running stays
in place. -/
def Node.close (node : Node) (completion : Completion) : Node :=
  let action := node.action.withCreated completion.created
  let outcome :=
    match node.outcome with
    | some (.failure message) => .failure message
    | _ => completion.outcome action
  { node with action, outcome := some outcome }

end CallTrace
