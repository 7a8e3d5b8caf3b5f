import CallTrace.Bytes.Basic

/-!
# Actions and results

What a frame of execution did: a message call, the creation of a contract or the
destruction of one.  Each kind has data of its own, and so has each kind of
result.
-/

namespace CallTrace

/-- The four ways of calling a contract. -/
inductive CallVariant where
  | call
  | callCode
  | delegateCall
  | staticCall
deriving DecidableEq, Repr

/-- The lower-case name of the call's opcode. -/
def CallVariant.label : CallVariant → String
  | call => "call"
  | callCode => "callcode"
  | delegateCall => "delegatecall"
  | staticCall => "staticcall"

/-- What a frame is for. -/
inductive Kind where
  | call (variant : CallVariant)
  | create
  | selfDestruct
deriving DecidableEq, Repr

/-- The name of a kind.  Calls go by the name of their opcode. -/
def Kind.label : Kind → String
  | call variant => variant.label
  | create => "create"
  | selfDestruct => "suicide"

/-- A message call. -/
structure Call where
  variant : CallVariant
  caller : Address
  callee : Address
  value : Word
  gas : UInt64
  input : Bytes
deriving DecidableEq

/-- The creation of a contract.  Its address is absent until it is known. -/
structure Creation where
  creator : Address
  value : Word
  gas : UInt64
  initCode : Bytes
  created : Option Address
deriving DecidableEq

/-- The destruction of a contract, whose balance goes to the beneficiary. -/
structure Destruction where
  contract : Address
  beneficiary : Address
  balance : Word
deriving DecidableEq

/-- What a frame did. -/
inductive Action where
  | call (details : Call)
  | create (details : Creation)
  | selfDestruct (details : Destruction)
deriving DecidableEq

namespace Action

/-- The kind of an action. -/
def kind : Action → Kind
  | call details => .call details.variant
  | create _ => .create
  | selfDestruct _ => .selfDestruct

/-- The gas given to the action.  A self-destruct has none. -/
def gas : Action → UInt64
  | call details => details.gas
  | create details => details.gas
  | selfDestruct _ => 0

/-- The action with other gas.  A self-destruct stays as it is. -/
def withGas (gas : UInt64) : Action → Action
  | call details => call { details with gas }
  | create details => create { details with gas }
  | selfDestruct details => selfDestruct details

/-- The address of the new contract, where the action is a creation and the
address is known. -/
def created? : Action → Option Address
  | create details => details.created
  | _ => none

/-- The action with the address of the new contract filled in, if one is given and
the action is a creation. -/
def withCreated : Option Address → Action → Action
  | some address, create details => create { details with created := some address }
  | _, action => action

@[simp]
theorem kind_withGas (gas : UInt64) (action : Action) :
    (action.withGas gas).kind = action.kind := by
  cases action <;> rfl

@[simp]
theorem kind_withCreated (created? : Option Address) (action : Action) :
    (action.withCreated created?).kind = action.kind := by
  cases created? <;> cases action <;> rfl

end Action

/-- What a frame that succeeded brought about. -/
inductive Result where
  | call (gasUsed : UInt64) (output : Bytes)
  | create (gasUsed : UInt64) (created : Option Address) (code : Bytes)
  | selfDestruct
deriving DecidableEq

/-- The gas a result accounts for.  A self-destruct accounts for none. -/
def Result.gasUsed : Result → UInt64
  | call gasUsed _ => gasUsed
  | create gasUsed _ _ => gasUsed
  | selfDestruct => 0

/-- The result of an action that succeeded, made from the gas it used and what it
left behind: the return data of a call, the code of a new contract. -/
def Action.succeed (gasUsed : UInt64) (output : Bytes) : Action → Result
  | call _ => .call gasUsed output
  | create details => .create gasUsed details.created output
  | selfDestruct _ => .selfDestruct

/-- How a frame ended. -/
inductive Outcome where
  | success (result : Result)
  | failure (message : String)
deriving DecidableEq

/-- The failure of a frame that reverted. -/
def Outcome.reverted : Outcome :=
  .failure "execution reverted"

end CallTrace
