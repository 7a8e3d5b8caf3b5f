import CallTrace.Keccak
import CallTrace.Precheck.Inquiry
import CallTrace.Precheck.Scope
import CallTrace.Rlp.Compound
import CallTrace.Trace.Frame

/-!
# Frames that are rejected before they run

Before an engine runs a call or a creation it makes some cheap checks.  If one of
them fails, the frame is rejected without having been announced.  This file finds
out, from the opcode about to run, whether that is so, and which frame it is.

The checks are made in a fixed order and the first to fail decides:

* an error that the engine has reported for the opcode;
* the limit of the call depth;
* the balance for a transfer of value;
* for creations, the nonce of the creator;
* for creations, the address of the new contract.

The address of a new contract is the end of a digest: of the creator and its nonce, or
of the creator, a salt and the code that sets the contract up.
-/

namespace CallTrace

namespace Address

/-- The address of the contract that an account creates at the given nonce. -/
def ofNonce (creator : Address) (nonce : UInt64) : Address :=
  let fields := (Rlp.Codec.fixedBytes 20).both Rlp.Codec.uint64
  ofHash (Keccak.digest (fields.record.encode (creator, nonce)))

/-- The address of the contract that an account creates from a salt and code. -/
def ofSalt (creator : Address) (salt : Word) (initCode : Bytes) : Address :=
  ofHash <| Keccak.digest <|
    [0xff] ++ creator.bytes ++ (Hash.ofWord salt).bytes ++ (Keccak.digest initCode).bytes

end Address

/-- An opcode about to run.  Its depth is one in the root frame.  The scope and the
state are absent where an engine announces rejected frames itself. -/
structure Step where
  opcode : UInt8
  gas : UInt64
  depth : Nat
  error : Option String
  scope : Option Scope
  state : Option StateView

namespace Precheck

/-- Why a frame was rejected. -/
inductive Failure where
  | reported (message : String)
  | tooDeep
  | insufficientBalance
  | nonceOverflow
  | addressCollision
deriving DecidableEq, Repr

/-- The wording of a failure. -/
def Failure.message : Failure → String
  | reported message => message
  | tooDeep => "max call depth exceeded"
  | insufficientBalance => "insufficient balance for transfer"
  | nonceOverflow => "nonce uint64 overflow"
  | addressCollision => "contract address collision"

/-- A rejected frame. -/
structure Rejection where
  frame : Frame
  failure : Failure
deriving DecidableEq

/-- An opcode that opens a frame. -/
inductive Opening where
  | call (variant : CallVariant)
  | create
  | saltedCreate
deriving DecidableEq, Repr

namespace Opening

/-- The opening behind an opcode. -/
def ofOpcode? (opcode : UInt8) : Option Opening :=
  match opcode with
  | 0xf0 => some .create
  | 0xf1 => some (.call .call)
  | 0xf2 => some (.call .callCode)
  | 0xf4 => some (.call .delegateCall)
  | 0xf5 => some .saltedCreate
  | 0xfa => some (.call .staticCall)
  | _ => none

/-- The frame of a call that carries a value, with the operands target, value,
offset and size below the gas. -/
def paidCall (variant : CallVariant) (scope : Scope) (gas : UInt64) : Frame :=
  .ofCall variant scope.contract (.ofWord (scope.peek 1)) (scope.memoryOperand 3 4) gas
    (scope.peek 2)

/-- The frame of a call without a value, with the operands target, offset and size
below the gas. -/
def freeCall (variant : CallVariant) (scope : Scope) (gas : UInt64) : Frame :=
  .ofCall variant scope.contract (.ofWord (scope.peek 1)) (scope.memoryOperand 2 3) gas 0

/-- The frame that an opening asks for.  The address of a new contract is left
open. -/
def frame (opening : Opening) (scope : Scope) (gas : UInt64) : Frame :=
  match opening with
  | .call .call => paidCall .call scope gas
  | .call .callCode => paidCall .callCode scope gas
  | .call .delegateCall => freeCall .delegateCall scope gas
  | .call .staticCall => freeCall .staticCall scope gas
  | .create | .saltedCreate =>
      .ofCreation scope.contract none (scope.memoryOperand 1 2) gas (scope.peek 0)

end Opening

/-- Rejects the frame if the engine has reported an error. -/
def checkReported (step : Step) (frame : Frame) : Inquiry (Option Rejection) :=
  .done (step.error.map fun message => ⟨frame, .reported message⟩)

/-- Rejects the frame if it is opened below the deepest level allowed. -/
def checkDepth (maxCallDepth : Nat) (step : Step) (frame : Frame) : Inquiry (Option Rejection) :=
  .done (if maxCallDepth < step.depth then some ⟨frame, .tooDeep⟩ else none)

/-- Rejects the frame if its sender cannot pay its value.  No question is put about
a value of zero. -/
def checkBalance (frame : Frame) : Inquiry (Option Rejection) :=
  if frame.value = 0 then
    .done none
  else
    .ask (.canTransfer frame.sender frame.value) fun canTransfer =>
      .done (if canTransfer then none else some ⟨frame, .insufficientBalance⟩)

/-- Rejects a creation at an address that is in use.  Only such a frame tells its
address. -/
def checkAddress (address : Address) (frame : Frame) : Inquiry (Option Rejection) :=
  .ask (.isOccupied address) fun isOccupied =>
    .done <|
      if isOccupied then some ⟨{ frame with target := some address }, .addressCollision⟩ else none

/-- Rejects a creation whose creator has no nonce left, and then one at an address
that is in use.  The address may depend on the nonce. -/
def checkCreation (addressAt : UInt64 → Address) (frame : Frame) : Inquiry (Option Rejection) :=
  .ask (.nonce frame.sender) fun nonce =>
    if nonce.toNat = UInt64.size - 1 then
      .done (some ⟨frame, .nonceOverflow⟩)
    else
      checkAddress (addressAt nonce) frame

/-- The check of the new contract, if the opening is a creation. -/
def checkContract (opening : Opening) (scope : Scope) (frame : Frame) :
    Inquiry (Option Rejection) :=
  match opening with
  | .call _ => .done none
  | .create => checkCreation (Address.ofNonce frame.sender) frame
  | .saltedCreate =>
      checkCreation (fun _ => Address.ofSalt frame.sender (scope.peek 3) frame.input) frame

/-- All checks of an opening, in their order. -/
def check (maxCallDepth : Nat) (step : Step) (opening : Opening) (scope : Scope) :
    Inquiry (Option Rejection) :=
  let frame := opening.frame scope step.gas
  (checkReported step frame).orElse <|
    (checkDepth maxCallDepth step frame).orElse <|
      (checkBalance frame).orElse <|
        checkContract opening scope frame

/-- The inquiry that a step gives rise to.  Without a scope, and for an opcode that
opens no frame, there is nothing to find. -/
def inquiry (maxCallDepth : Nat) (step : Step) : Inquiry (Option Rejection) :=
  match step.scope, Opening.ofOpcode? step.opcode with
  | some scope, some opening => check maxCallDepth step opening scope
  | _, _ => .done none

/-- The frame that is rejected at a step.  Without a view of the state none is. -/
def rejection? (maxCallDepth : Nat) (step : Step) : Option Rejection :=
  step.state.bind fun state => (inquiry maxCallDepth step).result state

/-- The questions that are put at a step. -/
def questions (maxCallDepth : Nat) (step : Step) : List Question :=
  step.state.elim [] fun state => (inquiry maxCallDepth step).questions state

end Precheck

end CallTrace
