import CallTrace.Precheck.Rejection

/-!
# Exit codes

An engine ends each frame with an exit code.  The trace keeps only a message for
those that are failures, and uses the wording of the prechecks where an engine
makes the same checks inside the frame.
-/

namespace CallTrace

/-- How an engine ended a frame, or why it is not done with it yet. -/
inductive ExitCode where
  | continued
  | stopped
  | returned
  | selfDestructed
  | returnedContract
  | callOrCreate
  | reverted
  | callTooDeep
  | outOfFunds
  | createInitCodeStartingEF00
  | invalidEOFInitCode
  | invalidExtDelegateCallTarget
  | outOfGas
  | memoryOutOfGas
  | memoryLimitOutOfGas
  | precompileOutOfGas
  | invalidOperandOutOfGas
  | reentrancySentryOutOfGas
  | opcodeNotFound
  | callNotAllowedInsideStatic
  | stateChangeDuringStaticCall
  | invalidFEOpcode
  | invalidJump
  | notActivated
  | stackUnderflow
  | stackOverflow
  | outOfOffset
  | createCollision
  | overflowPayment
  | precompileError
  | nonceOverflow
  | createContractSizeLimit
  | createContractStartingWithEF
  | createInitCodeSizeLimit
  | fatalExternalError
  | returnContractInNotInitEOF
  | eofOpcodeDisabledInLegacy
  | subRoutineStackOverflow
  | eofAuxDataOverflow
  | eofAuxDataTooSmall
  | invalidExtCallTarget
deriving DecidableEq, Repr

namespace ExitCode

/-- The message under which a failure is recorded.  Exit codes that are no failures
have none, and failures without a wording of their own go by their names. -/
def message? : ExitCode → Option String
  | continued | stopped | returned | selfDestructed | returnedContract | callOrCreate
  | invalidExtDelegateCallTarget => none
  | reverted | createInitCodeStartingEF00 | invalidEOFInitCode => some "execution reverted"
  | callTooDeep => some Precheck.Failure.tooDeep.message
  | outOfFunds => some Precheck.Failure.insufficientBalance.message
  | nonceOverflow => some Precheck.Failure.nonceOverflow.message
  | createCollision => some Precheck.Failure.addressCollision.message
  | outOfGas | memoryOutOfGas | memoryLimitOutOfGas | precompileOutOfGas
  | invalidOperandOutOfGas | reentrancySentryOutOfGas => some "out of gas"
  | opcodeNotFound | invalidFEOpcode | returnContractInNotInitEOF
  | eofOpcodeDisabledInLegacy => some "invalid opcode"
  | invalidJump => some "invalid jump destination"
  | stackUnderflow => some "stack underflow"
  | stackOverflow => some "stack overflow"
  | outOfOffset => some "return data out of bounds"
  | stateChangeDuringStaticCall | callNotAllowedInsideStatic => some "write protection"
  | createContractSizeLimit | createContractStartingWithEF => some "max code size exceeded"
  | createInitCodeSizeLimit => some "max initcode size exceeded"
  | fatalExternalError => some "fatal external error"
  | notActivated => some "NotActivated"
  | overflowPayment => some "OverflowPayment"
  | precompileError => some "PrecompileError"
  | subRoutineStackOverflow => some "SubRoutineStackOverflow"
  | eofAuxDataOverflow => some "EofAuxDataOverflow"
  | eofAuxDataTooSmall => some "EofAuxDataTooSmall"
  | invalidExtCallTarget => some "InvalidEXTCALLTarget"

end ExitCode

end CallTrace
