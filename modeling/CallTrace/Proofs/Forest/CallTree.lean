import CallTrace.Trace.Frame

/-!
# Call trees and their traces

A call tree is a frame that has exited together with the frames that ran inside
it.  Its trace is defined by recursion: the node of the frame, and then the traces
of the calls made in it, in their order.  Each call has the path of the frame with
its own number at the end.

Child counts are 32-bit numbers, so the numbers of calls are taken modulo `2 ^ 32`
here, as they are by the counters of the builders.
-/

namespace CallTrace

namespace Frame

/-- The address of a new contract in the end: the one that the exit reports, or else the one
that was announced. -/
def finalTarget (frame : Frame) (completion : Completion) : Option Address :=
  match completion.created with
  | some address => some address
  | none => frame.target

/-- What a frame has done when it has exited. -/
def finalAction (frame : Frame) (completion : Completion) : Action :=
  match frame.kind with
  | .call variant =>
      .call {
        variant
        caller := frame.sender
        callee := frame.target.getD (.zero 20)
        value := frame.value
        gas := frame.gas
        input := frame.input }
  | .create =>
      .create {
        creator := frame.sender
        value := frame.value
        gas := frame.gas
        initCode := frame.input
        created := frame.finalTarget completion }
  | .selfDestruct =>
      .selfDestruct {
        contract := frame.sender
        beneficiary := frame.target.getD (.zero 20)
        balance := frame.value }

/-- The result of a frame that succeeded. -/
def finalResult (frame : Frame) (completion : Completion) : Result :=
  match frame.kind with
  | .call _ => .call completion.gasUsed completion.output
  | .create => .create completion.gasUsed (frame.finalTarget completion) completion.output
  | .selfDestruct => .selfDestruct

/-- The outcome of a frame.  A revert that was seen in it counts for more than what its exit
reports. -/
def finalOutcome (frame : Frame) (isReverted : Bool) (completion : Completion) : Outcome :=
  if isReverted then
    .failure "execution reverted"
  else
    match completion.error with
    | some message => .failure message
    | none => .success (frame.finalResult completion)

theorem finalAction_eq (frame : Frame) (completion : Completion) :
    frame.finalAction completion = frame.toAction.withCreated completion.created := by
  unfold finalAction finalTarget toAction
  cases frame.kind <;> cases completion.created <;> rfl

theorem finalResult_eq (frame : Frame) (completion : Completion) :
    frame.finalResult completion =
      (frame.finalAction completion).succeed completion.gasUsed completion.output := by
  unfold finalResult finalAction
  cases frame.kind <;> rfl

theorem finalOutcome_eq (frame : Frame) (isReverted : Bool) (completion : Completion) :
    frame.finalOutcome isReverted completion =
      if isReverted then .reverted else completion.outcome (frame.finalAction completion) := by
  unfold finalOutcome Completion.outcome
  rw [finalResult_eq]
  rfl

theorem kind_finalAction (frame : Frame) (completion : Completion) :
    (frame.finalAction completion).kind = frame.kind := by
  unfold finalAction
  cases frame.kind <;> rfl

theorem finalAction_withGas (frame : Frame) (completion : Completion) (gas : UInt64) :
    (frame.finalAction completion).withGas gas =
      finalAction { frame with gas } completion := by
  unfold finalAction
  cases frame.kind <;> rfl

end Frame

/-- The node of a frame that has exited. -/
def Node.exited (frame : Frame) (isReverted : Bool) (completion : Completion) (path : Path)
    (calls : Nat) : Node where
  action := frame.finalAction completion
  outcome := some (frame.finalOutcome isReverted completion)
  path
  subtraces := UInt32.ofNat calls

/-- The gas of a frame shows only in its action. -/
theorem Node.withGas_exited (frame : Frame) (isReverted : Bool) (completion : Completion)
    (path : Path) (calls : Nat) (gas : UInt64) :
    (Node.exited frame isReverted completion path calls).withGas gas =
      .exited { frame with gas } isReverted completion path calls := by
  unfold Node.withGas Node.exited
  rw [Frame.finalAction_withGas]
  rfl

theorem Action.withCreated_withGas (gas : UInt64) (created? : Option Address) (action : Action) :
    (action.withGas gas).withCreated created? = (action.withCreated created?).withGas gas := by
  cases created? <;> cases action <;> rfl

theorem Action.withCreated_withCreated (address : Address) (created? : Option Address)
    (action : Action) :
    (action.withCreated created?).withCreated (some address) =
      action.withCreated (some address) := by
  cases created? <;> cases action <;> rfl

/-- A frame that has exited, whether a revert was seen in it, how it ended and which
calls were made in it. -/
inductive CallTree where
  | node (frame : Frame) (isReverted : Bool) (completion : Completion) (calls : List CallTree)

namespace CallTree

mutual

/-- The number of frames in a tree. -/
def size : CallTree → Nat
  | node _ _ _ calls => totalSize calls + 1

/-- The number of frames in a list of trees. -/
def totalSize : List CallTree → Nat
  | [] => 0
  | tree :: trees => tree.size + totalSize trees

end

mutual

/-- The trace of a tree whose frame has the given path. -/
def trace (path : Path) : CallTree → List Node
  | node frame isReverted completion calls =>
      .exited frame isReverted completion path calls.length :: traceBelow path 0 calls

/-- The traces of calls that were made in the frame with the given path, the first of
them after `count` others. -/
def traceBelow (path : Path) (count : Nat) : List CallTree → List Node
  | [] => []
  | tree :: trees =>
      tree.trace (path ++ [UInt32.ofNat count]) ++ traceBelow path (count + 1) trees

end

mutual

theorem length_trace (path : Path) : (tree : CallTree) → (tree.trace path).length = tree.size
  | node frame isReverted completion calls => by
      simp only [trace, size, List.length_cons]
      rw [length_traceBelow path 0 calls]

theorem length_traceBelow (path : Path) (count : Nat) :
    (trees : List CallTree) → (traceBelow path count trees).length = totalSize trees
  | [] => rfl
  | tree :: trees => by
      simp only [traceBelow, totalSize, List.length_append]
      rw [length_trace _ tree, length_traceBelow path (count + 1) trees]

end

theorem traceBelow_append (path : Path) (count : Nat) (trees others : List CallTree) :
    traceBelow path count (trees ++ others) =
      traceBelow path count trees ++ traceBelow path (count + trees.length) others := by
  induction trees generalizing count with
  | nil => rfl
  | cons tree trees ih =>
      simp only [List.cons_append, traceBelow, List.length_cons, List.append_assoc]
      rw [ih, Nat.add_right_comm, Nat.add_assoc]

/-- A call that was made after others stands behind them in the trace. -/
theorem traceBelow_append_singleton (path : Path) (trees : List CallTree) (tree : CallTree) :
    traceBelow path 0 (trees ++ [tree]) =
      traceBelow path 0 trees ++ tree.trace (path ++ [UInt32.ofNat trees.length]) := by
  rw [traceBelow_append, Nat.zero_add]
  simp [traceBelow]

end CallTree

end CallTrace
