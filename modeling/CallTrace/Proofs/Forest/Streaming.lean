import CallTrace.Proofs.Builder.Allocation
import CallTrace.Proofs.Builder.Morphism
import CallTrace.Proofs.Forest.Basic

/-!
# The streaming builder as a picture of the forest

The streaming builder holds the trace of the forest and the places of its open
frames, at every moment.  It gets there by changing the trace in place; that the
changes keep step with the forest is shown here for each operation.
-/

namespace CallTrace.Streaming

open OpenCall (nextPath)

/-- The streaming builder that belongs to a forest. -/
def ofForest (forest : Forest) : Streaming :=
  ⟨forest.settings, forest.context, forest.nodes, forest.places⟩

@[simp]
theorem countChild_node (path : Path) (call : OpenCall) :
    (call.node false path).countChild = call.node true path := by
  simp [OpenCall.node, OpenCall.callCount, Node.countChild]

@[simp]
theorem revert_node (isCalling : Bool) (path : Path) (call : OpenCall) :
    (call.node isCalling path).revert = call.revert.node isCalling path :=
  rfl

/-- A revert that was recorded in an open frame is what its exit finds. -/
@[simp]
theorem close_node (path : Path) (call : OpenCall) (completion : Completion) :
    (call.node false path).close completion =
      .exited call.frame call.isReverted completion path call.calls.length := by
  cases hreverted : call.isReverted <;>
    simp [OpenCall.node, OpenCall.callCount, Node.close, Node.exited, Frame.finalAction_eq,
      Frame.finalOutcome_eq, hreverted, Outcome.reverted]

variable {forest : Forest} {call : OpenCall} {outer : List OpenCall}

theorem openFrames_ofForest (hopen : forest.openCalls = call :: outer) :
    (ofForest forest).openFrames =
      (forest.nodesBefore outer).length :: OpenCall.places forest.rootSize outer :=
  Forest.places_of_openCalls_cons hopen

theorem nodes_ofForest (hopen : forest.openCalls = call :: outer) :
    (ofForest forest).nodes =
      forest.nodesBefore outer ++
        call.node false (nextPath outer) :: CallTree.traceBelow (nextPath outer) 0 call.calls :=
  Forest.nodes_of_openCalls_cons hopen

theorem innermost?_ofForest (hopen : forest.openCalls = call :: outer) :
    (ofForest forest).innermost? = some (call.node false (nextPath outer)) := by
  unfold innermost?
  rw [openFrames_ofForest hopen, nodes_ofForest hopen]
  simp

theorem updateInnermost_ofForest (hopen : forest.openCalls = call :: outer)
    (change : Node → Node) :
    (ofForest forest).updateInnermost change =
      forest.nodesBefore outer ++
        change (call.node false (nextPath outer)) ::
          CallTree.traceBelow (nextPath outer) 0 call.calls := by
  unfold updateInnermost
  rw [openFrames_ofForest hopen, nodes_ofForest hopen]
  exact modify_append_cons rfl _ _ change

/-- The next frame gets the path that it has in the forest. -/
theorem childPath_ofForest (forest : Forest) :
    childPath (ofForest forest).innermost? = nextPath forest.openCalls := by
  cases hopen : forest.openCalls with
  | nil => simp [innermost?, ofForest, Forest.places, OpenCall.places, hopen, childPath, nextPath]
  | cons call outer =>
      rw [innermost?_ofForest hopen]
      simp [childPath, Node.nextChildPath, OpenCall.node, OpenCall.callCount, nextPath]

/-- The innermost open frame counts a call that begins in it. -/
theorem updateInnermost_countChild (forest : Forest) :
    (ofForest forest).updateInnermost Node.countChild =
      forest.rootNodes ++ OpenCall.traceAll true forest.openCalls := by
  cases hopen : forest.openCalls with
  | nil => simp [updateInnermost, ofForest, Forest.places, OpenCall.places, Forest.nodes, hopen,
      OpenCall.traceAll]
  | cons call outer =>
      rw [updateInnermost_ofForest hopen, countChild_node]
      simp [Forest.nodesBefore, OpenCall.traceAll, OpenCall.trace]

theorem openFrame_ofForest (forest : Forest) (frame : Frame) :
    (ofForest forest).openFrame frame = ofForest (forest.openFrame frame) := by
  rw [openFrame_eq, updateInnermost_countChild, childPath_ofForest]
  unfold ofForest
  rw [Forest.nodes_openFrame, Forest.places_openFrame]
  rfl

theorem revert_ofForest (forest : Forest) :
    (ofForest forest).revert = ofForest forest.revert := by
  cases hopen : forest.openCalls with
  | nil =>
      simp [revert, updateInnermost, ofForest, Forest.revert, Forest.nodes, Forest.rootNodes,
        Forest.places, Forest.rootSize, OpenCall.places, hopen]
  | cons call outer =>
      unfold revert
      rw [updateInnermost_ofForest hopen, revert_node]
      unfold ofForest
      rw [Forest.nodes_revert hopen, Forest.places_revert]
      rfl

theorem closeFrame?_ofForest (forest : Forest) (completion : Completion) :
    (ofForest forest).closeFrame? completion =
      (forest.closeFrame? completion).map ofForest := by
  cases hopen : forest.openCalls with
  | nil =>
      rw [Forest.closeFrame?_of_nil hopen]
      simp [closeFrame?, ofForest, Forest.places, OpenCall.places, hopen]
  | cons call outer =>
      have hnodes : (ofForest forest).nodes.modify (forest.nodesBefore outer).length
          (fun node => node.close completion) =
            forest.nodesBefore outer ++ (call.exit completion).trace (nextPath outer) := by
        rw [nodes_ofForest hopen, modify_append_cons rfl, close_node, OpenCall.trace_exit]
      unfold closeFrame?
      rw [openFrames_ofForest hopen, Forest.closeFrame?_of_cons hopen]
      simp only [Option.map_some, Option.some.injEq]
      rw [hnodes]
      unfold ofForest
      rw [Forest.settings_addTree, Forest.context_addTree, Forest.nodes_addTree,
        Forest.places_addTree]
      rfl

/-- The streaming builder does to its trace what is done to the forest. -/
theorem morphism_ofForest : Builder.Morphism ofForest where
  settings_map _ := rfl
  depth_map forest := OpenCall.length_places forest.rootSize forest.openCalls
  openFrame_map := openFrame_ofForest
  closeFrame?_map := closeFrame?_ofForest
  revert_map := revert_ofForest
  reset_map _ _ := rfl

/-- A run of the streaming builder shows the forest that the same events grow. -/
theorem run_eq_ofForest (settings : Settings) (context : Context) (events : List Event) :
    Builder.run (empty settings context) events =
      ofForest (Builder.run (Forest.empty settings context) events) :=
  morphism_ofForest.run_map (Forest.empty settings context) events

end CallTrace.Streaming
