import CallTrace.Proofs.Builder.Run
import CallTrace.Proofs.Forest.CallTree

/-!
# The forest builder

The forest builder keeps the call trees themselves: those that are complete, and
the open frames with the complete calls made in them so far.  It never numbers or
indexes anything, so each of its operations touches the innermost open frame only.
The trace is read off by walking the trees.

The other builders are pictures of this one: what they keep is a function of the
forest.
-/

namespace CallTrace

/-- A frame that has not exited yet, whether a revert was seen in it and which calls
made in it have exited. -/
structure OpenCall where
  frame : Frame
  isReverted : Bool
  calls : List CallTree

namespace OpenCall

/-- An open frame in which nothing has happened. -/
def fresh (frame : Frame) : OpenCall :=
  ⟨frame, false, []⟩

/-- Adds a call that has exited. -/
def addCall (call : OpenCall) (tree : CallTree) : OpenCall :=
  { call with calls := call.calls ++ [tree] }

/-- Marks the frame as reverted. -/
def revert (call : OpenCall) : OpenCall :=
  { call with isReverted := true }

/-- The call tree of the frame when it exits. -/
def exit (call : OpenCall) (completion : Completion) : CallTree :=
  .node call.frame call.isReverted completion call.calls

/-- The number of frames in the part of a tree that is known. -/
def size (call : OpenCall) : Nat :=
  CallTree.totalSize call.calls + 1

/-- The number of calls made in the frame.  Besides those that have exited there may
be one that is running. -/
def callCount (isCalling : Bool) (call : OpenCall) : Nat :=
  call.calls.length + isCalling.toNat

/-- The node of the frame. -/
def node (isCalling : Bool) (path : Path) (call : OpenCall) : Node where
  action := call.frame.toAction
  outcome := if call.isReverted then some .reverted else none
  path
  subtraces := UInt32.ofNat (call.callCount isCalling)

/-- The path of the next frame to be opened, below open frames given innermost
first. -/
def nextPath : List OpenCall → Path
  | [] => []
  | call :: outer => nextPath outer ++ [UInt32.ofNat call.calls.length]

/-- The number of frames in the known parts of nested calls. -/
def totalSize : List OpenCall → Nat
  | [] => 0
  | call :: outer => totalSize outer + call.size

/-- The trace of the frame and of the calls that were made in it. -/
def trace (isCalling : Bool) (path : Path) (call : OpenCall) : List Node :=
  call.node isCalling path :: CallTree.traceBelow path 0 call.calls

/-- The trace of nested calls, given innermost first.  Only the innermost frame may
have no call running in it. -/
def traceAll (isCalling : Bool) : List OpenCall → List Node
  | [] => []
  | call :: outer => traceAll true outer ++ call.trace isCalling (nextPath outer)

/-- The places of nested calls in a trace, given innermost first, if the outermost
is at the given place. -/
def places (start : Nat) : List OpenCall → List Nat
  | [] => []
  | _ :: outer => (start + totalSize outer) :: places start outer

@[simp]
theorem length_places (start : Nat) (calls : List OpenCall) :
    (places start calls).length = calls.length := by
  induction calls with
  | nil => rfl
  | cons call outer ih => simp [places, ih]

theorem length_trace (isCalling : Bool) (path : Path) (call : OpenCall) :
    (call.trace isCalling path).length = call.size := by
  simp [trace, size, CallTree.length_traceBelow]

@[simp]
theorem length_traceAll (isCalling : Bool) (calls : List OpenCall) :
    (traceAll isCalling calls).length = totalSize calls := by
  induction calls generalizing isCalling with
  | nil => rfl
  | cons call outer ih => simp [traceAll, totalSize, length_trace, ih]

/-- A frame that exits leaves its trace in place, but for its own node. -/
theorem trace_exit (call : OpenCall) (completion : Completion) (path : Path) :
    (call.exit completion).trace path =
      .exited call.frame call.isReverted completion path call.calls.length ::
        CallTree.traceBelow path 0 call.calls :=
  rfl

/-- The trace of a call does not change when a call that runs in it has exited. -/
theorem trace_addCall (call : OpenCall) (tree : CallTree) (path : Path) :
    (call.addCall tree).trace false path =
      call.trace true path ++ tree.trace (path ++ [UInt32.ofNat call.calls.length]) := by
  have hcount : (call.addCall tree).callCount false = call.callCount true := by
    simp [callCount, addCall]
  have hnode : (call.addCall tree).node false path = call.node true path := by
    unfold node
    rw [hcount]
    rfl
  unfold trace
  rw [hnode]
  simp [addCall, CallTree.traceBelow_append_singleton]

end OpenCall

/-- Changes the entry behind a list of known length. -/
theorem modify_append_cons {α : Type} {place : Nat} {before : List α}
    (hplace : before.length = place) (entry : α) (after : List α) (change : α → α) :
    (before ++ entry :: after).modify place change = before ++ change entry :: after := by
  subst hplace
  induction before with
  | nil => rfl
  | cons first before ih => exact congrArg (first :: ·) ih

/-- Call trees in the order in which they began, and the open frames. -/
structure Forest where
  settings : Settings
  context : Context
  /-- The trees that are complete. -/
  roots : List CallTree
  /-- The open frames, innermost first.  The outermost is the root of the last
  tree. -/
  openCalls : List OpenCall

namespace Forest

/-- A forest without trees. -/
def empty (settings : Settings) (context : Context) : Forest :=
  ⟨settings, context, [], []⟩

/-- Opens a frame below the innermost open one, or a root. -/
def openFrame (forest : Forest) (frame : Frame) : Forest :=
  { forest with openCalls := .fresh frame :: forest.openCalls }

/-- Adds a complete call tree to the innermost open frame, or as a root. -/
def addTree (forest : Forest) (tree : CallTree) : Forest :=
  match forest.openCalls with
  | [] => { forest with roots := forest.roots ++ [tree] }
  | call :: outer => { forest with openCalls := call.addCall tree :: outer }

/-- Closes the innermost open frame, if there is one. -/
def closeFrame? (forest : Forest) (completion : Completion) : Option Forest :=
  match forest.openCalls with
  | [] => none
  | call :: outer =>
      some ({ forest with openCalls := outer }.addTree (call.exit completion))

/-- Marks the innermost open frame as reverted. -/
def revert (forest : Forest) : Forest :=
  { forest with openCalls := forest.openCalls.modifyHead OpenCall.revert }

/-- The number of frames in the complete trees. -/
def rootSize (forest : Forest) : Nat :=
  CallTree.totalSize forest.roots

/-- The traces of the complete trees. -/
def rootNodes (forest : Forest) : List Node :=
  forest.roots.flatMap (CallTree.trace [])

/-- The traces of all trees, one behind the other. -/
def nodes (forest : Forest) : List Node :=
  forest.rootNodes ++ OpenCall.traceAll false forest.openCalls

/-- The places of the open frames in the trace, innermost first. -/
def places (forest : Forest) : List Nat :=
  OpenCall.places forest.rootSize forest.openCalls

/-- The trace up to the innermost open frame, given the frames around that. -/
def nodesBefore (forest : Forest) (outer : List OpenCall) : List Node :=
  forest.rootNodes ++ OpenCall.traceAll true outer

/-- The trace up to the innermost open frame, and the trace of that frame. -/
theorem nodes_of_openCalls_cons {forest : Forest} {call : OpenCall} {outer : List OpenCall}
    (hopen : forest.openCalls = call :: outer) :
    forest.nodes = forest.nodesBefore outer ++ call.trace false (OpenCall.nextPath outer) := by
  simp [nodes, nodesBefore, hopen, OpenCall.traceAll]

@[simp]
theorem length_rootNodes (forest : Forest) : forest.rootNodes.length = forest.rootSize := by
  unfold rootNodes rootSize
  induction forest.roots with
  | nil => rfl
  | cons tree trees ih =>
      simp [CallTree.totalSize, CallTree.length_trace, ih]

/-- The innermost open frame has the place behind the trace before it. -/
theorem length_nodesBefore (forest : Forest) (outer : List OpenCall) :
    (forest.nodesBefore outer).length = forest.rootSize + OpenCall.totalSize outer := by
  simp [nodesBefore]

theorem length_nodes (forest : Forest) :
    forest.nodes.length = forest.rootSize + OpenCall.totalSize forest.openCalls := by
  simp [nodes]

theorem places_of_openCalls_cons {forest : Forest} {call : OpenCall} {outer : List OpenCall}
    (hopen : forest.openCalls = call :: outer) :
    forest.places =
      (forest.nodesBefore outer).length :: OpenCall.places forest.rootSize outer := by
  simp [places, hopen, OpenCall.places, length_nodesBefore]

/-- A frame that opens is counted by the innermost open frame, and its node stands at
the end of the trace. -/
theorem nodes_openFrame (forest : Forest) (frame : Frame) :
    (forest.openFrame frame).nodes =
      forest.rootNodes ++ OpenCall.traceAll true forest.openCalls ++
        [Node.fresh frame.toAction (OpenCall.nextPath forest.openCalls)] := by
  simp [nodes, rootNodes, openFrame, OpenCall.traceAll, OpenCall.trace, OpenCall.fresh,
    OpenCall.node, OpenCall.callCount, CallTree.traceBelow, Node.fresh]

theorem places_openFrame (forest : Forest) (frame : Frame) :
    (forest.openFrame frame).places = forest.nodes.length :: forest.places := by
  rw [length_nodes]
  rfl

theorem nodes_revert {forest : Forest} {call : OpenCall} {outer : List OpenCall}
    (hopen : forest.openCalls = call :: outer) :
    forest.revert.nodes =
      forest.nodesBefore outer ++ call.revert.trace false (OpenCall.nextPath outer) := by
  simp [nodes, revert, hopen, nodesBefore, rootNodes, OpenCall.traceAll]

theorem places_revert (forest : Forest) : forest.revert.places = forest.places := by
  unfold places revert
  cases forest.openCalls <;> rfl

theorem addTree_of_nil {forest : Forest} (hopen : forest.openCalls = []) (tree : CallTree) :
    forest.addTree tree = { forest with roots := forest.roots ++ [tree] } := by
  simp only [addTree, hopen]

theorem addTree_of_cons {forest : Forest} {call : OpenCall} {outer : List OpenCall}
    (hopen : forest.openCalls = call :: outer) (tree : CallTree) :
    forest.addTree tree = { forest with openCalls := call.addCall tree :: outer } := by
  simp only [addTree, hopen]

theorem settings_addTree (forest : Forest) (tree : CallTree) :
    (forest.addTree tree).settings = forest.settings := by
  cases hopen : forest.openCalls with
  | nil => rw [addTree_of_nil hopen]
  | cons call outer => rw [addTree_of_cons hopen]

theorem context_addTree (forest : Forest) (tree : CallTree) :
    (forest.addTree tree).context = forest.context := by
  cases hopen : forest.openCalls with
  | nil => rw [addTree_of_nil hopen]
  | cons call outer => rw [addTree_of_cons hopen]

/-- A complete tree puts its trace behind all that was known before, and the innermost
open frame counts it. -/
theorem nodes_addTree (forest : Forest) (tree : CallTree) :
    (forest.addTree tree).nodes =
      forest.rootNodes ++ OpenCall.traceAll true forest.openCalls ++
        tree.trace (OpenCall.nextPath forest.openCalls) := by
  cases hopen : forest.openCalls with
  | nil =>
      rw [addTree_of_nil hopen]
      simp [nodes, rootNodes, hopen, OpenCall.traceAll, OpenCall.nextPath]
  | cons call outer =>
      rw [addTree_of_cons hopen]
      simp [nodes, rootNodes, OpenCall.traceAll, OpenCall.nextPath, OpenCall.trace_addCall]

theorem places_addTree (forest : Forest) (tree : CallTree) :
    (forest.addTree tree).places = forest.places := by
  cases hopen : forest.openCalls with
  | nil =>
      rw [addTree_of_nil hopen]
      simp [places, hopen, OpenCall.places]
  | cons call outer =>
      rw [addTree_of_cons hopen]
      simp [places, rootSize, hopen, OpenCall.places]

theorem length_openCalls_addTree (forest : Forest) (tree : CallTree) :
    (forest.addTree tree).openCalls.length = forest.openCalls.length := by
  cases hopen : forest.openCalls with
  | nil => rw [addTree_of_nil hopen, hopen]
  | cons call outer =>
      rw [addTree_of_cons hopen]
      rfl

theorem length_openCalls_revert (forest : Forest) :
    forest.revert.openCalls.length = forest.openCalls.length :=
  List.length_modifyHead

theorem closeFrame?_of_nil {forest : Forest} (hopen : forest.openCalls = [])
    (completion : Completion) : forest.closeFrame? completion = none := by
  simp only [closeFrame?, hopen]

/-- The innermost open frame becomes a complete tree in the frame around it. -/
theorem closeFrame?_of_cons {forest : Forest} {call : OpenCall} {outer : List OpenCall}
    (hopen : forest.openCalls = call :: outer) (completion : Completion) :
    forest.closeFrame? completion =
      some ({ forest with openCalls := outer }.addTree (call.exit completion)) := by
  simp only [closeFrame?, hopen]

end Forest

instance : Builder Forest where
  settings := Forest.settings
  depth forest := forest.openCalls.length
  trace forest := ⟨forest.context, forest.nodes⟩
  openFrame := Forest.openFrame
  closeFrame? := Forest.closeFrame?
  revert := Forest.revert
  reset forest context := .empty forest.settings context

namespace Forest

theorem exit_of_nil {forest : Forest} (hopen : forest.openCalls = []) (completion : Completion) :
    Builder.exit forest completion = .error .unmatchedExit := by
  have hclose : Builder.closeFrame? forest completion = none := closeFrame?_of_nil hopen completion
  simp [Builder.exit, hclose]

theorem exit_of_cons {forest : Forest} {call : OpenCall} {outer : List OpenCall}
    (hopen : forest.openCalls = call :: outer) (completion : Completion) :
    Builder.exit forest completion =
      .ok ({ forest with openCalls := outer }.addTree (call.exit completion)) :=
  Builder.exit_of_closeFrame? (closeFrame?_of_cons hopen completion)

/-- A frame that is closed as soon as it is opened is a call in which nothing happens. -/
theorem exit_openFrame (forest : Forest) (frame : Frame) (completion : Completion) :
    Builder.exit (Builder.openFrame forest frame) completion =
      .ok (forest.addTree (.node frame false completion [])) := by
  have hopen : (forest.openFrame frame).openCalls = .fresh frame :: forest.openCalls := rfl
  exact exit_of_cons hopen completion

end Forest

end CallTrace
