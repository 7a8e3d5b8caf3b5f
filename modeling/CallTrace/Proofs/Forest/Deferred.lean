import CallTrace.Proofs.Builder.Allocation
import CallTrace.Proofs.Builder.Morphism
import CallTrace.Proofs.Forest.Arena
import CallTrace.Proofs.Forest.Basic

/-!
# The deferred builder as a picture of the forest

The deferred builder holds the blocks of all trees in its arena, the places of the
open frames and their markers.  The trace it has written out is the settled trace of
the last tree that is complete.
-/

namespace CallTrace

namespace CallTree

/-- The tree with the gas that it used all in all as the gas of its frame, if it used
any. -/
def charged : CallTree → CallTree
  | node frame isReverted completion calls =>
      let gas := if completion.gasUsed = 0 then frame.gas else completion.gasUsed
      node { frame with gas } isReverted completion calls

/-- The blocks of complete trees, each charged with its gas. -/
def rootVertices (start : Nat) : List CallTree → List Vertex
  | [] => []
  | tree :: trees => tree.charged.vertices start [] ++ rootVertices (start + tree.size) trees

@[simp]
theorem size_charged (tree : CallTree) : tree.charged.size = tree.size := by
  cases tree
  rfl

@[simp]
theorem length_rootVertices (start : Nat) (trees : List CallTree) :
    (rootVertices start trees).length = totalSize trees := by
  induction trees generalizing start with
  | nil => rfl
  | cons tree trees ih => simp [rootVertices, totalSize, length_vertices, ih]

theorem rootVertices_append_singleton (start : Nat) (trees : List CallTree) (tree : CallTree) :
    rootVertices start (trees ++ [tree]) =
      rootVertices start trees ++ tree.charged.vertices (start + totalSize trees) [] := by
  induction trees generalizing start with
  | nil => simp [rootVertices, totalSize]
  | cons first trees ih => simp [rootVertices, totalSize, ih, Nat.add_assoc]

end CallTree

namespace OpenCall

/-- The vertex of an open frame at the given place. -/
def vertex (start : Nat) (isCalling : Bool) (path : Path) (call : OpenCall) : Vertex where
  node := { call.node isCalling path with outcome := none }
  children :=
    CallTree.places (start + 1) call.calls ++ if isCalling then [start + call.size] else []

/-- The block of an open frame. -/
def vertices (start : Nat) (isCalling : Bool) (path : Path) (call : OpenCall) : List Vertex :=
  call.vertex start isCalling path :: CallTree.verticesBelow (start + 1) path 0 call.calls

/-- The blocks of nested calls, given innermost first, if the outermost is at the given
place. -/
def verticesAll (start : Nat) (isCalling : Bool) : List OpenCall → List Vertex
  | [] => []
  | call :: outer =>
      verticesAll start true outer ++
        call.vertices (start + totalSize outer) isCalling (nextPath outer)

/-- The markers of nested calls, given innermost first. -/
def markers : List OpenCall → List Marker
  | [] => []
  | call :: outer =>
      ⟨outer.length + 1, call.frame.kind = .create, call.isReverted⟩ :: markers outer

@[simp]
theorem length_verticesAll (start : Nat) (isCalling : Bool) (calls : List OpenCall) :
    (verticesAll start isCalling calls).length = totalSize calls := by
  induction calls generalizing isCalling with
  | nil => rfl
  | cons call outer ih =>
      simp [verticesAll, vertices, totalSize, size, CallTree.length_verticesBelow, ih]

/-- A call that exits leaves its block in place. -/
theorem vertices_addCall (start : Nat) (call : OpenCall) (tree : CallTree) (path : Path) :
    (call.addCall tree).vertices start false path =
      call.vertices start true path ++
        tree.vertices (start + call.size) (path ++ [UInt32.ofNat call.calls.length]) := by
  have hcount : (call.addCall tree).callCount false = call.callCount true := by
    simp [callCount, addCall]
  have hvertex : (call.addCall tree).vertex start false path = call.vertex start true path := by
    unfold vertex node
    rw [hcount]
    simp [addCall, size, CallTree.places_append_singleton, Nat.add_assoc, Nat.add_comm 1]
  unfold vertices
  rw [hvertex]
  simp [addCall, size, CallTree.verticesBelow_append, CallTree.verticesBelow, Nat.add_assoc,
    Nat.add_comm 1]

end OpenCall

namespace Forest

/-- The place of the root of the last tree. -/
def rootPlace? (forest : Forest) : Option Nat :=
  match forest.openCalls with
  | [] => (CallTree.places 0 forest.roots).getLast?
  | _ :: _ => some forest.rootSize

/-- The blocks of all trees. -/
def arena (forest : Forest) : Arena :=
  CallTree.rootVertices 0 forest.roots ++
    OpenCall.verticesAll forest.rootSize false forest.openCalls

/-- The settled trace of the last complete tree. -/
def lastSettled (forest : Forest) : List Node :=
  forest.roots.getLast?.elim [] fun tree => tree.charged.settledTrace none []

/-- The blocks up to the innermost open frame, given the frames around that. -/
def arenaBefore (forest : Forest) (outer : List OpenCall) : Arena :=
  CallTree.rootVertices 0 forest.roots ++ OpenCall.verticesAll forest.rootSize true outer

theorem length_arenaBefore (forest : Forest) (outer : List OpenCall) :
    (forest.arenaBefore outer).length = forest.rootSize + OpenCall.totalSize outer := by
  simp [arenaBefore, rootSize]

theorem length_arena (forest : Forest) :
    forest.arena.length = forest.rootSize + OpenCall.totalSize forest.openCalls := by
  simp [arena, rootSize]

/-- The blocks up to the innermost open frame, and the block of that frame. -/
theorem arena_of_openCalls_cons {forest : Forest} {call : OpenCall} {outer : List OpenCall}
    (hopen : forest.openCalls = call :: outer) :
    forest.arena =
      forest.arenaBefore outer ++
        call.vertices (forest.arenaBefore outer).length false (OpenCall.nextPath outer) := by
  simp [arena, arenaBefore, hopen, OpenCall.verticesAll, rootSize]

/-- A frame that opens is linked from the innermost open frame, and its vertex stands
at the end of the arena. -/
theorem arena_openFrame (forest : Forest) (frame : Frame) :
    (forest.openFrame frame).arena =
      forest.arenaBefore forest.openCalls ++
        [⟨.fresh frame.toAction (OpenCall.nextPath forest.openCalls), []⟩] := by
  simp [arena, arenaBefore, rootSize, openFrame, OpenCall.verticesAll, OpenCall.vertices,
    OpenCall.vertex, OpenCall.fresh, OpenCall.node, OpenCall.callCount, CallTree.verticesBelow,
    CallTree.places, Node.fresh]

/-- A call that exits in an open frame stands at the end of the arena. -/
theorem arena_addCall (forest : Forest) (call : OpenCall) (outer : List OpenCall)
    (tree : CallTree) :
    arena { forest with openCalls := call.addCall tree :: outer } =
      forest.arenaBefore (call :: outer) ++
        tree.vertices (forest.arenaBefore (call :: outer)).length
          (OpenCall.nextPath (call :: outer)) := by
  rw [length_arenaBefore]
  simp [arena, arenaBefore, rootSize, OpenCall.verticesAll, OpenCall.vertices_addCall,
    OpenCall.totalSize, OpenCall.nextPath, Nat.add_assoc]

/-- A root that exits is charged with its gas and stands at the end of the arena. -/
theorem arena_addRoot (forest : Forest) (tree : CallTree) :
    arena { forest with roots := forest.roots ++ [tree], openCalls := [] } =
      forest.arenaBefore [] ++ tree.charged.vertices (forest.arenaBefore []).length [] := by
  rw [length_arenaBefore]
  simp [arena, arenaBefore, rootSize, OpenCall.verticesAll,
    CallTree.rootVertices_append_singleton, OpenCall.totalSize]

theorem arena_revert (forest : Forest) : forest.revert.arena = forest.arena := by
  unfold arena revert
  cases forest.openCalls <;> rfl

theorem rootPlace?_revert (forest : Forest) : forest.revert.rootPlace? = forest.rootPlace? := by
  unfold rootPlace? revert
  cases forest.openCalls <;> rfl

end Forest

namespace Deferred

open OpenCall (nextPath)

/-- The deferred builder that belongs to a forest. -/
def ofForest (forest : Forest) : Deferred where
  settings := forest.settings
  context := forest.context
  arena := forest.arena
  root := forest.rootPlace?
  openFrames := forest.places
  markers := OpenCall.markers forest.openCalls
  nodes := forest.lastSettled

/-- The kind that a marker tells is that of the action of its frame, so the results
are the same. -/
theorem succeed_toAction (level : Nat) (isReverted : Bool) (frame : Frame)
    (completion : Completion) :
    Marker.succeed ⟨level, frame.kind = .create, isReverted⟩ completion
        (frame.toAction.withCreated completion.created) =
      (frame.toAction.withCreated completion.created).succeed completion.gasUsed
        completion.output := by
  obtain ⟨output, gasUsed, error, created⟩ := completion
  cases hkind : frame.kind <;> cases created <;>
    simp [Frame.toAction, hkind, Action.withCreated, Marker.succeed, Action.succeed,
      Action.created?]

/-- The exit of an open frame records the same node as in the trace of its tree. -/
theorem close_vertex (level start : Nat) (path : Path) (call : OpenCall)
    (completion : Completion) :
    (call.vertex start false path).mapNode
        (Marker.close ⟨level, call.frame.kind = .create, call.isReverted⟩ completion) =
      ⟨.exited call.frame call.isReverted completion path call.calls.length,
        CallTree.places (start + 1) call.calls⟩ := by
  have houtcome : Marker.outcome ⟨level, call.frame.kind = .create, call.isReverted⟩ completion
      (call.frame.toAction.withCreated completion.created) =
        if call.isReverted then .reverted
        else completion.outcome (call.frame.toAction.withCreated completion.created) := by
    cases herror : completion.error with
    | none => simp only [Marker.outcome, Completion.outcome, herror, succeed_toAction]
    | some message => simp only [Marker.outcome, Completion.outcome, herror]
  simp only [Vertex.mapNode, OpenCall.vertex, Marker.close, OpenCall.node]
  rw [houtcome]
  simp [Node.exited, Frame.finalAction_eq, Frame.finalOutcome_eq, OpenCall.callCount]

/-- A frame counts and links a call that begins in it. -/
theorem adopt_vertex (start : Nat) (path : Path) (call : OpenCall) :
    (call.vertex start false path).adopt (start + call.size) = call.vertex start true path := by
  simp [Vertex.adopt, Vertex.link, Vertex.mapNode, OpenCall.vertex, Node.countChild,
    OpenCall.node, OpenCall.callCount]

variable {forest : Forest} {call : OpenCall} {outer : List OpenCall}

theorem openFrames_ofForest (hopen : forest.openCalls = call :: outer) :
    (ofForest forest).openFrames =
      (forest.arenaBefore outer).length :: OpenCall.places forest.rootSize outer := by
  simp [ofForest, Forest.places, hopen, OpenCall.places, Forest.length_arenaBefore]

theorem arena_ofForest (hopen : forest.openCalls = call :: outer) :
    (ofForest forest).arena =
      forest.arenaBefore outer ++
        call.vertex (forest.arenaBefore outer).length false (nextPath outer) ::
          CallTree.verticesBelow ((forest.arenaBefore outer).length + 1) (nextPath outer) 0
            call.calls :=
  Forest.arena_of_openCalls_cons hopen

theorem root_ofForest (hopen : forest.openCalls = call :: outer) :
    (ofForest forest).root = some forest.rootSize := by
  simp [ofForest, Forest.rootPlace?, hopen]

theorem markers_ofForest (hopen : forest.openCalls = call :: outer) :
    (ofForest forest).markers =
      ⟨outer.length + 1, call.frame.kind = .create, call.isReverted⟩ ::
        OpenCall.markers outer := by
  simp [ofForest, hopen, OpenCall.markers]

theorem length_arena_ofForest (forest : Forest) :
    (ofForest forest).arena.length = forest.nodes.length := by
  rw [Forest.length_nodes]
  exact forest.length_arena

theorem innermost?_ofForest (hopen : forest.openCalls = call :: outer) :
    (ofForest forest).innermost? =
      some (call.vertex (forest.arenaBefore outer).length false (nextPath outer)).node := by
  unfold innermost?
  rw [openFrames_ofForest hopen, arena_ofForest hopen]
  simp

/-- The next frame gets the path that it has in the forest. -/
theorem childPath_ofForest (forest : Forest) :
    childPath (ofForest forest).innermost? = nextPath forest.openCalls := by
  cases hopen : forest.openCalls with
  | nil => simp [innermost?, ofForest, Forest.places, OpenCall.places, hopen, childPath, nextPath]
  | cons call outer =>
      rw [innermost?_ofForest hopen]
      simp [childPath, Node.nextChildPath, OpenCall.vertex, OpenCall.node, OpenCall.callCount,
        nextPath]

/-- The innermost open frame links a call that begins in it. -/
theorem modify_adopt (hopen : forest.openCalls = call :: outer) :
    (ofForest forest).arena.modify (forest.arenaBefore outer).length
        (Vertex.adopt (ofForest forest).arena.length) =
      forest.arenaBefore forest.openCalls := by
  have hplace : (ofForest forest).arena.length =
      (forest.arenaBefore outer).length + call.size := by
    change forest.arena.length = _
    rw [Forest.length_arena, Forest.length_arenaBefore, hopen, OpenCall.totalSize, Nat.add_assoc]
  rw [hplace, arena_ofForest hopen, modify_append_cons rfl, adopt_vertex,
    Forest.length_arenaBefore]
  simp [Forest.arenaBefore, hopen, OpenCall.verticesAll, OpenCall.vertices]

/-- What a frame that opens adds to the picture. -/
theorem ofForest_openFrame (forest : Forest) (frame : Frame) :
    ofForest (forest.openFrame frame) =
      { ofForest forest with
        arena := forest.arenaBefore forest.openCalls ++
          [⟨.fresh frame.toAction (nextPath forest.openCalls), []⟩]
        root := some forest.rootSize
        openFrames := (ofForest forest).arena.length :: forest.places
        markers := ⟨forest.openCalls.length + 1, frame.kind = .create, false⟩ ::
          OpenCall.markers forest.openCalls } := by
  rw [length_arena_ofForest]
  unfold ofForest
  rw [Forest.arena_openFrame, Forest.places_openFrame]
  rfl

theorem openFrame_ofForest (forest : Forest) (frame : Frame) :
    (ofForest forest).openFrame frame = ofForest (forest.openFrame frame) := by
  have hdepth : (ofForest forest).openFrames.length = forest.openCalls.length :=
    OpenCall.length_places forest.rootSize forest.openCalls
  rw [openFrame_eq, childPath_ofForest, hdepth, ofForest_openFrame]
  cases hopen : forest.openCalls with
  | nil =>
      have hplaces : forest.places = [] := by simp [Forest.places, OpenCall.places, hopen]
      have hframes : (ofForest forest).openFrames = [] := hplaces
      have hroot : (ofForest forest).arena.length = forest.rootSize := by
        rw [length_arena_ofForest, Forest.length_nodes, hopen]
        rfl
      have harena : (ofForest forest).arena = forest.arenaBefore [] := by
        simp [ofForest, Forest.arena, Forest.arenaBefore, hopen, OpenCall.verticesAll]
      simp only [hframes, hplaces, hroot]
      rw [harena, ← hopen]
      rfl
  | cons call outer =>
      have hframes : (ofForest forest).openFrames ≠ [] := by simp [openFrames_ofForest hopen]
      rw [if_neg hframes]
      simp only [openFrames_ofForest hopen, List.head?_cons, Arena.grow, Arena.linkFrom]
      rw [modify_adopt hopen, root_ofForest hopen, ← hopen, ← openFrames_ofForest hopen]
      rfl

theorem revert_ofForest (forest : Forest) :
    (ofForest forest).revert = ofForest forest.revert := by
  unfold ofForest
  rw [Forest.arena_revert, Forest.places_revert, Forest.rootPlace?_revert]
  cases hopen : forest.openCalls <;>
    simp [revert, OpenCall.markers, Forest.revert, hopen, OpenCall.revert, Forest.lastSettled]

/-- What the exit of the innermost open frame leaves in the arena. -/
theorem modify_close (hopen : forest.openCalls = call :: outer) (level : Nat)
    (completion : Completion) :
    (ofForest forest).arena.modify (forest.arenaBefore outer).length
        (Vertex.mapNode
          (Marker.close ⟨level, call.frame.kind = .create, call.isReverted⟩ completion)) =
      forest.arenaBefore outer ++
        (call.exit completion).vertices (forest.arenaBefore outer).length (nextPath outer) := by
  rw [arena_ofForest hopen, modify_append_cons rfl, close_vertex]
  rfl

/-- A root is charged with the gas that its exit reports, if it reports any. -/
theorem chargeRoot_eq {builder : Deferred} {before : Arena} (call : OpenCall)
    (completion : Completion)
    (harena : builder.arena = before ++ (call.exit completion).vertices before.length []) :
    builder.chargeRoot before.length completion.gasUsed =
      { builder with
        arena := before ++ (call.exit completion).charged.vertices before.length [] } := by
  unfold chargeRoot
  by_cases hgas : completion.gasUsed = 0
  · have hcharged : (call.exit completion).charged = call.exit completion := by
      simp [OpenCall.exit, CallTree.charged, hgas]
    rw [if_pos hgas, hcharged, ← harena]
  · rw [if_neg hgas, harena]
    simp only [OpenCall.exit, CallTree.charged, hgas, if_false, CallTree.vertices]
    rw [modify_append_cons rfl, Vertex.mapNode, Node.withGas_exited]

/-- A root that has exited is charged, and its tree is written out as its settled
trace. -/
theorem writeOut_chargeRoot {builder : Deferred} {before : Arena} (call : OpenCall)
    (completion : Completion)
    (harena : builder.arena = before ++ (call.exit completion).vertices before.length [])
    (hroot : builder.root = some before.length) :
    (builder.chargeRoot before.length completion.gasUsed).writeOut =
      { builder with
        arena := before ++ (call.exit completion).charged.vertices before.length []
        nodes := (call.exit completion).charged.settledTrace none [] } := by
  rw [chargeRoot_eq call completion harena]
  unfold writeOut
  simp only [hroot, Option.bind_some]
  rw [Arena.preorder?_eq_numbered rfl]
  simp

theorem closeFrame?_ofForest (forest : Forest) (completion : Completion) :
    (ofForest forest).closeFrame? completion =
      (forest.closeFrame? completion).map ofForest := by
  cases hopen : forest.openCalls with
  | nil =>
      rw [Forest.closeFrame?_of_nil hopen]
      simp [closeFrame?, ofForest, Forest.places, OpenCall.places, hopen]
  | cons call outer =>
      unfold closeFrame?
      rw [openFrames_ofForest hopen, markers_ofForest hopen, Forest.closeFrame?_of_cons hopen]
      simp only [modify_close hopen, Option.map_some]
      cases outer with
      | nil =>
          have hroot : (ofForest forest).root = some (forest.arenaBefore []).length := by
            rw [root_ofForest hopen, Forest.length_arenaBefore]
            rfl
          simp only [OpenCall.places, Forest.addTree]
          apply congrArg some
          refine Eq.trans (writeOut_chargeRoot call completion rfl hroot) ?_
          unfold ofForest
          rw [Forest.arena_addRoot]
          simp [Forest.rootPlace?, hopen, CallTree.places_append_singleton, Forest.rootSize,
            Forest.lastSettled, OpenCall.markers, Forest.places, OpenCall.places]
      | cons parent outer =>
          simp only [Forest.addTree, root_ofForest hopen]
          unfold ofForest
          rw [Forest.arena_addCall]
          rfl

/-- The deferred builder does to its arena what is done to the forest. -/
theorem morphism_ofForest : Builder.Morphism ofForest where
  settings_map _ := rfl
  depth_map forest := OpenCall.length_places forest.rootSize forest.openCalls
  openFrame_map := openFrame_ofForest
  closeFrame?_map := closeFrame?_ofForest
  revert_map := revert_ofForest
  reset_map _ _ := rfl

/-- A run of the deferred builder shows the forest that the same events grow. -/
theorem run_eq_ofForest (settings : Settings) (context : Context) (events : List Event) :
    Builder.run (empty settings context) events =
      ofForest (Builder.run (Forest.empty settings context) events) :=
  morphism_ofForest.run_map (Forest.empty settings context) events

end Deferred

end CallTrace
