import CallTrace.Builder.Arena
import CallTrace.Builder.Event

/-!
# The deferred builder

The deferred builder links frames to call trees while they run.  Only when a root
closes is its tree written out as a trace, with child counts and gas settled.

Next to the stack of open frames it keeps a stack of markers, which say what the
exit of a frame has to record: the code of a new contract or the output of a call,
or a revert.
-/

namespace CallTrace

/-- What is known about an open frame besides its node. -/
structure Marker where
  level : Nat
  isCreation : Bool
  isReverted : Bool
deriving DecidableEq

namespace Marker

/-- The result of an action that succeeded under this marker. -/
def succeed (marker : Marker) (completion : Completion) (action : Action) : Result :=
  match action with
  | .selfDestruct _ => .selfDestruct
  | action =>
      if marker.isCreation then
        .create completion.gasUsed action.created? completion.output
      else
        .call completion.gasUsed completion.output

/-- The outcome of an action under this marker.  A revert counts for more than an
error. -/
def outcome (marker : Marker) (completion : Completion) (action : Action) : Outcome :=
  if marker.isReverted then
    .reverted
  else
    match completion.error with
    | some message => .failure message
    | none => .success (marker.succeed completion action)

/-- Closes the node that belongs to the marker. -/
def close (marker : Marker) (completion : Completion) (node : Node) : Node :=
  let action := node.action.withCreated completion.created
  { node with action, outcome := some (marker.outcome completion action) }

end Marker

/-- Call trees under construction and the last trace that was written out. -/
structure Deferred where
  settings : Settings
  context : Context
  arena : Arena
  root : Option Nat
  /-- The places of the open frames in the arena, innermost first. -/
  openFrames : List Nat
  /-- The markers of the open frames, innermost first. -/
  markers : List Marker
  nodes : List Node
deriving DecidableEq

namespace Deferred

/-- A builder that has seen nothing yet. -/
def empty (settings : Settings) (context : Context) : Deferred :=
  ⟨settings, context, [], none, [], [], []⟩

/-- The node of the innermost open frame. -/
def innermost? (builder : Deferred) : Option Node :=
  (builder.openFrames.head?.bind fun place => builder.arena[place]?).map Vertex.node

/-- Puts a node in place of that of the innermost open frame. -/
def replaceInnermost (builder : Deferred) (node? : Option Node) : Arena :=
  match builder.openFrames, node? with
  | place :: _, some node => builder.arena.modify place (Vertex.mapNode fun _ => node)
  | _, _ => builder.arena

/-- Adds a frame to the arena, as a child of the innermost open frame, from which it
gets its path, or as a new root. -/
def openFrame (builder : Deferred) (frame : Frame) : Deferred :=
  let place := builder.arena.length
  let (path, parent?) := allocatePath builder.innermost?
  let vertex : Vertex := ⟨.fresh frame.toAction path, []⟩
  let marker : Marker := ⟨builder.openFrames.length + 1, frame.kind = .create, false⟩
  let counted : Deferred := { builder with arena := builder.replaceInnermost parent? }
  let opened : Deferred :=
    match builder.openFrames with
    | [] => { counted with root := some place }
    | parent :: _ => { counted with arena := counted.arena.modify parent (Vertex.link place) }
  { opened with
    arena := opened.arena ++ [vertex]
    openFrames := place :: opened.openFrames
    markers := marker :: opened.markers }

/-- Writes out the tree under the root. -/
def writeOut (builder : Deferred) : Deferred :=
  match builder.root.bind builder.arena.preorder? with
  | some visits => { builder with nodes := visits.map Prod.snd }
  | none => builder

/-- Gives the node at a place the gas that its whole tree used, if it used any. -/
def chargeRoot (builder : Deferred) (place : Nat) (gasUsed : UInt64) : Deferred :=
  if gasUsed = 0 then
    builder
  else
    { builder with arena := builder.arena.modify place (Vertex.mapNode (Node.withGas gasUsed)) }

/-- Closes the innermost open frame.  If that was the root, its tree is written
out. -/
def closeFrame? (builder : Deferred) (completion : Completion) : Option Deferred :=
  match builder.openFrames, builder.markers with
  | place :: outer, marker :: outerMarkers =>
      let closed : Deferred := { builder with
        arena := builder.arena.modify place (Vertex.mapNode (marker.close completion))
        openFrames := outer
        markers := outerMarkers }
      match outer with
      | [] => some (closed.chargeRoot place completion.gasUsed).writeOut
      | _ :: _ => some closed
  | _, _ => none

/-- Marks the innermost open frame as reverted. -/
def revert (builder : Deferred) : Deferred :=
  match builder.markers with
  | [] => builder
  | marker :: outer => { builder with markers := { marker with isReverted := true } :: outer }

/-- The trace of the last root that closed. -/
def trace (builder : Deferred) : TraceSet :=
  ⟨builder.context, builder.nodes⟩

/-- Whether there is a root and it has closed. -/
def isFinished (builder : Deferred) : Bool :=
  builder.root.isSome && builder.openFrames.isEmpty

end Deferred

instance : Builder Deferred where
  settings := Deferred.settings
  depth builder := builder.openFrames.length
  trace := Deferred.trace
  openFrame := Deferred.openFrame
  closeFrame? := Deferred.closeFrame?
  revert := Deferred.revert
  reset builder context := .empty builder.settings context

end CallTrace
