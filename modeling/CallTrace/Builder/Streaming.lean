import CallTrace.Builder.Event

/-!
# The streaming builder

The streaming builder appends a node to the trace as soon as its frame opens, and
keeps a stack of the places of the open frames.  The trace is readable at any
moment.
-/

namespace CallTrace

/-- A trace under construction, in the order of discovery. -/
structure Streaming where
  settings : Settings
  context : Context
  nodes : List Node
  /-- The places of the open frames in `nodes`, innermost first. -/
  openFrames : List Nat
deriving DecidableEq

namespace Streaming

/-- A builder that has seen nothing yet. -/
def empty (settings : Settings) (context : Context) : Streaming :=
  ⟨settings, context, [], []⟩

/-- Changes the node of the innermost open frame. -/
def updateInnermost (builder : Streaming) (change : Node → Node) : List Node :=
  match builder.openFrames with
  | [] => builder.nodes
  | index :: _ => builder.nodes.modify index change

/-- The node of the innermost open frame. -/
def innermost? (builder : Streaming) : Option Node :=
  builder.openFrames.head?.bind fun index => builder.nodes[index]?

/-- Puts a node in place of that of the innermost open frame. -/
def replaceInnermost (builder : Streaming) (node? : Option Node) : List Node :=
  match builder.openFrames, node? with
  | index :: _, some node => builder.nodes.set index node
  | _, _ => builder.nodes

/-- Appends the node of a frame, which gets its path from the innermost open frame. -/
def openFrame (builder : Streaming) (frame : Frame) : Streaming :=
  let (path, parent?) := allocatePath builder.innermost?
  { builder with
    nodes := builder.replaceInnermost parent? ++ [Node.fresh frame.toAction path]
    openFrames := builder.nodes.length :: builder.openFrames }

/-- Closes the node of the innermost open frame. -/
def closeFrame? (builder : Streaming) (completion : Completion) : Option Streaming :=
  match builder.openFrames with
  | [] => none
  | index :: outer =>
      some { builder with
        nodes := builder.nodes.modify index fun node => node.close completion
        openFrames := outer }

/-- Records a revert in the innermost open frame. -/
def revert (builder : Streaming) : Streaming :=
  { builder with nodes := builder.updateInnermost Node.revert }

/-- The trace built so far. -/
def trace (builder : Streaming) : TraceSet :=
  ⟨builder.context, builder.nodes⟩

end Streaming

instance : Builder Streaming where
  settings := Streaming.settings
  depth builder := builder.openFrames.length
  trace := Streaming.trace
  openFrame := Streaming.openFrame
  closeFrame? := Streaming.closeFrame?
  revert := Streaming.revert
  reset builder context := .empty builder.settings context

end CallTrace
