import CallTrace.Builder.Deferred
import CallTrace.Builder.Streaming
import Mathlib.Data.List.Infix

/-!
# Frames that open

A frame that opens is handed a path by the innermost open frame, whose node has counted
it when it is put back.  What has become of a builder is said here in one equation for
each, in which the node is changed in place.
-/

namespace CallTrace

namespace Streaming

/-- To put back a changed node is to change it in place. -/
theorem replaceInnermost_map (builder : Streaming) (change : Node → Node) :
    builder.replaceInnermost (builder.innermost?.map change) = builder.updateInnermost change := by
  unfold replaceInnermost innermost? updateInnermost
  cases builder.openFrames with
  | nil => rfl
  | cons index outer =>
      simp only [List.head?_cons, Option.bind_some, List.modify_eq_set_getElem?]
      cases builder.nodes[index]? <;> rfl

/-- A frame that opens is counted by the innermost open frame. -/
theorem openFrame_eq (builder : Streaming) (frame : Frame) :
    builder.openFrame frame = { builder with
      nodes := builder.updateInnermost Node.countChild ++
        [.fresh frame.toAction (childPath builder.innermost?)]
      openFrames := builder.nodes.length :: builder.openFrames } := by
  rw [← replaceInnermost_map]
  rfl

end Streaming

/-- Counts and links a child at the given place. -/
def Vertex.adopt (child : Nat) (vertex : Vertex) : Vertex :=
  (vertex.mapNode Node.countChild).link child

namespace Arena

/-- The arena with a link from a parent, if there is one, to the place at its end. -/
def linkFrom (arena : Arena) : Option Nat → Arena
  | some parent => arena.modify parent (Vertex.adopt arena.length)
  | none => arena

/-- The arena with a new node at its end, as a child of a parent or as a root. -/
def grow (arena : Arena) (parent? : Option Nat) (node : Node) : Arena :=
  arena.linkFrom parent? ++ [⟨node, []⟩]

end Arena

namespace Deferred

/-- To put back a node that has counted a child and to link the child is to adopt it. -/
theorem modify_link_replaceInnermost {builder : Deferred} {parent : Nat} {outer : List Nat}
    (hopen : builder.openFrames = parent :: outer) (child : Nat) :
    (builder.replaceInnermost (builder.innermost?.map Node.countChild)).modify parent
        (Vertex.link child) =
      builder.arena.modify parent (Vertex.adopt child) := by
  unfold replaceInnermost innermost?
  simp only [hopen, List.head?_cons, Option.bind_some]
  cases hparent : builder.arena[parent]? with
  | none =>
      -- Behind the end of the arena nothing is put back, and nothing is linked.
      have hlength := List.getElem?_eq_none_iff.mp hparent
      exact (List.modify_eq_self hlength).trans (List.modify_eq_self hlength).symm
  | some vertex =>
      change (builder.arena.modify parent _).modify parent _ = _
      rw [List.modify_modify_eq, List.modify_eq_set_getElem?, List.modify_eq_set_getElem?, hparent]
      rfl

/-- A frame that opens makes the arena grow, and both stacks.  It is the new root if no other
frame is open. -/
theorem openFrame_eq (builder : Deferred) (frame : Frame) :
    builder.openFrame frame = { builder with
      arena := builder.arena.grow builder.openFrames.head?
        (.fresh frame.toAction (childPath builder.innermost?))
      root := if builder.openFrames = [] then some builder.arena.length else builder.root
      openFrames := builder.arena.length :: builder.openFrames
      markers := ⟨builder.openFrames.length + 1, frame.kind = .create, false⟩ ::
        builder.markers } := by
  cases hopen : builder.openFrames with
  | nil => simp [openFrame, allocatePath, replaceInnermost, Arena.grow, Arena.linkFrom, hopen]
  | cons parent outer =>
      have hadopt := modify_link_replaceInnermost hopen builder.arena.length
      simp [openFrame, allocatePath, Arena.grow, Arena.linkFrom, hopen, hadopt]

end Deferred

end CallTrace
