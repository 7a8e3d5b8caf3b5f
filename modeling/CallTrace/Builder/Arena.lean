import CallTrace.Trace.Frame

/-!
# Call trees in an arena

An arena lists the nodes of call trees in the order of their discovery.  Each
entry names its children by their places in the list.

Walking a tree in preorder yields its trace.  On the way down the gas of a parent
is shared out: a child that has a result gets what its parent has, less the gas it
used itself, or just the gas it used if that would leave nothing.  A self-destruct
gets no gas at all, and if it has a result, that says no more than that it succeeded.
-/

namespace CallTrace

/-- A node and the places of its children. -/
structure Vertex where
  node : Node
  children : List Nat
deriving DecidableEq

/-- Nodes with links from parents to children. -/
abbrev Arena := List Vertex

/-- The gas of a child that used some, below a parent that has some. -/
def Vertex.share (parentGas gasUsed : UInt64) : UInt64 :=
  if gasUsed < parentGas then parentGas - gasUsed else gasUsed

namespace Node

/-- The node with its share of the gas of its parent, if it has a result. -/
def receiveShare (parentGas : UInt64) (node : Node) : Node :=
  match node.result? with
  | some result => node.withGas (Vertex.share parentGas result.gasUsed)
  | none => node

/-- The node without gas and without anything in its result, if it is a self-destruct. -/
def clearDestruction (node : Node) : Node :=
  if node.action.kind = .selfDestruct then
    let gasless := node.withGas 0
    match gasless.result? with
    | some _ => { gasless with outcome := some (.success .selfDestruct) }
    | none => gasless
  else
    node

end Node

namespace Vertex

/-- Changes the node and keeps the links. -/
def mapNode (change : Node → Node) (vertex : Vertex) : Vertex :=
  { vertex with node := change vertex.node }

/-- Links a child at the given place. -/
def link (child : Nat) (vertex : Vertex) : Vertex :=
  { vertex with children := vertex.children ++ [child] }

/-- The node as it stands in the trace: with the number of its children and, below a
parent, with its share of the gas of the parent. -/
def settle (parentGas? : Option UInt64) (vertex : Vertex) : Node :=
  let counted := { vertex.node with subtraces := UInt32.ofNat vertex.children.length }
  match parentGas? with
  | some parentGas => (counted.receiveShare parentGas).clearDestruction
  | none => counted

end Vertex

namespace Arena

/-- Places still to be visited, each with the gas of its parent if it has one. -/
abbrev Agenda := List (Nat × Option UInt64)

/-- Visits the places of an agenda and all places below them in preorder.  Each
visit takes one unit of fuel.  Nothing is returned if a place does not exist or if
the fuel does not last. -/
def walk (arena : Arena) : Nat → Agenda → Option (List (Nat × Node))
  | _, [] => some []
  | 0, _ :: _ => none
  | fuel + 1, (place, parentGas?) :: agenda => do
      let vertex ← arena[place]?
      let node := vertex.settle parentGas?
      let below := vertex.children.map fun child => (child, some node.action.gas)
      let visits ← walk arena fuel (below ++ agenda)
      return (place, node) :: visits

/-- The places and nodes of the tree under a root, in preorder.  A tree has at most
as many nodes as the arena. -/
def preorder? (arena : Arena) (root : Nat) : Option (List (Nat × Node)) :=
  walk arena arena.length [(root, none)]

end Arena

end CallTrace
