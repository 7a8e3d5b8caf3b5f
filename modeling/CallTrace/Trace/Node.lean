import CallTrace.Trace.Action

/-!
# Trace nodes

A trace lists the frames of a transaction in the order of their discovery.  Each
node says where it stands in the call tree by its path: the child numbers on the
way from the root.  A parent hands out the number of the next child by counting
the children it has so far, so paths are never used twice, not even when a child
fails.
-/

namespace CallTrace

/-- The place of a node in the call tree.  The root's path is empty. -/
abbrev Path := List UInt32

/-- One frame of a transaction.  Its outcome is absent as long as none has been
recorded. -/
structure Node where
  action : Action
  outcome : Option Outcome
  path : Path
  subtraces : UInt32
deriving DecidableEq

namespace Node

/-- A node without an outcome and without children. -/
def fresh (action : Action) (path : Path) : Node :=
  ⟨action, none, path, 0⟩

/-- The result, if the frame succeeded. -/
def result? (node : Node) : Option Result :=
  match node.outcome with
  | some (.success result) => some result
  | _ => none

/-- The message, if the frame failed. -/
def error? (node : Node) : Option String :=
  match node.outcome with
  | some (.failure message) => some message
  | _ => none

/-- Whether an outcome has been recorded. -/
def isClosed (node : Node) : Bool :=
  node.outcome.isSome

/-- The path of the next child. -/
def nextChildPath (node : Node) : Path :=
  node.path ++ [node.subtraces]

/-- Counts one more child. -/
def countChild (node : Node) : Node :=
  { node with subtraces := node.subtraces + 1 }

/-- Records that the frame ran into a revert. -/
def revert (node : Node) : Node :=
  { node with outcome := some .reverted }

/-- The node with other gas in its action. -/
def withGas (gas : UInt64) (node : Node) : Node :=
  { node with action := node.action.withGas gas }

end Node

/-- The path of a new node below the given parent, or of a new root. -/
def childPath (parent? : Option Node) : Path :=
  parent?.elim [] Node.nextChildPath

/-- Hands out the path of a new child and counts it. -/
def allocatePath (parent? : Option Node) : Path × Option Node :=
  (childPath parent?, parent?.map Node.countChild)

/-- Which transaction a trace belongs to. -/
structure Context where
  blockHash : Hash
  blockNumber : UInt64
  transactionHash : Hash
  transactionPosition : UInt64
deriving DecidableEq

instance : Inhabited Context :=
  ⟨⟨.zero 32, 0, .zero 32, 0⟩⟩

/-- The trace of one transaction. -/
structure TraceSet where
  context : Context
  nodes : List Node
deriving DecidableEq

/-- The trace of a transaction of which nothing is known yet. -/
def TraceSet.empty (context : Context) : TraceSet :=
  ⟨context, []⟩

end CallTrace
