import CallTrace.Proofs.Forest.Streaming
import Mathlib.Data.List.SplitBy

/-!
# The segments of a trace

A streamed trace may hold several call trees, one behind the other.  A node without
a path is the root of one, and begins a segment of the trace.  For the trace of
complete trees the segments are the traces of the trees.
-/

namespace CallTrace

/-- Whether a node is the root of a call tree. -/
def Node.isRoot (node : Node) : Bool :=
  node.path.isEmpty

/-- The parts of a trace that begin with a root. -/
def segments (nodes : List Node) : List (List Node) :=
  nodes.splitBy fun _ next => !next.isRoot

/-- Whether a list of nodes begins with a root and holds no other. -/
def IsRooted (nodes : List Node) : Prop :=
  ∃ below, nodes.map Node.path = [] :: below ∧ [] ∉ below

namespace IsRooted

variable {nodes : List Node}

theorem exists_eq_cons (hrooted : IsRooted nodes) :
    ∃ root below, nodes = root :: below ∧ root.isRoot = true ∧
      ∀ node ∈ below, node.isRoot = false := by
  obtain ⟨paths, hpaths, hbelow⟩ := hrooted
  obtain ⟨root, below, rfl, hroot, rfl⟩ := List.map_eq_cons_iff.mp hpaths
  refine ⟨root, below, rfl, ?_, ?_⟩
  · simp [Node.isRoot, hroot]
  · intro node hnode
    unfold Node.isRoot
    rw [List.isEmpty_eq_false_iff]
    intro hempty
    exact hbelow (hempty ▸ List.mem_map_of_mem hnode)

theorem ne_nil (hrooted : IsRooted nodes) : nodes ≠ [] := by
  obtain ⟨root, below, rfl, -, -⟩ := hrooted.exists_eq_cons
  exact List.cons_ne_nil root below

theorem isChain (hrooted : IsRooted nodes) :
    nodes.IsChain fun _ next => (!next.isRoot) = true := by
  obtain ⟨root, below, rfl, -, hbelow⟩ := hrooted.exists_eq_cons
  clear hrooted
  induction below generalizing root with
  | nil => exact .singleton root
  | cons next below ih =>
      refine .cons_cons ?_ (ih next ?_)
      · simp [hbelow next]
      · intro node hnode
        exact hbelow node (List.mem_cons_of_mem next hnode)

end IsRooted

/-- Parts that each begin with their only root are the segments of the whole. -/
theorem segments_flatten {parts : List (List Node)} (hparts : ∀ part ∈ parts, IsRooted part) :
    segments parts.flatten = parts := by
  apply List.splitBy_flatten
  · intro hnil
    exact (hparts [] hnil).ne_nil rfl
  · intro part hpart
    exact (hparts part hpart).isChain
  · apply List.Pairwise.isChain
    apply List.pairwise_of_forall_mem_list
    intro part hpart next hnext
    obtain ⟨root, below, rfl, hroot, -⟩ := (hparts next hnext).exists_eq_cons
    refine ⟨(hparts part hpart).ne_nil, List.cons_ne_nil root below, ?_⟩
    simp [hroot]

namespace Streaming

/-- The part of the trace that belongs to roots that have exited: the part before the
root that is open, or all of it. -/
def completedNodes (builder : Streaming) : List Node :=
  match builder.openFrames.getLast? with
  | some root => builder.nodes.take root
  | none => builder.nodes

/-- The segment of the last root that has exited.  It is empty if none has. -/
def lastCompleted (builder : Streaming) : List Node :=
  (segments builder.completedNodes).getLast?.getD []

end Streaming

namespace CallTree

mutual

/-- All nodes in the trace of a tree lie at or below the path of its frame. -/
theorem path_prefix_of_mem_trace (path : Path) : (tree : CallTree) →
    ∀ node ∈ tree.trace path, path <+: node.path
  | node frame isReverted completion calls => by
      intro entry hentry
      rcases List.mem_cons.mp hentry with rfl | hbelow
      · exact List.prefix_rfl
      · exact (path_length_of_mem_traceBelow path 0 calls entry hbelow).1

/-- The nodes of the calls made in a frame lie below its path. -/
theorem path_length_of_mem_traceBelow (path : Path) (count : Nat) : (trees : List CallTree) →
    ∀ node ∈ traceBelow path count trees, path <+: node.path ∧ path.length < node.path.length
  | [] => by simp [traceBelow]
  | tree :: trees => by
      intro entry hentry
      rcases List.mem_append.mp hentry with hfirst | hrest
      · have hprefix := path_prefix_of_mem_trace (path ++ [UInt32.ofNat count]) tree entry hfirst
        have hlength := hprefix.length_le
        rw [List.length_append] at hlength
        exact ⟨(List.prefix_append path _).trans hprefix, hlength⟩
      · exact path_length_of_mem_traceBelow path (count + 1) trees entry hrest

end

/-- The trace of a tree begins with its root and has no other. -/
theorem isRooted_trace (tree : CallTree) : IsRooted (tree.trace []) := by
  cases tree with
  | node frame isReverted completion calls =>
      refine ⟨_, List.map_cons, ?_⟩
      intro hempty
      obtain ⟨entry, hentry, hpath⟩ := List.mem_map.mp hempty
      have hlength := (path_length_of_mem_traceBelow [] 0 calls entry hentry).2
      simp [hpath] at hlength

theorem segments_flatMap_trace (trees : List CallTree) :
    segments (trees.flatMap (trace [])) = trees.map (trace []) := by
  rw [List.flatMap_def]
  apply segments_flatten
  intro nodes hnodes
  obtain ⟨tree, -, rfl⟩ := List.mem_map.mp hnodes
  exact tree.isRooted_trace

end CallTree

namespace Streaming

theorem completedNodes_ofForest (forest : Forest) :
    (ofForest forest).completedNodes = forest.rootNodes := by
  have hlast : ∀ calls : List OpenCall, (OpenCall.places forest.rootSize calls).getLast? =
      calls.getLast?.map fun _ => forest.rootSize := by
    intro calls
    induction calls with
    | nil => rfl
    | cons call outer ih =>
        cases outer with
        | nil => rfl
        | cons next outer => simpa [OpenCall.places, List.getLast?_cons_cons] using ih
  have htake : forest.nodes.take forest.rootSize = forest.rootNodes := by
    rw [← forest.length_rootNodes]
    exact List.take_left
  unfold completedNodes
  simp only [ofForest, Forest.places, hlast]
  cases hopen : forest.openCalls.getLast? with
  | none =>
      rw [List.getLast?_eq_none_iff] at hopen
      simp [Forest.nodes, hopen, OpenCall.traceAll]
  | some call => exact htake

/-- The last complete segment is the trace of the last complete tree. -/
theorem lastCompleted_ofForest (forest : Forest) :
    (ofForest forest).lastCompleted = forest.roots.getLast?.elim [] (CallTree.trace []) := by
  unfold lastCompleted
  rw [completedNodes_ofForest, Forest.rootNodes, CallTree.segments_flatMap_trace,
    List.getLast?_map]
  cases forest.roots.getLast? <;> rfl

end Streaming

end CallTrace
