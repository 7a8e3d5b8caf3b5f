import CallTrace.Proofs.Forest.Preorder

/-!
# Open frames in a trace

The nodes of open frames stand in the trace with the paths and the child counts that
they would have if the frames exited at once.  So the trace of nested open frames is in
preorder just as that of a complete tree, and makes up the last segment.

The places of the open frames point at nodes whose paths extend each other by one
number each.
-/

namespace CallTrace

/-- What a node says about where it stands: its path, and the number of its children. -/
def Node.spot (node : Node) : Path × UInt32 :=
  (node.path, node.subtraces)

section

variable {nodes others : List Node}

theorem paths_eq_of_spots_eq (hspots : nodes.map Node.spot = others.map Node.spot) :
    nodes.map Node.path = others.map Node.path := by
  have hpaths := congrArg (List.map Prod.fst) hspots
  rwa [List.map_map, List.map_map] at hpaths

theorem childNumbers_eq_of_spots_eq (hspots : nodes.map Node.spot = others.map Node.spot)
    (parent : Path) : childNumbers nodes parent = childNumbers others parent := by
  have hpaths : ∀ nodes : List Node,
      childNumbers nodes parent = (nodes.map Node.path).filterMap (childNumber? parent) := by
    intro nodes
    rw [List.filterMap_map]
    rfl
  rw [hpaths, hpaths, paths_eq_of_spots_eq hspots]

theorem exists_spot_eq_of_mem (hspots : nodes.map Node.spot = others.map Node.spot) {node : Node}
    (hnode : node ∈ nodes) :
    ∃ other ∈ others, other.path = node.path ∧ other.subtraces = node.subtraces := by
  have hmem : node.spot ∈ others.map Node.spot := hspots ▸ List.mem_map_of_mem hnode
  obtain ⟨other, hother, hspot⟩ := List.mem_map.mp hmem
  exact ⟨other, hother, congrArg Prod.fst hspot, congrArg Prod.snd hspot⟩

theorem IsRooted.of_spots_eq (hspots : nodes.map Node.spot = others.map Node.spot)
    (hrooted : IsRooted nodes) : IsRooted others := by
  unfold IsRooted
  rwa [← paths_eq_of_spots_eq hspots]

theorem IsNarrow.of_spots_eq (hspots : nodes.map Node.spot = others.map Node.spot)
    (hnarrow : IsNarrow nodes) : IsNarrow others := by
  intro other hother
  obtain ⟨node, hnode, hpath, -⟩ := exists_spot_eq_of_mem hspots.symm hother
  rw [← hpath, ← childNumbers_eq_of_spots_eq hspots]
  exact hnarrow node hnode

theorem InPreorder.of_spots_eq (hspots : nodes.map Node.spot = others.map Node.spot)
    (hordered : InPreorder nodes) : InPreorder others := by
  have hpaths := paths_eq_of_spots_eq hspots
  refine ⟨?_, ?_, ?_, ?_⟩
  · rw [← hpaths]
    exact hordered.paths_increase
  · rw [← hpaths]
    exact hordered.paths_nodup
  · rw [← hpaths]
    exact hordered.parent_first
  · intro other hother
    obtain ⟨node, hnode, hpath, hcount⟩ := exists_spot_eq_of_mem hspots.symm hother
    rw [← hpath, ← hcount, ← childNumbers_eq_of_spots_eq hspots]
    exact hordered.children_counted node hnode

end

namespace OpenCall

/-- The call tree of a frame and the frames around it if they all exit at once. -/
def exitAll (call : OpenCall) : List OpenCall → CallTree
  | [] => call.exit default
  | next :: outer => exitAll (next.addCall (call.exit default)) outer

theorem spots_exit (call : OpenCall) (completion : Completion) (path : Path) :
    ((call.exit completion).trace path).map Node.spot =
      (call.trace false path).map Node.spot := by
  rw [trace_exit]
  simp [trace, Node.spot, Node.exited, node, callCount]

/-- Exits change neither the paths nor the child counts in a trace. -/
theorem spots_exitAll (call : OpenCall) (outer : List OpenCall) :
    ((call.exitAll outer).trace []).map Node.spot =
      (traceAll false (call :: outer)).map Node.spot := by
  induction outer generalizing call with
  | nil => exact spots_exit call default []
  | cons next outer ih =>
      unfold exitAll
      rw [ih]
      simp only [traceAll, trace_addCall, List.map_append, nextPath, spots_exit, List.append_assoc]

/-- The paths of nested open frames, innermost first. -/
def paths : List OpenCall → List Path
  | [] => []
  | _ :: outer => nextPath outer :: paths outer

theorem length_nextPath (calls : List OpenCall) : (nextPath calls).length = calls.length := by
  induction calls with
  | nil => rfl
  | cons call outer ih => simp [nextPath, ih]

theorem lengths_paths (calls : List OpenCall) :
    (paths calls).reverse.map List.length = List.range calls.length := by
  induction calls with
  | nil => rfl
  | cons call outer ih => simp [paths, List.range_succ, length_nextPath, ← ih]

theorem isChain_paths (calls : List OpenCall) :
    (paths calls).IsChain fun path outerPath => outerPath <+: path := by
  induction calls with
  | nil => exact .nil
  | cons call outer ih =>
      cases outer with
      | nil => exact .singleton _
      | cons next outer => exact .cons_cons (List.prefix_append _ _) ih

/-- The places of nested open frames lead to nodes with their paths. -/
theorem paths_of_places (before after : List Node) (isCalling : Bool) (calls : List OpenCall) :
    (places before.length calls).filterMap (fun place =>
        (before ++ traceAll isCalling calls ++ after)[place]?.map Node.path) =
      paths calls := by
  induction calls generalizing isCalling after with
  | nil => rfl
  | cons call outer ih =>
      have hsplit : before ++ traceAll isCalling (call :: outer) ++ after =
          before ++ traceAll true outer ++ (call.trace isCalling (nextPath outer) ++ after) := by
        simp [traceAll]
      have hlength : (before ++ traceAll true outer).length =
          before.length + totalSize outer := by simp
      have hplace : (before ++ traceAll isCalling (call :: outer) ++ after)[
          before.length + totalSize outer]? = some (call.node isCalling (nextPath outer)) := by
        rw [hsplit, ← hlength]
        simp [trace]
      simp only [places, paths, List.filterMap_cons, hplace, Option.map_some]
      rw [hsplit, ih]
      rfl

theorem bounds_of_mem_places {start place : Nat} {calls : List OpenCall}
    (hplace : place ∈ places start calls) : start ≤ place ∧ place < start + totalSize calls := by
  induction calls with
  | nil => simp [places] at hplace
  | cons call outer ih =>
      have hsize : totalSize (call :: outer) = totalSize outer + call.size := rfl
      have hpositive : 0 < call.size := Nat.succ_pos _
      rcases List.mem_cons.mp hplace with rfl | houter
      · omega
      · have hbounds := ih houter
        omega

end OpenCall

namespace Forest

/-- The traces of all trees, one by one.  The last may be that of the open frames. -/
def traces (forest : Forest) : List (List Node) :=
  forest.roots.map (CallTree.trace []) ++
    match forest.openCalls with
    | [] => []
    | calls => [OpenCall.traceAll false calls]

theorem flatten_traces (forest : Forest) : forest.traces.flatten = forest.nodes := by
  unfold traces nodes rootNodes
  cases forest.openCalls with
  | nil => simp [OpenCall.traceAll, List.flatMap_def]
  | cons call outer => simp [List.flatMap_def]

/-- The trace of the open frames has the paths and the child counts of a complete tree,
as the others do. -/
theorem exists_tree_of_mem_traces {forest : Forest} {part : List Node}
    (hpart : part ∈ forest.traces) :
    ∃ tree : CallTree, (tree.trace []).map Node.spot = part.map Node.spot := by
  rcases List.mem_append.mp hpart with hroot | hopen
  · obtain ⟨tree, -, rfl⟩ := List.mem_map.mp hroot
    exact ⟨tree, rfl⟩
  · cases hcalls : forest.openCalls with
    | nil => simp [hcalls] at hopen
    | cons call outer =>
        simp only [hcalls, List.mem_singleton] at hopen
        rw [hopen]
        exact ⟨call.exitAll outer, call.spots_exitAll outer⟩

theorem isRooted_of_mem_traces {forest : Forest} {part : List Node}
    (hpart : part ∈ forest.traces) : IsRooted part := by
  obtain ⟨tree, hspots⟩ := exists_tree_of_mem_traces hpart
  exact tree.isRooted_trace.of_spots_eq hspots

theorem inPreorder_of_mem_traces {forest : Forest} {part : List Node}
    (hpart : part ∈ forest.traces) (hnarrow : IsNarrow part) : InPreorder part := by
  obtain ⟨tree, hspots⟩ := exists_tree_of_mem_traces hpart
  exact (CallTree.inPreorder_trace (hnarrow.of_spots_eq hspots.symm)).of_spots_eq hspots

/-- The segments of the trace are the traces of the trees. -/
theorem segments_nodes (forest : Forest) : segments forest.nodes = forest.traces := by
  rw [← flatten_traces]
  exact segments_flatten fun _ => isRooted_of_mem_traces

/-- The open frames lie in the last trace. -/
theorem bounds_of_mem_places {forest : Forest} {place : Nat} (hplace : place ∈ forest.places) :
    forest.traces.dropLast.flatten.length ≤ place ∧ place < forest.nodes.length := by
  have hbounds := OpenCall.bounds_of_mem_places hplace
  rw [length_nodes]
  cases hopen : forest.openCalls with
  | nil => simp [places, OpenCall.places, hopen] at hplace
  | cons call outer =>
      have hroots : forest.traces.dropLast.flatten = forest.rootNodes := by
        simp [traces, hopen, rootNodes, List.flatMap_def]
      rw [hroots, length_rootNodes, ← hopen]
      exact hbounds

end Forest

end CallTrace
