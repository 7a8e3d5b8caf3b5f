import CallTrace.Proofs.Arena.Walk
import CallTrace.Proofs.Builder.Stacks
import CallTrace.Proofs.Forest.Deferred

/-!
# How the deferred builder writes out a tree

When a root closes, its tree takes up the end of the arena.  The walk from the root then visits
each place from there on once, in their order, and nothing that belongs to an earlier root.

That walks end and visit no place twice follows from the links alone, at any moment of a run.
-/

namespace CallTrace

namespace CallTree

mutual

/-- The vertices of a tree hold the nodes of its trace. -/
theorem map_node_vertices (start : Nat) (path : Path) :
    (tree : CallTree) → (tree.vertices start path).map Vertex.node = tree.trace path
  | node frame isReverted completion calls => by
      simp only [vertices, trace, List.map_cons]
      rw [map_node_verticesBelow (start + 1) path 0 calls]

theorem map_node_verticesBelow (start : Nat) (path : Path) (count : Nat) :
    (trees : List CallTree) →
      (verticesBelow start path count trees).map Vertex.node = traceBelow path count trees
  | [] => rfl
  | tree :: trees => by
      simp only [verticesBelow, traceBelow, List.map_append]
      rw [map_node_vertices start _ tree, map_node_verticesBelow (start + tree.size) path _ trees]

end

mutual

theorem isClosed_of_mem_trace (path : Path) : (tree : CallTree) →
    ∀ node ∈ tree.trace path, node.isClosed = true
  | node _ _ _ calls =>
      List.forall_mem_cons.mpr ⟨rfl, isClosed_of_mem_traceBelow path 0 calls⟩

theorem isClosed_of_mem_traceBelow (path : Path) (count : Nat) : (trees : List CallTree) →
    ∀ node ∈ traceBelow path count trees, node.isClosed = true
  | [] => nofun
  | tree :: trees =>
      List.forall_mem_append.mpr
        ⟨isClosed_of_mem_trace _ tree, isClosed_of_mem_traceBelow path (count + 1) trees⟩

end

end CallTree

@[simp]
theorem Arena.map_fst_numbered (start : Nat) (nodes : List Node) :
    (numbered start nodes).map Prod.fst = List.range' start nodes.length := by
  simp [numbered, List.map_map, Function.comp_def]

/-- An event that closes a root completes a tree of the forest, at the place where the complete
trees end. -/
theorem Forest.exists_tree_of_closesRoot {forest : Forest} {event : Event} {root : Nat}
    (hcloses : (Deferred.ofForest forest).ClosesRoot event root) :
    root = forest.rootSize ∧ ∃ tree,
      Builder.advance forest event =
        { forest with roots := forest.roots ++ [tree], openCalls := [] } := by
  have hdepth : (Deferred.ofForest forest).openFrames.length = forest.openCalls.length :=
    OpenCall.length_places forest.rootSize forest.openCalls
  cases hcloses with
  | exit completion openFrames_eq =>
      rw [openFrames_eq] at hdepth
      obtain ⟨call, hopen⟩ := List.length_eq_one_iff.mp hdepth.symm
      constructor
      · rw [Deferred.openFrames_ofForest hopen, length_arenaBefore] at openFrames_eq
        exact (List.cons.inj openFrames_eq).1.symm
      · have hexit : Builder.apply forest (.exit completion) = .ok _ :=
          exit_of_cons hopen completion
        exact ⟨call.exit completion, Builder.advance_of_apply hexit⟩
  | @opcode step rejection rejection?_eq openFrames_eq =>
      rw [openFrames_eq] at hdepth
      have hopen := List.eq_nil_of_length_eq_zero hdepth.symm
      constructor
      · rw [Deferred.length_arena_ofForest, length_nodes, hopen]
        rfl
      · have hobserve : Builder.apply forest (.opcode step) = .ok _ :=
          (Builder.observe_of_rejection rejection?_eq).trans (exit_openFrame forest _ _)
        rw [Builder.advance_of_apply hobserve, addTree_of_nil hopen, hopen]
        exact ⟨_, rfl⟩

/-- Whether the builder has written out the tree of a root: all places from the root on have been
visited once, in their order, and their nodes are written out settled.  They have all closed,
and the root is the only one among them. -/
structure Deferred.HasWrittenOut (builder : Deferred) (root : Nat) : Prop where
  root_eq : builder.root = some root
  root_lt : root < builder.arena.length
  exists_visits : ∃ visits, builder.arena.preorder? root = some visits ∧
    visits.map Prod.fst = List.range' root (builder.arena.length - root) ∧
    builder.nodes = visits.map Prod.snd ∧
    ∀ visit ∈ visits, ∃ vertex parentGas?, builder.arena[visit.1]? = some vertex ∧
      visit.2 = vertex.settle parentGas?
  isClosed : ∀ node ∈ builder.nodes, node.isClosed = true
  isRoot_iff : ∀ (place : Nat) vertex, root ≤ place → builder.arena[place]? = some vertex →
    (vertex.node.isRoot = true ↔ place = root)

theorem IsRooted.isRoot_iff {nodes : List Node} (hrooted : IsRooted nodes) {index : Nat}
    {node : Node} (hnode : nodes[index]? = some node) : node.isRoot = true ↔ index = 0 := by
  obtain ⟨root, below, rfl, hroot, hbelow⟩ := hrooted.exists_eq_cons
  cases index with
  | zero =>
      cases hnode
      exact iff_of_true hroot rfl
  | succ index =>
      have hfalse := hbelow node (List.mem_of_getElem? hnode)
      exact iff_of_false (Bool.not_eq_true _ ▸ hfalse) (Nat.succ_ne_zero index)

theorem Node.isClosed_takeShare (parentGas? : Option UInt64) (node : Node) :
    (node.takeShare parentGas?).isClosed = node.isClosed := by
  rcases node.takeShare_cases parentGas? with hshare | ⟨gas, hshare⟩ <;> rw [hshare]
  rfl

theorem Node.isClosed_clearDestruction (node : Node) :
    node.clearDestruction.isClosed = node.isClosed := by
  obtain ⟨action, outcome, path, subtraces⟩ := node
  cases action with
  | call details => rfl
  | create details => rfl
  | selfDestruct details => rcases outcome with _ | result | message <;> rfl

/-- Settling a node neither opens nor closes it. -/
theorem Vertex.isClosed_settle (parentGas? : Option UInt64) (vertex : Vertex) :
    (vertex.settle parentGas?).isClosed = vertex.node.isClosed := by
  cases parentGas? with
  | none => rfl
  | some parentGas =>
      exact (Node.isClosed_clearDestruction _).trans (Node.isClosed_takeShare (some parentGas) _)

namespace Deferred

variable {builder : Deferred} {before : Arena} {tree : CallTree}

/-- The vertices from the root on are those of its tree. -/
theorem trace_of_arena_eq (harena : builder.arena = before ++ tree.vertices before.length [])
    {place : Nat} {vertex : Vertex} (hplace : before.length ≤ place)
    (hvertex : builder.arena[place]? = some vertex) :
    (tree.trace [])[place - before.length]? = some vertex.node := by
  rw [harena, List.getElem?_append_right hplace] at hvertex
  rw [← CallTree.map_node_vertices before.length, List.getElem?_map, hvertex]
  rfl

theorem hasWrittenOut_of_arena_eq
    (harena : builder.arena = before ++ tree.vertices before.length [])
    (hroot : builder.root = some before.length)
    (hnodes : builder.nodes = tree.settledTrace none []) :
    builder.HasWrittenOut before.length := by
  have hlength : builder.arena.length - before.length = tree.size := by
    rw [harena, List.length_append, CallTree.length_vertices, Nat.add_sub_cancel_left]
  have hpreorder := Arena.preorder?_eq_numbered harena
  have hplaces : (Arena.numbered before.length (tree.settledTrace none [])).map Prod.fst =
      List.range' before.length (builder.arena.length - before.length) := by
    rw [Arena.map_fst_numbered, CallTree.length_settledTrace, hlength]
  have hsettle := Arena.settle_of_mem_walk hpreorder
  constructor
  · exact hroot
  · apply Nat.lt_of_sub_pos
    rw [hlength]
    cases tree
    exact Nat.succ_pos _
  · refine ⟨_, hpreorder, hplaces, ?_, hsettle⟩
    rw [hnodes, Arena.map_snd_numbered]
  · intro node hnode
    rw [hnodes, ← Arena.map_snd_numbered before.length (tree.settledTrace none [])] at hnode
    obtain ⟨visit, hvisit, rfl⟩ := List.mem_map.mp hnode
    obtain ⟨vertex, parentGas?, hvertex, hsettled⟩ := hsettle visit hvisit
    have hplace := List.mem_map_of_mem (f := Prod.fst) hvisit
    rw [hplaces, List.mem_range'_1] at hplace
    rw [hsettled, Vertex.isClosed_settle]
    apply tree.isClosed_of_mem_trace []
    exact List.mem_of_getElem? (trace_of_arena_eq harena hplace.1 hvertex)
  · intro place vertex hplace hvertex
    rw [tree.isRooted_trace.isRoot_iff (trace_of_arena_eq harena hplace hvertex),
      Nat.sub_eq_zero_iff_le]
    exact ⟨fun hle => Nat.le_antisymm hle hplace, Nat.le_of_eq⟩

/-- A root that has closed is written out: the forest has one complete tree more. -/
theorem hasWrittenOut_ofForest (forest : Forest) (tree : CallTree) :
    (ofForest { forest with roots := forest.roots ++ [tree], openCalls := [] }).HasWrittenOut
      forest.rootSize := by
  have hstart : (forest.arenaBefore []).length = forest.rootSize := forest.length_arenaBefore []
  rw [← hstart]
  apply hasWrittenOut_of_arena_eq (forest.arena_addRoot tree)
  · rw [hstart]
    simp [ofForest, Forest.rootPlace?, CallTree.places_append_singleton, Forest.rootSize]
  · simp [ofForest, Forest.lastSettled]

/-- An event that closes a root writes out its tree. -/
theorem hasWrittenOut_of_closesRoot {forest : Forest} {event : Event} {root : Nat}
    (hcloses : (ofForest forest).ClosesRoot event root) :
    (Builder.advance (ofForest forest) event).HasWrittenOut root := by
  obtain ⟨rfl, tree, hadvance⟩ := Forest.exists_tree_of_closesRoot hcloses
  rw [morphism_ofForest.advance_map, hadvance]
  exact hasWrittenOut_ofForest forest tree

theorem exists_roots_of_isFinished {forest : Forest}
    (hfinished : (ofForest forest).isFinished = true) :
    forest.openCalls = [] ∧ ∃ roots tree, forest.roots = roots ++ [tree] := by
  obtain ⟨hroot, hframes⟩ := (Bool.and_eq_true _ _).mp hfinished
  change forest.rootPlace?.isSome = true at hroot
  have hopen : forest.openCalls = [] := by
    rw [← List.length_eq_zero_iff, ← OpenCall.length_places forest.rootSize]
    exact List.length_eq_zero_iff.mpr (List.isEmpty_iff.mp hframes)
  refine ⟨hopen, ?_⟩
  rcases List.eq_nil_or_concat' forest.roots with hroots | ⟨roots, tree, hroots⟩
  · simp [Forest.rootPlace?, hopen, hroots, CallTree.places] at hroot
  · exact ⟨roots, tree, hroots⟩

/-- A builder that is finished has written out the tree of its root. -/
theorem exists_hasWrittenOut_of_isFinished (settings : Settings) (context : Context)
    (events : List Event) :
    let builder := Builder.run (empty settings context) events
    builder.isFinished = true → ∃ root, builder.HasWrittenOut root := by
  intro builder hfinished
  let forest := Builder.run (Forest.empty settings context) events
  have hforest : builder = ofForest forest := run_eq_ofForest settings context events
  rw [hforest] at hfinished ⊢
  obtain ⟨hopen, roots, tree, hroots⟩ := exists_roots_of_isFinished hfinished
  have hwritten := hasWrittenOut_ofForest { forest with roots } tree
  rw [← hroots, ← hopen] at hwritten
  exact ⟨_, hwritten⟩

end Deferred

/-- At every moment of a run, links lead from earlier to later places of the arena, the children
of a vertex stand in increasing order, and each vertex but the roots is linked once.  So walks
end, from wherever they begin, and visit each place that they can reach once.  When a root
closes, all places from the root on are written out in their order. -/
theorem deferred_walks_visit_each_once (settings : Settings) (context : Context)
    (events : List Event) :
    let builder := Builder.run (Deferred.empty settings context) events
    (∀ parent child, builder.arena.HasLink parent child →
      parent < child ∧ child < builder.arena.length) ∧
    (∀ (place : Nat) vertex, builder.arena[place]? = some vertex →
      vertex.children.Pairwise (· < ·) ∧
      builder.arena.links.count place = if vertex.node.isRoot then 0 else 1) ∧
    (∀ start, start < builder.arena.length → ∀ parentGas?,
      ∃ visits, (∀ fuel, builder.arena.length ≤ fuel →
          builder.arena.walk fuel [(start, parentGas?)] = some visits) ∧
        (visits.map Prod.fst).Nodup ∧
        ∀ place, place ∈ visits.map Prod.fst ↔
          Relation.ReflTransGen builder.arena.HasLink start place) ∧
    ∀ event root, builder.ClosesRoot event root →
      (Builder.advance builder event).HasWrittenOut root := by
  intro builder
  have hlinked : builder.arena.IsLinked :=
    (Deferred.isInStep_run settings context events).isLinked
  have hforest : builder = Deferred.ofForest _ := Deferred.run_eq_ofForest settings context events
  refine ⟨hlinked.link_bounds, ?_, ?_, ?_⟩
  · intro place vertex hvertex
    exact ⟨hlinked.children_increase place vertex hvertex, hlinked.count_links hvertex⟩
  · intro start hstart parentGas?
    exact hlinked.exists_walk hstart parentGas?
  · intro event root hcloses
    rw [hforest] at hcloses ⊢
    exact Deferred.hasWrittenOut_of_closesRoot hcloses

/-- Two calls ran in the second root, and its exit writes out three of the four nodes. -/
theorem deferred_walks_visit_each_once_of_second_root :
    let frame : Frame := .ofCall .call default default [] 0 0
    let events : List Event :=
      [.start frame, .exit default, .start frame, .enter frame, .exit default, .enter frame,
        .exit default]
    let builder := Builder.run (Deferred.empty default default) events
    let next := Builder.advance builder (.exit default)
    builder.arena.map Vertex.children = [[], [2, 3], [], []] ∧
      builder.arena.links.count 3 = 1 ∧
      (∃ visits, builder.arena.walk 4 [(1, none)] = some visits ∧ (visits.map Prod.fst).Nodup) ∧
      builder.ClosesRoot (.exit default) 1 ∧ next.HasWrittenOut 1 ∧ next.nodes.length = 3 := by
  intro frame events builder next
  obtain ⟨-, hvertices, hwalks, hwrites⟩ := deferred_walks_visit_each_once default default events
  have hchildren : builder.arena.map Vertex.children = [[], [2, 3], [], []] := by decide +kernel
  have hlength : builder.arena.length = 4 := by decide +kernel
  have hbound : 1 < builder.arena.length := hlength ▸ Nat.one_lt_succ_succ 2
  have hcloses : builder.ClosesRoot (.exit default) 1 := .exit default rfl
  have hwritten : next.nodes.length = 3 := by decide +kernel
  have hlast : (builder.arena[3]?.map fun vertex => vertex.node.isRoot) = some false := by
    decide +kernel
  obtain ⟨vertex, hvertex, hroot⟩ := Option.map_eq_some_iff.mp hlast
  have hcount := (hvertices 3 vertex hvertex).2
  rw [hroot] at hcount
  obtain ⟨visits, hwalk, hnodup, -⟩ := hwalks 1 hbound none
  exact ⟨hchildren, hcount, ⟨visits, hwalk 4 (Nat.le_of_eq hlength), hnodup⟩, hcloses,
    hwrites _ 1 hcloses, hwritten⟩

end CallTrace
