import CallTrace.Builder.Arena
import CallTrace.Proofs.Forest.CallTree

/-!
# Call trees in an arena

The frames of a call tree take up a block of an arena: the frame itself, and behind
it the blocks of the calls made in it.  So the links to be found in the block follow
from the sizes of the trees alone.

Walking a block from its first place visits its places one after the other, and
yields the settled trace of the tree: its trace with the gas shared out from the top
down.
-/

namespace CallTrace

/-- The node with its share of the gas of its parent, if it has a parent and a
result. -/
def Node.takeShare (parentGas? : Option UInt64) (node : Node) : Node :=
  match parentGas? with
  | some parentGas => node.receiveShare parentGas
  | none => node

namespace Node

theorem takeShare_of_result?_eq_none {node : Node} (hresult : node.result? = none)
    (parentGas? : Option UInt64) : node.takeShare parentGas? = node := by
  cases parentGas? <;> simp [takeShare, receiveShare, hresult]

theorem takeShare_of_result? {node : Node} {result : Result} (hresult : node.result? = some result)
    (parentGas : UInt64) :
    node.takeShare (some parentGas) = node.withGas (Vertex.share parentGas result.gasUsed) := by
  simp [takeShare, receiveShare, hresult]

/-- A share changes nothing but the gas of a node. -/
theorem takeShare_cases (parentGas? : Option UInt64) (node : Node) :
    node.takeShare parentGas? = node ∨ ∃ gas, node.takeShare parentGas? = node.withGas gas := by
  cases hresult : node.result? with
  | none => exact .inl (takeShare_of_result?_eq_none hresult parentGas?)
  | some result =>
      cases parentGas? with
      | none => exact .inl rfl
      | some parentGas => exact .inr ⟨_, takeShare_of_result? hresult parentGas⟩

theorem kind_takeShare (parentGas? : Option UInt64) (node : Node) :
    (node.takeShare parentGas?).action.kind = node.action.kind := by
  rcases node.takeShare_cases parentGas? with hshare | ⟨gas, hshare⟩
  · rw [hshare]
  · rw [hshare]
    exact Action.kind_withGas gas node.action

theorem result?_takeShare (parentGas? : Option UInt64) (node : Node) :
    (node.takeShare parentGas?).result? = node.result? := by
  rcases node.takeShare_cases parentGas? with hshare | ⟨gas, hshare⟩ <;> rw [hshare]
  rfl

/-- Nothing is cleared from a self-destruct whose result says no more than that. -/
theorem clearDestruction_eq_self {node : Node}
    (hresult : node.action.kind = .selfDestruct → ∀ result, node.result? = some result →
      result = .selfDestruct) :
    node.clearDestruction = node := by
  obtain ⟨action, outcome, path, subtraces⟩ := node
  cases action with
  | call details => rfl
  | create details => rfl
  | selfDestruct details =>
      rcases outcome with _ | result | message
      · rfl
      · obtain rfl := hresult rfl result rfl
        rfl
      · rfl

theorem result_of_selfDestruct_exited {frame : Frame} {isReverted : Bool}
    {completion : Completion} {path : Path} {calls : Nat} {result : Result}
    (hkind : (exited frame isReverted completion path calls).action.kind = .selfDestruct)
    (hresult : (exited frame isReverted completion path calls).result? = some result) :
    result = .selfDestruct := by
  have hframe : frame.kind = .selfDestruct := by
    rw [← frame.kind_finalAction completion]
    exact hkind
  unfold exited Frame.finalOutcome Frame.finalResult at hresult
  cases isReverted with
  | true => cases hresult
  | false =>
      cases herror : completion.error with
      | some message => simp [result?, herror] at hresult
      | none => simpa [result?, herror, hframe, eq_comm] using hresult

end Node

namespace CallTree

mutual

/-- The trace of a tree whose frame has the given path, with the gas of its frame
shared out among the calls that have a result, and so on below. -/
def settledTrace (parentGas? : Option UInt64) (path : Path) : CallTree → List Node
  | node frame isReverted completion calls =>
      let top := (Node.exited frame isReverted completion path calls.length).takeShare parentGas?
      top :: settledBelow top.action.gas path 0 calls

/-- The settled traces of calls that were made in a frame with the given gas and path,
the first of them after `count` others. -/
def settledBelow (gas : UInt64) (path : Path) (count : Nat) : List CallTree → List Node
  | [] => []
  | tree :: trees =>
      tree.settledTrace (some gas) (path ++ [UInt32.ofNat count]) ++
        settledBelow gas path (count + 1) trees

end

/-- The places of the frames of trees whose blocks follow one another. -/
def places (start : Nat) : List CallTree → List Nat
  | [] => []
  | tree :: trees => start :: places (start + tree.size) trees

mutual

/-- The block of a tree that begins at the given place of an arena. -/
def vertices (start : Nat) (path : Path) : CallTree → List Vertex
  | node frame isReverted completion calls =>
      ⟨.exited frame isReverted completion path calls.length, places (start + 1) calls⟩ ::
        verticesBelow (start + 1) path 0 calls

/-- The blocks of calls that were made in the frame with the given path, the first of
them after `count` others. -/
def verticesBelow (start : Nat) (path : Path) (count : Nat) : List CallTree → List Vertex
  | [] => []
  | tree :: trees =>
      tree.vertices start (path ++ [UInt32.ofNat count]) ++
        verticesBelow (start + tree.size) path (count + 1) trees

end

@[simp]
theorem length_places (start : Nat) (trees : List CallTree) :
    (places start trees).length = trees.length := by
  induction trees generalizing start with
  | nil => rfl
  | cons tree trees ih => simp [places, ih]

theorem places_append_singleton (start : Nat) (trees : List CallTree) (tree : CallTree) :
    places start (trees ++ [tree]) = places start trees ++ [start + totalSize trees] := by
  induction trees generalizing start with
  | nil => simp [places, totalSize]
  | cons first trees ih => simp [places, totalSize, ih, Nat.add_assoc]

theorem verticesBelow_append (start : Nat) (path : Path) (count : Nat)
    (trees others : List CallTree) :
    verticesBelow start path count (trees ++ others) =
      verticesBelow start path count trees ++
        verticesBelow (start + totalSize trees) path (count + trees.length) others := by
  induction trees generalizing start count with
  | nil => rfl
  | cons tree trees ih =>
      simp only [List.cons_append, verticesBelow, totalSize, List.length_cons, List.append_assoc]
      rw [ih, Nat.add_right_comm count, Nat.add_assoc start, Nat.add_assoc count]

mutual

theorem length_vertices (start : Nat) (path : Path) :
    (tree : CallTree) → (tree.vertices start path).length = tree.size
  | node frame isReverted completion calls => by
      simp only [vertices, size, List.length_cons]
      rw [length_verticesBelow (start + 1) path 0 calls]

theorem length_verticesBelow (start : Nat) (path : Path) (count : Nat) :
    (trees : List CallTree) → (verticesBelow start path count trees).length = totalSize trees
  | [] => rfl
  | tree :: trees => by
      simp only [verticesBelow, totalSize, List.length_append]
      rw [length_vertices start _ tree, length_verticesBelow (start + tree.size) path _ trees]

end

mutual

theorem length_settledTrace (parentGas? : Option UInt64) (path : Path) :
    (tree : CallTree) → (tree.settledTrace parentGas? path).length = tree.size
  | node frame isReverted completion calls => by
      simp only [settledTrace, size, List.length_cons]
      rw [length_settledBelow _ path 0 calls]

theorem length_settledBelow (gas : UInt64) (path : Path) (count : Nat) :
    (trees : List CallTree) → (settledBelow gas path count trees).length = totalSize trees
  | [] => rfl
  | tree :: trees => by
      simp only [settledBelow, totalSize, List.length_append]
      rw [length_settledTrace _ _ tree, length_settledBelow gas path (count + 1) trees]

end

/-- The first vertex of a block has the number of its calls already, and nothing in it has to
be cleared, so settling it comes down to the gas. -/
theorem settle_exited (parentGas? : Option UInt64) (frame : Frame) (isReverted : Bool)
    (completion : Completion) (path : Path) (start : Nat) (calls : List CallTree) :
    Vertex.settle parentGas?
        ⟨.exited frame isReverted completion path calls.length, places start calls⟩ =
      (Node.exited frame isReverted completion path calls.length).takeShare parentGas? := by
  simp only [Vertex.settle, length_places]
  cases parentGas? with
  | none => rfl
  | some parentGas =>
      change ((Node.exited _ _ _ _ _).takeShare (some parentGas)).clearDestruction = _
      apply Node.clearDestruction_eq_self
      intro hkind result hresult
      rw [Node.kind_takeShare] at hkind
      rw [Node.result?_takeShare] at hresult
      exact Node.result_of_selfDestruct_exited hkind hresult

end CallTree

namespace Arena

open CallTree

/-- The vertices stand in the arena one after the other from the given place on. -/
def HoldsAt (arena : Arena) (start : Nat) (vertices : List Vertex) : Prop :=
  vertices <+: arena.drop start

variable {arena : Arena} {start : Nat}

theorem HoldsAt.get_head {vertex : Vertex} {vertices : List Vertex}
    (holds : arena.HoldsAt start (vertex :: vertices)) : arena[start]? = some vertex := by
  obtain ⟨after, hafter⟩ := holds
  rw [← List.head?_drop, ← hafter]
  rfl

theorem HoldsAt.of_append_left {vertices others : List Vertex}
    (holds : arena.HoldsAt start (vertices ++ others)) : arena.HoldsAt start vertices :=
  (List.prefix_append vertices others).trans holds

theorem HoldsAt.of_append_right {vertices others : List Vertex}
    (holds : arena.HoldsAt start (vertices ++ others)) :
    arena.HoldsAt (start + vertices.length) others := by
  obtain ⟨after, hafter⟩ := holds
  refine ⟨after, ?_⟩
  rw [← List.drop_drop, ← hafter, List.append_assoc, List.drop_left]

theorem HoldsAt.tail {vertex : Vertex} {vertices : List Vertex}
    (holds : arena.HoldsAt start (vertex :: vertices)) : arena.HoldsAt (start + 1) vertices := by
  rw [← List.singleton_append] at holds
  exact holds.of_append_right

/-- Nodes with their places, from the given place on. -/
def numbered (start : Nat) (nodes : List Node) : List (Nat × Node) :=
  (nodes.zipIdx start).map Prod.swap

theorem numbered_append (start : Nat) (nodes others : List Node) :
    numbered start (nodes ++ others) =
      numbered start nodes ++ numbered (start + nodes.length) others := by
  simp [numbered, List.zipIdx_append]

@[simp]
theorem map_snd_numbered (start : Nat) (nodes : List Node) :
    (numbered start nodes).map Prod.snd = nodes := by
  simp [numbered, List.map_map, Function.comp_def]

mutual

/-- Walking a block visits its places in their order, and takes as much fuel as there
are frames. -/
theorem walk_tree (parentGas? : Option UInt64) (path : Path) (start fuel : Nat)
    (agenda : Agenda) : (tree : CallTree) → arena.HoldsAt start (tree.vertices start path) →
    walk arena (tree.size + fuel) ((start, parentGas?) :: agenda) =
      (walk arena fuel agenda).map (numbered start (tree.settledTrace parentGas? path) ++ ·)
  | .node frame isReverted completion calls, holds => by
      have hget := holds.get_head
      simp only [size, Nat.add_right_comm _ 1, walk]
      rw [hget]
      simp only [Option.bind_eq_bind, Option.bind_some, settle_exited]
      rw [walk_trees _ path (start + 1) 0 fuel agenda calls holds.tail]
      cases walk arena fuel agenda with
      | none => rfl
      | some visits => rfl

/-- Walking the blocks of calls one after the other. -/
theorem walk_trees (gas : UInt64) (path : Path) (start count fuel : Nat) (agenda : Agenda) :
    (trees : List CallTree) → arena.HoldsAt start (verticesBelow start path count trees) →
    walk arena (totalSize trees + fuel)
        (((places start trees).map fun place => (place, some gas)) ++ agenda) =
      (walk arena fuel agenda).map (numbered start (settledBelow gas path count trees) ++ ·)
  | [], _ => by
      simp [totalSize, places, settledBelow, numbered]
  | tree :: trees, holds => by
      have hrest := holds.of_append_right
      rw [length_vertices] at hrest
      simp only [totalSize, places, List.map_cons, List.cons_append, Nat.add_assoc, settledBelow]
      rw [walk_tree (some gas) _ start _ _ tree holds.of_append_left,
        walk_trees gas path (start + tree.size) (count + 1) fuel agenda trees hrest,
        numbered_append, length_settledTrace]
      simp [Option.map_map, Function.comp_def]

end

/-- A tree at the end of an arena is written out as its settled trace, place by
place. -/
theorem preorder?_eq_numbered {before : Arena} {tree : CallTree} {path : Path}
    (harena : arena = before ++ tree.vertices before.length path) :
    arena.preorder? before.length =
      some (numbered before.length (tree.settledTrace none path)) := by
  have hlength : arena.length = tree.size + before.length := by
    rw [harena, List.length_append, length_vertices, Nat.add_comm]
  have holds : arena.HoldsAt before.length (tree.vertices before.length path) := by
    rw [harena]
    simp [HoldsAt]
  unfold preorder?
  rw [hlength, walk_tree none path before.length before.length [] tree holds]
  simp [walk]

end Arena

end CallTrace
