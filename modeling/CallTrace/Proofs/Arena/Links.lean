import CallTrace.Proofs.Builder.Allocation
import CallTrace.Proofs.Forest.Segments
import Mathlib.Data.List.Infix
import Mathlib.Data.List.Nodup

/-!
# Links in an arena

The links of an arena lead from each vertex to its children.  An arena grows at its end only,
by a root or by a child of a vertex that is there.  So links lead from earlier to later places,
the children of a vertex stand in the order of their discovery, and each vertex is linked once,
unless it is a root.

Closing a frame changes nodes, but nothing that the links are about.
-/

namespace CallTrace

/-- What the links of an arena are about: the children of a vertex, its path, the number of
children it has counted and the kind of its action. -/
def Vertex.outline (vertex : Vertex) : List Nat × Path × UInt32 × Kind :=
  (vertex.children, vertex.node.path, vertex.node.subtraces, vertex.node.action.kind)

namespace Arena

/-- Whether the vertex at one place has the vertex at another as a child. -/
def HasLink (arena : Arena) (parent child : Nat) : Prop :=
  ∃ vertex, arena[parent]? = some vertex ∧ child ∈ vertex.children

/-- The children of all vertices. -/
def links (arena : Arena) : List Nat :=
  arena.flatMap Vertex.children

/-- The places of the vertices that are no roots. -/
def nonRoots (arena : Arena) : List Nat :=
  arena.findIdxs fun vertex => !vertex.node.isRoot

/-- An arena in which links lead to later places, children are listed and counted in the order
of their discovery, and each vertex but the roots is linked once. -/
structure IsLinked (arena : Arena) : Prop where
  link_bounds : ∀ parent child, arena.HasLink parent child →
    parent < child ∧ child < arena.length
  children_increase : ∀ (place : Nat) vertex, arena[place]? = some vertex →
    vertex.children.Pairwise (· < ·)
  linked_once : arena.links.Perm arena.nonRoots
  counted : ∀ (place : Nat) vertex, arena[place]? = some vertex →
    vertex.node.subtraces = UInt32.ofNat vertex.children.length

variable {arena other : Arena} {place parent child : Nat} {vertex leaf : Vertex}

theorem isLinked_nil : IsLinked [] where
  link_bounds := by simp [HasLink]
  children_increase := nofun
  linked_once := .nil
  counted := nofun

namespace IsLinked

/-- A place is linked once, or not at all if a root stands there. -/
theorem count_links (hlinked : arena.IsLinked) (hvertex : arena[place]? = some vertex) :
    arena.links.count place = if vertex.node.isRoot then 0 else 1 := by
  have hplace : place ∈ arena.nonRoots ↔ vertex.node.isRoot = false := by
    obtain ⟨hbound, rfl⟩ := List.getElem?_eq_some_iff.mp hvertex
    simp [nonRoots, hbound]
  have hnodup : arena.nonRoots.Nodup := List.nodup_findIdxs
  rw [hlinked.linked_once.count_eq, hnodup.count]
  simp only [hplace]
  cases vertex.node.isRoot <;> rfl

theorem nodup_children (hlinked : arena.IsLinked) (hvertex : arena[place]? = some vertex) :
    vertex.children.Nodup :=
  (hlinked.children_increase place vertex hvertex).imp Nat.ne_of_lt

/-- No place is linked from two others. -/
theorem eq_of_hasLink (hlinked : arena.IsLinked) {first second : Nat}
    (hfirst : arena.HasLink first child) (hsecond : arena.HasLink second child) :
    first = second := by
  have hnodup : arena.links.Nodup := hlinked.linked_once.nodup_iff.mpr List.nodup_findIdxs
  have hdisjoint := List.pairwise_iff_getElem.mp (List.nodup_flatMap.mp hnodup).2
  have hapart : ∀ {first second}, arena.HasLink first child → arena.HasLink second child →
      ¬ first < second := by
    rintro first second ⟨vertex, hvertex, hchild⟩ ⟨other, hother, hchild'⟩ hlt
    obtain ⟨hbound, rfl⟩ := List.getElem?_eq_some_iff.mp hvertex
    obtain ⟨hbound', rfl⟩ := List.getElem?_eq_some_iff.mp hother
    exact hdisjoint first second hbound hbound' hlt hchild hchild'
  exact Nat.le_antisymm (Nat.not_lt.mp (hapart hsecond hfirst))
    (Nat.not_lt.mp (hapart hfirst hsecond))

end IsLinked

/-! ## Arenas with the same outlines -/

theorem length_eq_of_outlines_eq (houtlines : other.map Vertex.outline = arena.map Vertex.outline) :
    other.length = arena.length := by
  simpa using congrArg List.length houtlines

/-- What does not depend on the change of a vertex is the same after the change. -/
theorem map_modify_eq {α : Type} {change : Vertex → Vertex} {view : Vertex → α}
    (hchange : ∀ vertex, view (change vertex) = view vertex) (arena : Arena) (place : Nat) :
    (arena.modify place change).map view = arena.map view := by
  apply List.ext_getElem?
  intro index
  rw [List.getElem?_map, List.getElem?_modify, List.getElem?_map, Option.map_eq_map,
    Option.map_map]
  apply congrArg (Option.map · _)
  funext vertex
  rw [Function.comp_apply]
  split
  · exact hchange vertex
  · rfl

theorem exists_outline_eq (houtlines : other.map Vertex.outline = arena.map Vertex.outline)
    (hvertex : other[place]? = some vertex) :
    ∃ before, arena[place]? = some before ∧ before.outline = vertex.outline := by
  have hplace := congrArg (·[place]?) houtlines
  simp only [List.getElem?_map, hvertex, Option.map_some] at hplace
  exact Option.map_eq_some_iff.mp hplace.symm

theorem nonRoots_eq_findIdxs_path (arena : Arena) :
    arena.nonRoots = (arena.map fun vertex => vertex.node.path).findIdxs (!·.isEmpty) := by
  rw [List.findIdxs_map]
  rfl

theorem IsLinked.of_outlines_eq (hlinked : arena.IsLinked)
    (houtlines : other.map Vertex.outline = arena.map Vertex.outline) : other.IsLinked where
  link_bounds := by
    rintro parent child ⟨vertex, hvertex, hchild⟩
    obtain ⟨before, hbefore, houtline⟩ := exists_outline_eq houtlines hvertex
    have hchildren : before.children = vertex.children := congrArg Prod.fst houtline
    rw [length_eq_of_outlines_eq houtlines]
    exact hlinked.link_bounds parent child ⟨before, hbefore, hchildren ▸ hchild⟩
  children_increase := by
    intro place vertex hvertex
    obtain ⟨before, hbefore, houtline⟩ := exists_outline_eq houtlines hvertex
    have hchildren : before.children = vertex.children := congrArg Prod.fst houtline
    rw [← hchildren]
    exact hlinked.children_increase place before hbefore
  linked_once := by
    have hchildren := congrArg (List.map Prod.fst) houtlines
    have hpaths := congrArg (List.map fun outline => outline.2.1) houtlines
    simp only [List.map_map, Function.comp_def, Vertex.outline] at hchildren hpaths
    unfold links
    rw [nonRoots_eq_findIdxs_path, hpaths, ← nonRoots_eq_findIdxs_path, List.flatMap_def,
      hchildren, ← List.flatMap_def]
    exact hlinked.linked_once
  counted := by
    intro place vertex hvertex
    obtain ⟨before, hbefore, houtline⟩ := exists_outline_eq houtlines hvertex
    have hcounted := hlinked.counted place before hbefore
    simp only [Vertex.outline, Prod.mk.injEq] at houtline
    rw [← houtline.1, ← houtline.2.2.1, hcounted]

/-! ## Arenas that grow -/

variable {parent? : Option Nat} {node : Node}

@[simp]
theorem length_linkFrom (arena : Arena) (parent? : Option Nat) :
    (arena.linkFrom parent?).length = arena.length := by
  cases parent? with
  | none => rfl
  | some parent => exact List.length_modify ..

@[simp]
theorem length_grow (arena : Arena) (parent? : Option Nat) (node : Node) :
    (arena.grow parent? node).length = arena.length + 1 := by
  simp [grow]

theorem getElem?_linkFrom (arena : Arena) (parent? : Option Nat) (place : Nat) :
    (arena.linkFrom parent?)[place]? = arena[place]?.map fun vertex =>
      if parent? = some place then vertex.adopt arena.length else vertex := by
  cases parent? with
  | none => simp [linkFrom]
  | some parent => simp [linkFrom, List.getElem?_modify]

/-- A vertex of the arena that has grown is the new one, or one that was there, which may have
adopted it. -/
theorem getElem?_grow_eq_some_iff :
    (arena.grow parent? node)[place]? = some vertex ↔
      place = arena.length ∧ vertex = ⟨node, []⟩ ∨
        ∃ before, arena[place]? = some before ∧
          vertex = if parent? = some place then before.adopt arena.length else before := by
  unfold grow
  rcases Nat.lt_trichotomy place arena.length with hlt | rfl | hgt
  · rw [List.getElem?_append_left (by simpa using hlt), getElem?_linkFrom,
      Option.map_eq_some_iff, or_iff_right fun hnew => Nat.ne_of_lt hlt hnew.1]
    simp only [eq_comm]
  · rw [← length_linkFrom arena parent?, List.getElem?_concat_length]
    simp [eq_comm]
  · have hlength : (arena.grow parent? node).length ≤ place := by
      rw [length_grow]
      exact hgt
    unfold grow at hlength
    rw [List.getElem?_eq_none hlength, List.getElem?_eq_none (Nat.le_of_lt hgt)]
    simp [Nat.ne_of_gt hgt]

/-- A link from a parent is one link more. -/
theorem links_linkFrom_perm (hparent : ∀ parent ∈ parent?, parent < arena.length) :
    (arena.linkFrom parent?).links.Perm
      (arena.links ++ if parent?.isNone then [] else [arena.length]) := by
  cases parent? with
  | none => simp [linkFrom]
  | some parent =>
      have hbound := hparent parent rfl
      have hsplit : arena.links = (arena.take parent).flatMap Vertex.children ++
          (arena[parent].children ++ (arena.drop (parent + 1)).flatMap Vertex.children) := by
        rw [← List.flatMap_cons, ← List.drop_eq_getElem_cons hbound, ← List.flatMap_append,
          List.take_append_drop]
        rfl
      rw [hsplit]
      simp only [links, linkFrom, List.modify_eq_take_cons_drop hbound, Vertex.adopt, Vertex.link,
        List.flatMap_append, List.flatMap_cons, List.append_assoc]
      exact (List.perm_append_comm.append_left _).append_left _

theorem nonRoots_linkFrom (arena : Arena) (parent? : Option Nat) :
    (arena.linkFrom parent?).nonRoots = arena.nonRoots := by
  cases parent? with
  | none => rfl
  | some parent =>
      have hpath : ∀ vertex : Vertex, (vertex.adopt arena.length).node.path = vertex.node.path :=
        fun _ => rfl
      unfold linkFrom
      rw [nonRoots_eq_findIdxs_path, map_modify_eq hpath arena parent,
        ← nonRoots_eq_findIdxs_path]

theorem nonRoots_grow (arena : Arena) (parent? : Option Nat) (node : Node) :
    (arena.grow parent? node).nonRoots =
      arena.nonRoots ++ if node.isRoot then [] else [arena.length] := by
  rw [← nonRoots_linkFrom arena parent?, ← length_linkFrom arena parent?]
  simp only [grow, nonRoots, List.findIdxs_append]
  cases hroot : node.isRoot <;> simp [List.findIdxs_cons, hroot]

/-- A node without children that is a root exactly if it has no parent keeps up what links are
to be. -/
theorem IsLinked.grow (hlinked : arena.IsLinked)
    (hparent : ∀ parent ∈ parent?, parent < arena.length) (hcount : node.subtraces = 0)
    (hroot : node.isRoot = parent?.isNone) : (arena.grow parent? node).IsLinked where
  link_bounds := by
    rintro parent child ⟨vertex, hvertex, hchild⟩
    rw [length_grow]
    rcases getElem?_grow_eq_some_iff.mp hvertex with ⟨-, rfl⟩ | ⟨before, hbefore, rfl⟩
    · cases hchild
    · have hold : child ∈ before.children → parent < child ∧ child < arena.length + 1 := by
        intro hchild
        have hbounds := hlinked.link_bounds parent child ⟨before, hbefore, hchild⟩
        exact ⟨hbounds.1, Nat.lt_succ_of_lt hbounds.2⟩
      split at hchild
      · rcases List.mem_append.mp hchild with hchild | hnew
        · exact hold hchild
        · cases List.mem_singleton.mp hnew
          exact ⟨(List.getElem?_eq_some_iff.mp hbefore).1, Nat.lt_succ_self _⟩
      · exact hold hchild
  children_increase := by
    intro place vertex hvertex
    rcases getElem?_grow_eq_some_iff.mp hvertex with ⟨-, rfl⟩ | ⟨before, hbefore, rfl⟩
    · exact .nil
    · have hold := hlinked.children_increase place before hbefore
      split
      · apply List.pairwise_append.mpr ⟨hold, List.pairwise_singleton .., _⟩
        intro child hchild new hnew
        cases List.mem_singleton.mp hnew
        exact (hlinked.link_bounds place child ⟨before, hbefore, hchild⟩).2
      · exact hold
  linked_once := by
    rw [nonRoots_grow, hroot]
    have hlinks : (arena.grow parent? node).links = (arena.linkFrom parent?).links := by
      simp [links, Arena.grow]
    rw [hlinks]
    exact (links_linkFrom_perm hparent).trans (hlinked.linked_once.append_right _)
  counted := by
    intro place vertex hvertex
    rcases getElem?_grow_eq_some_iff.mp hvertex with ⟨-, rfl⟩ | ⟨before, hbefore, rfl⟩
    · exact hcount
    · have hold := hlinked.counted place before hbefore
      split
      · simp [Vertex.adopt, Vertex.link, Vertex.mapNode, Node.countChild, hold]
      · exact hold

end Arena

end CallTrace
