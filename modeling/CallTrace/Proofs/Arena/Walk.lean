import CallTrace.Proofs.Arena.Links
import Mathlib.Data.List.Perm.Subperm
import Mathlib.Logic.Relation

/-!
# Walks through linked arenas

A walk follows the links as they stand in the arena.  If they lead to later places, and to each
place from one other at most, then no walk comes to a place twice.  So it needs no more fuel
than there are places, and it ends when it has visited all that it can reach.
-/

namespace CallTrace.Arena

open Relation (ReflTransGen)

variable {arena : Arena} {start place child fuel more : Nat}
variable {agenda : Agenda} {visits : List (Nat × Node)} {parentGas? : Option UInt64}

theorem walk_cons_eq_some_iff :
    arena.walk (fuel + 1) ((place, parentGas?) :: agenda) = some visits ↔
      ∃ vertex, arena[place]? = some vertex ∧
        ∃ others, arena.walk fuel ((vertex.children.map fun child =>
            (child, some (vertex.settle parentGas?).action.gas)) ++ agenda) = some others ∧
          (place, vertex.settle parentGas?) :: others = visits := by
  simp [walk, Option.bind_eq_some_iff]

@[simp]
theorem map_fst_below (children : List Nat) (gas : UInt64) (agenda : Agenda) :
    ((children.map fun child => (child, some gas)) ++ agenda).map Prod.fst =
      children ++ agenda.map Prod.fst := by
  simp [Function.comp_def]

/-- More fuel than a walk needs makes no difference to it. -/
theorem walk_of_le (hwalk : arena.walk fuel agenda = some visits) (hfuel : fuel ≤ more) :
    arena.walk more agenda = some visits := by
  induction fuel generalizing more agenda visits with
  | zero =>
      cases agenda with
      | nil => cases more <;> exact hwalk
      | cons task agenda => cases hwalk
  | succ fuel ih =>
      cases agenda with
      | nil => cases more <;> exact hwalk
      | cons task agenda =>
          obtain ⟨more, rfl⟩ := Nat.exists_eq_add_one_of_ne_zero (Nat.ne_zero_of_lt hfuel)
          obtain ⟨vertex, hvertex, others, hothers, hvisits⟩ := walk_cons_eq_some_iff.mp hwalk
          have hmore := ih hothers (Nat.le_of_succ_le_succ hfuel)
          exact walk_cons_eq_some_iff.mpr ⟨vertex, hvertex, others, hmore, hvisits⟩

/-- A walk yields settled nodes of the arena, each with its place. -/
theorem settle_of_mem_walk (hwalk : arena.walk fuel agenda = some visits) :
    ∀ visit ∈ visits, ∃ vertex parentGas?, arena[visit.1]? = some vertex ∧
      visit.2 = vertex.settle parentGas? := by
  induction fuel generalizing agenda visits with
  | zero =>
      cases agenda with
      | nil =>
          cases hwalk
          exact nofun
      | cons task agenda => cases hwalk
  | succ fuel ih =>
      cases agenda with
      | nil =>
          cases hwalk
          exact nofun
      | cons task agenda =>
          obtain ⟨place, parentGas?⟩ := task
          obtain ⟨vertex, hvertex, others, hothers, rfl⟩ := walk_cons_eq_some_iff.mp hwalk
          exact List.forall_mem_cons.mpr ⟨⟨vertex, parentGas?, hvertex, rfl⟩, ih hothers⟩

namespace IsLinked

theorem le_of_reaches (hlinked : arena.IsLinked)
    (hreaches : ReflTransGen arena.HasLink start place) : start ≤ place := by
  induction hreaches with
  | refl => exact Nat.le_refl start
  | tail hreaches hlink ih => exact ih.trans (Nat.le_of_lt (hlinked.link_bounds _ _ hlink).1)

theorem lt_of_reaches (hlinked : arena.IsLinked) (hstart : start < arena.length)
    (hreaches : ReflTransGen arena.HasLink start place) : place < arena.length := by
  cases hreaches with
  | refl => exact hstart
  | tail hreaches hlink => exact (hlinked.link_bounds _ _ hlink).2

end IsLinked

/-- The state of a walk from a place: the places that it has visited and those on its agenda. -/
structure Explores (arena : Arena) (start : Nat) (visited pending : List Nat) : Prop where
  nodup : (visited ++ pending).Nodup
  start_mem : start ∈ visited ++ pending
  reaches : ∀ place ∈ visited ++ pending, ReflTransGen arena.HasLink start place
  parent_visited : ∀ place ∈ visited ++ pending,
    place = start ∨ ∃ parent ∈ visited, arena.HasLink parent place
  children_mem : ∀ parent ∈ visited, ∀ child, arena.HasLink parent child →
    child ∈ visited ++ pending

namespace Explores

variable {visited pending : List Nat} {vertex : Vertex}

theorem singleton (arena : Arena) (start : Nat) : arena.Explores start [] [start] where
  nodup := List.nodup_singleton start
  start_mem := List.mem_singleton_self start
  reaches := by
    intro place hplace
    cases List.mem_singleton.mp hplace
    exact .refl
  parent_visited := by
    intro place hplace
    exact .inl (List.mem_singleton.mp hplace)
  children_mem := nofun

theorem reaches_next (hexplores : arena.Explores start visited (place :: pending)) :
    ReflTransGen arena.HasLink start place :=
  hexplores.reaches place (List.mem_append_right visited List.mem_cons_self)

/-- No child of the place that is visited next has been met before: its parent would have been
visited, and that is the place itself. -/
theorem not_mem_of_hasLink (hexplores : arena.Explores start visited (place :: pending))
    (hlinked : arena.IsLinked) (hlink : arena.HasLink place child) :
    child ∉ visited ++ place :: pending := by
  intro hchild
  rcases hexplores.parent_visited child hchild with rfl | ⟨parent, hparent, hother⟩
  · have hle := hlinked.le_of_reaches hexplores.reaches_next
    exact Nat.not_lt.mpr hle (hlinked.link_bounds _ _ hlink).1
  · cases hlinked.eq_of_hasLink hother hlink
    exact List.disjoint_of_nodup_append hexplores.nodup hparent List.mem_cons_self

/-- The next place is visited, and its children are put on the agenda. -/
theorem visit (hexplores : arena.Explores start visited (place :: pending))
    (hlinked : arena.IsLinked) (hvertex : arena[place]? = some vertex) :
    arena.Explores start (place :: visited) (vertex.children ++ pending) := by
  have hlink : ∀ child, arena.HasLink place child ↔ child ∈ vertex.children := by
    simp [HasLink, hvertex]
  have hperm : (place :: visited ++ (vertex.children ++ pending)).Perm
      (vertex.children ++ (visited ++ place :: pending)) := by
    rw [List.perm_iff_count]
    intro other
    simp only [List.cons_append, List.count_append, List.count_cons]
    ac_rfl
  have hmem : ∀ other, other ∈ place :: visited ++ (vertex.children ++ pending) ↔
      other ∈ vertex.children ∨ other ∈ visited ++ place :: pending := by
    intro other
    rw [hperm.mem_iff, List.mem_append]
  constructor
  · rw [hperm.nodup_iff, List.nodup_append']
    refine ⟨hlinked.nodup_children hvertex, hexplores.nodup, ?_⟩
    intro child hchild
    exact hexplores.not_mem_of_hasLink hlinked ((hlink child).mpr hchild)
  · rw [hmem]
    exact .inr hexplores.start_mem
  · intro other hother
    rcases (hmem other).mp hother with hchild | hother
    · exact hexplores.reaches_next.tail ((hlink other).mpr hchild)
    · exact hexplores.reaches other hother
  · intro other hother
    rcases (hmem other).mp hother with hchild | hother
    · exact .inr ⟨place, List.mem_cons_self, (hlink other).mpr hchild⟩
    · rcases hexplores.parent_visited other hother with rfl | ⟨parent, hparent, hother⟩
      · exact .inl rfl
      · exact .inr ⟨parent, List.mem_cons_of_mem place hparent, hother⟩
  · intro parent hparent child hchild
    rw [hmem]
    rcases List.mem_cons.mp hparent with rfl | hparent
    · exact .inl ((hlink child).mp hchild)
    · exact .inr (hexplores.children_mem parent hparent child hchild)

theorem exists_vertex (hexplores : arena.Explores start visited (place :: pending))
    (hlinked : arena.IsLinked) (hstart : start < arena.length) :
    ∃ vertex, arena[place]? = some vertex :=
  ⟨_, List.getElem?_eq_getElem (hlinked.lt_of_reaches hstart hexplores.reaches_next)⟩

/-- There are no more places to be met than there are in the arena. -/
theorem length_le (hexplores : arena.Explores start visited pending) (hlinked : arena.IsLinked)
    (hstart : start < arena.length) : visited.length + pending.length ≤ arena.length := by
  have hbounds : visited ++ pending ⊆ List.range arena.length := by
    intro place hplace
    exact List.mem_range.mpr (hlinked.lt_of_reaches hstart (hexplores.reaches place hplace))
  simpa using (hexplores.nodup.subperm hbounds).length_le

/-- A walk with enough fuel goes on until its agenda is empty. -/
theorem walk (hexplores : arena.Explores start visited (agenda.map Prod.fst))
    (hlinked : arena.IsLinked) (hstart : start < arena.length)
    (hfuel : arena.length ≤ visited.length + fuel) :
    ∃ visits, arena.walk fuel agenda = some visits ∧
      arena.Explores start ((visits.map Prod.fst).reverse ++ visited) [] := by
  induction fuel generalizing visited agenda with
  | zero =>
      cases agenda with
      | nil => exact ⟨[], rfl, hexplores⟩
      | cons task agenda =>
          have hlength := hexplores.length_le hlinked hstart
          rw [List.map_cons, List.length_cons] at hlength
          omega
  | succ fuel ih =>
      cases agenda with
      | nil => exact ⟨[], rfl, hexplores⟩
      | cons task agenda =>
          obtain ⟨place, parentGas?⟩ := task
          obtain ⟨vertex, hvertex⟩ := hexplores.exists_vertex hlinked hstart
          have hvisit := hexplores.visit hlinked hvertex
          rw [← map_fst_below vertex.children (vertex.settle parentGas?).action.gas] at hvisit
          have hrest : arena.length ≤ (place :: visited).length + fuel := by
            rwa [List.length_cons, Nat.succ_add_eq_add_succ]
          obtain ⟨others, hothers, hexplored⟩ := ih hvisit hrest
          refine ⟨_, walk_cons_eq_some_iff.mpr ⟨vertex, hvertex, others, hothers, rfl⟩, ?_⟩
          simpa using hexplored

/-- When nothing is left to be visited, what can be reached has been visited. -/
theorem mem_iff_reaches (hexplores : arena.Explores start visited []) :
    place ∈ visited ↔ ReflTransGen arena.HasLink start place := by
  have hmem : ∀ other, other ∈ visited ++ [] ↔ other ∈ visited := by simp
  constructor
  · intro hplace
    exact hexplores.reaches place ((hmem place).mpr hplace)
  · intro hreaches
    induction hreaches with
    | refl => exact (hmem start).mp hexplores.start_mem
    | tail hreaches hlink ih => exact (hmem _).mp (hexplores.children_mem _ ih _ hlink)

end Explores

/-- A walk from a place of a linked arena ends, and it has visited each place that can be
reached once. -/
theorem IsLinked.exists_walk (hlinked : arena.IsLinked) (hstart : start < arena.length)
    (parentGas? : Option UInt64) :
    ∃ visits, (∀ fuel, arena.length ≤ fuel →
        arena.walk fuel [(start, parentGas?)] = some visits) ∧
      (visits.map Prod.fst).Nodup ∧
      ∀ place, place ∈ visits.map Prod.fst ↔ ReflTransGen arena.HasLink start place := by
  have hfuel : arena.length ≤ ([] : List Nat).length + arena.length := by simp
  have hbegin : arena.Explores start [] ([(start, parentGas?)].map Prod.fst) :=
    .singleton arena start
  obtain ⟨visits, hwalk, hexplores⟩ := hbegin.walk hlinked hstart hfuel
  rw [List.append_nil] at hexplores
  refine ⟨visits, fun fuel hfuel => walk_of_le hwalk hfuel, ?_, ?_⟩
  · simpa using hexplores.nodup
  · intro place
    rw [← hexplores.mem_iff_reaches, List.mem_reverse]

end CallTrace.Arena
