import CallTrace.Proofs.Forest.Arena
import Mathlib.Data.List.GetD

/-!
# Levels in a preorder

In a preorder, the levels of the nodes alone tell which node lies below which: below a
node are those behind it up to the next that is not on a deeper level.  Unlike the paths,
the levels of a trace do so for any number of calls made in a frame, since child numbers
are taken modulo `2 ^ 32`.
-/

namespace CallTrace

/-- Whether the lower of two places lies below the upper one. -/
def IsBelow (levels : List Nat) (upper lower : Nat) : Prop :=
  upper < lower ∧ lower < levels.length ∧
    ∀ place ≤ lower, upper < place → levels.getD upper 0 < levels.getD place 0

/-- Whether the lower of two places lies below the upper one, one level deeper. -/
def IsChild (levels : List Nat) (upper lower : Nat) : Prop :=
  IsBelow levels upper lower ∧ levels.getD lower 0 = levels.getD upper 0 + 1

instance (levels : List Nat) (upper lower : Nat) : Decidable (IsBelow levels upper lower) :=
  inferInstanceAs (Decidable (_ ∧ _ ∧ _))

instance (levels : List Nat) (upper lower : Nat) : Decidable (IsChild levels upper lower) :=
  inferInstanceAs (Decidable (_ ∧ _))

section Levels

variable {level upper lower : Nat} {levels others : List Nat}

/-- What lies deeper than the first level lies below the first place. -/
theorem isBelow_zero_of_lt (hlower : lower < levels.length)
    (hdeeper : ∀ deeper ∈ levels, level < deeper) : IsBelow (level :: levels) 0 (lower + 1) := by
  refine ⟨Nat.succ_pos lower, Nat.succ_lt_succ hlower, ?_⟩
  intro place hle hplace
  obtain ⟨place, rfl⟩ := Nat.exists_eq_succ_of_ne_zero (Nat.ne_of_gt hplace)
  rw [List.getD_cons_zero, List.getD_cons_succ, List.getD_eq_getElem _ _ (by omega)]
  exact hdeeper _ (List.getElem_mem _)

theorem isBelow_cons_succ :
    IsBelow (level :: levels) (upper + 1) (lower + 1) ↔ IsBelow levels upper lower := by
  constructor
  · rintro ⟨hplace, hlength, hdeeper⟩
    refine ⟨by omega, by simpa using hlength, ?_⟩
    intro place hlower hupper
    simpa using hdeeper (place + 1) (by omega) (by omega)
  · rintro ⟨hplace, hlength, hdeeper⟩
    refine ⟨by omega, by simpa using hlength, ?_⟩
    intro place hlower hupper
    obtain ⟨place, rfl⟩ := Nat.exists_eq_succ_of_ne_zero (Nat.ne_of_gt (Nat.zero_lt_of_lt hupper))
    simpa using hdeeper place (by omega) (by omega)

theorem isBelow_append_left (hlower : lower < levels.length) :
    IsBelow (levels ++ others) upper lower ↔ IsBelow levels upper lower := by
  have hlevel : ∀ place ≤ lower, (levels ++ others).getD place 0 = levels.getD place 0 :=
    fun place hplace => List.getD_append _ _ _ _ (by omega)
  constructor
  · rintro ⟨hplace, -, hdeeper⟩
    refine ⟨hplace, hlower, ?_⟩
    intro place hle hupper
    rw [← hlevel place hle, ← hlevel upper (by omega)]
    exact hdeeper place hle hupper
  · rintro ⟨hplace, -, hdeeper⟩
    refine ⟨hplace, by rw [List.length_append]; omega, ?_⟩
    intro place hle hupper
    rw [hlevel place hle, hlevel upper (by omega)]
    exact hdeeper place hle hupper

theorem getD_append_add (levels others : List Nat) (place : Nat) :
    (levels ++ others).getD (levels.length + place) 0 = others.getD place 0 := by
  rw [List.getD_append_right _ _ _ _ (Nat.le_add_right _ _), Nat.add_sub_cancel_left]

theorem isBelow_append_right :
    IsBelow (levels ++ others) (levels.length + upper) (levels.length + lower) ↔
      IsBelow others upper lower := by
  constructor
  · rintro ⟨hplace, hlength, hdeeper⟩
    rw [List.length_append] at hlength
    refine ⟨by omega, by omega, ?_⟩
    intro place hlower hupper
    have hlevel := hdeeper (levels.length + place) (by omega) (by omega)
    rwa [getD_append_add, getD_append_add] at hlevel
  · rintro ⟨hplace, hlength, hdeeper⟩
    refine ⟨by omega, by rw [List.length_append]; omega, ?_⟩
    intro place hlower hupper
    obtain ⟨place, rfl⟩ := Nat.exists_eq_add_of_le (show levels.length ≤ place by omega)
    rw [getD_append_add, getD_append_add]
    exact hdeeper place (by omega) (by omega)

/-- Nothing lies below a place that is before another on no deeper level. -/
theorem not_isBelow_append (hupper : upper < levels.length)
    (hlevels : ∀ deeper ∈ levels, level ≤ deeper) :
    ¬ IsBelow (levels ++ level :: others) upper (levels.length + lower) := by
  rintro ⟨-, -, hdeeper⟩
  have hlevel := hdeeper levels.length (Nat.le_add_right _ _) hupper
  rw [← Nat.add_zero levels.length, getD_append_add, List.getD_append _ _ _ _ hupper,
    List.getD_eq_getElem _ _ hupper, List.getD_cons_zero] at hlevel
  have hle := hlevels _ (List.getElem_mem hupper)
  omega

theorem isChild_cons_succ :
    IsChild (level :: levels) (upper + 1) (lower + 1) ↔ IsChild levels upper lower := by
  unfold IsChild
  rw [isBelow_cons_succ, List.getD_cons_succ, List.getD_cons_succ]

theorem isChild_append_left (hlower : lower < levels.length) :
    IsChild (levels ++ others) upper lower ↔ IsChild levels upper lower := by
  unfold IsChild
  rw [isBelow_append_left hlower]
  apply and_congr_right
  intro hbelow
  rw [List.getD_append _ _ _ _ hlower, List.getD_append _ _ _ _ (Nat.lt_trans hbelow.1 hlower)]

theorem isChild_append_right :
    IsChild (levels ++ others) (levels.length + upper) (levels.length + lower) ↔
      IsChild others upper lower := by
  unfold IsChild
  rw [isBelow_append_right, getD_append_add, getD_append_add]

end Levels

/-- The level of a node in its call tree. -/
def Node.level (node : Node) : Nat :=
  node.path.length

theorem getD_level {nodes : List Node} {place : Nat} {node : Node}
    (hnode : nodes[place]? = some node) : (nodes.map Node.level).getD place 0 = node.level := by
  simp [List.getD_eq_getElem?_getD, hnode]

namespace CallTree

mutual

/-- The levels of the frames of a tree in preorder, if its root is on the given one. -/
def levels (level : Nat) : CallTree → List Nat
  | node _ _ _ calls => level :: levelsBelow (level + 1) calls

/-- The levels of the frames of trees one after the other, if their roots are on the given
one. -/
def levelsBelow (level : Nat) : List CallTree → List Nat
  | [] => []
  | tree :: trees => tree.levels level ++ levelsBelow level trees

end

mutual

theorem length_levels (level : Nat) : (tree : CallTree) → (tree.levels level).length = tree.size
  | node _ _ _ calls => congrArg Nat.succ (length_levelsBelow (level + 1) calls)

theorem length_levelsBelow (level : Nat) :
    (trees : List CallTree) → (levelsBelow level trees).length = totalSize trees
  | [] => rfl
  | tree :: trees => by
      simp only [levelsBelow, totalSize, List.length_append]
      rw [length_levels level tree, length_levelsBelow level trees]

end

mutual

theorem le_of_mem_levels (level : Nat) : (tree : CallTree) →
    ∀ deeper ∈ tree.levels level, level ≤ deeper
  | node _ _ _ calls => by
      intro deeper hdeeper
      rcases List.mem_cons.mp hdeeper with rfl | hbelow
      · exact Nat.le_refl _
      · exact Nat.le_of_succ_le (le_of_mem_levelsBelow (level + 1) calls deeper hbelow)

theorem le_of_mem_levelsBelow (level : Nat) : (trees : List CallTree) →
    ∀ deeper ∈ levelsBelow level trees, level ≤ deeper
  | [] => by simp [levelsBelow]
  | tree :: trees => by
      intro deeper hdeeper
      rcases List.mem_append.mp hdeeper with hfirst | hrest
      · exact le_of_mem_levels level tree deeper hfirst
      · exact le_of_mem_levelsBelow level trees deeper hrest

end

/-- Trees begin on the level of their roots. -/
theorem exists_levelsBelow_eq_cons (level : Nat) (tree : CallTree) (trees : List CallTree) :
    ∃ others, levelsBelow level (tree :: trees) = level :: others := by
  cases tree
  exact ⟨_, rfl⟩

/-- The first place of a tree lies above all others. -/
theorem isBelow_levels_zero {level place : Nat} {tree : CallTree} (hplace : place + 1 < tree.size) :
    IsBelow (tree.levels level) 0 (place + 1) := by
  cases tree with
  | node _ _ _ calls =>
      apply isBelow_zero_of_lt
      · rw [length_levelsBelow]
        exact Nat.lt_of_succ_lt_succ hplace
      · exact le_of_mem_levelsBelow (level + 1) calls

mutual

/-- Each place of a tree but the first is one level below another. -/
theorem exists_isChild (level place : Nat) : (tree : CallTree) → place + 1 < tree.size →
    ∃ upper, IsChild (tree.levels level) upper (place + 1)
  | node frame isReverted completion calls => by
      intro hplace
      have hbelow : place < totalSize calls := Nat.lt_of_succ_lt_succ hplace
      rcases isRoot_or_exists_isChild (level + 1) place calls hbelow with hroot | ⟨upper, hchild⟩
      · exact ⟨0, isBelow_levels_zero hplace, hroot⟩
      · exact ⟨upper + 1, isChild_cons_succ.mpr hchild⟩

/-- Each place of several trees is that of a root or one level below another. -/
theorem isRoot_or_exists_isChild (level place : Nat) : (trees : List CallTree) →
    place < totalSize trees → (levelsBelow level trees).getD place 0 = level ∨
      ∃ upper, IsChild (levelsBelow level trees) upper place
  | [] => by simp [totalSize]
  | tree :: trees => by
      intro hplace
      unfold levelsBelow
      by_cases htree : place < tree.size
      · have hlength : place < (tree.levels level).length := by rwa [length_levels]
        cases place with
        | zero =>
            left
            cases tree
            rfl
        | succ place =>
            obtain ⟨upper, hchild⟩ := exists_isChild level place tree htree
            exact .inr ⟨upper, (isChild_append_left hlength).mpr hchild⟩
      · obtain ⟨place, rfl⟩ := Nat.exists_eq_add_of_le (Nat.le_of_not_lt htree)
        rw [← length_levels level tree]
        rcases isRoot_or_exists_isChild level place trees (Nat.lt_of_add_lt_add_left hplace)
          with hroot | ⟨upper, hchild⟩
        · left
          rwa [getD_append_add]
        · exact .inr ⟨_, isChild_append_right.mpr hchild⟩

end

/-- No place lies below one of another tree. -/
theorem not_isBelow_levels_append {level upper lower : Nat} {tree : CallTree}
    {trees : List CallTree} (hupper : upper < tree.size) (hlower : lower < totalSize trees) :
    ¬ IsBelow (tree.levels level ++ levelsBelow level trees) upper (tree.size + lower) := by
  cases trees with
  | nil => simp [totalSize] at hlower
  | cons next trees =>
      obtain ⟨others, hothers⟩ := exists_levelsBelow_eq_cons level next trees
      rw [← length_levels level tree] at hupper ⊢
      rw [hothers]
      exact not_isBelow_append hupper (le_of_mem_levels level tree)

/-- A child lies in the same tree as its parent. -/
theorem isChild_levelsBelow_cons {level upper lower : Nat} {tree : CallTree}
    {trees : List CallTree} (hchild : IsChild (levelsBelow level (tree :: trees)) upper lower) :
    lower < tree.size ∧ IsChild (tree.levels level) upper lower ∨
      ∃ above below, upper = tree.size + above ∧ lower = tree.size + below ∧
        IsChild (levelsBelow level trees) above below := by
  unfold levelsBelow at hchild
  by_cases hlower : lower < tree.size
  · left
    refine ⟨hlower, (isChild_append_left ?_).mp hchild⟩
    rwa [length_levels]
  · right
    have hlength := hchild.1.2.1
    rw [List.length_append, length_levels, length_levelsBelow] at hlength
    obtain ⟨below, rfl⟩ := Nat.exists_eq_add_of_le (Nat.le_of_not_lt hlower)
    have hupper : tree.size ≤ upper := by
      apply Nat.le_of_not_lt
      intro hless
      exact not_isBelow_levels_append hless (by omega) hchild.1
    obtain ⟨above, rfl⟩ := Nat.exists_eq_add_of_le hupper
    rw [← length_levels level tree] at hchild
    exact ⟨above, below, rfl, rfl, isChild_append_right.mp hchild⟩

@[simp]
theorem path_takeShare (parentGas? : Option UInt64) (node : Node) :
    (node.takeShare parentGas?).path = node.path := by
  rcases node.takeShare_cases parentGas? with hshare | ⟨gas, hshare⟩ <;> rw [hshare]
  rfl

mutual

/-- The levels in a trace are those of the tree. -/
theorem levels_settledTrace (parentGas? : Option UInt64) (path : Path) : (tree : CallTree) →
    (tree.settledTrace parentGas? path).map Node.level = tree.levels path.length
  | node _ _ _ calls => by
      simp only [settledTrace, List.map_cons, levels]
      rw [levels_settledBelow _ path 0 calls]
      simp [Node.level, Node.exited]

theorem levels_settledBelow (gas : UInt64) (path : Path) (count : Nat) :
    (trees : List CallTree) →
    (settledBelow gas path count trees).map Node.level = levelsBelow (path.length + 1) trees
  | [] => rfl
  | tree :: trees => by
      simp only [settledBelow, List.map_append, levelsBelow]
      rw [levels_settledTrace _ _ tree, levels_settledBelow gas path (count + 1) trees,
        List.length_append]
      rfl

end

end CallTree

end CallTrace
