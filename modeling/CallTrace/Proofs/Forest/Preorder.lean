import CallTrace.Proofs.Forest.Segments
import Mathlib.Algebra.Group.Nat.Defs
import Mathlib.Data.List.Lex

/-!
# Traces in preorder

A path can be read as a word, and a parent's path with one number more is that of a
child.  A list of nodes is in preorder if its paths increase as words do in a
dictionary, if no node comes before its parent, and if each node counts the children
that are listed for it, which are numbered from zero on.

The trace of a call tree is in preorder as long as no frame has so many calls that
their numbers wrap around.
-/

namespace CallTrace

/-- The number of the child that has the second path, if the parent has the first. -/
def childNumber? (parent path : Path) : Option UInt32 :=
  if path.dropLast = parent then path.getLast? else none

theorem childNumber?_eq_some_iff {parent path : Path} {number : UInt32} :
    childNumber? parent path = some number ↔ path = parent ++ [number] := by
  unfold childNumber?
  constructor
  · intro hnumber
    rw [Option.ite_none_right_eq_some] at hnumber
    obtain ⟨rfl, hlast⟩ := hnumber
    exact (List.dropLast_append_getLast? number hlast).symm
  · rintro rfl
    simp

theorem childNumber?_eq_none {parent path : Path}
    (hpath : ∀ number, path ≠ parent ++ [number]) : childNumber? parent path = none := by
  rw [Option.eq_none_iff_forall_ne_some]
  intro number hnumber
  exact hpath number (childNumber?_eq_some_iff.mp hnumber)

/-- The numbers of the children of the node with the given path, as they are listed. -/
def childNumbers (nodes : List Node) (parent : Path) : List UInt32 :=
  nodes.filterMap fun node => childNumber? parent node.path

theorem childNumbers_cons_of_none {parent : Path} {node : Node}
    (hnone : childNumber? parent node.path = none) (nodes : List Node) :
    childNumbers (node :: nodes) parent = childNumbers nodes parent :=
  List.filterMap_cons_none hnone

theorem childNumbers_cons_of_some {parent : Path} {node : Node} {number : UInt32}
    (hsome : childNumber? parent node.path = some number) (nodes : List Node) :
    childNumbers (node :: nodes) parent = number :: childNumbers nodes parent :=
  List.filterMap_cons_some hsome

theorem childNumbers_append (nodes others : List Node) (parent : Path) :
    childNumbers (nodes ++ others) parent =
      childNumbers nodes parent ++ childNumbers others parent :=
  List.filterMap_append

theorem childNumbers_eq_nil {nodes : List Node} {parent : Path}
    (hnodes : ∀ node ∈ nodes, ∀ number, node.path ≠ parent ++ [number]) :
    childNumbers nodes parent = [] := by
  unfold childNumbers
  rw [List.filterMap_eq_nil_iff]
  intro node hnode
  exact childNumber?_eq_none (hnodes node hnode)

/-- Whether there are enough numbers for the children of each node. -/
def IsNarrow (nodes : List Node) : Prop :=
  ∀ node ∈ nodes, (childNumbers nodes node.path).length < 2 ^ 32

instance (nodes : List Node) : Decidable (IsNarrow nodes) :=
  inferInstanceAs (Decidable (∀ node ∈ nodes, _))

theorem IsNarrow.of_sublist {nodes others : List Node} (hnarrow : IsNarrow nodes)
    (hothers : others.Sublist nodes) : IsNarrow others := by
  intro node hnode
  apply Nat.lt_of_le_of_lt _ (hnarrow node (hothers.subset hnode))
  exact (hothers.filterMap _).length_le

/-- Nodes in the order of their paths, each behind its parent and with the number of
its children. -/
structure InPreorder (nodes : List Node) : Prop where
  paths_increase : (nodes.map Node.path).Pairwise (· < ·)
  paths_nodup : (nodes.map Node.path).Nodup
  parent_first : ∀ before parent number after,
    nodes.map Node.path = before ++ (parent ++ [number]) :: after → parent ∈ before
  children_counted : ∀ node ∈ nodes,
    childNumbers nodes node.path = (List.range node.subtraces.toNat).map UInt32.ofNat

namespace Path

theorem lt_of_prefix_of_length_lt {path other : Path} (hstarts : path <+: other)
    (hlength : path.length < other.length) : path < other := by
  obtain ⟨rest, rfl⟩ := hstarts
  cases rest with
  | nil => simp at hlength
  | cons number rest =>
      have hless : path ++ [] < path ++ number :: rest :=
        List.append_left_lt (List.nil_lt_cons number rest)
      rwa [List.append_nil] at hless

theorem lt_append_singleton (path : Path) (number : UInt32) : path < path ++ [number] :=
  lt_of_prefix_of_length_lt (List.prefix_append path [number]) (by simp)

/-- What lies below a child comes before what lies below a child with a higher
number. -/
theorem lt_of_child_lt {path left right : Path} {number next : UInt32} (hnumber : number < next)
    (hleft : path ++ [number] <+: left) (hright : path ++ [next] <+: right) : left < right := by
  obtain ⟨leftRest, rfl⟩ := hleft
  obtain ⟨rightRest, rfl⟩ := hright
  rw [List.append_assoc, List.append_assoc]
  exact List.append_left_lt (List.cons_lt_cons_iff.mpr (.inl hnumber))

/-- Nothing lies below two children of one node. -/
theorem child_eq_of_prefix {path below : Path} {number next : UInt32}
    (hnumber : path ++ [number] <+: below) (hnext : path ++ [next] <+: below) : number = next := by
  have hstarts := List.prefix_of_prefix_length_le hnumber hnext (by simp)
  have heq := hstarts.eq_of_length (by simp)
  simpa using heq

end Path

theorem ofNat_lt_ofNat {left right : Nat} (hless : left < right) (hbound : right < 2 ^ 32) :
    UInt32.ofNat left < UInt32.ofNat right := by
  rw [UInt32.lt_iff_toNat_lt, UInt32.toNat_ofNat_of_lt' hbound,
    UInt32.toNat_ofNat_of_lt' (hless.trans hbound)]
  exact hless

namespace CallTree

/-- The nodes of the calls made in a frame lie at or below the paths of the calls. -/
theorem exists_prefix_of_mem_traceBelow {path : Path} {count : Nat} {trees : List CallTree}
    {node : Node} (hnode : node ∈ traceBelow path count trees) :
    ∃ number, count ≤ number ∧ number < count + trees.length ∧
      path ++ [UInt32.ofNat number] <+: node.path := by
  induction trees generalizing count with
  | nil => simp [traceBelow] at hnode
  | cons tree trees ih =>
      rcases List.mem_append.mp hnode with hfirst | hrest
      · refine ⟨count, Nat.le_refl count, ?_, path_prefix_of_mem_trace _ tree node hfirst⟩
        simp
      · obtain ⟨number, hlower, hupper, hstarts⟩ := ih hrest
        refine ⟨number, Nat.le_of_succ_le hlower, ?_, hstarts⟩
        rwa [List.length_cons, Nat.add_comm trees.length, ← Nat.add_assoc]

/-- The trace of a call holds one child of the frame that makes it. -/
theorem childNumbers_trace_of_child (path : Path) (number : UInt32) (tree : CallTree) :
    childNumbers (tree.trace (path ++ [number])) path = [number] := by
  cases tree with
  | node frame isReverted completion calls =>
      have hbelow : childNumbers (traceBelow (path ++ [number]) 0 calls) path = [] := by
        apply childNumbers_eq_nil
        intro node hnode next hnext
        have hlength := (path_length_of_mem_traceBelow _ 0 calls node hnode).2
        simp [hnext] at hlength
      unfold trace
      rw [childNumbers_cons_of_some (childNumber?_eq_some_iff.mpr rfl), hbelow]

/-- The calls made in a frame are its children, in their order. -/
theorem childNumbers_traceBelow (path : Path) (count : Nat) (trees : List CallTree) :
    childNumbers (traceBelow path count trees) path =
      (List.range' count trees.length).map UInt32.ofNat := by
  induction trees generalizing count with
  | nil => rfl
  | cons tree trees ih =>
      unfold traceBelow
      rw [childNumbers_append, childNumbers_trace_of_child, ih]
      rfl

theorem childNumbers_trace (path : Path) (frame : Frame) (isReverted : Bool)
    (completion : Completion) (calls : List CallTree) :
    childNumbers (trace path (.node frame isReverted completion calls)) path =
      (List.range calls.length).map UInt32.ofNat := by
  have htop : childNumber? path path = none := childNumber?_eq_none (by simp)
  unfold trace
  rw [childNumbers_cons_of_none htop, childNumbers_traceBelow, List.range_eq_range']

mutual

/-- Whether there are enough numbers for the calls made in each frame of a tree. -/
def HasFewCalls : CallTree → Prop
  | node _ _ _ calls => calls.length < 2 ^ 32 ∧ AllHaveFewCalls calls

/-- Whether this is so in each of several trees. -/
def AllHaveFewCalls : List CallTree → Prop
  | [] => True
  | tree :: trees => tree.HasFewCalls ∧ AllHaveFewCalls trees

end

mutual

/-- The trace of a tree lists the calls made in each frame, and maybe others with the
same paths. -/
theorem hasFewCalls_of_isNarrow (path : Path) : (tree : CallTree) →
    IsNarrow (tree.trace path) → tree.HasFewCalls
  | node frame isReverted completion calls => by
      intro hnarrow
      constructor
      · have hlength := hnarrow _ List.mem_cons_self
        change (childNumbers _ path).length < 2 ^ 32 at hlength
        rwa [childNumbers_trace, List.length_map, List.length_range] at hlength
      · exact allHaveFewCalls_of_isNarrow path 0 calls
          (hnarrow.of_sublist (List.sublist_cons_self _ _))

theorem allHaveFewCalls_of_isNarrow (path : Path) (count : Nat) : (trees : List CallTree) →
    IsNarrow (traceBelow path count trees) → AllHaveFewCalls trees
  | [], _ => trivial
  | tree :: trees, hnarrow => by
      constructor
      · exact hasFewCalls_of_isNarrow _ tree
          (hnarrow.of_sublist (List.sublist_append_left _ _))
      · exact allHaveFewCalls_of_isNarrow path (count + 1) trees
          (hnarrow.of_sublist (List.sublist_append_right _ _))

end

mutual

theorem increasing_trace (path : Path) : (tree : CallTree) → tree.HasFewCalls →
    ((tree.trace path).map Node.path).Pairwise (· < ·)
  | node frame isReverted completion calls => by
      rintro ⟨hcalls, hbelow⟩
      refine .cons ?_ (increasing_traceBelow path 0 calls (by omega) hbelow)
      intro other hother
      obtain ⟨entry, hentry, rfl⟩ := List.mem_map.mp hother
      obtain ⟨hstarts, hlength⟩ := path_length_of_mem_traceBelow path 0 calls entry hentry
      exact Path.lt_of_prefix_of_length_lt hstarts hlength

theorem increasing_traceBelow (path : Path) (count : Nat) : (trees : List CallTree) →
    count + trees.length ≤ 2 ^ 32 → AllHaveFewCalls trees →
    ((traceBelow path count trees).map Node.path).Pairwise (· < ·)
  | [], _, _ => .nil
  | tree :: trees, hcount, ⟨htree, htrees⟩ => by
      unfold traceBelow
      rw [List.length_cons] at hcount
      rw [List.map_append, List.pairwise_append]
      refine ⟨?_, ?_, ?_⟩
      · exact increasing_trace _ tree htree
      · exact increasing_traceBelow path (count + 1) trees (by omega) htrees
      · intro left hleft right hright
        obtain ⟨entry, hentry, rfl⟩ := List.mem_map.mp hleft
        obtain ⟨other, hother, rfl⟩ := List.mem_map.mp hright
        obtain ⟨number, hlower, hupper, hstarts⟩ := exists_prefix_of_mem_traceBelow hother
        exact Path.lt_of_child_lt (ofNat_lt_ofNat hlower (by omega))
          (path_prefix_of_mem_trace _ tree entry hentry) hstarts

end

mutual

/-- The parents of the nodes in a trace are in it, but for that of the first. -/
theorem parent_mem_trace (path : Path) : (tree : CallTree) → ∀ node ∈ tree.trace path,
    ∀ parent number, node.path = parent ++ [number] →
      node.path = path ∨ parent ∈ (tree.trace path).map Node.path
  | .node frame isReverted completion calls => by
      intro entry hentry parent number hparent
      unfold trace
      rcases List.mem_cons.mp hentry with rfl | hbelow
      · exact .inl rfl
      · right
        rw [List.map_cons, List.mem_cons]
        exact parent_mem_traceBelow path 0 calls entry hbelow parent number hparent

theorem parent_mem_traceBelow (path : Path) (count : Nat) : (trees : List CallTree) →
    ∀ node ∈ traceBelow path count trees, ∀ parent number, node.path = parent ++ [number] →
      parent = path ∨ parent ∈ (traceBelow path count trees).map Node.path
  | [] => by simp [traceBelow]
  | tree :: trees => by
      intro entry hentry parent number hparent
      unfold traceBelow
      rw [List.map_append, List.mem_append]
      rcases List.mem_append.mp hentry with hfirst | hrest
      · rcases parent_mem_trace _ tree entry hfirst parent number hparent with htop | hparents
        · left
          exact (List.append_inj' (hparent.symm.trans htop) rfl).1
        · exact .inr (.inl hparents)
      · rcases parent_mem_traceBelow path (count + 1) trees entry hrest parent number hparent
          with htop | hparents
        · exact .inl htop
        · exact .inr (.inr hparents)

end

/-- What lies below one call of a frame has no children below the others. -/
theorem childNumbers_eq_nil_of_child_ne {path parent : Path} {number : UInt32}
    {nodes : List Node} (hparent : path ++ [number] <+: parent)
    (hnodes : ∀ node ∈ nodes, ∃ next, next ≠ number ∧ path ++ [next] <+: node.path) :
    childNumbers nodes parent = [] := by
  apply childNumbers_eq_nil
  intro node hnode child hchild
  obtain ⟨next, hne, hnext⟩ := hnodes node hnode
  have hnumber : path ++ [number] <+: node.path := by
    rw [hchild]
    exact hparent.trans (List.prefix_append parent [child])
  exact hne (Path.child_eq_of_prefix hnext hnumber)

mutual

/-- Each node in a trace counts the children that are listed for it. -/
theorem children_counted_trace (path : Path) : (tree : CallTree) → tree.HasFewCalls →
    ∀ node ∈ tree.trace path, childNumbers (tree.trace path) node.path =
      (List.range node.subtraces.toNat).map UInt32.ofNat
  | .node frame isReverted completion calls => by
      rintro ⟨hcalls, hbelowCalls⟩ entry hentry
      rcases List.mem_cons.mp hentry with rfl | hbelow
      · change childNumbers _ path = (List.range (UInt32.ofNat calls.length).toNat).map _
        rw [childNumbers_trace, UInt32.toNat_ofNat_of_lt' hcalls]
      · have hlength := (path_length_of_mem_traceBelow path 0 calls entry hbelow).2
        have htop : childNumber? entry.path path = none := by
          apply childNumber?_eq_none
          intro number hnumber
          rw [hnumber, List.length_append] at hlength
          omega
        unfold trace
        rw [childNumbers_cons_of_none htop]
        exact children_counted_traceBelow path 0 calls (by omega) hbelowCalls entry hbelow

theorem children_counted_traceBelow (path : Path) (count : Nat) : (trees : List CallTree) →
    count + trees.length ≤ 2 ^ 32 → AllHaveFewCalls trees →
    ∀ node ∈ traceBelow path count trees, childNumbers (traceBelow path count trees) node.path =
      (List.range node.subtraces.toNat).map UInt32.ofNat
  | [], _, _ => by simp [traceBelow]
  | tree :: trees, hcount, ⟨htree, htrees⟩ => by
      intro entry hentry
      unfold traceBelow
      rw [List.length_cons] at hcount
      rw [childNumbers_append]
      rcases List.mem_append.mp hentry with hfirst | hrest
      · have hothers : childNumbers (traceBelow path (count + 1) trees) entry.path = [] := by
          apply childNumbers_eq_nil_of_child_ne (path_prefix_of_mem_trace _ tree entry hfirst)
          intro other hother
          obtain ⟨number, hlower, hupper, hstarts⟩ := exists_prefix_of_mem_traceBelow hother
          exact ⟨_, (UInt32.ne_of_lt (ofNat_lt_ofNat hlower (by omega))).symm, hstarts⟩
        rw [hothers, List.append_nil]
        exact children_counted_trace _ tree htree entry hfirst
      · obtain ⟨number, hlower, hupper, hstarts⟩ := exists_prefix_of_mem_traceBelow hrest
        have hothers :
            childNumbers (tree.trace (path ++ [UInt32.ofNat count])) entry.path = [] := by
          apply childNumbers_eq_nil_of_child_ne hstarts
          intro other hother
          exact ⟨_, UInt32.ne_of_lt (ofNat_lt_ofNat hlower (by omega)),
            path_prefix_of_mem_trace _ tree other hother⟩
        rw [hothers, List.nil_append]
        exact children_counted_traceBelow path (count + 1) trees (by omega) htrees entry hrest

end

/-- There are enough numbers for the children of each node in a trace if and only if
there are for the calls made in each frame. -/
theorem isNarrow_trace_iff {path : Path} {tree : CallTree} :
    IsNarrow (tree.trace path) ↔ tree.HasFewCalls := by
  constructor
  · exact hasFewCalls_of_isNarrow path tree
  · intro hcalls node hnode
    rw [children_counted_trace path tree hcalls node hnode, List.length_map, List.length_range]
    exact node.subtraces.toNat_lt

/-- The trace of a call tree is in preorder, if there are enough numbers for the
children of each node. -/
theorem inPreorder_trace {tree : CallTree} (hnarrow : IsNarrow (tree.trace [])) :
    InPreorder (tree.trace []) := by
  have hcalls := isNarrow_trace_iff.mp hnarrow
  have hincrease := increasing_trace [] tree hcalls
  refine ⟨hincrease, ?_, ?_, children_counted_trace [] tree hcalls⟩
  · apply hincrease.imp
    rintro path other hless rfl
    exact List.lt_irrefl path hless
  · intro before parent number after hpaths
    have hchild : parent ++ [number] ∈ (tree.trace []).map Node.path := by simp [hpaths]
    obtain ⟨node, hnode, hpath⟩ := List.mem_map.mp hchild
    have hparent : parent ∈ (tree.trace []).map Node.path := by
      rcases parent_mem_trace [] tree node hnode parent number hpath with hempty | hparents
      · simp [hempty] at hpath
      · exact hparents
    -- A parent that came behind its child would have a greater path.
    rw [hpaths] at hincrease hparent
    have hless := Path.lt_append_singleton parent number
    rcases List.mem_append.mp hparent with hbefore | hbehind
    · exact hbefore
    · rcases List.mem_cons.mp hbehind with heq | hafter
      · simp at heq
      · have hgreater := (List.pairwise_cons.mp (List.pairwise_append.mp hincrease).2.1).1
          parent hafter
        exact absurd hless (List.lt_asymm hgreater)

end CallTree

end CallTrace
