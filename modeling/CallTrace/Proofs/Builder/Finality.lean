import CallTrace.Proofs.Builder.Growth
import CallTrace.Proofs.Forest.Preorder
import Mathlib.Data.List.Infix
import Mathlib.Data.List.TakeWhile

/-!
# What a streamed trace keeps

A streamed trace only ever grows at its end, until it is reset.  The node of a frame that
has exited is final.  That of an open frame still changes: children are counted, a creation
may learn its address, and an outcome is recorded; but an error in it stays.

All this is a relation between an earlier and a later state.  It holds across each operation
that finds the open frames pointing at distinct nodes of the last tree, and so across runs.
-/

namespace CallTrace

/-- The paths that are listed behind a place, up to the next root. -/
def pathsBehind (paths : List Path) (place : Nat) : List Path :=
  (paths.drop (place + 1)).takeWhile fun path => !path.isEmpty

/-- How many children are listed for the path at a place. -/
def childCount (paths : List Path) (place : Nat) : Nat :=
  paths[place]?.elim 0 fun parent =>
    ((pathsBehind paths place).filterMap (childNumber? parent)).length

section

variable {paths others : List Path} {place : Nat}

theorem pathsBehind_mono (hpaths : paths <+: others) (place : Nat) :
    pathsBehind paths place <+: pathsBehind others place := by
  obtain ⟨rest, hrest⟩ := hpaths.drop (place + 1)
  unfold pathsBehind
  rw [← hrest, List.takeWhile_append]
  split
  · next hall =>
    rw [(List.takeWhile_prefix _).eq_of_length hall]
    exact List.prefix_append _ _
  · exact List.prefix_rfl

/-- A list that is continued does not lose children. -/
theorem childCount_le (hpaths : paths <+: others) (place : Nat) :
    childCount paths place ≤ childCount others place := by
  unfold childCount
  cases hparent : paths[place]? with
  | none => exact Nat.zero_le _
  | some parent =>
      obtain ⟨hplace, hget⟩ := List.getElem?_eq_some_iff.mp hparent
      have hother : others[place]? = some parent := by
        rw [List.prefix_iff_getElem?.mp hpaths place hplace, hget]
      rw [hother]
      exact ((pathsBehind_mono hpaths place).filterMap _).length_le

/-- A child that is added to the tree that is listed last is counted. -/
theorem childCount_append_child {parent : Path} (hparent : paths[place]? = some parent)
    (hbehind : ∀ path ∈ paths.drop (place + 1), path ≠ []) (number : UInt32) :
    childCount (paths ++ [parent ++ [number]]) place = childCount paths place + 1 := by
  obtain ⟨hplace, -⟩ := List.getElem?_eq_some_iff.mp hparent
  have hall : ∀ path ∈ paths.drop (place + 1), (!path.isEmpty) = true := by
    simpa using hbehind
  have hbefore : pathsBehind paths place = paths.drop (place + 1) :=
    List.takeWhile_eq_self_iff.mpr hall
  have hafter : pathsBehind (paths ++ [parent ++ [number]]) place =
      paths.drop (place + 1) ++ [parent ++ [number]] := by
    unfold pathsBehind
    rw [List.drop_append_of_le_length hplace, List.takeWhile_append_of_pos hall]
    simp
  have hnumber : childNumber? parent (parent ++ [number]) = some number :=
    childNumber?_eq_some_iff.mpr rfl
  unfold childCount
  rw [List.getElem?_append_left hplace, hparent, hbefore, hafter]
  simp [List.filterMap_append, hnumber]

end

/-- A node that stands in the place of an earlier one, after so many more children have been
counted. -/
structure Node.BecomesWith (node next : Node) (count : Nat) : Prop where
  path_eq : next.path = node.path
  action_eq : ∃ created?, next.action = node.action.withCreated created?
  error_kept : ∀ message, node.error? = some message → next.error? = some message
  subtraces_eq : next.subtraces = node.subtraces + UInt32.ofNat count

namespace Node.BecomesWith

variable {node middle next : Node} {count more : Nat}

theorem refl (node : Node) : node.BecomesWith node 0 where
  path_eq := rfl
  action_eq := ⟨none, rfl⟩
  error_kept _ := id
  subtraces_eq := (UInt32.add_zero _).symm

theorem trans (hfirst : node.BecomesWith middle count) (hsecond : middle.BecomesWith next more) :
    node.BecomesWith next (count + more) where
  path_eq := hsecond.path_eq.trans hfirst.path_eq
  action_eq := by
    obtain ⟨first?, hmiddle⟩ := hfirst.action_eq
    obtain ⟨second?, hnext⟩ := hsecond.action_eq
    rw [hnext, hmiddle]
    cases second? with
    | none => exact ⟨first?, rfl⟩
    | some address => exact ⟨some address, Action.withCreated_withCreated address first? _⟩
  error_kept message := hsecond.error_kept message ∘ hfirst.error_kept message
  subtraces_eq := by
    rw [hsecond.subtraces_eq, hfirst.subtraces_eq, UInt32.ofNat_add, UInt32.add_assoc]

theorem countChild (node : Node) : node.BecomesWith node.countChild 1 where
  path_eq := rfl
  action_eq := ⟨none, rfl⟩
  error_kept _ := id
  subtraces_eq := rfl

/-- A revert that is recorded again is the same error. -/
theorem revert {node : Node} (houtcome : node.outcome = none ∨ node.outcome = some .reverted) :
    node.BecomesWith node.revert 0 where
  path_eq := rfl
  action_eq := ⟨none, rfl⟩
  error_kept := by
    intro message herror
    rcases houtcome with hnone | hreverted
    · simp [error?, hnone] at herror
    · rw [← herror]
      simp [error?, Node.revert, hreverted]
  subtraces_eq := (UInt32.add_zero _).symm

theorem close (node : Node) (completion : Completion) :
    node.BecomesWith (node.close completion) 0 where
  path_eq := rfl
  action_eq := ⟨completion.created, rfl⟩
  error_kept := by
    rcases node with ⟨action, _ | result | message, path, subtraces⟩
    · intro message herror
      cases herror
    · intro message herror
      cases herror
    · exact fun _ herror => herror
  subtraces_eq := (UInt32.add_zero _).symm

end Node.BecomesWith

namespace Streaming

/-- The paths of the nodes. -/
def paths (builder : Streaming) : List Path :=
  builder.nodes.map Node.path

/-- Whether a state may be followed by another: each node stands where it stood, has counted
at most the children that are listed for it, and is the same if its frame had exited. -/
structure Grows (builder next : Streaming) : Prop where
  becomes : ∀ place node, builder.nodes[place]? = some node →
    ∃ later count, next.nodes[place]? = some later ∧ node.BecomesWith later count ∧
      childCount builder.paths place + count ≤ childCount next.paths place
  exited_stays : ∀ place node, builder.nodes[place]? = some node → place ∉ builder.openFrames →
    place ∉ next.openFrames ∧ next.nodes[place]? = some node

namespace Grows

variable {builder middle next : Streaming}

theorem refl (builder : Streaming) : builder.Grows builder where
  becomes _ node hnode := ⟨node, 0, hnode, .refl node, Nat.le_refl _⟩
  exited_stays _ _ hnode hexited := ⟨hexited, hnode⟩

theorem trans (hfirst : builder.Grows middle) (hsecond : middle.Grows next) :
    builder.Grows next where
  becomes place node hnode := by
    obtain ⟨between, count, hbetween, hbecomes, hcount⟩ := hfirst.becomes place node hnode
    obtain ⟨later, more, hlater, hthen, hmore⟩ := hsecond.becomes place between hbetween
    exact ⟨later, count + more, hlater, hbecomes.trans hthen, by omega⟩
  exited_stays place node hnode hexited := by
    obtain ⟨hstill, hbetween⟩ := hfirst.exited_stays place node hnode hexited
    exact hsecond.exited_stays place node hbetween hstill

/-- The paths that were listed remain the first. -/
theorem paths_isPrefix (hgrows : builder.Grows next) : builder.paths <+: next.paths := by
  unfold paths
  rw [List.prefix_iff_getElem?]
  intro place hplace
  rw [List.length_map] at hplace
  obtain ⟨later, count, hlater, hbecomes, -⟩ :=
    hgrows.becomes place _ (List.getElem?_eq_getElem hplace)
  rw [List.getElem?_map, hlater, List.getElem_map, Option.map_some, hbecomes.path_eq]

end Grows

/-- A state in which open frames point at distinct nodes of the last tree, nodes of frames
that have exited have an outcome, and open ones have none but a revert. -/
structure IsSound (builder : Streaming) : Prop where
  openFrames_lt : ∀ place ∈ builder.openFrames, place < builder.nodes.length
  openFrames_nodup : builder.openFrames.Nodup
  no_root_behind : ∀ place ∈ builder.openFrames, ∀ path ∈ builder.paths.drop (place + 1), path ≠ []
  exited_closed : ∀ place node, builder.nodes[place]? = some node → place ∉ builder.openFrames →
    node.isClosed = true
  open_outcome : ∀ place ∈ builder.openFrames, ∀ node, builder.nodes[place]? = some node →
    node.outcome = none ∨ node.outcome = some .reverted
  counted : ∀ place node, builder.nodes[place]? = some node →
    ∃ count ≤ childCount builder.paths place, node.subtraces = UInt32.ofNat count

theorem getElem?_updateInnermost (builder : Streaming) (change : Node → Node) (place : Nat) :
    (builder.updateInnermost change)[place]? =
      if builder.openFrames.head? = some place then builder.nodes[place]?.map change
      else builder.nodes[place]? := by
  unfold updateInnermost
  cases hopen : builder.openFrames with
  | nil => rfl
  | cons index outer =>
      by_cases hplace : index = place
      · simp [hplace]
      · simp [hplace]

theorem getElem?_updateInnermost_of_notMem {builder : Streaming} {place : Nat}
    (hplace : place ∉ builder.openFrames) (change : Node → Node) :
    (builder.updateInnermost change)[place]? = builder.nodes[place]? := by
  rw [getElem?_updateInnermost, if_neg]
  intro hhead
  exact hplace (List.mem_of_head? hhead)

@[simp]
theorem length_updateInnermost (builder : Streaming) (change : Node → Node) :
    (builder.updateInnermost change).length = builder.nodes.length := by
  unfold updateInnermost
  split
  · rfl
  · exact List.length_modify ..

theorem map_path_updateInnermost (builder : Streaming) {change : Node → Node}
    (hpath : ∀ node, (change node).path = node.path) :
    (builder.updateInnermost change).map Node.path = builder.paths := by
  apply List.ext_getElem?
  intro place
  rw [paths, List.getElem?_map, List.getElem?_map, getElem?_updateInnermost]
  split
  · cases builder.nodes[place]? <;> simp [hpath]
  · rfl

/-- An operation that changes the node of the innermost open frame and adds nodes at the
end lets a state grow, if the frames that are open after it were open before or are new. -/
theorem grows_of_updateInnermost {builder next : Streaming} (change : Node → Node)
    {added : List Node} (count : Nat)
    (hnodes : next.nodes = builder.updateInnermost change ++ added)
    (hpath : ∀ node, (change node).path = node.path)
    (hframes : ∀ place ∈ next.openFrames,
      place ∈ builder.openFrames ∨ builder.nodes.length ≤ place)
    (hbecomes : ∀ place node, builder.openFrames.head? = some place →
      builder.nodes[place]? = some node → node.BecomesWith (change node) count ∧
        childCount builder.paths place + count ≤ childCount next.paths place) :
    builder.Grows next := by
  have hprefix : builder.paths <+: next.paths := by
    refine ⟨added.map Node.path, ?_⟩
    rw [paths, paths, hnodes, List.map_append, map_path_updateInnermost builder hpath, paths]
  have hget : ∀ place, place < builder.nodes.length →
      next.nodes[place]? = (builder.updateInnermost change)[place]? := by
    intro place hplace
    rw [hnodes, List.getElem?_append_left (by simpa using hplace)]
  constructor
  -- At a place that was there, only the node of the innermost open frame can differ.
  · intro place node hnode
    rw [hget place (List.getElem?_eq_some_iff.mp hnode).1, getElem?_updateInnermost]
    by_cases hhead : builder.openFrames.head? = some place
    · rw [if_pos hhead, hnode]
      exact ⟨change node, count, rfl, hbecomes place node hhead hnode⟩
    · rw [if_neg hhead, hnode]
      exact ⟨node, 0, rfl, .refl node, childCount_le hprefix place⟩
  · intro place node hnode hexited
    have hplace := (List.getElem?_eq_some_iff.mp hnode).1
    constructor
    · intro hopen
      rcases hframes place hopen with hbefore | hnew
      · exact hexited hbefore
      · exact Nat.not_le_of_lt hplace hnew
    · rw [hget place hplace, getElem?_updateInnermost_of_notMem hexited, hnode]

/-- Counts remain right if new nodes have none. -/
theorem IsSound.counted_of_grows {builder next : Streaming} (hsound : builder.IsSound)
    (hgrows : builder.Grows next)
    (hnew : ∀ place node, builder.nodes.length ≤ place → next.nodes[place]? = some node →
      node.subtraces = 0)
    (place : Nat) (node : Node) (hnode : next.nodes[place]? = some node) :
    ∃ count ≤ childCount next.paths place, node.subtraces = UInt32.ofNat count := by
  rcases Nat.lt_or_ge place builder.nodes.length with hold | hadded
  · obtain ⟨later, more, hlater, hbecomes, hmore⟩ :=
      hgrows.becomes place _ (List.getElem?_eq_getElem hold)
    obtain ⟨count, hcount, hsubtraces⟩ :=
      hsound.counted place _ (List.getElem?_eq_getElem hold)
    cases hlater.symm.trans hnode
    refine ⟨count + more, by omega, ?_⟩
    rw [hbecomes.subtraces_eq, hsubtraces, UInt32.ofNat_add]
  · exact ⟨0, Nat.zero_le _, hnew place node hadded hnode⟩

section

variable {builder : Streaming}

theorem innermost?_eq_some {place : Nat} {node : Node}
    (hhead : builder.openFrames.head? = some place) (hnode : builder.nodes[place]? = some node) :
    builder.innermost? = some node := by
  simp [innermost?, hhead, hnode]

theorem paths_openFrame (builder : Streaming) (frame : Frame) :
    (builder.openFrame frame).paths = builder.paths ++ [childPath builder.innermost?] := by
  have hpaths : (builder.updateInnermost Node.countChild).map Node.path = builder.paths :=
    builder.map_path_updateInnermost fun _ => rfl
  rw [← hpaths]
  simp [paths, openFrame_eq, Node.fresh]

/-- With a frame open, a new frame is no root. -/
theorem IsSound.childPath_ne_nil (hsound : builder.IsSound) {place : Nat}
    (hplace : place ∈ builder.openFrames) : childPath builder.innermost? ≠ [] := by
  obtain ⟨index, outer, hopen⟩ := List.exists_cons_of_ne_nil (List.ne_nil_of_mem hplace)
  have hindex : index < builder.nodes.length := hsound.openFrames_lt index (by simp [hopen])
  rw [innermost?_eq_some (by rw [hopen]; rfl) (List.getElem?_eq_getElem hindex)]
  simp [childPath, Node.nextChildPath]

theorem grows_openFrame (hsound : builder.IsSound) (frame : Frame) :
    builder.Grows (builder.openFrame frame) := by
  have hnodes := congrArg Streaming.nodes (openFrame_eq builder frame)
  apply grows_of_updateInnermost Node.countChild 1 hnodes (fun _ => rfl)
  · intro place hplace
    rcases List.mem_cons.mp hplace with rfl | hopen
    · exact .inr (Nat.le_refl _)
    · exact .inl hopen
  · intro place node hhead hnode
    refine ⟨.countChild node, ?_⟩
    have hpath : builder.paths[place]? = some node.path := by simp [paths, hnode]
    rw [paths_openFrame, innermost?_eq_some hhead hnode]
    exact (childCount_append_child hpath
      (hsound.no_root_behind place (List.mem_of_head? hhead)) node.subtraces).ge

theorem paths_revert (builder : Streaming) : builder.revert.paths = builder.paths :=
  map_path_updateInnermost builder fun _ => rfl

theorem grows_revert (hsound : builder.IsSound) : builder.Grows builder.revert := by
  apply grows_of_updateInnermost Node.revert 0 (List.append_nil _).symm (fun _ => rfl)
  · exact fun _ => .inl
  · intro place node hhead hnode
    rw [paths_revert]
    exact ⟨.revert (hsound.open_outcome place (List.mem_of_head? hhead) node hnode),
      Nat.le_refl _⟩

/-- The innermost open frame is closed in place. -/
theorem closeFrame?_eq_some_iff {completion : Completion} {next : Streaming} :
    builder.closeFrame? completion = some next ↔
      ∃ index outer, builder.openFrames = index :: outer ∧
        next = { builder with
          nodes := builder.updateInnermost (Node.close · completion)
          openFrames := outer } := by
  unfold closeFrame? updateInnermost
  cases builder.openFrames with
  | nil => simp
  | cons index outer => simp [eq_comm]

variable {completion : Completion} {next : Streaming}

theorem paths_closeFrame? (hclose : builder.closeFrame? completion = some next) :
    next.paths = builder.paths := by
  obtain ⟨index, outer, -, rfl⟩ := closeFrame?_eq_some_iff.mp hclose
  exact map_path_updateInnermost builder fun _ => rfl

theorem grows_closeFrame? (hclose : builder.closeFrame? completion = some next) :
    builder.Grows next := by
  have hpaths := paths_closeFrame? hclose
  obtain ⟨index, outer, hopen, rfl⟩ := closeFrame?_eq_some_iff.mp hclose
  apply grows_of_updateInnermost (Node.close · completion) 0 (List.append_nil _).symm (fun _ => rfl)
  · intro place hplace
    rw [hopen]
    exact .inl (List.mem_cons_of_mem index hplace)
  · intro place node _ _
    rw [hpaths]
    exact ⟨.close node completion, Nat.le_refl _⟩

/-- A node is closed if it was so before, or if its frame exits now. -/
theorem IsSound.exited_closed_of_grows {next : Streaming} (hsound : builder.IsSound)
    (hgrows : builder.Grows next)
    (hexits : ∀ place node, next.nodes[place]? = some node → place ∉ next.openFrames →
      place ∈ builder.openFrames ∨ builder.nodes.length ≤ place → node.isClosed = true)
    (place : Nat) (node : Node) (hnode : next.nodes[place]? = some node)
    (hexited : place ∉ next.openFrames) : node.isClosed = true := by
  by_cases hbefore : place ∈ builder.openFrames ∨ builder.nodes.length ≤ place
  · exact hexits place node hnode hexited hbefore
  · rw [not_or, Nat.not_le] at hbefore
    have hold := List.getElem?_eq_getElem hbefore.2
    have hsame := (hgrows.exited_stays place _ hold hbefore.1).2
    cases hsame.symm.trans hnode
    exact hsound.exited_closed place _ hold hbefore.1

/-- A change that brings no outcome but a revert leaves open nodes with no other. -/
theorem IsSound.open_outcome_updateInnermost (hsound : builder.IsSound) {change : Node → Node}
    (hchange : ∀ node, node.outcome = none ∨ node.outcome = some .reverted →
      (change node).outcome = none ∨ (change node).outcome = some .reverted)
    {place : Nat} (hplace : place ∈ builder.openFrames) {node : Node}
    (hnode : (builder.updateInnermost change)[place]? = some node) :
    node.outcome = none ∨ node.outcome = some .reverted := by
  rw [getElem?_updateInnermost] at hnode
  split at hnode
  · obtain ⟨before, hbefore, rfl⟩ := Option.map_eq_some_iff.mp hnode
    exact hchange before (hsound.open_outcome place hplace before hbefore)
  · exact hsound.open_outcome place hplace node hnode

theorem IsSound.no_root_behind_openFrame (hsound : builder.IsSound) (frame : Frame) {place : Nat}
    (hplace : place ∈ (builder.openFrame frame).openFrames) :
    ∀ path ∈ (builder.openFrame frame).paths.drop (place + 1), path ≠ [] := by
  have hsize : builder.paths.length = builder.nodes.length := List.length_map ..
  intro path hpath
  rw [paths_openFrame] at hpath
  rcases List.mem_cons.mp hplace with rfl | hopen
  · rw [← hsize, List.drop_eq_nil_of_le (by simp)] at hpath
    cases hpath
  · have hbound := hsound.openFrames_lt place hopen
    rw [List.drop_append_of_le_length (by omega), List.mem_append, List.mem_singleton] at hpath
    rcases hpath with hold | rfl
    · exact hsound.no_root_behind place hopen path hold
    · exact hsound.childPath_ne_nil hopen

/-- Only the node of the new frame is new. -/
theorem eq_fresh_of_openFrame {frame : Frame} {place : Nat} {node : Node}
    (hplace : builder.nodes.length ≤ place)
    (hnode : (builder.openFrame frame).nodes[place]? = some node) :
    place = builder.nodes.length ∧
      node = .fresh frame.toAction (childPath builder.innermost?) := by
  have hlength := length_updateInnermost builder Node.countChild
  have hbound := (List.getElem?_eq_some_iff.mp hnode).1
  simp only [openFrame_eq, List.length_append, List.length_singleton] at hbound
  obtain rfl : place = builder.nodes.length := by omega
  simp only [openFrame_eq] at hnode
  rw [← hlength, List.getElem?_concat_length] at hnode
  exact ⟨rfl, (Option.some.inj hnode).symm⟩

theorem isSound_openFrame (hsound : builder.IsSound) (frame : Frame) :
    (builder.openFrame frame).IsSound where
  openFrames_lt := by
    intro place hplace
    simp only [openFrame_eq, List.length_append, length_updateInnermost, List.length_singleton]
    rcases List.mem_cons.mp hplace with rfl | hopen
    · exact Nat.lt_succ_self _
    · exact Nat.lt_succ_of_lt (hsound.openFrames_lt place hopen)
  openFrames_nodup := by
    refine List.nodup_cons.mpr ⟨?_, hsound.openFrames_nodup⟩
    intro hopen
    exact Nat.lt_irrefl _ (hsound.openFrames_lt _ hopen)
  no_root_behind _ := hsound.no_root_behind_openFrame frame
  exited_closed := by
    apply hsound.exited_closed_of_grows (grows_openFrame hsound frame)
    intro place node hnode hexited hbefore
    rcases hbefore with hopen | hnew
    · exact absurd (List.mem_cons_of_mem _ hopen) hexited
    · rw [(eq_fresh_of_openFrame hnew hnode).1] at hexited
      exact absurd List.mem_cons_self hexited
  open_outcome := by
    intro place hplace node hnode
    rcases List.mem_cons.mp hplace with rfl | hopen
    · rw [(eq_fresh_of_openFrame (Nat.le_refl _) hnode).2]
      exact .inl rfl
    · have hbound := hsound.openFrames_lt place hopen
      simp only [openFrame_eq] at hnode
      rw [List.getElem?_append_left (by simpa using hbound)] at hnode
      refine hsound.open_outcome_updateInnermost ?_ hopen hnode
      exact fun _ => id
  counted := by
    apply hsound.counted_of_grows (grows_openFrame hsound frame)
    intro place node hplace hnode
    rw [(eq_fresh_of_openFrame hplace hnode).2]
    rfl

/-- An operation that only changes the node of the innermost open frame, and may close some
frames. -/
theorem IsSound.of_updateInnermost {change : Node → Node} (hsound : builder.IsSound)
    (hgrows : builder.Grows next) (hnodes : next.nodes = builder.updateInnermost change)
    (hpaths : next.paths = builder.paths) (hframes : next.openFrames.Sublist builder.openFrames)
    (hexits : ∀ place ∈ builder.openFrames, place ∉ next.openFrames →
      ∀ node, next.nodes[place]? = some node → node.isClosed = true)
    (hopens : ∀ place ∈ next.openFrames, ∀ node, next.nodes[place]? = some node →
      node.outcome = none ∨ node.outcome = some .reverted) : next.IsSound := by
  have hlength : next.nodes.length = builder.nodes.length := by
    rw [hnodes, length_updateInnermost]
  have hold : ∀ place node, builder.nodes.length ≤ place → next.nodes[place]? ≠ some node := by
    intro place node hplace hnode
    have hbound := (List.getElem?_eq_some_iff.mp hnode).1
    omega
  constructor
  · intro place hplace
    rw [hlength]
    exact hsound.openFrames_lt place (hframes.subset hplace)
  · exact hsound.openFrames_nodup.sublist hframes
  · intro place hplace
    rw [hpaths]
    exact hsound.no_root_behind place (hframes.subset hplace)
  · apply hsound.exited_closed_of_grows hgrows
    intro place node hnode hexited hbefore
    rcases hbefore with hopen | hnew
    · exact hexits place hopen hexited node hnode
    · exact absurd hnode (hold place node hnew)
  · exact hopens
  · apply hsound.counted_of_grows hgrows
    intro place node hplace hnode
    exact absurd hnode (hold place node hplace)

theorem isSound_revert (hsound : builder.IsSound) : builder.revert.IsSound := by
  apply hsound.of_updateInnermost (grows_revert hsound) rfl builder.paths_revert (.refl _)
  · intro place hopen hexited
    exact absurd hopen hexited
  · intro place hopen node
    exact hsound.open_outcome_updateInnermost (fun _ _ => .inr rfl) hopen

theorem isSound_closeFrame? (hsound : builder.IsSound)
    (hclose : builder.closeFrame? completion = some next) : next.IsSound := by
  have hgrows := grows_closeFrame? hclose
  have hpaths := paths_closeFrame? hclose
  obtain ⟨index, outer, hopen, rfl⟩ := closeFrame?_eq_some_iff.mp hclose
  have hnodup := hsound.openFrames_nodup
  rw [hopen, List.nodup_cons] at hnodup
  apply hsound.of_updateInnermost hgrows rfl hpaths
  · rw [hopen]
    exact List.sublist_cons_self index outer
  · intro place hbefore hexited node hnode
    rw [hopen] at hbefore
    obtain rfl : place = index := (List.mem_cons.mp hbefore).resolve_right hexited
    rw [getElem?_updateInnermost, if_pos (by rw [hopen]; rfl)] at hnode
    obtain ⟨before, -, rfl⟩ := Option.map_eq_some_iff.mp hnode
    rfl
  · intro place hplace node hnode
    have hne : builder.openFrames.head? ≠ some place := by
      rw [hopen]
      rintro ⟨⟩
      exact hnodup.1 hplace
    rw [getElem?_updateInnermost, if_neg hne] at hnode
    refine hsound.open_outcome place ?_ node hnode
    rw [hopen]
    exact List.mem_cons_of_mem index hplace

end

theorem isSound_empty (settings : Settings) (context : Context) :
    (empty settings context).IsSound := by
  constructor <;> simp [empty]

theorem invariant_isSound : Builder.Invariant IsSound where
  openFrame_holds _ frame hsound := isSound_openFrame hsound frame
  closeFrame?_holds _ _ _ hclose hsound := isSound_closeFrame? hsound hclose
  revert_holds _ := isSound_revert
  reset_holds builder context _ := isSound_empty builder.settings context

theorem growth_grows : Builder.Growth IsSound Grows where
  refl := .refl
  trans _ _ _ := .trans
  openFrame_grows _ frame hsound := grows_openFrame hsound frame
  closeFrame?_grows _ _ _ _ := grows_closeFrame?
  revert_grows _ := grows_revert

/-- As long as there are numbers for all children of a node, it never counts fewer. -/
theorem subtraces_le {builder next : Streaming} (hsound : builder.IsSound) {place count : Nat}
    {node later : Node} (hnode : builder.nodes[place]? = some node)
    (hbecomes : node.BecomesWith later count)
    (hcount : childCount builder.paths place + count ≤ childCount next.paths place)
    (hfew : childCount next.paths place < 2 ^ 32) : node.subtraces ≤ later.subtraces := by
  obtain ⟨before, hbefore, hsubtraces⟩ := hsound.counted place node hnode
  have hbound : before + count < UInt32.size := by
    change before + count < 2 ^ 32
    omega
  rw [hbecomes.subtraces_eq, hsubtraces, ← UInt32.ofNat_add, UInt32.le_iff_toNat_le,
    UInt32.toNat_ofNat_of_lt' hbound,
    UInt32.toNat_ofNat_of_lt' (Nat.lt_of_le_of_lt (Nat.le_add_right before count) hbound)]
  exact Nat.le_add_right before count

end Streaming

/-- A streamed trace that is not reset is only appended to.  The nodes of frames that have
exited have an outcome and are final.  The nodes of open frames keep their actions, but for
the address of a new contract, and their errors, and never count fewer children, as long as
there are numbers for these. -/
theorem streaming_appends_and_exits_are_final (settings : Settings) (context : Context)
    (events others : List Event) (hothers : ∀ event ∈ others, event.isReset = false) :
    let builder := Builder.run (Streaming.empty settings context) events
    let later := Builder.run builder others
    builder.paths <+: later.paths ∧
      ∀ place node, builder.nodes[place]? = some node →
        ∃ next, later.nodes[place]? = some next ∧
          (place ∉ builder.openFrames →
            next = node ∧ node.isClosed = true ∧ place ∉ later.openFrames) ∧
          (place ∈ builder.openFrames →
            (∃ created?, next.action = node.action.withCreated created?) ∧
            (childCount later.paths place < 2 ^ 32 → node.subtraces ≤ next.subtraces) ∧
            ∀ message, node.error? = some message → next.error? = some message) := by
  intro builder later
  have hsound : builder.IsSound :=
    Streaming.invariant_isSound.run_holds events (Streaming.isSound_empty settings context)
  have hgrows : builder.Grows later :=
    Streaming.growth_grows.run_grows Streaming.invariant_isSound hsound hothers
  refine ⟨hgrows.paths_isPrefix, ?_⟩
  intro place node hnode
  obtain ⟨next, count, hnext, hbecomes, hcount⟩ := hgrows.becomes place node hnode
  refine ⟨next, hnext, ?_, ?_⟩
  · intro hexited
    obtain ⟨hstill, hsame⟩ := hgrows.exited_stays place node hnode hexited
    exact ⟨Option.some.inj (hnext.symm.trans hsame),
      hsound.exited_closed place node hnode hexited, hstill⟩
  · intro _
    exact ⟨hbecomes.action_eq, Streaming.subtraces_le hsound hnode hbecomes hcount,
      hbecomes.error_kept⟩

/-- Of two calls in a root the first has exited and the second has reverted.  The exit of the
second reports another error, one exit too many follows, and then another root. -/
theorem streaming_appends_and_exits_are_final_of_late_error :
    let frame : Frame := .ofCall .call default default [] 0 0
    let events : List Event := [.start frame, .enter frame, .exit default, .enter frame, .revert]
    let others : List Event :=
      [.exit (.failure "out of gas" 0), .exit default, .exit default, .start frame]
    let builder := Builder.run (Streaming.empty default default) events
    let later := Builder.run builder others
    (∀ event ∈ others, event.isReset = false) ∧ builder.openFrames = [2, 0] ∧
      later.nodes[1]? = builder.nodes[1]? ∧
      builder.nodes[2]?.bind Node.error? = some "execution reverted" ∧
      later.nodes[2]?.bind Node.error? = some "execution reverted" := by
  intro frame events others builder later
  have hothers : ∀ event ∈ others, event.isReset = false := by
    simp [others, Event.isReset]
  obtain ⟨-, hfinal⟩ := streaming_appends_and_exits_are_final default default events others hothers
  refine ⟨hothers, rfl, ?_, rfl, ?_⟩
  · obtain ⟨next, hnext, hexited, -⟩ := hfinal 1 _ rfl
    exact hnext.trans (congrArg some (hexited (by decide)).1)
  · obtain ⟨next, hnext, -, hopen⟩ := hfinal 2 _ rfl
    obtain ⟨-, -, herror⟩ := hopen (by decide)
    exact (congrArg (·.bind Node.error?) hnext).trans (herror _ rfl)

end CallTrace
