import CallTrace.Proofs.Builder.Finality

/-!
# Outcomes of open frames

The streaming builder records a revert in the node of the innermost open frame as soon as it
is seen.  So the node of an open frame may have an outcome, namely if a revert has been seen in
the frame, and then the frame has not exited yet.

Where the frames are in which reverts have been seen is noted along a run, apart from the nodes.
-/

namespace CallTrace

/-- Whether an event shows a revert in the innermost open frame. -/
def Event.isRevert : Event → Bool
  | revert => true
  | opcode step => step.isRevert
  | _ => false

namespace Streaming

/-- The places of the frames in which reverts have been seen, after one more event.  A reset
drops them. -/
def noteRevert (builder : Streaming) (seen : List Nat) (event : Event) : List Nat :=
  if event.isReset then []
  else if event.isRevert then builder.openFrames.head?.toList ++ seen
  else seen

/-- The places of the frames in which reverts have been seen, after a run. -/
def noteReverts (builder : Streaming) (seen : List Nat) : List Event → List Nat
  | [] => seen
  | event :: events =>
      (Builder.advance builder event).noteReverts (builder.noteRevert seen event) events

/-- An event that is refused shows no revert. -/
theorem noteRevert_of_refused {builder : Streaming} {event : Event} {error : EventError}
    (hrefused : Builder.apply builder event = .error error) (seen : List Nat) :
    builder.noteRevert seen event = seen := by
  cases event with
  | exit completion => rfl
  | opcode step =>
      cases hrevert : step.isRevert with
      | true => cases (Builder.observe_of_isRevert builder hrevert).symm.trans hrefused
      | false => simp [noteRevert, Event.isReset, Event.isRevert, hrevert]
  | start | enter | fault | revert | reset => cases hrefused

/-- A state in which the open frames that have an outcome are those in which reverts have been
seen. -/
structure TellsReverts (builder : Streaming) (seen : List Nat) : Prop where
  isSound : builder.IsSound
  seen_lt : ∀ place ∈ seen, place < builder.nodes.length
  isClosed_iff : ∀ place ∈ builder.openFrames, ∀ node, builder.nodes[place]? = some node →
    (node.isClosed = true ↔ place ∈ seen)

theorem tellsReverts_empty (settings : Settings) (context : Context) :
    (empty settings context).TellsReverts [] where
  isSound := isSound_empty settings context
  seen_lt := nofun
  isClosed_iff := nofun

namespace TellsReverts

variable {builder next : Streaming} {seen : List Nat}

/-- The node of a new frame stands behind all that have been seen to revert. -/
theorem openFrame (htells : builder.TellsReverts seen) (frame : Frame) :
    (builder.openFrame frame).TellsReverts seen where
  isSound := isSound_openFrame htells.isSound frame
  seen_lt := by
    intro place hplace
    have hlength : (builder.openFrame frame).nodes.length = builder.nodes.length + 1 := by
      simp [openFrame_eq]
    rw [hlength]
    exact Nat.lt_succ_of_lt (htells.seen_lt place hplace)
  isClosed_iff := by
    intro place hplace node hnode
    rcases List.mem_cons.mp hplace with rfl | hopen
    · obtain ⟨-, rfl⟩ := eq_fresh_of_openFrame (Nat.le_refl _) hnode
      constructor
      · intro hclosed
        cases hclosed
      · intro hseen
        exact absurd (htells.seen_lt _ hseen) (Nat.lt_irrefl _)
    · have hbound := htells.isSound.openFrames_lt place hopen
      simp only [openFrame_eq] at hnode
      rw [List.getElem?_append_left (by simpa using hbound), getElem?_updateInnermost] at hnode
      split at hnode
      · obtain ⟨before, hbefore, rfl⟩ := Option.map_eq_some_iff.mp hnode
        exact htells.isClosed_iff place hopen before hbefore
      · exact htells.isClosed_iff place hopen node hnode

/-- The exit of a frame leaves the nodes of the frames around it alone. -/
theorem closeFrame? (htells : builder.TellsReverts seen) {completion : Completion}
    (hclose : builder.closeFrame? completion = some next) : next.TellsReverts seen := by
  have hsound := isSound_closeFrame? htells.isSound hclose
  obtain ⟨index, outer, hopen, rfl⟩ := closeFrame?_eq_some_iff.mp hclose
  have hnodup := htells.isSound.openFrames_nodup
  rw [hopen, List.nodup_cons] at hnodup
  refine ⟨hsound, ?_, ?_⟩
  · simpa using htells.seen_lt
  · intro place hplace node hnode
    have hne : builder.openFrames.head? ≠ some place := by
      rw [hopen]
      rintro ⟨⟩
      exact hnodup.1 hplace
    rw [getElem?_updateInnermost, if_neg hne] at hnode
    exact htells.isClosed_iff place (hopen ▸ List.mem_cons_of_mem index hplace) node hnode

/-- A revert gives an outcome to the innermost open frame. -/
theorem revert (htells : builder.TellsReverts seen) :
    builder.revert.TellsReverts (builder.openFrames.head?.toList ++ seen) where
  isSound := isSound_revert htells.isSound
  seen_lt := by
    intro place hplace
    have hlength : builder.revert.nodes.length = builder.nodes.length := by
      simp [Streaming.revert]
    rw [hlength]
    rcases List.mem_append.mp hplace with hhead | hseen
    · rw [Option.mem_toList] at hhead
      exact htells.isSound.openFrames_lt place (List.mem_of_head? hhead)
    · exact htells.seen_lt place hseen
  isClosed_iff := by
    intro place hplace node hnode
    rw [List.mem_append, Option.mem_toList]
    simp only [Streaming.revert] at hnode
    rw [getElem?_updateInnermost] at hnode
    split at hnode
    · next hhead =>
      obtain ⟨before, -, rfl⟩ := Option.map_eq_some_iff.mp hnode
      exact iff_of_true rfl (.inl hhead)
    · next hhead =>
      rw [or_iff_right hhead]
      exact htells.isClosed_iff place hplace node hnode

theorem exit (htells : builder.TellsReverts seen) {completion : Completion}
    (hexit : Builder.exit builder completion = .ok next) : next.TellsReverts seen :=
  htells.closeFrame? (Builder.exit_eq_ok_iff.mp hexit)

theorem observe (htells : builder.TellsReverts seen) {step : Step}
    (hobserve : Builder.observe builder step = .ok next) :
    next.TellsReverts (builder.noteRevert seen (.opcode step)) := by
  have hnote : builder.noteRevert seen (.opcode step) =
      if step.isRevert then builder.openFrames.head?.toList ++ seen else seen := rfl
  rw [hnote]
  rcases Builder.observe_cases hobserve with
    ⟨hrevert, rfl⟩ | ⟨rejection, hrejection, hadd⟩ | ⟨hrevert, rfl⟩
  · rw [if_pos hrevert]
    exact htells.revert
  · rw [Builder.isRevert_of_rejection hrejection]
    exact (htells.openFrame rejection.frame).exit hadd
  · rw [hrevert]
    exact htells

theorem apply (htells : builder.TellsReverts seen) {event : Event}
    (happly : Builder.apply builder event = .ok next) :
    next.TellsReverts (builder.noteRevert seen event) := by
  cases event with
  | start frame | enter frame =>
      cases happly
      exact htells.openFrame frame
  | exit completion => exact htells.exit happly
  | opcode step => exact htells.observe happly
  | fault step =>
      cases happly
      exact htells
  | revert =>
      cases happly
      exact htells.revert
  | reset context =>
      cases happly
      exact tellsReverts_empty builder.settings context

theorem advance (htells : builder.TellsReverts seen) (event : Event) :
    (Builder.advance builder event).TellsReverts (builder.noteRevert seen event) := by
  cases happly : Builder.apply builder event with
  | ok next =>
      rw [Builder.advance_of_apply happly]
      exact htells.apply happly
  | error error =>
      rw [noteRevert_of_refused happly]
      simpa [Builder.advance, happly] using htells

/-- Throughout a run, the open frames that have an outcome are those in which reverts have been
seen. -/
theorem run (htells : builder.TellsReverts seen) (events : List Event) :
    (Builder.run builder events).TellsReverts (builder.noteReverts seen events) := by
  induction events generalizing builder seen with
  | nil => exact htells
  | cons event events ih => exact ih (htells.advance event)

/-- A node has an outcome if its frame has exited, or if a revert has been seen in it. -/
theorem isClosed_iff_of_getElem? (htells : builder.TellsReverts seen) {place : Nat} {node : Node}
    (hnode : builder.nodes[place]? = some node) :
    node.isClosed = true ↔ place ∉ builder.openFrames ∨ place ∈ seen := by
  by_cases hopen : place ∈ builder.openFrames
  · rw [htells.isClosed_iff place hopen node hnode, or_iff_right (not_not_intro hopen)]
  · exact iff_of_true (htells.isSound.exited_closed place node hnode hopen) (.inl hopen)

/-- The nodes without an outcome are those of the open frames in which no revert has been
seen. -/
theorem findIdxs_perm (htells : builder.TellsReverts seen) :
    (builder.nodes.findIdxs fun node => !node.isClosed).Perm
      (builder.openFrames.filter fun place => place ∉ seen) := by
  rw [List.perm_ext_iff_of_nodup List.nodup_findIdxs
    (htells.isSound.openFrames_nodup.filter _)]
  intro place
  rw [List.mem_findIdxs_iff_exists_getElem_pos, List.mem_filter, decide_eq_true_iff]
  constructor
  · rintro ⟨hplace, hnode⟩
    rw [Bool.not_eq_true', ← Bool.not_eq_true,
      htells.isClosed_iff_of_getElem? (List.getElem?_eq_getElem hplace), not_or] at hnode
    exact ⟨not_not.mp hnode.1, hnode.2⟩
  · rintro ⟨hopen, hseen⟩
    have hplace := htells.isSound.openFrames_lt place hopen
    refine ⟨hplace, ?_⟩
    rw [Bool.not_eq_true', ← Bool.not_eq_true,
      htells.isClosed_iff_of_getElem? (List.getElem?_eq_getElem hplace), not_or]
    exact ⟨not_not_intro hopen, hseen⟩

theorem countP_isClosed_add (htells : builder.TellsReverts seen) :
    (builder.nodes.countP fun node => !node.isClosed) +
      (builder.openFrames.countP fun place => place ∈ seen) = Builder.depth builder := by
  have hnodes := htells.findIdxs_perm.length_eq
  rw [List.length_findIdxs, ← List.countP_eq_length_filter] at hnodes
  have hframes := builder.openFrames.length_eq_countP_add_countP fun place => place ∈ seen
  simp only [decide_eq_true_eq] at hframes
  rw [hnodes, Nat.add_comm]
  exact hframes.symm

end TellsReverts

end Streaming

/-- A streamed node has an outcome if and only if its frame has exited or a revert has been seen
in it.  So there are as many nodes without an outcome as there are open frames in which no
revert has been seen. -/
theorem streaming_isClosed_iff (settings : Settings) (context : Context) (events : List Event) :
    let builder := Builder.run (Streaming.empty settings context) events
    let reverted := (Streaming.empty settings context).noteReverts [] events
    (∀ place node, builder.nodes[place]? = some node →
      (node.isClosed = true ↔ place ∉ builder.openFrames ∨ place ∈ reverted)) ∧
    (builder.nodes.countP fun node => !node.isClosed) +
      (builder.openFrames.countP fun place => place ∈ reverted) = Builder.depth builder := by
  intro builder reverted
  have htells : builder.TellsReverts reverted :=
    (Streaming.tellsReverts_empty settings context).run events
  constructor
  · intro place node hnode
    exact htells.isClosed_iff_of_getElem? hnode
  · exact htells.countP_isClosed_add

/-- Of three nested frames a revert has been seen in the second, before the third was opened. -/
theorem streaming_isClosed_iff_of_outer_revert :
    let frame : Frame := .ofCall .call default default [] 0 0
    let events : List Event := [.start frame, .enter frame, .revert, .enter frame]
    let builder := Builder.run (Streaming.empty default default) events
    builder.openFrames = [2, 1, 0] ∧
      (Streaming.empty default default).noteReverts [] events = [1] ∧
      (∃ node, builder.nodes[1]? = some node ∧ node.isClosed = true) ∧
      (builder.nodes.countP fun node => !node.isClosed) + 1 = Builder.depth builder := by
  intro frame events builder
  obtain ⟨hclosed, hcount⟩ := streaming_isClosed_iff default default events
  exact ⟨rfl, rfl, ⟨_, rfl, (hclosed 1 _ rfl).mpr (.inr List.mem_cons_self)⟩, hcount⟩

/-- With a revert seen in it, the node of a frame has an outcome while the frame is open. -/
theorem streaming_closes_before_exit :
    let frame : Frame := .ofCall .call default default [] 0 0
    let builder := Builder.run (Streaming.empty default default) [.start frame, .revert]
    ¬ (∀ place node, builder.nodes[place]? = some node →
        (node.isClosed = true ↔ place ∉ builder.openFrames)) ∧
      (builder.nodes.countP fun node => !node.isClosed) ≠ Builder.depth builder := by
  intro frame builder
  constructor
  · intro hclosed
    exact (hclosed 0 _ rfl).mp rfl List.mem_cons_self
  · exact Nat.zero_ne_one

end CallTrace
