import CallTrace.Proofs.Arena.Links
import CallTrace.Proofs.Builder.Growth
import Mathlib.Data.List.Chain

/-!
# The stacks of the deferred builder

The deferred builder keeps its open frames on two stacks, one of places in the arena and one of
markers.  They grow and shrink together.  Each marker has the level and the kind of its frame,
and each frame is the last child of the one around it.

The trace is written out when a root closes.  No other event changes it, but for a reset.
-/

namespace CallTrace

theorem Frame.kind_toAction (frame : Frame) : frame.toAction.kind = frame.kind := by
  unfold Frame.toAction
  cases hkind : frame.kind <;> rfl

namespace Arena

/-- The child that was linked last from the vertex at a place. -/
def lastChild? (arena : Arena) (place : Nat) : Option Nat :=
  arena[place]?.bind fun vertex => vertex.children.getLast?

variable {arena other : Arena} {place child : Nat} {parent? : Option Nat} {node : Node}

theorem lastChild?_eq_some_iff :
    arena.lastChild? place = some child ↔
      ∃ vertex, arena[place]? = some vertex ∧ vertex.children.getLast? = some child :=
  Option.bind_eq_some_iff

theorem IsLinked.lt_of_lastChild? (hlinked : arena.IsLinked)
    (hlast : arena.lastChild? place = some child) : place < child := by
  obtain ⟨vertex, hvertex, hchild⟩ := lastChild?_eq_some_iff.mp hlast
  exact (hlinked.link_bounds place child ⟨vertex, hvertex, List.mem_of_getLast? hchild⟩).1

theorem lastChild?_of_outlines_eq
    (houtlines : other.map Vertex.outline = arena.map Vertex.outline) (place : Nat) :
    other.lastChild? place = arena.lastChild? place := by
  have hplace := congrArg (fun outlines => (outlines[place]?.bind fun outline =>
    outline.1.getLast?)) houtlines
  unfold lastChild?
  simpa [Option.bind_map, Function.comp_def, Vertex.outline] using hplace

/-- A new vertex is the last child of its parent. -/
theorem lastChild?_grow_parent {parent : Nat} (hparent : parent < arena.length) :
    (arena.grow (some parent) node).lastChild? parent = some arena.length := by
  apply lastChild?_eq_some_iff.mpr ⟨arena[parent].adopt arena.length, _, List.getLast?_concat⟩
  apply getElem?_grow_eq_some_iff.mpr (.inr ⟨_, List.getElem?_eq_getElem hparent, _⟩)
  rw [if_pos rfl]

/-- The last children of other vertices stay the same. -/
theorem lastChild?_grow_of_ne (hlast : arena.lastChild? place = some child)
    (hne : parent? ≠ some place) : (arena.grow parent? node).lastChild? place = some child := by
  obtain ⟨vertex, hvertex, hchild⟩ := lastChild?_eq_some_iff.mp hlast
  apply lastChild?_eq_some_iff.mpr ⟨vertex, _, hchild⟩
  apply getElem?_grow_eq_some_iff.mpr (.inr ⟨vertex, hvertex, _⟩)
  rw [if_neg hne]

/-- Markers that belong to the frames at the places of a stack: each tells how many frames are
open up to its own, and whether that is a creation. -/
inductive Marks (arena : Arena) : List Nat → List Marker → Prop
  | nil : Marks arena [] []
  | cons {place : Nat} {places : List Nat} {vertex : Vertex} {marker : Marker}
      {markers : List Marker} (vertex_eq : arena[place]? = some vertex)
      (level_eq : marker.level = places.length + 1)
      (isCreation_iff : marker.isCreation = true ↔ vertex.node.action.kind = .create)
      (outer : Marks arena places markers) : Marks arena (place :: places) (marker :: markers)

namespace Marks

variable {places : List Nat} {markers : List Marker}

theorem length_eq (hmarks : arena.Marks places markers) : markers.length = places.length := by
  induction hmarks with
  | nil => rfl
  | cons vertex_eq level_eq isCreation_iff outer ih => simp [ih]

theorem lt_length (hmarks : arena.Marks places markers) : ∀ place ∈ places, place < arena.length := by
  induction hmarks with
  | nil => exact nofun
  | cons vertex_eq level_eq isCreation_iff outer ih =>
      exact List.forall_mem_cons.mpr ⟨(List.getElem?_eq_some_iff.mp vertex_eq).1, ih⟩

/-- Markers go on to belong to their frames as long as the kinds of the frames stay the same. -/
theorem of_kinds_eq (hmarks : arena.Marks places markers)
    (hkinds : ∀ (place : Nat) vertex, arena[place]? = some vertex →
      ∃ next, other[place]? = some next ∧ next.node.action.kind = vertex.node.action.kind) :
    other.Marks places markers := by
  induction hmarks with
  | nil => exact .nil
  | cons vertex_eq level_eq isCreation_iff outer ih =>
      obtain ⟨next, hnext, hkind⟩ := hkinds _ _ vertex_eq
      exact .cons hnext level_eq (hkind ▸ isCreation_iff) ih

theorem of_outlines_eq (hmarks : arena.Marks places markers)
    (houtlines : other.map Vertex.outline = arena.map Vertex.outline) :
    other.Marks places markers := by
  apply hmarks.of_kinds_eq
  intro place vertex hvertex
  obtain ⟨next, hnext, houtline⟩ := exists_outline_eq houtlines.symm hvertex
  exact ⟨next, hnext, congrArg (fun outline => outline.2.2.2) houtline⟩

theorem grow (hmarks : arena.Marks places markers) (parent? : Option Nat) (node : Node) :
    (arena.grow parent? node).Marks places markers := by
  apply hmarks.of_kinds_eq
  intro place vertex hvertex
  refine ⟨_, getElem?_grow_eq_some_iff.mpr (.inr ⟨vertex, hvertex, rfl⟩), ?_⟩
  split <;> rfl

/-- Counted from the outermost frame, the marker of a frame has the number of the frame as its
level. -/
theorem getElem?_reverse (hmarks : arena.Marks places markers) {index : Nat} {marker : Marker}
    (hmarker : markers.reverse[index]? = some marker) :
    marker.level = index + 1 ∧ ∃ place vertex, places.reverse[index]? = some place ∧
      arena[place]? = some vertex ∧
      (marker.isCreation = true ↔ vertex.node.action.kind = .create) := by
  induction hmarks with
  | nil => cases hmarker
  | @cons place places vertex last markers vertex_eq level_eq isCreation_iff outer ih =>
      rw [List.reverse_cons] at hmarker ⊢
      rcases Nat.lt_or_ge index markers.reverse.length with hlt | hge
      · rw [List.getElem?_append_left hlt] at hmarker
        obtain ⟨hlevel, place, vertex, hplace, hvertex⟩ := ih hmarker
        refine ⟨hlevel, place, vertex, ?_, hvertex⟩
        rw [List.getElem?_append_left (List.getElem?_eq_some_iff.mp hplace).1]
        exact hplace
      · have hbound := (List.getElem?_eq_some_iff.mp hmarker).1
        rw [List.length_append] at hbound
        obtain rfl := Nat.le_antisymm (Nat.le_of_lt_succ hbound) hge
        rw [List.getElem?_concat_length, Option.some.injEq] at hmarker
        subst hmarker
        have hlength : markers.reverse.length = places.reverse.length := by
          simp [outer.length_eq]
        rw [hlength, List.getElem?_concat_length, List.length_reverse]
        exact ⟨level_eq, place, vertex, rfl, vertex_eq, isCreation_iff⟩

end Marks

end Arena

namespace Deferred

variable {builder next : Deferred}

theorem outline_mapNode_close (marker : Marker) (completion : Completion) (vertex : Vertex) :
    (vertex.mapNode (marker.close completion)).outline = vertex.outline := by
  simp [Vertex.outline, Vertex.mapNode, Marker.close, Action.kind_withCreated]

theorem outline_mapNode_withGas (gas : UInt64) (vertex : Vertex) :
    (vertex.mapNode (Node.withGas gas)).outline = vertex.outline := by
  simp [Vertex.outline, Vertex.mapNode, Node.withGas, Action.kind_withGas]

/-- What becomes of the stacks when a frame closes: both lose their first entry.  Nothing else
changes but nodes in the arena and, if no frame is left open, the trace. -/
structure Pops (builder next : Deferred) (place : Nat) (marker : Marker) : Prop where
  openFrames_eq : builder.openFrames = place :: next.openFrames
  markers_eq : builder.markers = marker :: next.markers
  root_eq : next.root = builder.root
  outlines_eq : next.arena.map Vertex.outline = builder.arena.map Vertex.outline
  nodes_eq : next.openFrames ≠ [] → next.nodes = builder.nodes

/-- A root that has closed is charged with its gas and written out. -/
theorem exists_eq_writeOut_chargeRoot (closed : Deferred) (place : Nat) (gasUsed : UInt64) :
    ∃ arena nodes, (closed.chargeRoot place gasUsed).writeOut = { closed with arena, nodes } ∧
      arena.map Vertex.outline = closed.arena.map Vertex.outline := by
  have hwrite : ∀ charged : Deferred, ∃ nodes, charged.writeOut = { charged with nodes } := by
    intro charged
    unfold writeOut
    split
    · exact ⟨_, rfl⟩
    · exact ⟨charged.nodes, rfl⟩
  obtain ⟨nodes, hnodes⟩ := hwrite (closed.chargeRoot place gasUsed)
  rw [hnodes]
  unfold chargeRoot
  split
  · exact ⟨closed.arena, nodes, rfl, rfl⟩
  · exact ⟨_, nodes, rfl,
      Arena.map_modify_eq (outline_mapNode_withGas gasUsed) closed.arena place⟩

theorem exists_pops {completion : Completion}
    (hclose : builder.closeFrame? completion = some next) :
    ∃ place marker, builder.Pops next place marker := by
  unfold closeFrame? at hclose
  split at hclose
  · next place outer marker markers hopen hmarkers =>
    have houtlines := Arena.map_modify_eq (outline_mapNode_close marker completion)
      builder.arena place
    refine ⟨place, marker, ?_⟩
    split at hclose
    · obtain ⟨arena, nodes, hwritten, hcharged⟩ := exists_eq_writeOut_chargeRoot _ place
        completion.gasUsed
      cases hclose.symm.trans (congrArg some hwritten)
      exact ⟨hopen, hmarkers, rfl, hcharged.trans houtlines, fun hne => absurd rfl hne⟩
    · cases hclose
      exact ⟨hopen, hmarkers, rfl, houtlines, fun _ => rfl⟩
  · cases hclose

/-- An exit is refused only if one of the stacks is empty. -/
theorem closeFrame?_eq_none_iff {completion : Completion} :
    builder.closeFrame? completion = none ↔ builder.openFrames = [] ∨ builder.markers = [] := by
  unfold closeFrame?
  cases hopen : builder.openFrames with
  | nil => simp
  | cons place outer =>
      cases hmarkers : builder.markers with
      | nil => simp
      | cons marker markers => cases outer <;> simp

/-- A state in which the stacks, the root and the arena say the same of the open frames. -/
structure IsInStep (builder : Deferred) : Prop where
  isLinked : builder.arena.IsLinked
  marks : builder.arena.Marks builder.openFrames builder.markers
  root_eq : ∀ root, builder.openFrames.getLast? = some root → builder.root = some root
  nested : builder.openFrames.IsChain fun inner outer =>
    builder.arena.lastChild? outer = some inner

theorem isInStep_empty (settings : Settings) (context : Context) :
    (empty settings context).IsInStep where
  isLinked := Arena.isLinked_nil
  marks := .nil
  root_eq := nofun
  nested := .nil

namespace IsInStep

/-- The frames inside a frame stand behind it. -/
theorem openFrames_decrease (hstep : builder.IsInStep) :
    builder.openFrames.Pairwise (· > ·) := by
  apply List.IsChain.pairwise
  apply hstep.nested.imp
  intro inner outer hlast
  exact hstep.isLinked.lt_of_lastChild? hlast

/-- The path of a frame that opens is empty exactly if no frame is open. -/
theorem isEmpty_childPath (hstep : builder.IsInStep) :
    (childPath builder.innermost?).isEmpty = builder.openFrames.head?.isNone := by
  have hbounds := hstep.marks.lt_length
  unfold innermost?
  cases hopen : builder.openFrames with
  | nil => rfl
  | cons place outer =>
      rw [hopen, List.forall_mem_cons] at hbounds
      simp [hbounds.1, childPath, Node.nextChildPath]

theorem openFrame (hstep : builder.IsInStep) (frame : Frame) :
    (builder.openFrame frame).IsInStep := by
  have hparent : ∀ parent ∈ builder.openFrames.head?, parent < builder.arena.length := by
    intro parent hparent
    exact hstep.marks.lt_length parent (List.mem_of_head? hparent)
  rw [openFrame_eq]
  constructor
  · exact hstep.isLinked.grow hparent rfl hstep.isEmpty_childPath
  · apply Arena.Marks.cons (Arena.getElem?_grow_eq_some_iff.mpr (.inl ⟨rfl, rfl⟩)) rfl
    · simp [Node.fresh, Frame.kind_toAction]
    · exact hstep.marks.grow _ _
  · intro root hroot
    dsimp only at hroot ⊢
    split
    · next hopen =>
      rw [hopen] at hroot
      exact hroot
    · next hopen =>
      rw [List.getLast?_cons_of_ne_nil hopen] at hroot
      exact hstep.root_eq root hroot
  · have hdecrease := hstep.openFrames_decrease
    have hnested := hstep.nested
    dsimp only
    cases hopen : builder.openFrames with
    | nil => exact .singleton _
    | cons parent outer =>
        rw [hopen] at hdecrease hnested hparent
        rw [List.head?_cons, List.isChain_cons_cons]
        refine ⟨Arena.lastChild?_grow_parent (hparent parent rfl), ?_⟩
        -- The innermost open frame is linked anew, and it is around none of the others.
        apply hnested.imp_of_mem_tail_imp
        intro inner place _ hplace hlast
        apply Arena.lastChild?_grow_of_ne hlast
        rintro ⟨⟩
        exact Nat.lt_irrefl _ (List.rel_of_pairwise_cons hdecrease hplace)

theorem closeFrame? (hstep : builder.IsInStep) {completion : Completion}
    (hclose : builder.closeFrame? completion = some next) : next.IsInStep := by
  obtain ⟨place, marker, hpops⟩ := exists_pops hclose
  have hmarks := hstep.marks
  have hnested := hstep.nested
  rw [hpops.openFrames_eq, hpops.markers_eq] at hmarks
  rw [hpops.openFrames_eq] at hnested
  constructor
  · exact hstep.isLinked.of_outlines_eq hpops.outlines_eq
  · cases hmarks with
    | cons vertex_eq level_eq isCreation_iff outer => exact outer.of_outlines_eq hpops.outlines_eq
  · intro root hroot
    rw [hpops.root_eq]
    apply hstep.root_eq
    rw [hpops.openFrames_eq, List.getLast?_cons, hroot]
    rfl
  · apply hnested.tail.imp
    intro inner outer hlast
    rwa [Arena.lastChild?_of_outlines_eq hpops.outlines_eq]

theorem revert (hstep : builder.IsInStep) : builder.revert.IsInStep := by
  unfold Deferred.revert
  cases hmarkers : builder.markers with
  | nil => exact hstep
  | cons marker outer =>
      have hmarks := hstep.marks
      rw [hmarkers] at hmarks
      refine ⟨hstep.isLinked, ?_, hstep.root_eq, hstep.nested⟩
      cases hopen : builder.openFrames with
      | nil =>
          rw [hopen] at hmarks
          cases hmarks
      | cons place places =>
          rw [hopen] at hmarks
          cases hmarks with
          | cons vertex_eq level_eq isCreation_iff outer =>
              exact .cons vertex_eq level_eq isCreation_iff outer

end IsInStep

theorem isInStep_invariant : Builder.Invariant IsInStep where
  openFrame_holds _ frame hstep := hstep.openFrame frame
  closeFrame?_holds _ _ _ hclose hstep := hstep.closeFrame? hclose
  revert_holds _ hstep := hstep.revert
  reset_holds builder context _ := isInStep_empty builder.settings context

theorem isInStep_run (settings : Settings) (context : Context) (events : List Event) :
    (Builder.run (empty settings context) events).IsInStep :=
  isInStep_invariant.run_holds events (isInStep_empty settings context)

/-- The exit of a frame takes one entry off both stacks, the marker being that of the level that
is left.  If there is none to take, the exit is refused. -/
theorem IsInStep.exit_cases (hstep : builder.IsInStep) (completion : Completion) :
    builder.openFrames = [] ∧ builder.markers = [] ∧
        Builder.exit builder completion = .error .unmatchedExit ∨
      ∃ next place marker, Builder.exit builder completion = .ok next ∧
        builder.openFrames = place :: next.openFrames ∧
        builder.markers = marker :: next.markers ∧
        marker.level = next.openFrames.length + 1 := by
  have hmarks := hstep.marks
  cases hclose : builder.closeFrame? completion with
  | none =>
      have hlength := hmarks.length_eq
      have hopen : builder.openFrames = [] := by
        rcases closeFrame?_eq_none_iff.mp hclose with hopen | hmarkers
        · exact hopen
        · rw [hmarkers] at hlength
          exact List.eq_nil_of_length_eq_zero hlength.symm
      rw [hopen] at hlength
      have hclosed : Builder.closeFrame? builder completion = none := hclose
      exact .inl ⟨hopen, List.eq_nil_of_length_eq_zero hlength, by simp [Builder.exit, hclosed]⟩
  | some next =>
      obtain ⟨place, marker, hpops⟩ := exists_pops hclose
      rw [hpops.openFrames_eq, hpops.markers_eq] at hmarks
      cases hmarks with
      | cons vertex_eq level_eq isCreation_iff outer =>
          exact .inr ⟨next, place, marker, Builder.exit_of_closeFrame? hclose, hpops.openFrames_eq,
            hpops.markers_eq, level_eq⟩

/-- Whether an event closes the root at a place: the exit of the only open frame, or an opcode
that adds a rejected frame while none is open. -/
inductive ClosesRoot (builder : Deferred) : Event → Nat → Prop
  | exit {root : Nat} (completion : Completion) (openFrames_eq : builder.openFrames = [root]) :
      ClosesRoot builder (.exit completion) root
  | opcode {step : Step} {rejection : Precheck.Rejection}
      (rejection?_eq : builder.settings.rejection? step = some rejection)
      (openFrames_eq : builder.openFrames = []) :
      ClosesRoot builder (.opcode step) builder.arena.length

theorem exists_root_of_exit {completion : Completion}
    (hexit : Builder.exit builder completion = .ok next) (hchange : next.nodes ≠ builder.nodes) :
    ∃ root, builder.openFrames = [root] := by
  obtain ⟨place, marker, hpops⟩ := exists_pops (Builder.exit_eq_ok_iff.mp hexit)
  have hopen := not_not.mp (mt hpops.nodes_eq hchange)
  exact ⟨place, hopen ▸ hpops.openFrames_eq⟩

theorem nodes_revert (builder : Deferred) : builder.revert.nodes = builder.nodes := by
  unfold revert
  cases builder.markers <;> rfl

theorem exists_closesRoot_of_observe {step : Step}
    (hobserve : Builder.observe builder step = .ok next) (hchange : next.nodes ≠ builder.nodes) :
    ∃ root, builder.ClosesRoot (.opcode step) root := by
  rcases Builder.observe_cases hobserve with
    ⟨-, rfl⟩ | ⟨rejection, hrejection, hadd⟩ | ⟨-, rfl⟩
  · exact absurd (nodes_revert builder) hchange
  · have hopened : Builder.openFrame builder rejection.frame = _ :=
      openFrame_eq builder rejection.frame
    unfold Builder.addRejected at hadd
    rw [hopened] at hadd
    obtain ⟨root, hopen⟩ := exists_root_of_exit hadd hchange
    exact ⟨_, .opcode hrejection (List.cons.inj hopen).2⟩
  · exact absurd rfl hchange

/-- An event that changes the trace is a reset or closes a root. -/
theorem closesRoot_of_nodes_ne {event : Event}
    (hchange : (Builder.advance builder event).nodes ≠ builder.nodes) :
    event.isReset = true ∨ ∃ root, builder.ClosesRoot event root := by
  cases happly : Builder.apply builder event with
  | error error =>
      simp only [Builder.advance, happly] at hchange
      exact absurd rfl hchange
  | ok next =>
      rw [Builder.advance_of_apply happly] at hchange
      cases event with
      | start frame | enter frame =>
          cases happly
          exact absurd (congrArg Deferred.nodes (openFrame_eq builder frame)) hchange
      | exit completion =>
          obtain ⟨root, hopen⟩ := exists_root_of_exit happly hchange
          exact .inr ⟨root, .exit completion hopen⟩
      | opcode step => exact .inr (exists_closesRoot_of_observe happly hchange)
      | fault step =>
          cases happly
          exact absurd rfl hchange
      | revert =>
          cases happly
          exact absurd (nodes_revert builder) hchange
      | reset context => exact .inl rfl

end Deferred

/-- At every moment of a run, the markers, the open frames, the root and the child counts of the
deferred builder are in step.  An exit shortens both stacks or is refused for want of an open
frame, and then nothing has changed.  The trace changes only when a root closes, or with a
reset. -/
theorem deferred_stacks_in_step (settings : Settings) (context : Context) (events : List Event) :
    let builder := Builder.run (Deferred.empty settings context) events
    builder.markers.length = builder.openFrames.length ∧
    (∀ index marker, builder.markers.reverse[index]? = some marker →
      marker.level = index + 1 ∧
      ∃ place vertex, builder.openFrames.reverse[index]? = some place ∧
        builder.arena[place]? = some vertex ∧
        (marker.isCreation = true ↔ vertex.node.action.kind = .create)) ∧
    (∀ root, builder.openFrames.getLast? = some root → builder.root = some root) ∧
    (builder.openFrames.IsChain fun inner outer =>
      builder.arena.lastChild? outer = some inner) ∧
    (∀ (place : Nat) vertex, builder.arena[place]? = some vertex →
      vertex.node.subtraces.toNat = vertex.children.length % UInt32.size) ∧
    (∀ completion,
      builder.openFrames = [] ∧ builder.markers = [] ∧
          Builder.exit builder completion = .error .unmatchedExit ∧
          Builder.advance builder (.exit completion) = builder ∨
        ∃ next place marker, Builder.exit builder completion = .ok next ∧
          builder.openFrames = place :: next.openFrames ∧
          builder.markers = marker :: next.markers ∧
          marker.level = next.openFrames.length + 1) ∧
    ∀ event, (Builder.advance builder event).nodes ≠ builder.nodes →
      event.isReset = true ∨ ∃ root, builder.ClosesRoot event root := by
  intro builder
  have hstep : builder.IsInStep := Deferred.isInStep_run settings context events
  refine ⟨hstep.marks.length_eq, ?_, hstep.root_eq, hstep.nested, ?_, ?_, ?_⟩
  · intro index marker hmarker
    exact hstep.marks.getElem?_reverse hmarker
  · intro place vertex hvertex
    rw [hstep.isLinked.counted place vertex hvertex]
    exact UInt32.toNat_ofNat'
  · intro completion
    rcases hstep.exit_cases completion with ⟨hopen, hmarkers, hrefused⟩ | htaken
    · have hstays : Builder.advance builder (.exit completion) = builder := by
        simp [Builder.advance, Builder.apply, hrefused]
      exact .inl ⟨hopen, hmarkers, hrefused, hstays⟩
    · exact .inr htaken
  · intro event
    exact Deferred.closesRoot_of_nodes_ne

/-- A creation runs in the second root.  When both have exited, the trace is written out anew. -/
theorem deferred_stacks_in_step_of_second_root :
    let frame : Frame := .ofCall .call default default [] 0 0
    let creation : Frame := .ofCreation default none [] 0 0
    let events : List Event := [.start frame, .exit default, .start frame, .enter creation]
    let builder := Builder.run (Deferred.empty default default) events
    let outer := Builder.run builder [.exit default]
    builder.openFrames = [2, 1] ∧ builder.root = some 1 ∧ builder.arena.lastChild? 1 = some 2 ∧
      (∃ marker, builder.markers.reverse[1]? = some marker ∧ marker.level = 2) ∧
      (Builder.advance outer (.exit default)).nodes ≠ outer.nodes ∧
      ∃ root, outer.ClosesRoot (.exit default) root := by
  intro frame creation events builder outer
  obtain ⟨-, hmarkers, hroot, hnested, -, -, -⟩ := deferred_stacks_in_step default default events
  obtain ⟨-, -, -, -, -, -, hchanges⟩ :=
    deferred_stacks_in_step default default (events ++ [.exit default])
  have hchange : (Builder.advance outer (.exit default)).nodes ≠ outer.nodes := by decide
  refine ⟨rfl, hroot 1 rfl, ?_, ⟨_, rfl, (hmarkers 1 _ rfl).1⟩, hchange, ?_⟩
  · exact (List.isChain_cons_cons.mp hnested).1
  · exact (hchanges (.exit default) hchange).resolve_left Bool.false_ne_true

end CallTrace
