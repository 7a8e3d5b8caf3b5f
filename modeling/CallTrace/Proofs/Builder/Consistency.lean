import CallTrace.Proofs.Builder.Traffic
import CallTrace.Proofs.Forest.OpenFrames

/-!
# Consistency of a streamed trace

A streamed trace can be read at any moment, also while frames are open.  Whatever
events came before, its segments are in preorder, the open frames lie in the last of
them, each inside the one around it, and there are as many of them as were opened and
not closed.
-/

namespace CallTrace

namespace Streaming

/-- The paths of the open frames, outermost first. -/
def openPaths (builder : Streaming) : List Path :=
  (builder.openFrames.filterMap fun place => builder.nodes[place]?.map Node.path).reverse

/-- A trace whose segments are in preorder and whose open frames are nested in the last
of them. -/
structure IsConsistent (builder : Streaming) : Prop where
  segments_flatten : (segments builder.nodes).flatten = builder.nodes
  segments_rooted : ∀ segment ∈ segments builder.nodes, IsRooted segment
  segments_ordered : ∀ segment ∈ segments builder.nodes, IsNarrow segment → InPreorder segment
  openFrames_last : ∀ place ∈ builder.openFrames,
    (segments builder.nodes).dropLast.flatten.length ≤ place ∧ place < builder.nodes.length
  openPaths_lengths : builder.openPaths.map List.length = List.range (Builder.depth builder)
  openPaths_nested : builder.openPaths.IsChain (· <+: ·)

theorem openPaths_ofForest (forest : Forest) :
    (ofForest forest).openPaths = (OpenCall.paths forest.openCalls).reverse := by
  have hplaces := OpenCall.paths_of_places forest.rootNodes [] false forest.openCalls
  rw [List.append_nil, Forest.length_rootNodes] at hplaces
  exact congrArg List.reverse hplaces

theorem isConsistent_ofForest (forest : Forest) : (ofForest forest).IsConsistent where
  segments_flatten := (congrArg List.flatten forest.segments_nodes).trans forest.flatten_traces
  segments_rooted := by
    intro segment hsegment
    change segment ∈ segments forest.nodes at hsegment
    rw [forest.segments_nodes] at hsegment
    exact Forest.isRooted_of_mem_traces hsegment
  segments_ordered := by
    intro segment hsegment
    change segment ∈ segments forest.nodes at hsegment
    rw [forest.segments_nodes] at hsegment
    exact Forest.inPreorder_of_mem_traces hsegment
  openFrames_last := by
    intro place hplace
    change (segments forest.nodes).dropLast.flatten.length ≤ place ∧ _
    rw [forest.segments_nodes]
    exact Forest.bounds_of_mem_places hplace
  openPaths_lengths := by
    rw [openPaths_ofForest, morphism_ofForest.depth_map]
    exact OpenCall.lengths_paths forest.openCalls
  openPaths_nested := by
    rw [openPaths_ofForest, List.isChain_reverse]
    exact OpenCall.isChain_paths forest.openCalls

theorem countsFrames : Builder.CountsFrames Streaming where
  depth_openFrame _ _ := rfl
  depth_closeFrame? := by
    intro builder next completion hclose
    change builder.closeFrame? completion = some next at hclose
    unfold closeFrame? at hclose
    split at hclose
    · cases hclose
    · rename_i place outer hopen
      cases hclose
      exact (congrArg List.length hopen).symm
  depth_revert _ := rfl
  depth_reset _ _ := rfl

end Streaming

/-- After any events, the streamed trace is consistent, and its depth is the number of
frames opened and not closed since the last reset. -/
theorem streaming_isConsistent (settings : Settings) (context : Context) (events : List Event) :
    let builder := Builder.run (Streaming.empty settings context) events
    let traffic := Traffic.countAll ⟨0, 0⟩ (Streaming.empty settings context) events
    builder.IsConsistent ∧ Builder.depth builder + traffic.closed = traffic.opened := by
  intro builder traffic
  constructor
  · have hbuilder : builder = Streaming.ofForest (Builder.run (.empty settings context) events) :=
      Streaming.run_eq_ofForest settings context events
    rw [hbuilder]
    exact Streaming.isConsistent_ofForest _
  · exact Streaming.countsFrames.depth_run events rfl

/-- Two roots make two segments, of which the first is complete and the second has two
frames open. -/
theorem streaming_isConsistent_of_two_roots :
    let frame : Frame := .ofCall .call default default [] 0 0
    let events : List Event :=
      [.start frame, .enter frame, .revert, .exit default, .enter frame, .exit default,
        .exit default, .exit default, .start frame, .enter frame]
    let builder := Builder.run (Streaming.empty default default) events
    (segments builder.nodes).map (List.map Node.path) = [[[], [0], [1]], [[], [0]]] ∧
      (∀ segment ∈ segments builder.nodes, IsNarrow segment ∧ InPreorder segment) ∧
      builder.openPaths = [[], [0]] ∧ Builder.depth builder + 3 = 5 := by
  intro frame events builder
  have hbuilder := streaming_isConsistent default default events
  have hnarrow : ∀ segment ∈ segments builder.nodes, IsNarrow segment := by decide +kernel
  refine ⟨by decide +kernel, ?_, by decide +kernel, hbuilder.2⟩
  intro segment hsegment
  exact ⟨hnarrow segment hsegment, hbuilder.1.segments_ordered segment hsegment
    (hnarrow segment hsegment)⟩

end CallTrace
