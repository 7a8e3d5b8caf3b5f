import CallTrace.Proofs.Engine.Lifetime
import CallTrace.Proofs.Forest.Deferred
import CallTrace.Proofs.Forest.Streaming
import Mathlib.Data.List.Infix

/-!
# Listeners refine builders

A listener is as good as its builder: what it is told comes down to events, and the
builder is where these events lead.  The listener counts the frames that the builder
has open, refuses to close a frame only if none is open, and never adds a frame that
was rejected.  The outcome of a frame that an engine announced says whether the frame
was left without a revert and without a message.

This holds for both builders, because both are pictures of the forest.
-/

namespace CallTrace

/-- How a builder begins, and where it keeps the nodes of frames. -/
structure Recorder (β : Type) where
  empty : Settings → Context → β
  /-- The places of the open frames, innermost first. -/
  openFrames : β → List Nat
  /-- The nodes of all frames that have been opened. -/
  nodes : β → List Node

/-- The streaming builder keeps the nodes in its trace. -/
def Streaming.recorder : Recorder Streaming :=
  ⟨.empty, Streaming.openFrames, Streaming.nodes⟩

/-- The deferred builder keeps the nodes in its arena. -/
def Deferred.recorder : Recorder Deferred :=
  ⟨.empty, Deferred.openFrames, fun builder => builder.arena.map Vertex.node⟩

section

variable {β : Type} [Builder β]

/-- A listener that has got the given signals. -/
def Recorder.listen (recorder : Recorder β) (settings : Settings) (context : Context)
    (signals : List Signal) : Listener β :=
  (Listener.ofBuilder (recorder.empty settings context)).run signals

/-- What can be said of a listener that has got the given signals. -/
structure Listener.Refines (recorder : Recorder β) (settings : Settings) (context : Context)
    (signals : List Signal) (listener : Listener β) : Prop where
  depth_eq : listener.depth = Builder.depth listener.builder
  builder_eq : listener.builder =
    Builder.run (recorder.empty settings context)
      (Signal.translate (recorder.empty settings context) signals)
  refuses_iff : ∀ signal error, listener.apply signal = .error error ↔
    (∃ completion, signal.closing? = some completion) ∧ Builder.depth listener.builder = 0
  unchanged_of_refused : ∀ signal error, listener.apply signal = .error error →
    listener.advance signal = listener
  /-- A step adds no frame. -/
  step_eq : ∀ code position gas, (listener.advance (.step code position gas)).builder =
    if code[position]?.getD 0 = 0xfd then Builder.revert listener.builder else listener.builder
  /-- The settings do not show in the trace. -/
  trace_eq : ∀ others, Builder.trace (recorder.listen others context signals).builder =
    Builder.trace listener.builder
  selfDestruct_succeeds : ∀ contract beneficiary balance, ∃ node,
    (recorder.nodes (listener.advance (.selfDestruct contract beneficiary balance)).builder)[
      (recorder.nodes listener.builder).length]? = some node ∧
      node.outcome = some (.success .selfDestruct)
  /-- A frame that is announced, stays open during further signals, and is ended. -/
  succeeds_iff : ∀ opening frame inner closing ending,
    opening.announced? = some frame → closing.ending? = some ending →
    let opened := listener.advance opening
    opened.KeepsOpen inner →
    ∃ place node, (recorder.openFrames opened.builder).head? = some place ∧
      (recorder.nodes ((opened.run inner).advance closing).builder)[place]? = some node ∧
      ((∃ result, node.outcome = some (.success result)) ↔
        opened.revertsAt opened.depth inner = false ∧ ending.exitCode.message? = none)

end

/-- A frame succeeds if it is not reverted and exits without an error. -/
theorem Frame.finalOutcome_eq_success_iff {frame : Frame} {isReverted : Bool}
    {completion : Completion} :
    (∃ result, frame.finalOutcome isReverted completion = .success result) ↔
      isReverted = false ∧ completion.error = none := by
  unfold finalOutcome
  cases isReverted with
  | true => simp
  | false => cases completion.error <;> simp

namespace Forest

/-- The forest with other settings. -/
def withSettings (settings : Settings) (forest : Forest) : Forest :=
  { forest with settings }

theorem frameMorphism_withSettings (settings : Settings) :
    Builder.FrameMorphism (withSettings settings) where
  openFrame_map _ _ := rfl
  closeFrame?_map := by
    intro forest completion
    change closeFrame? _ _ = (closeFrame? _ _).map _
    unfold closeFrame? withSettings
    cases forest.openCalls with
    | nil => rfl
    | cons call outer => cases outer <;> rfl
  revert_map _ := rfl
  reset_map _ _ := rfl

/-- A builder that keeps nodes where the trace of the forest has them, with the same
outcomes, whatever the settings. -/
structure IsPictured {β : Type} [Builder β] (map : Forest → β) (recorder : Recorder β) :
    Prop extends Builder.Morphism map where
  empty_eq : ∀ settings context, recorder.empty settings context = map (empty settings context)
  trace_withSettings : ∀ settings forest,
    Builder.trace (map (withSettings settings forest)) = Builder.trace (map forest)
  openFrames_eq : ∀ forest, recorder.openFrames (map forest) = forest.places
  length_nodes_eq : ∀ forest, (recorder.nodes (map forest)).length = forest.nodes.length
  exists_recorded : ∀ (forest : Forest) frame isReverted completion calls, ∃ node,
    (recorder.nodes (map (forest.addTree (.node frame isReverted completion calls))))[
      forest.nodes.length]? = some node ∧
      node.outcome = some (frame.finalOutcome isReverted completion)

end Forest

namespace Streaming

theorem isPictured_ofForest : Forest.IsPictured ofForest recorder where
  toMorphism := morphism_ofForest
  empty_eq _ _ := rfl
  trace_withSettings _ _ := rfl
  openFrames_eq _ := rfl
  length_nodes_eq _ := rfl
  exists_recorded := by
    intro forest frame isReverted completion calls
    have hlength : (forest.rootNodes ++ OpenCall.traceAll true forest.openCalls).length =
        forest.nodes.length := by
      rw [Forest.length_nodes, List.length_append, Forest.length_rootNodes,
        OpenCall.length_traceAll]
    refine ⟨.exited frame isReverted completion (OpenCall.nextPath forest.openCalls) calls.length,
      ?_, rfl⟩
    change (Forest.addTree _ _).nodes[_]? = _
    rw [Forest.nodes_addTree, ← hlength]
    simp [CallTree.trace]

end Streaming

namespace Deferred

/-- The first vertex in the block of a tree, wherever it stands. -/
theorem getElem?_length_append_vertices (before : Arena) (path : Path) (frame : Frame)
    (isReverted : Bool) (completion : Completion) (calls : List CallTree) :
    ((before ++ (CallTree.node frame isReverted completion calls).vertices before.length
      path).map Vertex.node)[before.length]? =
        some (.exited frame isReverted completion path calls.length) := by
  simp [CallTree.vertices]

theorem isPictured_ofForest : Forest.IsPictured ofForest recorder where
  toMorphism := morphism_ofForest
  empty_eq _ _ := rfl
  trace_withSettings _ _ := rfl
  openFrames_eq _ := rfl
  length_nodes_eq forest := by
    rw [← length_arena_ofForest]
    exact List.length_map _
  exists_recorded := by
    intro forest frame isReverted completion calls
    have hlength : (forest.arenaBefore forest.openCalls).length = forest.nodes.length := by
      rw [Forest.length_arenaBefore, Forest.length_nodes]
    change ∃ node, ((Forest.addTree _ _).arena.map Vertex.node)[_]? = some node ∧ _
    rw [← hlength]
    cases hopen : forest.openCalls with
    | nil =>
        have hadd : ∀ tree, forest.addTree tree =
            { forest with roots := forest.roots ++ [tree], openCalls := [] } := by
          intro tree
          rw [Forest.addTree_of_nil hopen, ← hopen]
        rw [hadd, Forest.arena_addRoot]
        refine ⟨_, getElem?_length_append_vertices _ _ _ _ _ _, ?_⟩
        rw [← Node.withGas_exited]
        rfl
    | cons call outer =>
        rw [Forest.addTree_of_cons hopen, Forest.arena_addCall]
        exact ⟨_, getElem?_length_append_vertices _ _ _ _ _ _, rfl⟩

end Deferred

namespace Listener

variable {β : Type} [Builder β] {map : Forest → β} {recorder : Recorder β}

/-- A listener around a picture of the forest is the picture of a listener around the
forest. -/
theorem listen_eq_mapBuilder (pictured : Forest.IsPictured map recorder) (settings : Settings)
    (context : Context) (signals : List Signal) :
    recorder.listen settings context signals =
      ((ofBuilder (Forest.empty settings context)).run signals).mapBuilder map := by
  unfold Recorder.listen
  rw [pictured.empty_eq, ← run_mapBuilder pictured.toFrameMorphism]
  rfl

/-- Other settings lead to the same trace. -/
theorem trace_listen_eq (pictured : Forest.IsPictured map recorder) (settings others : Settings)
    (context : Context) (signals : List Signal) :
    Builder.trace (recorder.listen others context signals).builder =
      Builder.trace (recorder.listen settings context signals).builder := by
  let listener := (ofBuilder (Forest.empty settings context)).run signals
  have hothers : (ofBuilder (Forest.empty others context)).run signals =
      listener.mapBuilder (Forest.withSettings others) := by
    rw [← run_mapBuilder (Forest.frameMorphism_withSettings others)]
    rfl
  rw [listen_eq_mapBuilder pictured, listen_eq_mapBuilder pictured, hothers]
  exact pictured.trace_withSettings others listener.builder

/-- The node of a frame that is opened, stays open and is closed has the outcome of the
frame. -/
theorem InStep.exists_outcome {listener : Listener Forest} (hstep : listener.InStep)
    (pictured : Forest.IsPictured map recorder) {opening closing : Signal} {frame : Frame}
    {completion : Completion} {inner : List Signal} (hopened : opening.opened? = some frame)
    (hclosing : closing.closing? = some completion)
    (hkeeps : (listener.advance opening).KeepsOpen inner) :
    let opened := listener.advance opening
    ∃ place node, (recorder.openFrames (map opened.builder)).head? = some place ∧
      (recorder.nodes (map ((opened.run inner).advance closing).builder))[place]? = some node ∧
      node.outcome =
        some (frame.finalOutcome (opened.revertsAt opened.depth inner) completion) := by
  intro opened
  obtain ⟨forest, calls, hlength, hforest⟩ := hstep.advance_closing hopened hclosing hkeeps
  obtain ⟨node, hnode, houtcome⟩ := pictured.exists_recorded forest frame
    (opened.revertsAt opened.depth inner) completion calls
  refine ⟨forest.nodes.length, node, ?_, ?_, houtcome⟩
  · have hopenedEq : opened = _ := advance_of_opened listener hopened
    have hplaces := Forest.places_openFrame listener.builder frame
    rw [pictured.openFrames_eq, hopenedEq, hlength]
    exact congrArg List.head? hplaces
  · rw [hforest]
    exact hnode

/-- What a listener does around the forest, it does around each picture of it. -/
theorem refines_of_isPictured (pictured : Forest.IsPictured map recorder) (settings : Settings)
    (context : Context) (signals : List Signal) :
    Refines recorder settings context signals (recorder.listen settings context signals) := by
  have morphism := pictured.toFrameMorphism
  let initial := ofBuilder (Forest.empty settings context)
  let listener := initial.run signals
  have hinitial : initial.InStep := rfl
  have hstep : listener.InStep := hinitial.run signals
  have hdepth : listener.depth = Builder.depth (map listener.builder) := by
    rw [pictured.depth_map]
    exact hstep
  have hrefuses : ∀ signal error, (listener.mapBuilder map).apply signal = .error error ↔
      listener.apply signal = .error error := by
    intro signal error
    rw [apply_mapBuilder morphism]
    exact map_eq_error_iff
  have hothers := fun others => trace_listen_eq pictured settings others context signals
  rw [listen_eq_mapBuilder pictured] at hothers ⊢
  refine ⟨hdepth, ?_, ?_, ?_, ?_, hothers, ?_, ?_⟩
  · rw [pictured.empty_eq, translate_map pictured.toMorphism, pictured.run_map]
    exact congrArg map (hinitial.builder_run signals)
  · intro signal error
    rw [hrefuses, hstep.apply_eq_error_iff, hdepth]
    rfl
  · intro signal error hrefused
    rw [advance_mapBuilder morphism]
    exact congrArg (mapBuilder map)
      (hstep.advance_of_refused ((hrefuses signal error).mp hrefused))
  · intro code position gas
    rw [advance_step]
    simp only [Signal.isRevert, beq_iff_eq]
  · intro contract beneficiary balance
    have hlength : (recorder.nodes (listener.mapBuilder map).builder).length = _ :=
      pictured.length_nodes_eq listener.builder
    rw [hlength, advance_mapBuilder morphism, advance_selfDestruct]
    exact pictured.exists_recorded listener.builder _ false default []
  · intro opening frame inner closing ending hannounced hending opened hkeeps
    have hopened := Signal.opened?_of_announced hannounced
    obtain ⟨completion, hclosing, herror⟩ := Signal.exists_closing_of_ending hending
    have hpicture : opened = (listener.advance opening).mapBuilder map :=
      advance_mapBuilder morphism listener opening
    rw [hpicture] at hkeeps ⊢
    obtain ⟨place, node, hplace, hnode, houtcome⟩ :=
      hstep.exists_outcome pictured hopened hclosing (.of_mapBuilder morphism hkeeps)
    refine ⟨place, node, hplace, ?_, ?_⟩
    · rw [run_mapBuilder morphism, advance_mapBuilder morphism]
      exact hnode
    · rw [houtcome, revertsAt_mapBuilder morphism, ← herror]
      simp only [Option.some.injEq]
      exact Frame.finalOutcome_eq_success_iff

end Listener

/-- A listener refines the streaming builder and the deferred builder, whatever signals
it gets. -/
theorem listener_refines_builders (settings : Settings) (context : Context)
    (signals : List Signal) :
    Listener.Refines Streaming.recorder settings context signals
        (Streaming.recorder.listen settings context signals) ∧
      Listener.Refines Deferred.recorder settings context signals
        (Deferred.recorder.listen settings context signals) :=
  ⟨Listener.refines_of_isPictured Streaming.isPictured_ofForest settings context signals,
    Listener.refines_of_isPictured Deferred.isPictured_ofForest settings context signals⟩

/-- A call succeeds in which a creation reverts and a contract destroys itself. -/
theorem listener_refines_builders_of_nested_revert :
    let inputs : CallInputs := ⟨.call, default, default, default, 0, 9, .own []⟩
    let listener := Deferred.recorder.listen default default [.call inputs]
    let opened := listener.advance (.call inputs)
    let inner : List Signal :=
      [.create ⟨default, 0, [], 7⟩, .step [0x5f, 0xfd] 1 3, .createEnd ⟨.reverted, [], 2, none⟩,
        .selfDestruct default default 0, .step [0x00] 0 3]
    let after := (opened.run inner).advance (.callEnd ⟨.stopped, [], 5, none⟩)
    opened.KeepsOpen inner ∧ opened.revertsAt 2 inner = false ∧
      ∃ place node, opened.builder.openFrames.head? = some place ∧
        (after.builder.arena.map Vertex.node)[place]? = some node ∧
        ∃ result, node.outcome = some (.success result) := by
  intro inputs listener opened inner after
  have hdepths : ∀ before ∈ inner.inits, opened.depth ≤ (opened.run before).depth := by
    decide +kernel
  have hkeeps : opened.KeepsOpen inner := by
    constructor
    · intro before hbefore
      exact hdepths before ((List.mem_inits before inner).mpr hbefore)
    · decide +kernel
  have hdepth : opened.depth = 2 := by decide +kernel
  have hreverts : opened.revertsAt opened.depth inner = false := by decide +kernel
  obtain ⟨place, node, hplace, hnode, hsucceeds⟩ :=
    (listener_refines_builders default default [.call inputs]).2.succeeds_iff
      (.call inputs) inputs.frame inner (.callEnd ⟨.stopped, [], 5, none⟩) _ rfl rfl hkeeps
  have hresult := hsucceeds.mpr ⟨hreverts, rfl⟩
  simp only [Deferred.recorder] at hplace hnode
  rw [hdepth] at hreverts
  exact ⟨hkeeps, hreverts, place, node, hplace, hnode, hresult⟩

end CallTrace
