import CallTrace.Proofs.Builder.Invariant
import CallTrace.Proofs.Builder.Run
import CallTrace.Proofs.Forest.Streaming

/-!
# Calls in full

What happens in a frame is a list of moments: calls made in it, each in full, reverts
and other opcodes.  The events of a call are well nested by construction, and its call
tree is read off without any builder.  An opcode adds a call to it if rejected frames are
wanted and the checks before a frame find one.

The streaming builder appends the trace of that tree, whatever state it is in when the
call begins, and leaves all else as it was but for one count in the calling frame.
-/

namespace CallTrace

/-- Something that happens in a frame. -/
inductive Moment where
  /-- A call in full: its frame, what happens in it and how it ends. -/
  | call (frame : Frame) (body : List Moment) (completion : Completion)
  | revert
  | opcode (step : Step)

/-- The call tree of a rejected frame: it fails with the cause of the rejection, and nothing
happens in it. -/
def CallTree.ofRejection (rejection : Precheck.Rejection) : CallTree :=
  .node rejection.frame false
    { output := [], gasUsed := 0, error := some rejection.failure.message, created := none } []

namespace Moment

mutual

/-- The events that report a moment. -/
def events : Moment → List Event
  | call frame body completion => .enter frame :: (eventsOfAll body ++ [.exit completion])
  | revert => [.revert]
  | opcode step => [.opcode step]

/-- The events that report moments one after the other. -/
def eventsOfAll : List Moment → List Event
  | [] => []
  | moment :: moments => moment.events ++ eventsOfAll moments

end

/-- Whether a moment reverts the frame it happens in. -/
def isRevert : Moment → Bool
  | call _ _ _ => false
  | revert => true
  | opcode step => step.opcode = 0xfd

mutual

/-- The calls that a moment adds to the frame it happens in.  An opcode adds one if its
frame is rejected and rejected frames are wanted. -/
def calls (settings : Settings) : Moment → List CallTree
  | call frame body completion =>
      [.node frame (body.any isRevert) completion (callsOfAll settings body)]
  | revert => []
  | opcode step =>
      if settings.addsRejected then
        ((Precheck.rejection? settings.maxCallDepth step).map CallTree.ofRejection).toList
      else
        []

/-- The calls that moments add one after the other. -/
def callsOfAll (settings : Settings) : List Moment → List CallTree
  | [] => []
  | moment :: moments => moment.calls settings ++ callsOfAll settings moments

end

/-- The call tree of a call in full. -/
def callTree (settings : Settings) (frame : Frame) (body : List Moment)
    (completion : Completion) : CallTree :=
  .node frame (body.any isRevert) completion (callsOfAll settings body)

/-- The opcode that reverts its frame opens none, so it is never rejected. -/
theorem rejection?_of_isRevert {step : Step} (hrevert : step.isRevert = true)
    (maxCallDepth : Nat) : Precheck.rejection? maxCallDepth step = none := by
  have hopcode : step.opcode = 0xfd := eq_of_beq hrevert
  have hopening : Precheck.Opening.ofOpcode? step.opcode = none := by
    rw [hopcode]
    rfl
  unfold Precheck.rejection? Precheck.inquiry
  rw [hopening]
  cases step.state with
  | none => rfl
  | some state => cases step.scope <;> rfl

/-- An opcode adds the frame that a builder with the same settings finds rejected. -/
theorem calls_opcode (settings : Settings) (step : Step) :
    (opcode step).calls settings =
      ((settings.rejection? step).map CallTree.ofRejection).toList := by
  unfold Settings.rejection?
  simp only [calls]
  cases hadds : settings.addsRejected with
  | false => rfl
  | true =>
      cases hrevert : step.isRevert with
      | false => rfl
      | true =>
          rw [rejection?_of_isRevert hrevert]
          rfl

end Moment

/-- The open frame after something has happened in it. -/
def OpenCall.extend (call : OpenCall) (isReverted : Bool) (calls : List CallTree) : OpenCall :=
  { call with isReverted := call.isReverted || isReverted, calls := call.calls ++ calls }

namespace Forest

variable {forest : Forest} {call : OpenCall} {outer : List OpenCall}

/-- The forest after something has happened in its innermost open frame. -/
def extend (forest : Forest) (isReverted : Bool) (calls : List CallTree) : Forest :=
  { forest with openCalls := forest.openCalls.modifyHead (·.extend isReverted calls) }

@[simp]
theorem extend_nil (forest : Forest) : forest.extend false [] = forest := by
  have hextend : (fun call : OpenCall => call.extend false []) = id := by
    funext call
    simp [OpenCall.extend]
  simp [extend, hextend]

theorem extend_extend (forest : Forest) (isReverted alsoReverted : Bool)
    (calls others : List CallTree) :
    (forest.extend isReverted calls).extend alsoReverted others =
      forest.extend (isReverted || alsoReverted) (calls ++ others) := by
  simp [extend, OpenCall.extend, Function.comp_def, Bool.or_assoc]

theorem revert_eq_extend (forest : Forest) : forest.revert = forest.extend true [] := by
  have hrevert : OpenCall.revert = fun call => call.extend true [] := by
    funext call
    simp [OpenCall.revert, OpenCall.extend]
  simp [revert, extend, hrevert]

theorem openCalls_extend_ne_nil {forest : Forest} (hopen : forest.openCalls ≠ [])
    (isReverted : Bool) (calls : List CallTree) :
    (forest.extend isReverted calls).openCalls ≠ [] := by
  simpa [extend] using hopen

/-- With a frame open, a tree is a call made in it. -/
theorem addTree_eq_extend {forest : Forest} (hopen : forest.openCalls ≠ []) (tree : CallTree) :
    forest.addTree tree = forest.extend false [tree] := by
  obtain ⟨call, outer, hcons⟩ := List.exists_cons_of_ne_nil hopen
  rw [addTree_of_cons hcons]
  simp [extend, hcons, OpenCall.addCall, OpenCall.extend]

/-- A frame that exits after something has happened in it is added as a call tree. -/
theorem closeFrame?_extend_openFrame (forest : Forest) (frame : Frame) (isReverted : Bool)
    (calls : List CallTree) (completion : Completion) :
    Builder.closeFrame? ((forest.openFrame frame).extend isReverted calls) completion =
      some (forest.addTree (.node frame isReverted completion calls)) := by
  simp [Builder.closeFrame?, closeFrame?, extend, openFrame, OpenCall.extend, OpenCall.fresh,
    OpenCall.exit]

/-- A call in full adds its tree, if all that happens in its frame adds what it should. -/
theorem run_call_of_body {frame : Frame} {body : List Moment} (completion : Completion)
    (hbody : Builder.run (forest.openFrame frame) (Moment.eventsOfAll body) =
      (forest.openFrame frame).extend (body.any Moment.isRevert)
        (Moment.callsOfAll forest.settings body)) :
    Builder.run forest (Moment.call frame body completion).events =
      forest.addTree (Moment.callTree forest.settings frame body completion) := by
  change Builder.run (forest.openFrame frame) (Moment.eventsOfAll body ++ [.exit completion]) = _
  rw [Builder.run_append, hbody]
  apply Builder.run_singleton_of_apply
  exact Builder.exit_of_closeFrame?
    (forest.closeFrame?_extend_openFrame frame _ _ completion)

/-- A rejected frame adds a call in which nothing happens. -/
theorem addRejected_eq (forest : Forest) (rejection : Precheck.Rejection) :
    Builder.addRejected forest rejection = .ok (forest.addTree (.ofRejection rejection)) :=
  exit_openFrame forest rejection.frame (.failure rejection.failure.message 0)

/-- An opcode marks the innermost open frame as reverted or adds what it rejects. -/
theorem run_opcode {forest : Forest} (hopen : forest.openCalls ≠ []) (step : Step) :
    Builder.run forest (Moment.opcode step).events =
      forest.extend step.isRevert ((Moment.opcode step).calls forest.settings) := by
  apply Builder.run_singleton_of_apply
  change Builder.observe forest step = _
  rw [Moment.calls_opcode]
  cases hrejection : forest.settings.rejection? step with
  | some rejection =>
      rw [Builder.observe_of_rejection hrejection, Builder.isRevert_of_rejection hrejection,
        addRejected_eq, addTree_eq_extend hopen]
      rfl
  | none =>
      cases hrevert : step.isRevert with
      | true =>
          rw [Builder.observe_of_isRevert forest hrevert]
          exact congrArg Except.ok forest.revert_eq_extend
      | false =>
          rw [Builder.observe_of_none hrevert hrejection]
          exact congrArg Except.ok forest.extend_nil.symm

mutual

/-- A moment adds its calls to the innermost open frame, and its revert if it is one. -/
theorem run_moment (forest : Forest) (hopen : forest.openCalls ≠ []) : (moment : Moment) →
    Builder.run forest moment.events =
      forest.extend moment.isRevert (moment.calls forest.settings)
  | .call frame body completion => by
      have hfresh : (forest.openFrame frame).openCalls ≠ [] := List.cons_ne_nil _ _
      rw [run_call_of_body completion (run_moments (forest.openFrame frame) hfresh body),
        addTree_eq_extend hopen]
      rfl
  | .revert => by
      apply Builder.run_singleton_of_apply
      exact congrArg Except.ok forest.revert_eq_extend
  | .opcode step => run_opcode hopen step

/-- So do moments one after the other. -/
theorem run_moments (forest : Forest) (hopen : forest.openCalls ≠ []) :
    (moments : List Moment) →
    Builder.run forest (Moment.eventsOfAll moments) =
      forest.extend (moments.any Moment.isRevert) (Moment.callsOfAll forest.settings moments)
  | [] => forest.extend_nil.symm
  | moment :: moments => by
      simp only [Moment.eventsOfAll]
      rw [Builder.run_append, run_moment forest hopen moment,
        run_moments _ (openCalls_extend_ne_nil hopen _ _) moments, extend_extend]
      rfl

end

/-- A call in full adds its tree, whatever is open when it begins. -/
theorem run_call (forest : Forest) (frame : Frame) (body : List Moment)
    (completion : Completion) :
    Builder.run forest (Moment.call frame body completion).events =
      forest.addTree (Moment.callTree forest.settings frame body completion) :=
  run_call_of_body completion (run_moments _ (List.cons_ne_nil _ _) body)

/-- The settings never change. -/
theorem settings_run (settings : Settings) (context : Context) (events : List Event) :
    (Builder.run (empty settings context) events).settings = settings := by
  have invariant : Builder.Invariant fun forest : Forest => forest.settings = settings := {
    openFrame_holds := fun _ _ hforest => hforest
    closeFrame?_holds := by
      intro forest completion next hclose hforest
      change forest.closeFrame? completion = some next at hclose
      cases hopen : forest.openCalls with
      | nil =>
          rw [closeFrame?_of_nil hopen] at hclose
          cases hclose
      | cons call outer =>
          rw [closeFrame?_of_cons hopen] at hclose
          cases hclose
          rw [settings_addTree]
          exact hforest
    revert_holds := fun _ hforest => hforest
    reset_holds := fun _ _ hforest => hforest }
  exact invariant.run_holds events rfl

end Forest

/-- A call in full leaves the open frames of the streaming builder as they were, is
counted once in the frame that makes it, and appends the trace of its tree.  Nothing
else changes. -/
theorem streaming_appends_trace_of_call (settings : Settings) (context : Context)
    (events : List Event) (frame : Frame) (body : List Moment) (completion : Completion) :
    let before := Builder.run (Streaming.empty settings context) events
    let after := Builder.run before (Moment.call frame body completion).events
    let tree := Moment.callTree settings frame body completion
    after.openFrames = before.openFrames ∧
      match before.openFrames with
      | [] => after.nodes = before.nodes ++ tree.trace []
      | place :: _ => ∃ caller, before.nodes[place]? = some caller ∧
          after.nodes =
            before.nodes.set place { caller with subtraces := caller.subtraces + 1 } ++
              tree.trace (caller.path ++ [caller.subtraces]) := by
  intro before after tree
  let forest := Builder.run (Forest.empty settings context) events
  have hbefore : before = Streaming.ofForest forest :=
    Streaming.run_eq_ofForest settings context events
  have hsettings : forest.settings = settings := Forest.settings_run settings context events
  have hafter : after = Streaming.ofForest (forest.addTree tree) := by
    change Builder.run before _ = _
    rw [hbefore, Streaming.morphism_ofForest.run_map, Forest.run_call, hsettings]
  have hnodes : after.nodes = forest.rootNodes ++ OpenCall.traceAll true forest.openCalls ++
      tree.trace (OpenCall.nextPath forest.openCalls) := by
    rw [hafter]
    exact forest.nodes_addTree tree
  have hframes : after.openFrames = before.openFrames := by
    rw [hafter, hbefore]
    exact forest.places_addTree tree
  refine ⟨hframes, ?_⟩
  rw [hbefore, hnodes]
  cases hopen : forest.openCalls with
  | nil =>
      have hnone : (Streaming.ofForest forest).openFrames = [] := by
        simp [Streaming.ofForest, Forest.places, OpenCall.places, hopen]
      rw [hnone]
      simp [Streaming.ofForest, Forest.nodes, hopen, OpenCall.traceAll, OpenCall.nextPath]
  | cons call outer =>
      rw [Streaming.openFrames_ofForest hopen]
      refine ⟨call.node false (OpenCall.nextPath outer), ?_, ?_⟩
      · rw [Streaming.nodes_ofForest hopen]
        simp
      · have hcaller : { call.node false (OpenCall.nextPath outer) with
            subtraces := (call.node false (OpenCall.nextPath outer)).subtraces + 1 } =
              call.node true (OpenCall.nextPath outer) :=
          Streaming.countChild_node _ call
        change _ = _ ++ tree.trace (OpenCall.nextPath (call :: outer))
        rw [Streaming.nodes_ofForest hopen, hcaller]
        simp [OpenCall.traceAll, OpenCall.trace, Forest.nodesBefore]

end CallTrace
