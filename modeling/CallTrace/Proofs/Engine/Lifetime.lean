import CallTrace.Proofs.Engine.Count

/-!
# The lifetime of a frame

A frame stays where it is in the stack until it is closed.  While it is open, the
frames around it are left alone, and a revert that is stepped marks it if it is the
innermost.  So when it is closed it is marked if and only if there was such a step.
-/

namespace CallTrace

namespace Listener

variable {β γ : Type} [Builder β] [Builder γ]

/-- Whether a revert is stepped while just the given number of frames is open. -/
def revertsAt (depth : Nat) (listener : Listener β) : List Signal → Bool
  | [] => false
  | signal :: signals =>
      (signal.isRevert && listener.depth == depth) ||
        (listener.advance signal).revertsAt depth signals

/-- Whether the frame that is innermost now stays open during the signals and is
innermost again at their end. -/
structure KeepsOpen (listener : Listener β) (signals : List Signal) : Prop where
  depth_le : ∀ before, before <+: signals → listener.depth ≤ (listener.run before).depth
  depth_eq : (listener.run signals).depth = listener.depth

section

variable {map : β → γ} {listener : Listener β}

theorem revertsAt_mapBuilder (morphism : Builder.FrameMorphism map) (depth : Nat)
    (listener : Listener β) (signals : List Signal) :
    (listener.mapBuilder map).revertsAt depth signals = listener.revertsAt depth signals := by
  induction signals generalizing listener with
  | nil => rfl
  | cons signal signals ih =>
      simp only [revertsAt]
      rw [advance_mapBuilder morphism, ih]
      rfl

/-- What stays open on one side of a map stays open on the other. -/
theorem KeepsOpen.of_mapBuilder (morphism : Builder.FrameMorphism map) {signals : List Signal}
    (hkeeps : (listener.mapBuilder map).KeepsOpen signals) : listener.KeepsOpen signals := by
  constructor
  · intro before hbefore
    have hdepth := hkeeps.depth_le before hbefore
    rwa [run_mapBuilder morphism] at hdepth
  · have hdepth := hkeeps.depth_eq
    rwa [run_mapBuilder morphism] at hdepth

end

end Listener

namespace Forest

/-- A frame is open inside the given frames and behind the given complete trees.
Whatever frames and calls there are inside it does not matter. -/
structure HasOpen (forest : Forest) (roots : List CallTree) (outer : List OpenCall)
    (frame : Frame) (isReverted : Bool) : Prop where
  roots_eq : forest.roots = roots
  openCalls_eq : ∃ inner calls, forest.openCalls = inner ++ ⟨frame, isReverted, calls⟩ :: outer

namespace HasOpen

variable {forest : Forest} {roots : List CallTree} {outer : List OpenCall} {frame : Frame}
  {isReverted : Bool}

theorem openFrame (hopen : forest.HasOpen roots outer frame isReverted) (next : Frame) :
    (Builder.openFrame forest next).HasOpen roots outer frame isReverted := by
  obtain ⟨inner, calls, hcalls⟩ := hopen.openCalls_eq
  exact ⟨hopen.roots_eq, .fresh next :: inner, calls, congrArg (OpenCall.fresh next :: ·) hcalls⟩

theorem addTree (hopen : forest.HasOpen roots outer frame isReverted) (tree : CallTree) :
    (forest.addTree tree).HasOpen roots outer frame isReverted := by
  obtain ⟨inner, calls, hcalls⟩ := hopen.openCalls_eq
  cases inner with
  | nil =>
      rw [addTree_of_cons hcalls]
      exact ⟨hopen.roots_eq, [], calls ++ [tree], rfl⟩
  | cons call inner =>
      rw [addTree_of_cons hcalls]
      exact ⟨hopen.roots_eq, call.addCall tree :: inner, calls, rfl⟩

/-- A revert marks the frame if it is the innermost. -/
theorem revert (hopen : forest.HasOpen roots outer frame isReverted) :
    forest.revert.HasOpen roots outer frame
      (isReverted || forest.openCalls.length == outer.length + 1) := by
  obtain ⟨inner, calls, hcalls⟩ := hopen.openCalls_eq
  have hrevert : forest.revert.openCalls = forest.openCalls.modifyHead OpenCall.revert := rfl
  cases inner with
  | nil =>
      refine ⟨hopen.roots_eq, [], calls, ?_⟩
      rw [hrevert, hcalls]
      simp [OpenCall.revert]
  | cons call inner =>
      have hdepth : (forest.openCalls.length == outer.length + 1) = false := by
        simp [hcalls]
        omega
      refine ⟨hopen.roots_eq, call.revert :: inner, calls, ?_⟩
      rw [hdepth, hrevert, hcalls, Bool.or_false]
      rfl

/-- The exit of a frame inside it leaves the frame open. -/
theorem exit {call : OpenCall} {rest : List OpenCall}
    (hopen : forest.HasOpen roots outer frame isReverted)
    (hcalls : forest.openCalls = call :: rest) (hdepth : outer.length + 1 ≤ rest.length)
    (tree : CallTree) :
    (Forest.addTree { forest with openCalls := rest } tree).HasOpen roots outer frame
      isReverted := by
  apply addTree
  obtain ⟨inner, calls, hinner⟩ := hopen.openCalls_eq
  rw [hcalls] at hinner
  cases inner with
  | nil =>
      obtain ⟨-, rfl⟩ := List.cons.inj hinner
      exact absurd hdepth (Nat.not_succ_le_self rest.length)
  | cons first inner =>
      obtain ⟨-, hrest⟩ := List.cons.inj hinner
      exact ⟨hopen.roots_eq, inner, calls, hrest⟩

/-- If no other frames are open than those around it, it is the innermost. -/
theorem openCalls_eq_cons (hopen : forest.HasOpen roots outer frame isReverted)
    (hdepth : forest.openCalls.length = outer.length + 1) :
    ∃ calls, forest.openCalls = ⟨frame, isReverted, calls⟩ :: outer := by
  obtain ⟨inner, calls, hcalls⟩ := hopen.openCalls_eq
  have hinner : inner.length = 0 := by
    rw [hcalls, List.length_append, List.length_cons] at hdepth
    exact Nat.add_eq_right.mp hdepth
  rw [List.length_eq_zero_iff.mp hinner, List.nil_append] at hcalls
  exact ⟨calls, hcalls⟩

end HasOpen

end Forest

namespace Listener

variable {listener : Listener Forest} {roots : List CallTree} {outer : List OpenCall}
  {frame : Frame} {isReverted : Bool}

/-- A frame that a signal does not close stays open, and is marked if the signal reverts
it. -/
theorem InStep.hasOpen_advance (hstep : listener.InStep)
    (hopen : listener.builder.HasOpen roots outer frame isReverted) {signal : Signal}
    (hdepth : outer.length + 1 ≤ (listener.advance signal).depth) :
    (listener.advance signal).builder.HasOpen roots outer frame
      (isReverted || (signal.isRevert && listener.depth == outer.length + 1)) := by
  change listener.depth = listener.builder.openCalls.length at hstep
  obtain ⟨next, hopened⟩ | ⟨completion, hclosing⟩ | ⟨contract, beneficiary, balance, rfl⟩ |
    ⟨code, position, gas, rfl⟩ | ⟨context, rfl⟩ := signal.opens_or_closes
  · rw [advance_of_opened _ hopened, Signal.isRevert_of_opened hopened]
    simpa using hopen.openFrame next
  · cases hcalls : listener.builder.openCalls with
    | nil =>
        obtain ⟨inner, calls, hinner⟩ := hopen.openCalls_eq
        simp [hcalls] at hinner
    | cons call rest =>
        rw [advance_of_closing_cons hcalls hclosing] at hdepth ⊢
        rw [hstep, hcalls] at hdepth
        rw [Signal.isRevert_of_closing hclosing]
        simpa using hopen.exit hcalls hdepth (call.exit completion)
  · rw [advance_selfDestruct]
    simpa [Signal.isRevert] using hopen.addTree _
  · rw [advance_step]
    cases hrevert : (Signal.step code position gas).isRevert with
    | true =>
        rw [hstep]
        exact hopen.revert
    | false => simpa using hopen
  · exact absurd hdepth (Nat.not_succ_le_zero _)

/-- A frame that stays open is marked if a revert is stepped while it is the
innermost. -/
theorem InStep.hasOpen_run (hstep : listener.InStep)
    (hopen : listener.builder.HasOpen roots outer frame isReverted) {signals : List Signal}
    (hdepth : ∀ before, before <+: signals → outer.length + 1 ≤ (listener.run before).depth) :
    (listener.run signals).builder.HasOpen roots outer frame
      (isReverted || listener.revertsAt (outer.length + 1) signals) := by
  induction signals generalizing listener isReverted with
  | nil =>
      simp only [revertsAt, Bool.or_false]
      exact hopen
  | cons signal signals ih =>
      have hsingle : outer.length + 1 ≤ (listener.advance signal).depth :=
        hdepth [signal] (List.cons_prefix_cons.mpr ⟨rfl, List.nil_prefix⟩)
      simp only [revertsAt]
      rw [← Bool.or_assoc]
      apply ih (hstep.advance signal) (hstep.hasOpen_advance hopen hsingle)
      intro before hbefore
      exact hdepth (signal :: before) (List.cons_prefix_cons.mpr ⟨rfl, hbefore⟩)

/-- A frame that is opened, stays open and is closed adds its call tree behind the trace
that was there before. -/
theorem InStep.advance_closing (hstep : listener.InStep) {opening closing : Signal}
    {completion : Completion} {signals : List Signal} (hopened : opening.opened? = some frame)
    (hclosing : closing.closing? = some completion)
    (hkeeps : (listener.advance opening).KeepsOpen signals) :
    let opened := listener.advance opening
    ∃ (forest : Forest) (calls : List CallTree),
      forest.nodes.length = listener.builder.nodes.length ∧
      ((opened.run signals).advance closing).builder =
        forest.addTree
          (.node frame (opened.revertsAt opened.depth signals) completion calls) := by
  intro opened
  have hopenedStep : opened.InStep := hstep.advance opening
  have heq : opened = _ := advance_of_opened listener hopened
  have hlevel : opened.depth = listener.builder.openCalls.length + 1 := by
    rw [heq]
    exact congrArg (· + 1) hstep
  have hbegin : opened.builder.HasOpen listener.builder.roots listener.builder.openCalls frame
      false := by
    rw [heq]
    exact ⟨rfl, [], [], rfl⟩
  have hend : (opened.run signals).builder.HasOpen listener.builder.roots
      listener.builder.openCalls frame (opened.revertsAt opened.depth signals) := by
    rw [hlevel]
    apply hopenedStep.hasOpen_run hbegin
    rw [← hlevel]
    exact hkeeps.depth_le
  obtain ⟨calls, hcalls⟩ := hend.openCalls_eq_cons
    ((hopenedStep.run signals).symm.trans (hkeeps.depth_eq.trans hlevel))
  refine ⟨{ (opened.run signals).builder with openCalls := listener.builder.openCalls }, calls,
    ?_, ?_⟩
  · rw [Forest.length_nodes, Forest.length_nodes]
    simp only [Forest.rootSize, hend.roots_eq]
  · rw [advance_of_closing_cons hcalls hclosing]
    rfl

end Listener

end CallTrace
