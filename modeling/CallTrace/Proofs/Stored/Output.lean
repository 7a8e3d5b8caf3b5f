import CallTrace.Proofs.Builder.Agreement
import CallTrace.Proofs.Engine.Listener
import CallTrace.Proofs.Stored.RoundTrip
import CallTrace.Rendered.Entry

/-!
# What is put out can be stored

A trace that a builder puts out is stored without loss, whatever the builder has been
through.  The reason is that the result of a node is made from its action when the frame
exits, so it is of the right kind, and that later on nothing but the gas of the action
changes.
-/

namespace CallTrace

/-- Whether the result of a node, if it has one, is what its action brings about. -/
def Node.ResultIsOwn (node : Node) : Prop :=
  ∀ result, node.outcome = some (.success result) →
    ∃ gasUsed output, result = node.action.succeed gasUsed output

theorem Action.succeed_fits (action : Action) (gasUsed : UInt64) (output : Bytes) :
    (action.succeed gasUsed output).fits action := by
  cases action <;> rfl

theorem Action.succeed_withGas (action : Action) (gas gasUsed : UInt64) (output : Bytes) :
    (action.withGas gas).succeed gasUsed output = action.succeed gasUsed output := by
  cases action <;> rfl

namespace Node

theorem resultIsOwn_exited (frame : Frame) (isReverted : Bool) (completion : Completion)
    (path : Path) (calls : Nat) :
    (exited frame isReverted completion path calls).ResultIsOwn := by
  intro result hresult
  simp only [exited, Frame.finalOutcome_eq, Completion.outcome] at hresult
  split at hresult
  · cases hresult
  · split at hresult
    · cases hresult
    · cases hresult
      exact ⟨completion.gasUsed, completion.output, rfl⟩

theorem ResultIsOwn.of_agreesUpToGas {node other : Node} (hother : other.ResultIsOwn)
    (hagrees : node.AgreesUpToGas other) : node.ResultIsOwn := by
  intro result hresult
  rw [hagrees.outcome_eq] at hresult
  obtain ⟨gasUsed, output, hmade⟩ := hother result hresult
  rw [← Action.succeed_withGas, ← hagrees.action_eq, Action.succeed_withGas] at hmade
  exact ⟨gasUsed, output, hmade⟩

theorem ResultIsOwn.resultFits {node : Node} (hnode : node.ResultIsOwn) : node.resultFits := by
  rcases node with ⟨action, _ | ⟨result⟩ | message, path, subtraces⟩
  · rfl
  · obtain ⟨gasUsed, output, hresult⟩ := hnode result rfl
    have hfits : result.fits action := by
      rw [hresult]
      exact action.succeed_fits gasUsed output
    simpa [Node.resultFits, result?] using hfits
  · rfl

/-- The address in the result of a creation is the one in the action. -/
theorem ResultIsOwn.created_eq {node : Node} (hnode : node.ResultIsOwn) {gasUsed : UInt64}
    {created : Option Address} {code : Bytes}
    (houtcome : node.outcome = some (.success (.create gasUsed created code))) :
    created = node.action.created? := by
  obtain ⟨used, output, hresult⟩ := hnode _ houtcome
  cases haction : node.action with
  | create details =>
      rw [haction] at hresult
      cases hresult
      rfl
  | call details =>
      rw [haction] at hresult
      cases hresult
  | selfDestruct details =>
      rw [haction] at hresult
      cases hresult

end Node

namespace CallTree

mutual

theorem resultIsOwn_of_mem_trace (path : Path) : (tree : CallTree) →
    ∀ node ∈ tree.trace path, node.ResultIsOwn
  | node frame isReverted completion calls => by
      intro entry hentry
      rcases List.mem_cons.mp hentry with rfl | hbelow
      · exact Node.resultIsOwn_exited frame isReverted completion path calls.length
      · exact resultIsOwn_of_mem_traceBelow path 0 calls entry hbelow

theorem resultIsOwn_of_mem_traceBelow (path : Path) (count : Nat) : (trees : List CallTree) →
    ∀ node ∈ traceBelow path count trees, node.ResultIsOwn
  | [] => by simp [traceBelow]
  | tree :: trees => by
      intro entry hentry
      rcases List.mem_append.mp hentry with hfirst | hrest
      · exact resultIsOwn_of_mem_trace _ tree entry hfirst
      · exact resultIsOwn_of_mem_traceBelow path (count + 1) trees entry hrest

end

end CallTree

/-- A frame that has not exited has no result. -/
theorem OpenCall.resultIsOwn_node (isCalling : Bool) (path : Path) (call : OpenCall) :
    (call.node isCalling path).ResultIsOwn := by
  intro result hresult
  simp only [node] at hresult
  split at hresult
  · cases hresult
  · cases hresult

theorem OpenCall.resultIsOwn_of_mem_traceAll (isCalling : Bool) (calls : List OpenCall) :
    ∀ node ∈ traceAll isCalling calls, node.ResultIsOwn := by
  induction calls generalizing isCalling with
  | nil => simp [traceAll]
  | cons call outer ih =>
      intro node hnode
      rcases List.mem_append.mp hnode with houter | hcall
      · exact ih true node houter
      · rcases List.mem_cons.mp hcall with rfl | hbelow
        · exact call.resultIsOwn_node isCalling _
        · exact CallTree.resultIsOwn_of_mem_traceBelow _ 0 call.calls node hbelow

theorem Forest.resultIsOwn_of_mem_nodes (forest : Forest) :
    ∀ node ∈ forest.nodes, node.ResultIsOwn := by
  intro node hnode
  rcases List.mem_append.mp hnode with hroots | hopen
  · obtain ⟨tree, -, htrace⟩ := List.mem_flatMap.mp hroots
    exact CallTree.resultIsOwn_of_mem_trace [] tree node htrace
  · exact OpenCall.resultIsOwn_of_mem_traceAll false forest.openCalls node hopen

/-- Each entry of a list has its counterpart in a list that is related entry by entry. -/
theorem exists_mem_of_forall₂ {α β : Type} {related : α → β → Prop} {entries : List α}
    {others : List β} (hrelated : List.Forall₂ related entries others) {entry : α}
    (hentry : entry ∈ entries) : ∃ other ∈ others, related entry other := by
  induction hrelated with
  | nil => cases hentry
  | @cons first next entries others hfirst hrest ih =>
      rcases List.mem_cons.mp hentry with rfl | hbehind
      · exact ⟨next, List.mem_cons_self, hfirst⟩
      · obtain ⟨other, hother, hpair⟩ := ih hbehind
        exact ⟨other, List.mem_cons_of_mem next hother, hpair⟩

/-- A settled trace keeps the results of the trace it is made from. -/
theorem Forest.resultIsOwn_of_mem_lastSettled (forest : Forest) :
    ∀ node ∈ forest.lastSettled, node.ResultIsOwn := by
  intro node hnode
  cases hlast : forest.roots.getLast? with
  | none => simp [lastSettled, hlast] at hnode
  | some tree =>
      have hsettled : node ∈ tree.charged.settledTrace none [] := by
        simpa [lastSettled, hlast] using hnode
      obtain ⟨other, hother, hagrees⟩ :=
        exists_mem_of_forall₂ tree.settledTrace_charged_agreesUpToGas hsettled
      exact (tree.resultIsOwn_of_mem_trace [] other hother).of_agreesUpToGas hagrees

/-- The traces that either builder puts out, at any moment of any use. -/
inductive Output (settings : Settings) (context : Context) : TraceSet → Prop where
  | streaming {builder : Streaming}
      (hbuilder : Listener.Recording (.empty settings context) builder) :
      Output settings context (Builder.trace builder)
  | deferred {builder : Deferred}
      (hbuilder : Listener.Recording (.empty settings context) builder) :
      Output settings context (Builder.trace builder)

theorem Output.resultIsOwn {settings : Settings} {context : Context} {trace : TraceSet}
    (houtput : Output settings context trace) : ∀ node ∈ trace.nodes, node.ResultIsOwn := by
  cases houtput with
  | streaming hbuilder =>
      obtain ⟨events, rfl⟩ := hbuilder.reaches
      rw [Streaming.run_eq_ofForest]
      exact Forest.resultIsOwn_of_mem_nodes _
  | deferred hbuilder =>
      obtain ⟨events, rfl⟩ := hbuilder.reaches
      rw [Deferred.run_eq_ofForest]
      exact Forest.resultIsOwn_of_mem_lastSettled _

namespace Stored

/-- In what a builder puts out each result is of the kind of its action, and the address of
a new contract is the one in its action.  So it is read back as it was stored, and is
rendered alike. -/
theorem output_stored_without_loss {settings : Settings} {context : Context} {trace : TraceSet}
    (houtput : Output settings context trace) :
    (∀ node ∈ trace.nodes, node.resultFits ∧
      ∀ gasUsed created code, node.outcome = some (.success (.create gasUsed created code)) →
        created = node.action.created?) ∧
      ((encode trace).length < 2 ^ 64 →
        decode (encode trace) = .ok trace ∧
          (decode (encode trace)).map Rendered.ofTraceSet = .ok (Rendered.ofTraceSet trace)) := by
  have hfits : ∀ node ∈ trace.nodes, node.resultFits := fun node hnode =>
    (houtput.resultIsOwn node hnode).resultFits
  constructor
  · intro node hnode
    constructor
    · exact hfits node hnode
    · intro gasUsed created code houtcome
      exact (houtput.resultIsOwn node hnode).created_eq houtcome
  · intro hlength
    have hdecode : decode (encode trace) = .ok trace := by
      rw [decode_encode hlength, (map_stored_eq_iff trace.nodes).mpr hfits]
    rw [hdecode]
    exact ⟨rfl, rfl⟩

/-- A contract is created at an address that is learnt at its end. -/
theorem output_stored_without_loss_of_creation :
    let events : List Event :=
      [.start (.ofCreation default none [0x60] 9 0),
        .exit { Completion.success [0x60] 7 with created := some default }]
    let trace := Builder.trace (Builder.run (Deferred.empty default default) events)
    trace.nodes.map Node.outcome = [some (.success (.create 7 (some default) [0x60]))] ∧
      (encode trace).length < 2 ^ 64 ∧ decode (encode trace) = .ok trace := by
  intro events trace
  have houtput : Output default default trace := .deferred (.events events .start)
  have hlength : (encode trace).length < 2 ^ 64 := by decide +kernel
  exact ⟨by decide +kernel, hlength, ((output_stored_without_loss houtput).2 hlength).1⟩

end Stored

end CallTrace
