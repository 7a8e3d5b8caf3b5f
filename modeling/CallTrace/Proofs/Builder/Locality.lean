import CallTrace.Proofs.Builder.Agreement
import CallTrace.Proofs.Forest.Levels
import CallTrace.Proofs.Forest.OpenFrames
import CallTrace.Proofs.Forest.Replacement

/-!
# What the end of a frame affects

Let two runs be given the same events but for the exit of one frame.  The streamed traces
then differ at the place of the frame only, and the traces that the deferred builder writes
out for the root differ there and, by gas alone, in what lies below.

Nothing else is possible, since the builders are pictures of a forest, and a forest never
looks into a tree that is complete.
-/

namespace CallTrace

theorem Action.withGas_withGas (gas former : UInt64) (action : Action) :
    (action.withGas former).withGas gas = action.withGas gas := by
  cases action <;> rfl

namespace Node

/-- Two nodes that agree on everything but how their frames ended: on all but the outcomes
and the addresses of new contracts. -/
structure AgreesUpToExit (node other : Node) : Prop where
  path_eq : node.path = other.path
  subtraces_eq : node.subtraces = other.subtraces
  action_eq : ∀ address,
    node.action.withCreated (some address) = other.action.withCreated (some address)

theorem AgreesUpToExit.rfl {node : Node} : node.AgreesUpToExit node :=
  ⟨.refl _, .refl _, fun _ => .refl _⟩

theorem exited_agreesUpToExit (frame : Frame) (isReverted : Bool) (first second : Completion)
    (path : Path) (calls : Nat) :
    (exited frame isReverted first path calls).AgreesUpToExit
      (exited frame isReverted second path calls) := by
  refine ⟨.refl _, .refl _, ?_⟩
  intro address
  simp only [exited, Frame.finalAction_eq, Action.withCreated_withCreated]

theorem AgreesUpToExit.withGas {node other : Node} (hagree : node.AgreesUpToExit other)
    (gas : UInt64) : (node.withGas gas).AgreesUpToExit (other.withGas gas) := by
  refine ⟨hagree.path_eq, hagree.subtraces_eq, ?_⟩
  intro address
  simp only [Node.withGas, Action.withCreated_withGas]
  rw [hagree.action_eq address]

theorem withGas_withGas (gas former : UInt64) (node : Node) :
    (node.withGas former).withGas gas = node.withGas gas := by
  simp [withGas, Action.withGas_withGas]

theorem withGas_takeShare (parentGas? : Option UInt64) (gas : UInt64) (node : Node) :
    (node.takeShare parentGas?).withGas gas = node.withGas gas := by
  rcases node.takeShare_cases parentGas? with hshare | ⟨former, hshare⟩
  · rw [hshare]
  · rw [hshare, withGas_withGas]

end Node

/-- Two traces that are the same but for how the frame at one place ended. -/
structure DiffersAt (place : Nat) (nodes others : List Node) : Prop where
  length_eq : nodes.length = others.length
  elsewhere_eq : ∀ index, index ≠ place → nodes[index]? = others[index]?
  here_agrees : ∀ node other, nodes[place]? = some node → others[place]? = some other →
    node.AgreesUpToExit other

/-- Two traces that are the same but for how the frame at one place ended, its gas, and
the gas of what lies below it. -/
structure DiffersBelow (place : Nat) (nodes others : List Node) : Prop where
  spots_eq : nodes.map Node.spot = others.map Node.spot
  outside_eq : ∀ index, index ≠ place → ¬ IsBelow (nodes.map Node.level) place index →
    nodes[index]? = others[index]?
  here_agrees : ∀ node other, nodes[place]? = some node → others[place]? = some other →
    (node.withGas 0).AgreesUpToExit (other.withGas 0)
  below_agrees : ∀ index node other, IsBelow (nodes.map Node.level) place index →
    nodes[index]? = some node → others[index]? = some other → node.AgreesUpToGas other

section Differences

variable {place : Nat} {nodes others below otherBelow : List Node} {node other : Node}

theorem DiffersAt.rfl : DiffersAt place nodes nodes where
  length_eq := .refl _
  elsewhere_eq _ _ := .refl _
  here_agrees _ _ hnode hother := by
    cases hnode.symm.trans hother
    exact .rfl

theorem DiffersBelow.rfl : DiffersBelow place nodes nodes where
  spots_eq := .refl _
  outside_eq _ _ _ := .refl _
  here_agrees _ _ hnode hother := by
    cases hnode.symm.trans hother
    exact .rfl
  below_agrees _ _ _ _ hnode hother := by
    cases hnode.symm.trans hother
    exact .rfl

theorem SameAround.differsAt (hsame : SameAround place [node] [other] nodes others)
    (hagree : node.AgreesUpToExit other) : DiffersAt place nodes others where
  length_eq := hsame.length_eq (.refl 1)
  elsewhere_eq index hindex := by
    apply hsame.getElem?_eq (.refl 1)
    change index < place ∨ place + 1 ≤ index
    omega
  here_agrees first second hfirst hsecond := by
    obtain ⟨hnode, hother⟩ := hsame.getElem?_add Nat.one_pos Nat.one_pos
    cases hnode.symm.trans hfirst
    cases hother.symm.trans hsecond
    exact hagree

/-- What lies deeper behind the first node of a part lies below it. -/
theorem SameAround.isBelow {otherPart : List Node}
    (hsame : SameAround place (node :: below) otherPart nodes others)
    (hdeeper : ∀ deeper ∈ below, node.level < deeper.level) {index : Nat}
    (hindex : index < below.length) :
    IsBelow (nodes.map Node.level) place (place + (index + 1)) := by
  obtain ⟨before, after, rfl, rfl, rfl⟩ := hsame
  have hzero : IsBelow (node.level :: below.map Node.level) 0 (index + 1) := by
    apply isBelow_zero_of_lt (by rwa [List.length_map])
    intro level hlevel
    obtain ⟨deeper, hmem, rfl⟩ := List.mem_map.mp hlevel
    exact hdeeper deeper hmem
  have hpart : IsBelow (node.level :: below.map Node.level ++ after.map Node.level) 0 (index + 1) :=
    (isBelow_append_left (by simpa using hindex)).mpr hzero
  have hall : IsBelow
      (before.map Node.level ++ (node.level :: below.map Node.level ++ after.map Node.level))
      ((before.map Node.level).length + 0) ((before.map Node.level).length + (index + 1)) :=
    isBelow_append_right.mpr hpart
  simpa using hall

theorem spots_eq_of_agreesUpToGas (hagree : List.Forall₂ Node.AgreesUpToGas nodes others) :
    nodes.map Node.spot = others.map Node.spot := by
  induction hagree with
  | nil => rfl
  | cons hnode hnodes ih =>
      exact congrArg₂ List.cons (Prod.ext hnode.path_eq hnode.subtraces_eq) ih

theorem agreesUpToGas_of_getElem? (hagree : List.Forall₂ Node.AgreesUpToGas nodes others)
    {index : Nat} (hnode : nodes[index]? = some node) (hother : others[index]? = some other) :
    node.AgreesUpToGas other := by
  obtain ⟨hindex, rfl⟩ := List.getElem?_eq_some_iff.mp hnode
  obtain ⟨hotherIndex, rfl⟩ := List.getElem?_eq_some_iff.mp hother
  exact hagree.get hindex hotherIndex

theorem SameAround.differsBelow
    (hsame : SameAround place (node :: below) (other :: otherBelow) nodes others)
    (hagree : (node.withGas 0).AgreesUpToExit (other.withGas 0))
    (hbelow : List.Forall₂ Node.AgreesUpToGas below otherBelow)
    (hdeeper : ∀ deeper ∈ below, node.level < deeper.level) : DiffersBelow place nodes others where
  spots_eq := by
    obtain ⟨before, after, rfl, rfl, rfl⟩ := hsame
    have hspot : node.spot = other.spot := Prod.ext hagree.path_eq hagree.subtraces_eq
    simp [hspot, spots_eq_of_agreesUpToGas hbelow]
  outside_eq index hindex hnot := by
    apply hsame.getElem?_eq (congrArg Nat.succ hbelow.length_eq)
    apply Classical.byContradiction
    intro hinside
    rw [List.length_cons] at hinside
    obtain ⟨inner, rfl⟩ := Nat.exists_eq_add_of_lt (show place < index by omega)
    exact hnot (hsame.isBelow hdeeper (by omega))
  here_agrees first second hfirst hsecond := by
    obtain ⟨hnode, hother⟩ := hsame.getElem?_add (Nat.succ_pos _) (Nat.succ_pos _)
    cases hnode.symm.trans hfirst
    cases hother.symm.trans hsecond
    exact hagree
  below_agrees index first second hindex hfirst hsecond := by
    obtain ⟨inner, rfl⟩ := Nat.exists_eq_add_of_lt hindex.1
    -- Behind the parts the traces are the same, whether anything there lies below or not.
    by_cases hinner : inner < below.length
    · obtain ⟨hnode, hother⟩ := hsame.getElem?_add (Nat.succ_lt_succ hinner)
        (Nat.succ_lt_succ (hbelow.length_eq ▸ hinner))
      exact agreesUpToGas_of_getElem? hbelow (hnode.symm.trans hfirst) (hother.symm.trans hsecond)
    · have hbehind : place + (node :: below).length ≤ place + inner + 1 := by
        rw [List.length_cons]
        omega
      have heq := hsame.getElem?_eq (congrArg Nat.succ hbelow.length_eq) (.inr hbehind)
      cases (hfirst.symm.trans heq).trans hsecond
      exact .rfl

end Differences

namespace CallTree

/-- Two traces that are the same around those of a frame that ended in two ways. -/
theorem differsAt_of_sameAround {frame : Frame} {isReverted : Bool} {first second : Completion}
    {calls : List CallTree} {place : Nat} {path : Path} {nodes others : List Node}
    (hsame : SameAround place (trace path (.node frame isReverted first calls))
      (trace path (.node frame isReverted second calls)) nodes others) :
    DiffersAt place nodes others := by
  have htop : SameAround place [.exited frame isReverted first path calls.length]
      [.exited frame isReverted second path calls.length] nodes others := by
    obtain ⟨before, after, hplace, hnodes, hothers⟩ := hsame
    exact ⟨before, traceBelow path 0 calls ++ after, hplace, hnodes, hothers⟩
  exact htop.differsAt (Node.exited_agreesUpToExit frame isReverted first second path _)

mutual

/-- The gas at the top of a tree shows in the gas below only. -/
theorem settledTrace_agreesUpToGas_settledTrace (gas? otherGas? : Option UInt64) (path : Path) :
    (tree : CallTree) →
    List.Forall₂ Node.AgreesUpToGas (tree.settledTrace gas? path)
      (tree.settledTrace otherGas? path)
  | node _ _ _ calls =>
      .cons ((Node.takeShare_agreesUpToGas gas? _).trans
        (Node.takeShare_agreesUpToGas otherGas? _).symm)
        (settledBelow_agreesUpToGas_settledBelow _ _ path 0 calls)

theorem settledBelow_agreesUpToGas_settledBelow (gas otherGas : UInt64) (path : Path)
    (count : Nat) : (trees : List CallTree) →
    List.Forall₂ Node.AgreesUpToGas (settledBelow gas path count trees)
      (settledBelow otherGas path count trees)
  | [] => .nil
  | tree :: trees =>
      List.rel_append (settledTrace_agreesUpToGas_settledTrace (some gas) (some otherGas) _ tree)
        (settledBelow_agreesUpToGas_settledBelow gas otherGas path (count + 1) trees)

end

/-- Two settled traces that are the same around those of a frame that ended in two ways,
with any gas of its own. -/
theorem differsBelow_of_sameAround {frame : Frame} {gas otherGas : UInt64} {isReverted : Bool}
    {first second : Completion} {calls : List CallTree} {place : Nat}
    {parentGas? : Option UInt64} {path : Path} {nodes others : List Node}
    (hsame : SameAround place
      (settledTrace parentGas? path (.node { frame with gas } isReverted first calls))
      (settledTrace parentGas? path (.node { frame with gas := otherGas } isReverted second calls))
      nodes others) : DiffersBelow place nodes others := by
  apply SameAround.differsBelow hsame
  · rw [Node.withGas_takeShare, Node.withGas_takeShare,
      ← Node.withGas_exited frame isReverted first path calls.length gas,
      ← Node.withGas_exited frame isReverted second path calls.length otherGas,
      Node.withGas_withGas, Node.withGas_withGas]
    exact (Node.exited_agreesUpToExit frame isReverted first second path _).withGas 0
  · exact settledBelow_agreesUpToGas_settledBelow _ _ path 0 calls
  · intro deeper hdeeper
    have hlevel := List.mem_map_of_mem (f := Node.level) hdeeper
    rw [levels_settledBelow] at hlevel
    simp only [Node.level, path_takeShare]
    exact le_of_mem_levelsBelow _ calls _ hlevel

/-- A root in which a frame ended in two ways, charged with its gas. -/
theorem Replaced.differsBelow {frame : Frame} {isReverted : Bool} {first second : Completion}
    {calls : List CallTree} {place : Nat} {tree other : CallTree} :
    Replaced (.node frame isReverted first calls) (.node frame isReverted second calls) place
      tree other →
    DiffersBelow place (tree.charged.settledTrace none []) (other.charged.settledTrace none [])
  | .here => differsBelow_of_sameAround (.refl _ _)
  | .inside _ _ _ hbelow => by
      simp only [charged, settledTrace]
      rw [← hbelow.length_eq]
      obtain ⟨gas?, inner, hsame⟩ := hbelow.sameAround_settledBelow _ [] 0
      exact differsBelow_of_sameAround (hsame.cons _)

end CallTree

namespace Forest

variable {forest other : Forest} {call : OpenCall} {outer : List OpenCall}

/-- Two ways for the innermost open frame to exit lead to forests that are the same but
for its tree, and leave them so. -/
theorem replaced_run_exit (hopen : forest.openCalls = call :: outer) (first second : Completion)
    (after : List Event) :
    Replaced (call.exit first) (call.exit second) (forest.rootSize + OpenCall.totalSize outer)
      (Builder.run forest (.exit first :: after)) (Builder.run forest (.exit second :: after)) := by
  have hexit : ∀ completion, Builder.advance forest (.exit completion) =
      ({ forest with openCalls := outer }.addTree (call.exit completion)) := by
    intro completion
    have happly : Builder.apply forest (.exit completion) =
        .ok ({ forest with openCalls := outer }.addTree (call.exit completion)) :=
      exit_of_cons hopen completion
    exact Builder.advance_of_apply happly
  change Replaced _ _ _ (Builder.run (Builder.advance forest _) after)
    (Builder.run (Builder.advance forest _) after)
  rw [hexit first, hexit second]
  apply (bisimulation_replaced _ _ _).run_related
  exact replaced_addTree { forest with openCalls := outer } .here

theorem differsAt_of_replaced {place : Nat} {first second : Completion}
    (hforest : Replaced (call.exit first) (call.exit second) place forest other) :
    DiffersAt place forest.nodes other.nodes := by
  rcases hforest.sameAround_nodes with heq | ⟨path, hsame⟩
  · rw [heq]
    exact .rfl
  · exact CallTree.differsAt_of_sameAround hsame

/-- A forest in which the last root is the first is a single tree. -/
theorem exists_roots_eq_singleton (hclosed : forest.openCalls = [])
    (hroot : forest.rootPlace? = some 0) : ∃ tree, forest.roots = [tree] := by
  simp only [rootPlace?, hclosed] at hroot
  cases hroots : forest.roots using List.reverseRecOn with
  | nil => simp [hroots, CallTree.places] at hroot
  | append_singleton before tree =>
      rw [hroots, CallTree.places_append_singleton, List.getLast?_concat] at hroot
      have hsize : 0 + CallTree.totalSize before = 0 := Option.some.inj hroot
      cases before with
      | nil => exact ⟨tree, rfl⟩
      | cons first before =>
          have hpositive : 0 < first.size := by
            cases first
            exact Nat.succ_pos _
          simp only [CallTree.totalSize] at hsize
          omega

/-- The innermost open frame has the first of the places. -/
theorem exists_openCalls_eq_cons {place : Nat} {places : List Nat}
    (hplaces : forest.places = place :: places) :
    ∃ call outer, forest.openCalls = call :: outer ∧
      place = forest.rootSize + OpenCall.totalSize outer := by
  unfold Forest.places at hplaces
  cases hopen : forest.openCalls with
  | nil =>
      rw [hopen] at hplaces
      cases hplaces
  | cons call outer =>
      rw [hopen] at hplaces
      exact ⟨call, outer, rfl, (List.cons.inj hplaces).1.symm⟩

theorem differsBelow_of_replaced {place : Nat} {first second : Completion} {tree : CallTree}
    (hforest : Replaced (call.exit first) (call.exit second) place forest other)
    (hclosed : forest.openCalls = []) (hroots : forest.roots = [tree]) :
    DiffersBelow place forest.lastSettled other.lastSettled := by
  cases hforest with
  | dropped => exact .rfl
  | root settings context openCalls hbelow =>
      cases hroots
      cases hbelow with
      | head _ htree => exact htree.differsBelow
      | tail _ htrees => cases htrees
  | openCall settings context roots hcalls hplace =>
      cases hclosed
      cases hcalls

end Forest

theorem Streaming.exit_affects_only_node (settings : Settings) (context : Context)
    (before after : List Event) (first second : Completion) {place : Nat} {outer : List Nat}
    (hopen : (Builder.run (empty settings context) before).openFrames = place :: outer) :
    DiffersAt place
      (Builder.trace (Builder.run (empty settings context) (before ++ .exit first :: after))).nodes
      (Builder.trace
        (Builder.run (empty settings context) (before ++ .exit second :: after))).nodes := by
  rw [run_eq_ofForest] at hopen
  obtain ⟨call, outerCalls, hcalls, rfl⟩ := Forest.exists_openCalls_eq_cons hopen
  have hforest := Forest.replaced_run_exit hcalls first second after
  rw [run_eq_ofForest, run_eq_ofForest, Builder.run_append, Builder.run_append]
  exact Forest.differsAt_of_replaced hforest

theorem Deferred.exit_affects_only_subtree (settings : Settings) (context : Context)
    (before after : List Event) (first second : Completion) {place : Nat} {outer : List Nat}
    (hopen : (Builder.run (empty settings context) before).openFrames = place :: outer)
    (hroot : (Builder.run (empty settings context) (before ++ .exit first :: after)).root = some 0)
    (hclosed :
      (Builder.run (empty settings context) (before ++ .exit first :: after)).openFrames = []) :
    DiffersBelow place
      (Builder.trace (Builder.run (empty settings context) (before ++ .exit first :: after))).nodes
      (Builder.trace
        (Builder.run (empty settings context) (before ++ .exit second :: after))).nodes := by
  rw [run_eq_ofForest] at hopen
  obtain ⟨call, outerCalls, hcalls, rfl⟩ := Forest.exists_openCalls_eq_cons hopen
  have hforest := Forest.replaced_run_exit hcalls first second after
  rw [run_eq_ofForest, Builder.run_append] at hroot hclosed
  rw [run_eq_ofForest, run_eq_ofForest, Builder.run_append, Builder.run_append]
  have hnone : (Builder.run (Builder.run (Forest.empty settings context) before)
      (.exit first :: after)).openCalls = [] := by
    apply List.eq_nil_of_length_eq_zero
    rw [← OpenCall.length_places]
    exact congrArg List.length hclosed
  obtain ⟨tree, hroots⟩ := Forest.exists_roots_eq_singleton hnone hroot
  exact Forest.differsBelow_of_replaced hforest hnone hroots

/-- Of two runs that differ in the exit of one frame, the streamed traces differ at the
place of the frame only, whatever else is going on.  If the frame belongs to the first root
and the root is closed in the end, the traces of the deferred builder differ there and, by
gas alone, below. -/
theorem exit_affects_only_own_part (settings : Settings) (context : Context)
    (before after : List Event) (first second : Completion) :
    let streaming (events : List Event) := Builder.run (Streaming.empty settings context) events
    let deferred (events : List Event) := Builder.run (Deferred.empty settings context) events
    let events := before ++ .exit first :: after
    let others := before ++ .exit second :: after
    (∀ place outer, (streaming before).openFrames = place :: outer →
      DiffersAt place (Builder.trace (streaming events)).nodes
        (Builder.trace (streaming others)).nodes) ∧
    (∀ place outer, (deferred before).openFrames = place :: outer →
      (deferred events).root = some 0 → (deferred events).openFrames = [] →
      DiffersBelow place (Builder.trace (deferred events)).nodes
        (Builder.trace (deferred others)).nodes) := by
  intro streaming deferred events others
  constructor
  · intro place outer hopen
    exact Streaming.exit_affects_only_node settings context before after first second hopen
  · intro place outer hopen hroot hclosed
    exact Deferred.exit_affects_only_subtree settings context before after first second hopen
      hroot hclosed

/-- A call succeeds in one run and fails in the other, between calls of its own and of the
frame around it. -/
theorem exit_affects_only_own_part_of_failure :
    let call (gas : UInt64) : Frame := .ofCall .call default default [] gas 0
    let before : List Event :=
      [.start (call 100000), .enter (call 60000), .enter (call 20000), .exit (.success [] 5000)]
    let after : List Event :=
      [.enter (call 30000), .exit (.success [] 1000), .exit (.success [] 40000)]
    let events := before ++ .exit (.success [] 10000) :: after
    let others := before ++ .exit (.failure "out of gas" 60000) :: after
    let streaming (events : List Event) := Builder.run (Streaming.empty default default) events
    let deferred (events : List Event) := Builder.run (Deferred.empty default default) events
    (deferred events).nodes.map (fun node => node.action.gas) = [40000, 30000, 25000, 39000] ∧
      (deferred others).nodes.map (fun node => node.action.gas) = [40000, 60000, 55000, 39000] ∧
      DiffersAt 1 (Builder.trace (streaming events)).nodes
        (Builder.trace (streaming others)).nodes ∧
      DiffersBelow 1 (Builder.trace (deferred events)).nodes
        (Builder.trace (deferred others)).nodes := by
  intro call before after events others streaming deferred
  obtain ⟨hstreaming, hdeferred⟩ := exit_affects_only_own_part default default before after
    (.success [] 10000) (.failure "out of gas" 60000)
  have hopen : (streaming before).openFrames = [1, 0] := by decide +kernel
  have hopenDeferred : (deferred before).openFrames = [1, 0] := by decide +kernel
  have hroot : (deferred events).root = some 0 := by decide +kernel
  have hclosed : (deferred events).openFrames = [] := by decide +kernel
  exact ⟨by decide +kernel, by decide +kernel, hstreaming 1 [0] hopen,
    hdeferred 1 [0] hopenDeferred hroot hclosed⟩

end CallTrace
