import CallTrace.Proofs.Builder.Agreement
import CallTrace.Proofs.Forest.Levels
import Mathlib.Data.List.Chain

/-!
# Gas from the top down

When a root closes, the deferred builder hands its gas down the call tree.  The root has
what the whole tree used; a call that succeeded has what it leaves of the gas of its
parent, or just what it used if it used all of that; a call that failed keeps what it was
given.  It is always the final gas of the parent that counts.

The rule is stated for places of the trace, where the levels of the nodes tell which of
them is the parent of which.
-/

namespace CallTrace

@[simp]
theorem Action.gas_withGas {action : Action} (hgas : action.kind ≠ .selfDestruct) (gas : UInt64) :
    (action.withGas gas).gas = gas := by
  cases action with
  | selfDestruct details => exact absurd rfl hgas
  | call details => rfl
  | create details => rfl

theorem Action.gas_of_selfDestruct {action : Action} (hkind : action.kind = .selfDestruct) :
    action.gas = 0 := by
  cases action with
  | call details => cases hkind
  | create details => cases hkind
  | selfDestruct details => rfl

theorem Frame.gas_finalAction {frame : Frame} {completion : Completion}
    (hgas : (frame.finalAction completion).kind ≠ .selfDestruct) :
    (frame.finalAction completion).gas = frame.gas := by
  unfold finalAction at hgas ⊢
  cases hkind : frame.kind with
  | call variant => rfl
  | create => rfl
  | selfDestruct =>
      rw [hkind] at hgas
      exact absurd rfl hgas

/-- A share is what is left over, unless that is nothing. -/
theorem Vertex.toNat_share (parentGas gasUsed : UInt64) :
    (share parentGas gasUsed).toNat =
      if gasUsed.toNat < parentGas.toNat then parentGas.toNat - gasUsed.toNat
      else gasUsed.toNat := by
  unfold share
  by_cases hless : gasUsed < parentGas
  · rw [if_pos hless, if_pos (UInt64.lt_iff_toNat_lt.mp hless)]
    exact UInt64.toNat_sub_of_le _ _ (UInt64.le_of_lt hless)
  · rw [if_neg hless, if_neg (fun hnat => hless (UInt64.lt_iff_toNat_lt.mpr hnat))]

/-- How a node stands to its parent in a settled trace: its path is one number longer,
and if it succeeded, it has what it leaves of the gas of its parent. -/
structure Node.SharesGasWith (parent node : Node) : Prop where
  path_eq : ∃ number, node.path = parent.path ++ [number]
  gas_eq : ∀ result, node.action.kind ≠ .selfDestruct → node.result? = some result →
    node.action.gas.toNat =
      if result.gasUsed.toNat < parent.action.gas.toNat then
        parent.action.gas.toNat - result.gasUsed.toNat
      else
        result.gasUsed.toNat

namespace Node

theorem sharesGasWith_takeShare {parent node : Node} {number : UInt32}
    (hpath : node.path = parent.path ++ [number]) :
    parent.SharesGasWith (node.takeShare (some parent.action.gas)) where
  path_eq := ⟨number, by rw [CallTree.path_takeShare, hpath]⟩
  gas_eq result hkind hresult := by
    rw [result?_takeShare] at hresult
    rw [takeShare_of_result? hresult] at hkind ⊢
    have hgas : node.action.kind ≠ .selfDestruct := by simpa [withGas] using hkind
    rw [← Vertex.toNat_share]
    exact congrArg UInt64.toNat (Action.gas_withGas hgas _)

end Node

namespace CallTree

/-- The frame of a tree. -/
def frame : CallTree → Frame
  | node frame _ _ _ => frame

/-- How the frame of a tree ended. -/
def completion : CallTree → Completion
  | node _ _ completion _ => completion

/-- The first node in the trace of a tree, with the gas that its frame was given. -/
def top (path : Path) : CallTree → Node
  | node frame isReverted completion calls =>
      .exited frame isReverted completion path calls.length

mutual

/-- A tree and the trees of all calls in it, in preorder. -/
def subtrees : CallTree → List CallTree
  | node frame isReverted completion calls =>
      node frame isReverted completion calls :: subtreesOfAll calls

/-- Trees and the trees of all calls in them, in preorder. -/
def subtreesOfAll : List CallTree → List CallTree
  | [] => []
  | tree :: trees => tree.subtrees ++ subtreesOfAll trees

end

/-- Whether a node is the top of a tree but for its gas. -/
def IsShownBy (tree : CallTree) (node : Node) : Prop :=
  node.AgreesUpToGas (tree.top node.path)

/-- Whether a node has the gas of its frame if it failed. -/
def KeepsGasIfFailed (tree : CallTree) (node : Node) : Prop :=
  node.action.kind ≠ .selfDestruct → node.result? = none → node.action.gas = tree.frame.gas

theorem isShownBy_takeShare (parentGas? : Option UInt64) (path : Path) (tree : CallTree) :
    tree.IsShownBy ((tree.top path).takeShare parentGas?) := by
  unfold IsShownBy
  rw [path_takeShare]
  cases tree
  exact Node.takeShare_agreesUpToGas parentGas? _

theorem keepsGasIfFailed_takeShare (parentGas? : Option UInt64) (path : Path) (tree : CallTree) :
    tree.KeepsGasIfFailed ((tree.top path).takeShare parentGas?) := by
  intro hkind hresult
  rw [Node.result?_takeShare] at hresult
  rw [Node.takeShare_of_result?_eq_none hresult] at hkind ⊢
  cases tree
  exact Frame.gas_finalAction hkind

mutual

/-- What holds of a tree and its top with any share of gas holds of all nodes of a settled
trace and the trees that they are the tops of. -/
theorem forall₂_settledTrace {shows : CallTree → Node → Prop}
    (htop : ∀ parentGas? path (tree : CallTree), shows tree ((tree.top path).takeShare parentGas?))
    (parentGas? : Option UInt64) (path : Path) : (tree : CallTree) →
    List.Forall₂ shows tree.subtrees (tree.settledTrace parentGas? path)
  | node frame isReverted completion calls =>
      .cons (htop parentGas? path (.node frame isReverted completion calls))
        (forall₂_settledBelow htop _ path 0 calls)

theorem forall₂_settledBelow {shows : CallTree → Node → Prop}
    (htop : ∀ parentGas? path (tree : CallTree), shows tree ((tree.top path).takeShare parentGas?))
    (gas : UInt64) (path : Path) (count : Nat) : (trees : List CallTree) →
    List.Forall₂ shows (subtreesOfAll trees) (settledBelow gas path count trees)
  | [] => .nil
  | tree :: trees =>
      List.rel_append (forall₂_settledTrace htop (some gas) _ tree)
        (forall₂_settledBelow htop gas path (count + 1) trees)

end

/-- The calls made in a frame are one level below it, and have their shares of its gas. -/
theorem sharesGasWith_of_mem_settledBelow (parent : Node) (count : Nat) (trees : List CallTree) :
    ∀ node ∈ settledBelow parent.action.gas parent.path count trees,
      node.level = parent.level + 1 → parent.SharesGasWith node := by
  induction trees generalizing count with
  | nil => simp [settledBelow]
  | cons tree trees ih =>
      intro node hnode hlevel
      rcases List.mem_append.mp hnode with hfirst | hrest
      · obtain ⟨frame, isReverted, completion, calls⟩ := tree
        rcases List.mem_cons.mp hfirst with rfl | hbelow
        · exact Node.sharesGasWith_takeShare rfl
        · have hdeeper : node.level ∈ levelsBelow (parent.level + 2) calls := by
            have hmem := List.mem_map_of_mem (f := Node.level) hbelow
            rwa [levels_settledBelow, List.length_append] at hmem
          have hle := le_of_mem_levelsBelow _ calls _ hdeeper
          omega
      · exact ih (count + 1) node hrest hlevel

mutual

/-- Each node of a settled trace has its share of the gas of its parent. -/
theorem sharesGasWith_settledTrace (parentGas? : Option UInt64) (path : Path) :
    (tree : CallTree) → ∀ upper lower parent node, IsChild (tree.levels path.length) upper lower →
      (tree.settledTrace parentGas? path)[upper]? = some parent →
      (tree.settledTrace parentGas? path)[lower]? = some node → parent.SharesGasWith node
  | .node frame isReverted completion calls => by
      intro upper lower parent node hchild hparent hnode
      have hlower : lower ≠ 0 := Nat.ne_of_gt (Nat.zero_lt_of_lt hchild.1.1)
      obtain ⟨lower, rfl⟩ := Nat.exists_eq_succ_of_ne_zero hlower
      unfold settledTrace at hparent hnode
      rw [List.getElem?_cons_succ] at hnode
      cases upper with
      | zero =>
          -- The children of the first node are the calls made in its frame: all else in the
          -- trace lies deeper than one level below.
          obtain rfl := Option.some.inj hparent
          have hlevel := hchild.2
          simp only [levels, List.getD_cons_succ, List.getD_cons_zero] at hlevel
          rw [← levels_settledBelow _ path 0 calls, getD_level hnode] at hlevel
          apply sharesGasWith_of_mem_settledBelow _ 0 calls
          · rw [path_takeShare]
            exact List.mem_of_getElem? hnode
          · rw [hlevel]
            simp [Node.level, Node.exited]
      | succ upper =>
          exact sharesGasWith_settledBelow _ path 0 calls upper lower parent node
            (isChild_cons_succ.mp hchild) hparent hnode

theorem sharesGasWith_settledBelow (gas : UInt64) (path : Path) (count : Nat) :
    (trees : List CallTree) → ∀ upper lower parent node,
      IsChild (levelsBelow (path.length + 1) trees) upper lower →
      (settledBelow gas path count trees)[upper]? = some parent →
      (settledBelow gas path count trees)[lower]? = some node → parent.SharesGasWith node
  | [] => by simp [settledBelow]
  | tree :: trees => by
      intro upper lower parent node hchild hparent hnode
      unfold settledBelow at hparent hnode
      rcases isChild_levelsBelow_cons hchild with
        ⟨hlower, hfirst⟩ | ⟨above, below, rfl, rfl, hrest⟩
      · have hupper := hfirst.1.1
        rw [List.getElem?_append_left (by rw [length_settledTrace]; omega)] at hparent hnode
        apply sharesGasWith_settledTrace (some gas) _ tree upper lower parent node _ hparent hnode
        rwa [List.length_append]
      · rw [← length_settledTrace (some gas) (path ++ [UInt32.ofNat count]) tree,
          List.getElem?_append_right (Nat.le_add_right _ _), Nat.add_sub_cancel_left]
          at hparent hnode
        exact sharesGasWith_settledBelow gas path (count + 1) trees above below parent node hrest
          hparent hnode

end

end CallTree

section Descent

/-- The gas of the node at a place. -/
def gasAt (nodes : List Node) (place : Nat) : Nat :=
  nodes[place]?.elim 0 fun node => node.action.gas.toNat

/-- The gas that was used by the node at a place, if it succeeded. -/
def gasUsedAt (nodes : List Node) (place : Nat) : Nat :=
  (nodes[place]?.bind Node.result?).elim 0 fun result => result.gasUsed.toNat

/-- The gas that was used by the nodes at several places. -/
def gasUsedAlong (nodes : List Node) : List Nat → Nat
  | [] => 0
  | place :: places => gasUsedAt nodes place + gasUsedAlong nodes places

/-- Whether there is a call or a creation at a place that succeeded. -/
def hasSucceeded (nodes : List Node) (place : Nat) : Bool :=
  nodes[place]?.any fun node => node.action.kind ≠ .selfDestruct ∧ node.result?.isSome

variable {nodes : List Node}
  (hshares : ∀ upper lower parent node, IsChild (nodes.map Node.level) upper lower →
    nodes[upper]? = some parent → nodes[lower]? = some node → parent.SharesGasWith node)

include hshares

/-- What a successful call leaves of the gas of its parent is its own gas. -/
theorem gasAt_add_gasUsedAt {upper lower : Nat}
    (hchild : IsChild (nodes.map Node.level) upper lower) (hsucceeded : hasSucceeded nodes lower)
    (hless : gasUsedAt nodes lower < gasAt nodes upper) :
    gasAt nodes lower + gasUsedAt nodes lower = gasAt nodes upper := by
  obtain ⟨node, hnode, hboth⟩ := (Option.any_eq_true _ _).mp hsucceeded
  obtain ⟨hkind, hsome⟩ := of_decide_eq_true hboth
  obtain ⟨result, hresult⟩ := Option.isSome_iff_exists.mp hsome
  have hupper : upper < nodes.length := by
    have hlength := hchild.1.2.1
    rw [List.length_map] at hlength
    exact Nat.lt_trans hchild.1.1 hlength
  have hparent := List.getElem?_eq_getElem hupper
  have hgas := (hshares upper lower _ node hchild hparent hnode).gas_eq result hkind hresult
  simp only [gasAt, gasUsedAt, hnode, hparent, hresult, Option.bind_some, Option.elim_some]
    at hless ⊢
  rw [if_pos hless] at hgas
  omega

/-- On the way down through successful calls, what they use is taken off the gas at the
beginning. -/
theorem gasAt_add_gasUsedAlong {start : Nat} {places : List Nat}
    (hchain : (start :: places).IsChain (IsChild (nodes.map Node.level)))
    (hsucceeded : ∀ place ∈ places, hasSucceeded nodes place)
    (hless : gasUsedAlong nodes places < gasAt nodes start) :
    gasAt nodes (places.getLastD start) + gasUsedAlong nodes places =
      gasAt nodes start := by
  induction places generalizing start with
  | nil => rfl
  | cons place places ih =>
      obtain ⟨hchild, hrest⟩ := List.isChain_cons_cons.mp hchain
      simp only [gasUsedAlong] at hless ⊢
      have hstep := gasAt_add_gasUsedAt hshares hchild (hsucceeded place List.mem_cons_self)
        (by omega)
      have hlast := ih hrest (fun next hnext => hsucceeded next (List.mem_cons_of_mem _ hnext))
        (by omega)
      rw [List.getLastD_cons]
      omega

end Descent

/-- How gas is shared out among the nodes that are written out for a call tree. -/
structure SharesOutGas (tree : CallTree) (nodes : List Node) : Prop where
  /-- There is a node for each frame, and only its gas is not that of the frame. -/
  shown : List.Forall₂ CallTree.IsShownBy tree.subtrees nodes
  /-- The root has what its exit reports, or else what it was given. -/
  root_gas : ∀ root, nodes[0]? = some root → root.action.kind ≠ .selfDestruct →
    root.action.gas =
      if 0 < tree.completion.gasUsed then tree.completion.gasUsed else tree.frame.gas
  /-- Every other node has a parent. -/
  has_parent : ∀ place, place + 1 < nodes.length →
    ∃ upper, IsChild (nodes.map Node.level) upper (place + 1)
  /-- A call that succeeded has its share of the final gas of its parent. -/
  shares : ∀ upper lower parent node, IsChild (nodes.map Node.level) upper lower →
    nodes[upper]? = some parent → nodes[lower]? = some node → parent.SharesGasWith node
  /-- A call that failed has the gas that it was given. -/
  failed_gas : List.Forall₂ CallTree.KeepsGasIfFailed tree.subtrees.tail nodes.tail
  /-- A self-destruct has no gas. -/
  selfDestruct_gas : ∀ node ∈ nodes, node.action.kind = .selfDestruct → node.action.gas = 0
  /-- What successful calls use is taken off the gas of the root. -/
  descent : ∀ places, (0 :: places).IsChain (IsChild (nodes.map Node.level)) →
    (∀ place ∈ places, hasSucceeded nodes place) →
    gasUsedAlong nodes places < gasAt nodes 0 →
    gasAt nodes (places.getLastD 0) + gasUsedAlong nodes places = gasAt nodes 0

namespace CallTree

theorem isShownBy_charged (tree : CallTree) :
    List.Forall₂ IsShownBy tree.subtrees (tree.charged.settledTrace none []) := by
  obtain ⟨frame, isReverted, completion, calls⟩ := tree
  apply List.Forall₂.cons
  · rw [← Node.withGas_exited]
    exact Node.withGas_agreesUpToGas _ _
  · exact forall₂_settledBelow isShownBy_takeShare _ [] 0 calls

/-- A root is charged with the gas that its exit reports, if it reports any. -/
theorem root_gas_charged {tree : CallTree} {root : Node}
    (hroot : (tree.charged.settledTrace none [])[0]? = some root)
    (hkind : root.action.kind ≠ .selfDestruct) :
    root.action.gas =
      if 0 < tree.completion.gasUsed then tree.completion.gasUsed else tree.frame.gas := by
  obtain ⟨frame, isReverted, completion, calls⟩ := tree
  obtain rfl := Option.some.inj hroot
  refine (Frame.gas_finalAction hkind).trans ?_
  change (if completion.gasUsed = 0 then frame.gas else completion.gasUsed) =
    if 0 < completion.gasUsed then completion.gasUsed else frame.gas
  by_cases hgas : completion.gasUsed = 0
  · rw [if_pos hgas, if_neg (by simp [hgas])]
  · rw [if_neg hgas, if_pos (UInt64.pos_iff_ne_zero.mpr hgas)]

theorem sharesGasWith_charged (tree : CallTree) : ∀ upper lower parent node,
    IsChild ((tree.charged.settledTrace none []).map Node.level) upper lower →
      (tree.charged.settledTrace none [])[upper]? = some parent →
      (tree.charged.settledTrace none [])[lower]? = some node → parent.SharesGasWith node := by
  rw [levels_settledTrace]
  exact sharesGasWith_settledTrace none [] tree.charged

theorem sharesOutGas (tree : CallTree) :
    SharesOutGas tree (tree.charged.settledTrace none []) where
  shown := tree.isShownBy_charged
  root_gas _ := root_gas_charged
  has_parent place hplace := by
    rw [levels_settledTrace]
    rw [length_settledTrace] at hplace
    exact exists_isChild 0 place _ hplace
  shares := tree.sharesGasWith_charged
  failed_gas := by
    cases tree with
    | node _ _ _ calls => exact forall₂_settledBelow keepsGasIfFailed_takeShare _ [] 0 calls
  selfDestruct_gas _ _ := Action.gas_of_selfDestruct
  descent _ := gasAt_add_gasUsedAlong tree.sharesGasWith_charged

end CallTree

/-- The exit of the only open frame completes a root. -/
theorem Forest.exists_root_of_exit {forest : Forest} (hdepth : Builder.depth forest = 1)
    (completion : Completion) :
    ∃ tree, (Builder.run forest [.exit completion]).roots.getLast? = some tree ∧
      tree.completion = completion := by
  obtain ⟨call, hopen⟩ := List.length_eq_one_iff.mp hdepth
  have hexit : Builder.apply forest (.exit completion) =
      .ok ({ forest with openCalls := [] }.addTree (call.exit completion)) :=
    exit_of_cons hopen completion
  refine ⟨call.exit completion, ?_, rfl⟩
  rw [Builder.run_singleton_of_apply hexit, addTree_of_nil rfl]
  exact List.getLast?_concat

/-- After any events, the gas in the trace that the deferred builder has written out is
shared out from the root down, whatever the tree of the last root that has closed.  A root
closes whenever the only open frame exits. -/
theorem deferred_shares_out_gas (settings : Settings) (context : Context) (events : List Event) :
    let forest := Builder.run (Forest.empty settings context) events
    let deferred := Builder.run (Deferred.empty settings context) events
    (∀ tree, forest.roots.getLast? = some tree →
      SharesOutGas tree (Builder.trace deferred).nodes) ∧
    ∀ completion, Builder.depth deferred = 1 →
      ∃ tree, (Builder.run forest [.exit completion]).roots.getLast? = some tree ∧
        tree.completion = completion := by
  intro forest deferred
  have hdeferred : deferred = Deferred.ofForest forest :=
    Deferred.run_eq_ofForest settings context events
  constructor
  · intro tree hroot
    have hnodes : (Builder.trace deferred).nodes = tree.charged.settledTrace none [] := by
      rw [hdeferred]
      change forest.lastSettled = _
      rw [Forest.lastSettled, hroot]
      rfl
    rw [hnodes]
    exact tree.sharesOutGas
  · intro completion hdepth
    rw [hdeferred, Deferred.morphism_ofForest.depth_map] at hdepth
    exact Forest.exists_root_of_exit hdepth completion

/-- A call in a call, one that uses more than its parent has, one that fails and a
self-destruct. -/
theorem deferred_shares_out_gas_of_nested_calls :
    let call (gas : UInt64) : Frame := .ofCall .call default default [] gas 0
    let events : List Event :=
      [.start (call 100000), .enter (call 60000), .enter (call 20000),
        .exit (.success [] 5000), .exit (.success [] 10000), .enter (call 30000),
        .exit (.success [] 50000), .enter (call 7000), .exit (.failure "out of gas" 7000),
        .enter (.ofDestruction default default 1), .exit default, .exit (.success [] 40000)]
    let forest := Builder.run (Forest.empty default default) events
    let nodes := (Builder.trace (Builder.run (Deferred.empty default default) events)).nodes
    (∃ tree, forest.roots.getLast? = some tree ∧ SharesOutGas tree nodes) ∧
      nodes.map (fun node => node.action.gas) = [40000, 30000, 25000, 50000, 7000, 0] ∧
      [0, 1, 2].IsChain (IsChild (nodes.map Node.level)) ∧
      gasAt nodes 2 + (10000 + 5000) = gasAt nodes 0 := by
  intro call events forest nodes
  obtain ⟨tree, hroot⟩ : ∃ tree, forest.roots.getLast? = some tree := ⟨_, rfl⟩
  have hshares : SharesOutGas tree nodes :=
    (deferred_shares_out_gas default default events).1 tree hroot
  have hchain : [0, 1, 2].IsChain (IsChild (nodes.map Node.level)) := by decide +kernel
  have hused : gasUsedAlong nodes [1, 2] = 10000 + 5000 := by decide +kernel
  have hdescent := hshares.descent [1, 2] hchain (by decide +kernel) (by decide +kernel)
  rw [hused] at hdescent
  exact ⟨⟨tree, hroot, hshares⟩, by decide +kernel, hchain, hdescent⟩

end CallTrace
