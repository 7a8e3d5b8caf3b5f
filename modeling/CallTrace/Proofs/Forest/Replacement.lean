import CallTrace.Proofs.Builder.Bisimulation
import CallTrace.Proofs.Forest.Arena
import CallTrace.Proofs.Forest.Basic

/-!
# A call tree in the place of another

Two forests that are the same but for one complete call tree stay so whatever happens to
both of them: the tree is never looked into again.  So their traces are the same around
the traces of the two trees.
-/

namespace CallTrace

/-- Whether two traces are the same around two parts that begin at a given place. -/
def SameAround (place : Nat) (part otherPart nodes others : List Node) : Prop :=
  ∃ before after, before.length = place ∧ nodes = before ++ (part ++ after) ∧
    others = before ++ (otherPart ++ after)

namespace SameAround

variable {place : Nat} {part otherPart nodes others : List Node}

theorem refl (part otherPart : List Node) : SameAround 0 part otherPart part otherPart :=
  ⟨[], [], rfl, (List.append_nil part).symm, (List.append_nil otherPart).symm⟩

theorem append_left (hsame : SameAround place part otherPart nodes others) (first : List Node) :
    SameAround (first.length + place) part otherPart (first ++ nodes) (first ++ others) := by
  obtain ⟨before, after, rfl, rfl, rfl⟩ := hsame
  refine ⟨first ++ before, after, List.length_append, ?_, ?_⟩ <;> simp

theorem append_right (hsame : SameAround place part otherPart nodes others) (last : List Node) :
    SameAround place part otherPart (nodes ++ last) (others ++ last) := by
  obtain ⟨before, after, rfl, rfl, rfl⟩ := hsame
  refine ⟨before, after ++ last, rfl, ?_, ?_⟩ <;> simp

theorem cons (hsame : SameAround place part otherPart nodes others) (first : Node) :
    SameAround (place + 1) part otherPart (first :: nodes) (first :: others) := by
  rw [Nat.add_comm]
  exact hsame.append_left [first]

/-- Within the parts, the traces are the parts. -/
theorem getElem?_add (hsame : SameAround place part otherPart nodes others) {index : Nat}
    (hindex : index < part.length) (hother : index < otherPart.length) :
    nodes[place + index]? = part[index]? ∧ others[place + index]? = otherPart[index]? := by
  obtain ⟨before, after, rfl, rfl, rfl⟩ := hsame
  rw [List.getElem?_append_right (Nat.le_add_right _ _), Nat.add_sub_cancel_left,
    List.getElem?_append_right (Nat.le_add_right _ _), Nat.add_sub_cancel_left]
  exact ⟨List.getElem?_append_left hindex, List.getElem?_append_left hother⟩

/-- Before and behind parts of the same length, the traces are the same. -/
theorem getElem?_eq (hsame : SameAround place part otherPart nodes others)
    (hlength : part.length = otherPart.length) {index : Nat}
    (hindex : index < place ∨ place + part.length ≤ index) : nodes[index]? = others[index]? := by
  obtain ⟨before, after, rfl, rfl, rfl⟩ := hsame
  rcases hindex with hbefore | hbehind
  · rw [List.getElem?_append_left hbefore, List.getElem?_append_left hbefore]
  · obtain ⟨index, rfl⟩ := Nat.exists_eq_add_of_le hbehind
    rw [← List.append_assoc, ← List.append_assoc, ← List.length_append,
      List.getElem?_append_right (Nat.le_add_right _ _), Nat.add_sub_cancel_left,
      List.length_append, hlength, ← List.length_append,
      List.getElem?_append_right (Nat.le_add_right _ _), Nat.add_sub_cancel_left]

theorem length_eq (hsame : SameAround place part otherPart nodes others)
    (hlength : part.length = otherPart.length) : nodes.length = others.length := by
  obtain ⟨before, after, rfl, rfl, rfl⟩ := hsame
  simp [hlength]

end SameAround

namespace CallTree

mutual

/-- Whether two trees are the same but for the trees at a place, which are the first and
the second of the given ones. -/
inductive Replaced (first second : CallTree) : Nat → CallTree → CallTree → Prop
  | here : Replaced first second 0 first second
  | inside {place : Nat} {calls others : List CallTree} (frame : Frame) (isReverted : Bool)
      (completion : Completion) (hbelow : ReplacedBelow first second place calls others) :
      Replaced first second (place + 1) (.node frame isReverted completion calls)
        (.node frame isReverted completion others)

/-- Whether this is so for one of several trees, the others of which are the same. -/
inductive ReplacedBelow (first second : CallTree) : Nat → List CallTree → List CallTree → Prop
  | head {place : Nat} {tree other : CallTree} (trees : List CallTree)
      (htree : Replaced first second place tree other) :
      ReplacedBelow first second place (tree :: trees) (other :: trees)
  | tail {place : Nat} {trees others : List CallTree} (tree : CallTree)
      (htrees : ReplacedBelow first second place trees others) :
      ReplacedBelow first second (tree.size + place) (tree :: trees) (tree :: others)

end

variable {first second : CallTree}

namespace ReplacedBelow

theorem length_eq {place : Nat} {trees others : List CallTree} :
    ReplacedBelow first second place trees others → trees.length = others.length
  | head _ _ => rfl
  | tail _ htrees => congrArg Nat.succ htrees.length_eq

theorem append_right {place : Nat} {trees others : List CallTree} (last : List CallTree) :
    ReplacedBelow first second place trees others →
      ReplacedBelow first second place (trees ++ last) (others ++ last)
  | head trees htree => .head (trees ++ last) htree
  | tail tree htrees => .tail tree (htrees.append_right last)

theorem append_left {place : Nat} {trees others : List CallTree}
    (htrees : ReplacedBelow first second place trees others) (before : List CallTree) :
    ReplacedBelow first second (totalSize before + place) (before ++ trees)
      (before ++ others) := by
  induction before with
  | nil => simpa [totalSize] using htrees
  | cons tree before ih =>
      rw [totalSize, Nat.add_assoc]
      exact .tail tree ih

end ReplacedBelow

mutual

/-- The traces of the trees are the same around those of the trees that differ. -/
theorem Replaced.sameAround_trace {place : Nat} {tree other : CallTree} (path : Path) :
    Replaced first second place tree other →
      ∃ inner, SameAround place (first.trace inner) (second.trace inner) (tree.trace path)
        (other.trace path)
  | .here => ⟨path, .refl _ _⟩
  | .inside frame isReverted completion hbelow => by
      obtain ⟨inner, hsame⟩ := hbelow.sameAround_traceBelow path 0
      simp only [trace]
      rw [← hbelow.length_eq]
      exact ⟨inner, hsame.cons _⟩

theorem ReplacedBelow.sameAround_traceBelow {place : Nat} {trees others : List CallTree}
    (path : Path) (count : Nat) :
    ReplacedBelow first second place trees others →
      ∃ inner, SameAround place (first.trace inner) (second.trace inner)
        (traceBelow path count trees) (traceBelow path count others)
  | .head trees htree => by
      obtain ⟨inner, hsame⟩ := htree.sameAround_trace (path ++ [UInt32.ofNat count])
      exact ⟨inner, hsame.append_right _⟩
  | .tail tree htrees => by
      obtain ⟨inner, hsame⟩ := htrees.sameAround_traceBelow path (count + 1)
      rw [← length_trace (path ++ [UInt32.ofNat count]) tree]
      exact ⟨inner, hsame.append_left _⟩

end

mutual

/-- The gas of a frame does not depend on the calls made in it, so the settled traces are
the same around those of the trees that differ, too. -/
theorem Replaced.sameAround_settledTrace {place : Nat} {tree other : CallTree}
    (parentGas? : Option UInt64) (path : Path) :
    Replaced first second place tree other →
      ∃ gas? inner, SameAround place (first.settledTrace gas? inner)
        (second.settledTrace gas? inner) (tree.settledTrace parentGas? path)
        (other.settledTrace parentGas? path)
  | .here => ⟨parentGas?, path, .refl _ _⟩
  | .inside frame isReverted completion hbelow => by
      simp only [settledTrace]
      rw [← hbelow.length_eq]
      obtain ⟨gas?, inner, hsame⟩ := hbelow.sameAround_settledBelow _ path 0
      exact ⟨gas?, inner, hsame.cons _⟩

theorem ReplacedBelow.sameAround_settledBelow {place : Nat} {trees others : List CallTree}
    (gas : UInt64) (path : Path) (count : Nat) :
    ReplacedBelow first second place trees others →
      ∃ gas? inner, SameAround place (first.settledTrace gas? inner)
        (second.settledTrace gas? inner) (settledBelow gas path count trees)
        (settledBelow gas path count others)
  | .head trees htree => by
      obtain ⟨gas?, inner, hsame⟩ :=
        htree.sameAround_settledTrace (some gas) (path ++ [UInt32.ofNat count])
      exact ⟨gas?, inner, hsame.append_right _⟩
  | .tail tree htrees => by
      obtain ⟨gas?, inner, hsame⟩ := htrees.sameAround_settledBelow gas path (count + 1)
      rw [← length_settledTrace (some gas) (path ++ [UInt32.ofNat count]) tree]
      exact ⟨gas?, inner, hsame.append_left _⟩

end

/-- The traces of complete roots one after the other. -/
theorem ReplacedBelow.sameAround_flatMap_trace {place : Nat} {trees others : List CallTree} :
    ReplacedBelow first second place trees others →
      ∃ inner, SameAround place (first.trace inner) (second.trace inner)
        (trees.flatMap (trace [])) (others.flatMap (trace []))
  | .head trees htree => by
      obtain ⟨inner, hsame⟩ := htree.sameAround_trace []
      exact ⟨inner, hsame.append_right _⟩
  | .tail tree htrees => by
      obtain ⟨inner, hsame⟩ := htrees.sameAround_flatMap_trace
      rw [← length_trace [] tree]
      exact ⟨inner, hsame.append_left _⟩

end CallTree

namespace OpenCall

/-- Whether nested open frames, given innermost first, are the same but for the trees at a
place among the calls that were made in one of them. -/
inductive ReplacedAmong (first second : CallTree) : Nat → List OpenCall → List OpenCall → Prop
  | head {place : Nat} {calls others : List CallTree} (frame : Frame) (isReverted : Bool)
      (outer : List OpenCall) (hcalls : CallTree.ReplacedBelow first second place calls others) :
      ReplacedAmong first second (totalSize outer + (place + 1))
        (⟨frame, isReverted, calls⟩ :: outer) (⟨frame, isReverted, others⟩ :: outer)
  | tail {place : Nat} {outer others : List OpenCall} (call : OpenCall)
      (houter : ReplacedAmong first second place outer others) :
      ReplacedAmong first second place (call :: outer) (call :: others)

variable {first second : CallTree}

namespace ReplacedAmong

variable {place : Nat} {calls others : List OpenCall}

theorem nextPath_eq (hcalls : ReplacedAmong first second place calls others) :
    nextPath calls = nextPath others := by
  induction hcalls with
  | head frame isReverted outer hbelow =>
      exact congrArg (fun count => nextPath outer ++ [UInt32.ofNat count]) hbelow.length_eq
  | tail call houter ih => exact congrArg (· ++ [UInt32.ofNat call.calls.length]) ih

/-- A call that exits in the innermost of the open frames is the same in both. -/
theorem addCall {call otherCall : OpenCall} {outer otherOuter : List OpenCall}
    (hcalls : ReplacedAmong first second place (call :: outer) (otherCall :: otherOuter))
    (tree : CallTree) :
    ReplacedAmong first second place (call.addCall tree :: outer)
      (otherCall.addCall tree :: otherOuter) := by
  cases hcalls with
  | head frame isReverted outer hbelow =>
      exact .head frame isReverted outer (hbelow.append_right [tree])
  | tail call houter => exact .tail (call.addCall tree) houter

theorem revert (hcalls : ReplacedAmong first second place calls others) :
    ReplacedAmong first second place (calls.modifyHead OpenCall.revert)
      (others.modifyHead OpenCall.revert) := by
  cases hcalls with
  | head frame isReverted outer hbelow => exact .head frame true outer hbelow
  | tail call houter => exact .tail call.revert houter

theorem sameAround_traceAll (hcalls : ReplacedAmong first second place calls others)
    (isCalling : Bool) :
    ∃ inner, SameAround place (first.trace inner) (second.trace inner)
      (traceAll isCalling calls) (traceAll isCalling others) := by
  induction hcalls generalizing isCalling with
  | head frame isReverted outer hbelow =>
      obtain ⟨inner, hsame⟩ := hbelow.sameAround_traceBelow (nextPath outer) 0
      simp only [traceAll, trace, node, callCount]
      rw [← hbelow.length_eq, ← length_traceAll true outer]
      exact ⟨inner, (hsame.cons _).append_left _⟩
  | tail call houter ih =>
      obtain ⟨inner, hsame⟩ := ih true
      simp only [traceAll]
      rw [← houter.nextPath_eq]
      exact ⟨inner, hsame.append_right _⟩

end ReplacedAmong

end OpenCall

namespace Forest

variable {first second : CallTree} {place : Nat}

/-- Whether two forests are the same but for the trees at a place, or the same altogether
because these trees have been dropped. -/
inductive Replaced (first second : CallTree) (place : Nat) : Forest → Forest → Prop
  | dropped (forest : Forest) : Replaced first second place forest forest
  | root {roots others : List CallTree} (settings : Settings) (context : Context)
      (openCalls : List OpenCall)
      (hroots : CallTree.ReplacedBelow first second place roots others) :
      Replaced first second place ⟨settings, context, roots, openCalls⟩
        ⟨settings, context, others, openCalls⟩
  | openCall {inner : Nat} {calls others : List OpenCall} (settings : Settings)
      (context : Context) (roots : List CallTree)
      (hcalls : OpenCall.ReplacedAmong first second inner calls others)
      (hplace : CallTree.totalSize roots + inner = place) :
      Replaced first second place ⟨settings, context, roots, calls⟩
        ⟨settings, context, roots, others⟩

/-- The trees at a place are added to the same forest. -/
theorem replaced_addTree (forest : Forest) {inner : Nat} {tree other : CallTree}
    (htree : CallTree.Replaced first second inner tree other) :
    Replaced first second (forest.rootSize + OpenCall.totalSize forest.openCalls + inner)
      (forest.addTree tree) (forest.addTree other) := by
  cases hopen : forest.openCalls with
  | nil =>
      rw [addTree_of_nil hopen, addTree_of_nil hopen]
      exact .root _ _ _ ((CallTree.ReplacedBelow.head [] htree).append_left forest.roots)
  | cons call outer =>
      rw [addTree_of_cons hopen, addTree_of_cons hopen]
      have hcalls := (CallTree.ReplacedBelow.head [] htree).append_left call.calls
      refine .openCall _ _ _ (.head call.frame call.isReverted outer hcalls) ?_
      simp only [rootSize, OpenCall.totalSize, OpenCall.size]
      omega

/-- The same tree is added to forests that are the same but for the trees at a place. -/
theorem Replaced.addTree {forest other : Forest}
    (hforest : Replaced first second place forest other) (tree : CallTree) :
    Replaced first second place (forest.addTree tree) (other.addTree tree) := by
  cases hforest with
  | dropped => exact .dropped _
  | root settings context openCalls hroots =>
      cases openCalls with
      | nil => exact .root settings context [] (hroots.append_right [tree])
      | cons call outer => exact .root settings context (call.addCall tree :: outer) hroots
  | @openCall inner calls others settings context roots hcalls hplace =>
      cases calls with
      | nil => cases hcalls
      | cons call outer =>
          cases others with
          | nil => cases hcalls
          | cons otherCall others =>
              exact .openCall settings context roots (hcalls.addCall tree) hplace

theorem Replaced.openFrame {forest other : Forest}
    (hforest : Replaced first second place forest other) (frame : Frame) :
    Replaced first second place (forest.openFrame frame) (other.openFrame frame) := by
  cases hforest with
  | dropped => exact .dropped _
  | root settings context openCalls hroots => exact .root settings context _ hroots
  | openCall settings context roots hcalls hplace =>
      exact .openCall settings context roots (.tail (.fresh frame) hcalls) hplace

theorem Replaced.revert {forest other : Forest}
    (hforest : Replaced first second place forest other) :
    Replaced first second place forest.revert other.revert := by
  cases hforest with
  | dropped => exact .dropped _
  | root settings context openCalls hroots => exact .root settings context _ hroots
  | openCall settings context roots hcalls hplace =>
      exact .openCall settings context roots hcalls.revert hplace

/-- A frame that exits takes the trees at the place with it if they are among its calls. -/
theorem Replaced.closeFrame? {forest other : Forest}
    (hforest : Replaced first second place forest other) (completion : Completion) :
    Option.Rel (Replaced first second place) (forest.closeFrame? completion)
      (other.closeFrame? completion) := by
  cases hforest with
  | dropped =>
      cases forest.closeFrame? completion with
      | none => exact .none
      | some next => exact .some (.dropped next)
  | @root roots others settings context openCalls hroots =>
      cases openCalls with
      | nil => exact .none
      | cons call outer =>
          exact .some ((Replaced.root settings context outer hroots).addTree _)
  | openCall settings context roots hcalls hplace =>
      cases hcalls with
      | head frame isReverted outer hbelow =>
          -- The trees are now inside the one that the frame becomes, one place further in.
          have hadded := replaced_addTree ⟨settings, context, roots, outer⟩
            (.inside frame isReverted completion hbelow)
          rw [← Nat.add_assoc] at hplace
          exact .some (hplace ▸ hadded)
      | tail call houter =>
          exact .some ((Replaced.openCall settings context roots houter hplace).addTree _)

theorem Replaced.settings_eq {forest other : Forest}
    (hforest : Replaced first second place forest other) : forest.settings = other.settings := by
  cases hforest <;> rfl

/-- Whatever happens to both forests, they stay the same but for the trees at the place. -/
theorem bisimulation_replaced (first second : CallTree) (place : Nat) :
    Builder.Bisimulation (Replaced first second place) where
  settings_eq _ _ hforest := hforest.settings_eq
  openFrame_related _ _ frame hforest := hforest.openFrame frame
  closeFrame?_related _ _ completion hforest := hforest.closeFrame? completion
  revert_related _ _ hforest := hforest.revert
  reset_related forest other context hforest := by
    change Replaced first second place (empty forest.settings context)
      (empty other.settings context)
    rw [hforest.settings_eq]
    exact .dropped _

/-- The traces of the forests are the same around those of the trees. -/
theorem Replaced.sameAround_nodes {forest other : Forest}
    (hforest : Replaced first second place forest other) :
    forest.nodes = other.nodes ∨
      ∃ inner, SameAround place (first.trace inner) (second.trace inner) forest.nodes
        other.nodes := by
  cases hforest with
  | dropped => exact .inl rfl
  | root settings context openCalls hroots =>
      obtain ⟨inner, hsame⟩ := hroots.sameAround_flatMap_trace
      exact .inr ⟨inner, hsame.append_right _⟩
  | openCall settings context roots hcalls hplace =>
      obtain ⟨inner, hsame⟩ := hcalls.sameAround_traceAll false
      have hroots : (rootNodes ⟨settings, context, roots, []⟩).length = CallTree.totalSize roots :=
        length_rootNodes _
      refine .inr ⟨inner, ?_⟩
      rw [← hplace, ← hroots]
      exact hsame.append_left _

end Forest

end CallTrace
