import CallTrace.Proofs.Bytes.Digits
import CallTrace.Proofs.Precheck.Checks

/-!
# The operands of rejected frames

An opcode that opens a frame finds the operands of the frame at fixed positions of the
stack: a value, a target, and a range of memory.  Here these are read as numbers of any
size, from the bottom of the stack, and the range is a part of the memory or nothing.

Ranges are looked up with the nearest 64-bit numbers.  That never shows: where a word is
not its nearest number, the range lies outside the memory either way.
-/

namespace CallTrace

/-- What is read of a memory: as many bytes as wanted from the offset on if they are all
there, and none otherwise. -/
structure Bytes.IsRead (memory : Bytes) (offset size : Nat) (part : Bytes) : Prop where
  of_within : 0 < size → offset + size ≤ memory.length →
    ∃ before after, memory = before ++ part ++ after ∧ before.length = offset ∧ part.length = size
  of_outside : ¬ (0 < size ∧ offset + size ≤ memory.length) → part = []

/-- The word at a position counted from the top of the stack, zero beyond the bottom. -/
def Scope.wordAt (scope : Scope) (position : Nat) : Word :=
  if hposition : position < scope.stack.length then
    scope.stack[scope.stack.length - 1 - position]
  else
    0

theorem Scope.peek_eq_wordAt (scope : Scope) (position : Nat) :
    scope.peek position = scope.wordAt position := by
  unfold peek peek? wordAt
  by_cases hposition : position < scope.stack.length
  · rw [dif_pos hposition, List.getElem?_reverse hposition, List.getElem?_eq_getElem (by omega)]
    rfl
  · rw [dif_neg hposition, List.getElem?_eq_none (by simpa using hposition)]
    rfl

/-- An address is the low 160 bits of the word that it is taken from. -/
theorem Address.toNat_ofWord (word : Word) :
    (Address.ofWord word).bytes.toNat = word.toNat % 2 ^ 160 :=
  Bytes.toNat_ofNatPadded 20 word.toNat

theorem Word.toNat_clamp (word : Word) :
    (Word.clamp word).toNat = min word.toNat (UInt64.size - 1) := by
  unfold clamp
  split
  · next hword =>
    rw [UInt64.toNat_ofNat_of_lt' hword, Nat.min_eq_left (Nat.le_sub_one_of_lt hword)]
  · next hword =>
    rw [UInt64.toNat_ofNat_of_lt' (by decide), Nat.min_eq_right]
    exact Nat.le_trans (Nat.sub_le _ _) (Nat.le_of_not_lt hword)

namespace Bytes

/-- A range of 64-bit numbers is read as it is, since no memory is larger than that. -/
theorem isRead_range {memory : Bytes} (hmemory : memory.length < UInt64.size)
    (offset size : UInt64) : memory.IsRead offset.toNat size.toNat (memory.range offset size) := by
  have hzero : size = 0 ↔ size.toNat = 0 := by
    rw [← UInt64.toNat_inj]
    exact Iff.rfl
  constructor
  · intro hsize hwithin
    have hrange : memory.range offset size = (memory.drop offset.toNat).take size.toNat := by
      simp only [range, hzero]
      rw [if_neg (by omega), if_neg (by omega), if_neg (by omega)]
    rw [hrange]
    refine ⟨memory.take offset.toNat, (memory.drop offset.toNat).drop size.toNat, ?_, ?_, ?_⟩
    · rw [List.append_assoc, List.take_append_drop, List.take_append_drop]
    · rw [List.length_take]
      omega
    · rw [List.length_take, List.length_drop]
      omega
  · intro houtside
    simp only [range, hzero]
    split
    · rfl
    · split
      · rfl
      · rw [if_pos (by omega)]

/-- The nearest 64-bit numbers of two words are as good as the words. -/
theorem isRead_range_clamp {memory : Bytes} (hmemory : memory.length < 2 ^ 63)
    (offset size : Word) :
    memory.IsRead offset.toNat size.toNat (memory.range offset.clamp size.clamp) := by
  have hlimit : memory.length < UInt64.size - 1 := Nat.lt_trans hmemory (by decide)
  have hread := isRead_range (Nat.lt_of_lt_of_le hlimit (Nat.sub_le _ _)) offset.clamp size.clamp
  rw [Word.toNat_clamp, Word.toNat_clamp] at hread
  constructor
  · intro hsize hwithin
    rw [Nat.min_eq_left (by omega), Nat.min_eq_left (by omega)] at hread
    exact hread.of_within hsize hwithin
  · intro houtside
    apply hread.of_outside
    omega

end Bytes

namespace Precheck

/-- What an opcode opens, and the positions of the stack that hold the operands.  Without
a position, the value is zero and the target is left open. -/
structure Layout where
  kind : Kind
  value : Option Nat
  target : Option Nat
  offset : Nat
  size : Nat

/-- The layout of a call-like opcode. -/
def layout (opcode : UInt8) : Layout :=
  match opcode with
  | 0xf0 | 0xf5 => ⟨.create, some 0, none, 1, 2⟩
  | 0xf1 => ⟨.call .call, some 2, some 1, 3, 4⟩
  | 0xf2 => ⟨.call .callCode, some 2, some 1, 3, 4⟩
  | 0xf4 => ⟨.call .delegateCall, none, some 1, 2, 3⟩
  | _ => ⟨.call .staticCall, none, some 1, 2, 3⟩

/-- A creation does not know its address from the stack. -/
theorem layout_target_of_create {opcode : UInt8} (hkind : (layout opcode).kind = .create) :
    (layout opcode).target = none := by
  unfold layout at hkind ⊢
  split at hkind
  case h_1 | h_2 => rfl
  all_goals cases hkind

/-- A frame that the running contract asks for with the operands on its stack. -/
structure Layout.Carries (layout : Layout) (scope : Scope) (frame : Frame) : Prop where
  kind_eq : frame.kind = layout.kind
  sender_eq : frame.sender = scope.contract
  value_eq : frame.value = layout.value.elim 0 scope.wordAt
  target_of_position : ∀ position, layout.target = some position →
    ∃ address : Address, frame.target = some address ∧
      address.bytes.toNat = (scope.wordAt position).toNat % 2 ^ 160
  input_isRead : scope.memory.IsRead (scope.wordAt layout.offset).toNat
    (scope.wordAt layout.size).toNat frame.input

/-- A target that is left open may be anything. -/
theorem Layout.Carries.withTarget {layout : Layout} {scope : Scope} {frame : Frame}
    (hcarries : layout.Carries scope frame) (hlayout : layout.target = none)
    (target : Option Address) : layout.Carries scope { frame with target } where
  kind_eq := hcarries.kind_eq
  sender_eq := hcarries.sender_eq
  value_eq := hcarries.value_eq
  target_of_position := by
    intro position hposition
    rw [hlayout] at hposition
    cases hposition
  input_isRead := hcarries.input_isRead

section

variable {scope : Scope}

theorem isRead_memoryOperand (hmemory : scope.memory.length < 2 ^ 63)
    (offsetPosition sizePosition : Nat) :
    scope.memory.IsRead (scope.wordAt offsetPosition).toNat (scope.wordAt sizePosition).toNat
      (scope.memoryOperand offsetPosition sizePosition) := by
  unfold Scope.memoryOperand
  rw [Scope.peek_eq_wordAt, Scope.peek_eq_wordAt]
  exact Bytes.isRead_range_clamp hmemory _ _

theorem target_of_peek (position : Nat) :
    ∃ address : Address, some (Address.ofWord (scope.peek position)) = some address ∧
      address.bytes.toNat = (scope.wordAt position).toNat % 2 ^ 160 := by
  refine ⟨_, rfl, ?_⟩
  rw [Scope.peek_eq_wordAt]
  exact Address.toNat_ofWord _

theorem carries_paidCall (hmemory : scope.memory.length < 2 ^ 63) (variant : CallVariant)
    (gas : UInt64) :
    Layout.Carries ⟨.call variant, some 2, some 1, 3, 4⟩ scope
      (Opening.paidCall variant scope gas) where
  kind_eq := rfl
  sender_eq := rfl
  value_eq := scope.peek_eq_wordAt 2
  target_of_position := by
    rintro position ⟨⟩
    exact target_of_peek 1
  input_isRead := isRead_memoryOperand hmemory 3 4

theorem carries_freeCall (hmemory : scope.memory.length < 2 ^ 63) (variant : CallVariant)
    (gas : UInt64) :
    Layout.Carries ⟨.call variant, none, some 1, 2, 3⟩ scope
      (Opening.freeCall variant scope gas) where
  kind_eq := rfl
  sender_eq := rfl
  value_eq := rfl
  target_of_position := by
    rintro position ⟨⟩
    exact target_of_peek 1
  input_isRead := isRead_memoryOperand hmemory 2 3

theorem carries_creation (hmemory : scope.memory.length < 2 ^ 63) (gas : UInt64) :
    Layout.Carries ⟨.create, some 0, none, 1, 2⟩ scope (Opening.create.frame scope gas) where
  kind_eq := rfl
  sender_eq := rfl
  value_eq := scope.peek_eq_wordAt 0
  target_of_position := by
    rintro position ⟨⟩
  input_isRead := isRead_memoryOperand hmemory 1 2

/-- The frame that an opcode asks for carries the operands on the stack. -/
theorem carries_frame {opcode : UInt8} {opening : Opening}
    (hmemory : scope.memory.length < 2 ^ 63)
    (hopening : Opening.ofOpcode? opcode = some opening) (gas : UInt64) :
    (layout opcode).Carries scope (opening.frame scope gas) := by
  unfold Opening.ofOpcode? at hopening
  split at hopening <;> cases hopening
  · exact carries_creation hmemory gas
  · exact carries_paidCall hmemory .call gas
  · exact carries_paidCall hmemory .callCode gas
  · exact carries_freeCall hmemory .delegateCall gas
  · exact carries_creation hmemory gas
  · exact carries_freeCall hmemory .staticCall gas

end

/-- An inquiry about a frame that rejects it as it is, and not for its address, about which
it does not ask. -/
structure KeepsTarget (frame : Frame) (inquiry : Inquiry (Option Rejection)) : Prop where
  frame_eq : ∀ state rejection, inquiry.result state = some rejection →
    rejection.frame = frame ∧ rejection.failure ≠ .addressCollision
  isOccupied_notMem : ∀ state address, .isOccupied address ∉ inquiry.questions state

/-- An inquiry about a frame that fills in its target if that is what it rejects it for:
the one address that it asks about. -/
structure FillsTarget (frame : Frame) (inquiry : Inquiry (Option Rejection)) : Prop where
  frame_eq : ∀ state rejection, inquiry.result state = some rejection →
    rejection.failure ≠ .addressCollision → rejection.frame = frame
  frame_of_collision : ∀ state rejection, inquiry.result state = some rejection →
    rejection.failure = .addressCollision →
    ∃ address, rejection.frame = { frame with target := some address } ∧
      ∀ other, .isOccupied other ∈ inquiry.questions state ↔ other = address

namespace KeepsTarget

variable {frame : Frame} {first second : Inquiry (Option Rejection)}

theorem done {rejection? : Option Rejection}
    (hrejection : ∀ rejection, rejection? = some rejection →
      rejection.frame = frame ∧ rejection.failure ≠ .addressCollision) :
    KeepsTarget frame (.done rejection?) where
  frame_eq _ := hrejection
  isOccupied_notMem _ _ := List.not_mem_nil

theorem orElse (hfirst : KeepsTarget frame first) (hsecond : KeepsTarget frame second) :
    KeepsTarget frame (first.orElse second) where
  frame_eq state rejection hresult := by
    rw [Inquiry.result_orElse, Option.or_eq_some_iff] at hresult
    rcases hresult with hresult | ⟨-, hresult⟩
    · exact hfirst.frame_eq state rejection hresult
    · exact hsecond.frame_eq state rejection hresult
  isOccupied_notMem state address := by
    rw [Inquiry.questions_orElse, List.mem_append, not_or]
    refine ⟨hfirst.isOccupied_notMem state address, ?_⟩
    split
    · exact List.not_mem_nil
    · exact hsecond.isOccupied_notMem state address

/-- Checks that come first are passed when the address is asked about. -/
theorem orElse_fills (hfirst : KeepsTarget frame first) (hsecond : FillsTarget frame second) :
    FillsTarget frame (first.orElse second) where
  frame_eq state rejection hresult hfailure := by
    rw [Inquiry.result_orElse, Option.or_eq_some_iff] at hresult
    rcases hresult with hresult | ⟨-, hresult⟩
    · exact (hfirst.frame_eq state rejection hresult).1
    · exact hsecond.frame_eq state rejection hresult hfailure
  frame_of_collision state rejection hresult hfailure := by
    rw [Inquiry.result_orElse, Option.or_eq_some_iff] at hresult
    rcases hresult with hresult | ⟨hpassed, hresult⟩
    · exact absurd hfailure (hfirst.frame_eq state rejection hresult).2
    · obtain ⟨address, hframe, hasked⟩ :=
        hsecond.frame_of_collision state rejection hresult hfailure
      refine ⟨address, hframe, ?_⟩
      intro other
      rw [Inquiry.questions_orElse, hpassed, List.mem_append, ← hasked other]
      exact or_iff_right (hfirst.isOccupied_notMem state other)

theorem checkReported (step : Step) (frame : Frame) :
    KeepsTarget frame (checkReported step frame) := by
  apply done
  intro rejection hrejection
  obtain ⟨message, -, rfl⟩ := Option.map_eq_some_iff.mp hrejection
  exact ⟨rfl, Failure.noConfusion⟩

theorem checkDepth (maxCallDepth : Nat) (step : Step) (frame : Frame) :
    KeepsTarget frame (checkDepth maxCallDepth step frame) := by
  apply done
  intro rejection hrejection
  rw [Option.ite_none_right_eq_some] at hrejection
  obtain ⟨-, ⟨⟩⟩ := hrejection
  exact ⟨rfl, Failure.noConfusion⟩

theorem checkBalance (frame : Frame) : KeepsTarget frame (checkBalance frame) := by
  unfold Precheck.checkBalance
  split
  · exact done (by simp)
  · refine ⟨?_, by simp [Inquiry.questions]⟩
    intro state rejection hresult
    rw [Inquiry.result, Inquiry.result, Option.ite_none_left_eq_some] at hresult
    obtain ⟨-, ⟨⟩⟩ := hresult
    exact ⟨rfl, Failure.noConfusion⟩

end KeepsTarget

namespace FillsTarget

theorem checkAddress (address : Address) (frame : Frame) :
    FillsTarget frame (checkAddress address frame) := by
  have hresult : ∀ state rejection,
      (Precheck.checkAddress address frame).result state = some rejection →
        rejection = ⟨{ frame with target := some address }, .addressCollision⟩ := by
    intro state rejection hresult
    rw [Precheck.checkAddress, Inquiry.result, Inquiry.result, Option.ite_none_right_eq_some]
      at hresult
    exact (Option.some.inj hresult.2).symm
  constructor
  · intro state rejection hrejection hfailure
    rw [hresult state rejection hrejection] at hfailure
    exact absurd rfl hfailure
  · intro state rejection hrejection _
    rw [hresult state rejection hrejection]
    refine ⟨address, rfl, ?_⟩
    simp [Precheck.checkAddress, Inquiry.questions]

/-- The nonce is asked for first. -/
theorem checkCreation (addressAt : UInt64 → Address) (frame : Frame) :
    FillsTarget frame (checkCreation addressAt frame) := by
  have hafter : ∀ nonce : UInt64, FillsTarget frame
      (if nonce.toNat = UInt64.size - 1 then .done (some ⟨frame, .nonceOverflow⟩)
        else Precheck.checkAddress (addressAt nonce) frame) := by
    intro nonce
    split
    · constructor
      · rintro state rejection ⟨⟩ -
        rfl
      · rintro state rejection ⟨⟩ ⟨⟩
    · exact checkAddress (addressAt nonce) frame
  constructor
  · intro state
    exact (hafter (state.nonce frame.sender)).frame_eq state
  · intro state rejection hresult hfailure
    obtain ⟨address, hframe, hasked⟩ :=
      (hafter (state.nonce frame.sender)).frame_of_collision state rejection hresult hfailure
    refine ⟨address, hframe, ?_⟩
    intro other
    rw [← hasked other, Precheck.checkCreation, Inquiry.questions, List.mem_cons]
    exact or_iff_right Question.noConfusion

/-- A target that was left open is filled in exactly if the address is in use. -/
theorem target_of_none {frame : Frame} {inquiry : Inquiry (Option Rejection)}
    (hfills : FillsTarget frame inquiry) (hopen : frame.target = none) {state : StateView}
    {rejection : Rejection} (hresult : inquiry.result state = some rejection) :
    rejection.frame = { frame with target := rejection.frame.target } ∧
      (rejection.frame.target.isSome ↔ rejection.failure = .addressCollision) ∧
      ∀ address, rejection.frame.target = some address →
        ∀ other, .isOccupied other ∈ inquiry.questions state ↔ other = address := by
  by_cases hfailure : rejection.failure = .addressCollision
  · obtain ⟨address, hframe, hasked⟩ := hfills.frame_of_collision state rejection hresult hfailure
    rw [hframe]
    refine ⟨rfl, iff_of_true rfl hfailure, ?_⟩
    rintro _ ⟨⟩
    exact hasked
  · have hframe := hfills.frame_eq state rejection hresult hfailure
    rw [hframe, hopen]
    refine ⟨?_, iff_of_false Bool.false_ne_true hfailure, ?_⟩
    · rw [← hopen]
    · rintro _ ⟨⟩

end FillsTarget

section

variable (maxCallDepth : Nat) (step : Step) (scope : Scope)

/-- A call is rejected as it was asked for. -/
theorem keepsTarget_check (variant : CallVariant) :
    KeepsTarget ((Opening.call variant).frame scope step.gas)
      (check maxCallDepth step (.call variant) scope) :=
  (KeepsTarget.checkReported step _).orElse <|
    (KeepsTarget.checkDepth maxCallDepth step _).orElse <|
      (KeepsTarget.checkBalance _).orElse (.done (by simp))

/-- A creation is rejected as it was asked for, or with its address. -/
theorem fillsTarget_check {opening : Opening}
    (hopening : opening = .create ∨ opening = .saltedCreate) :
    FillsTarget (opening.frame scope step.gas) (check maxCallDepth step opening scope) := by
  refine (KeepsTarget.checkReported step _).orElse_fills <|
    (KeepsTarget.checkDepth maxCallDepth step _).orElse_fills <|
      (KeepsTarget.checkBalance _).orElse_fills ?_
  rcases hopening with rfl | rfl
  · exact .checkCreation _ _
  · exact .checkCreation _ _

end

/-- A rejected frame carries the operands that its opcode has on the stack, whatever words
these are: its value, the low 160 bits of its target, and the range of memory if that is
there.  A rejected creation has a target if and only if its address is in use, and then it
is the one address that the state was asked about. -/
theorem rejected_frame_carries_operands (maxCallDepth : Nat) (step : Step) (scope : Scope)
    (rejection : Rejection) (hscope : step.scope = some scope)
    (hmemory : scope.memory.length < 2 ^ 63)
    (hrejection : rejection? maxCallDepth step = some rejection) :
    step.opcode ∈ callLike ∧
      (layout step.opcode).Carries scope rejection.frame ∧
      ((layout step.opcode).kind = .create →
        (rejection.frame.target.isSome ↔ rejection.failure = .addressCollision) ∧
        ∀ address, rejection.frame.target = some address →
          ∀ other, .isOccupied other ∈ questions maxCallDepth step ↔ other = address) := by
  obtain ⟨state, hstate, hresult⟩ := Option.bind_eq_some_iff.mp hrejection
  cases hopening : Opening.ofOpcode? step.opcode with
  | none =>
      simp only [inquiry, hscope, hopening] at hresult
      cases hresult
  | some opening =>
      have hinquiry : inquiry maxCallDepth step = check maxCallDepth step opening scope := by
        simp only [inquiry, hscope, hopening]
      have hcarries := carries_frame hmemory hopening step.gas
      rw [hinquiry] at hresult
      refine ⟨exists_opening_iff.mp ⟨opening, hopening⟩, ?_⟩
      rw [questions_of_state maxCallDepth hstate, hinquiry]
      by_cases hcreation : opening = .create ∨ opening = .saltedCreate
      · have hfills := fillsTarget_check maxCallDepth step scope hcreation
        have hfresh : (opening.frame scope step.gas).target = none ∧
            (opening.frame scope step.gas).kind = .create := by
          rcases hcreation with rfl | rfl <;> exact ⟨rfl, rfl⟩
        obtain ⟨hframe, htarget⟩ := hfills.target_of_none hfresh.1 hresult
        have hlayout := layout_target_of_create (hcarries.kind_eq.symm.trans hfresh.2)
        rw [hframe]
        exact ⟨hcarries.withTarget hlayout _, fun _ => htarget⟩
      · obtain ⟨variant, rfl⟩ : ∃ variant, opening = .call variant := by
          cases opening <;> simp at hcreation ⊢
        have hkeeps := keepsTarget_check maxCallDepth step scope variant
        rw [(hkeeps.frame_eq state rejection hresult).1]
        refine ⟨hcarries, ?_⟩
        intro hkind
        rw [← hcarries.kind_eq] at hkind
        cases variant <;> cases hkind

/-- A creation that is rejected for its address, with one byte of code at an offset beyond
all 64-bit numbers. -/
theorem rejected_frame_carries_operands_of_collision :
    let scope : Scope := ⟨default, [7, 1, 0x10000000000000000, 3], [0x60, 0x00]⟩
    let state : StateView := ⟨fun _ _ => true, fun _ => 5, fun _ => true⟩
    let step : Step := ⟨0xf5, 100, 2, none, some scope, some state⟩
    ∃ rejection, rejection? 1024 step = some rejection ∧
      scope.memory.length < 2 ^ 63 ∧
      rejection.frame.value = 3 ∧ rejection.frame.input = [] ∧
      ∃ address, rejection.frame.target = some address ∧
        ∀ other, .isOccupied other ∈ questions 1024 step ↔ other = address := by
  intro scope state step
  have hcollision : firstFailure? state (checks 1024 step scope) = some .addressCollision := rfl
  obtain ⟨frame, hrejection⟩ := (rejection?_failure_iff 1024 step .addressCollision).mpr
    ⟨scope, state, rfl, rfl, by decide, hcollision⟩
  obtain ⟨-, hcarries, htarget⟩ :=
    rejected_frame_carries_operands 1024 step scope _ rfl (by decide) hrejection
  obtain ⟨htarget, hasked⟩ := htarget rfl
  obtain ⟨address, haddress⟩ := Option.isSome_iff_exists.mp (htarget.mpr rfl)
  refine ⟨_, hrejection, by decide, hcarries.value_eq, ?_, address, haddress,
    hasked address haddress⟩
  exact hcarries.input_isRead.of_outside (by decide +kernel)

end Precheck

end CallTrace
