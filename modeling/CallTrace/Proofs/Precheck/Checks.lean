import CallTrace.Precheck.Rejection

/-!
# The list of checks

What a step is checked for is a list, which its opcode settles.  Each check tells the
failure that it finds in a state, and the questions that it puts to it.

The checks are made one after the other, up to the first that fails.  It decides what the
step is rejected for, and the questions put are those of the checks that were made.
-/

namespace CallTrace

/-- States that answer the questions of an inquiry alike are asked the same
questions. -/
theorem Inquiry.questions_eq_of_answers {α : Type} {state other : StateView}
    {inquiry : Inquiry α}
    (hanswers : ∀ question ∈ inquiry.questions state,
      state.answer question = other.answer question) :
    inquiry.questions other = inquiry.questions state := by
  induction inquiry with
  | done result => rfl
  | ask question next ih =>
      have hfirst : state.answer question = other.answer question :=
        hanswers question (by simp [questions])
      simp only [questions]
      rw [← hfirst, ih]
      intro later hlater
      exact hanswers later (by simp [questions, hlater])

namespace Precheck

/-- A check: the failure that it finds in a state, and the questions that it puts. -/
structure Check where
  failure? : StateView → Option Failure
  questions : StateView → List Question

namespace Check

/-- The check for an error that the engine has reported. -/
def reported (step : Step) : Check where
  failure? _ := step.error.map .reported
  questions _ := []

/-- The check of the call depth. -/
def depth (maxCallDepth : Nat) (step : Step) : Check where
  failure? _ := if maxCallDepth < step.depth then some .tooDeep else none
  questions _ := []

/-- The check that a value can be paid.  Nothing is asked about a value of zero. -/
def balance (holder : Address) (value : Word) : Check where
  failure? state :=
    if value ≠ 0 ∧ state.canTransfer holder value = false then some .insufficientBalance else none
  questions _ := if value = 0 then [] else [.canTransfer holder value]

/-- The check that a creator has a nonce left. -/
def nonce (creator : Address) : Check where
  failure? state :=
    if (state.nonce creator).toNat = UInt64.size - 1 then some .nonceOverflow else none
  questions _ := [.nonce creator]

/-- The check that nothing is in the place of a new contract.  The place may depend on
what the state has answered before. -/
def vacancy (address : StateView → Address) : Check where
  failure? state := if state.isOccupied (address state) then some .addressCollision else none
  questions state := [.isOccupied (address state)]

end Check

/-- The opcodes that open a frame: two creations and four calls. -/
def callLike : List UInt8 :=
  [0xf0, 0xf5, 0xf1, 0xf2, 0xf4, 0xfa]

/-- The checks of a creation that puts a contract in the given place. -/
def creationChecks (scope : Scope) (address : StateView → Address) : List Check :=
  [.balance scope.contract (scope.peek 0), .nonce scope.contract, .vacancy address]

/-- The checks that are particular to an opcode.  A call has its value in the third
position of the stack, a creation in the first; calls without a value have no checks of
their own. -/
def ownChecks (scope : Scope) (opcode : UInt8) : List Check :=
  match opcode with
  | 0xf0 =>
      creationChecks scope fun state =>
        .ofNonce scope.contract (state.nonce scope.contract)
  | 0xf5 =>
      creationChecks scope fun _ =>
        .ofSalt scope.contract (scope.peek 3) (scope.memoryOperand 1 2)
  | 0xf1 | 0xf2 => [.balance scope.contract (scope.peek 2)]
  | _ => []

/-- All checks of a step, in their order. -/
def checks (maxCallDepth : Nat) (step : Step) (scope : Scope) : List Check :=
  .reported step :: .depth maxCallDepth step :: ownChecks scope step.opcode

/-- The first failure that checks find in a state. -/
def firstFailure? (state : StateView) (checks : List Check) : Option Failure :=
  checks.findSome? fun check => check.failure? state

/-- The checks that are made: those that pass, up to the first that fails, and that
one. -/
def made (state : StateView) (checks : List Check) : List Check :=
  checks.takeWhile (fun check => (check.failure? state).isNone) ++
    (checks.dropWhile fun check => (check.failure? state).isNone).take 1

/-- The questions of the checks that are made. -/
def askedBy (state : StateView) (checks : List Check) : List Question :=
  (made state checks).flatMap fun check => check.questions state

section

variable {state : StateView}

theorem askedBy_cons (check : Check) (checks : List Check) :
    askedBy state (check :: checks) =
      check.questions state ++
        if (check.failure? state).isSome then [] else askedBy state checks := by
  cases hfailure : check.failure? state <;> simp [askedBy, made, hfailure]

@[simp]
theorem askedBy_singleton (check : Check) : askedBy state [check] = check.questions state := by
  rw [askedBy_cons]
  simp [askedBy, made]

/-- Further checks are made only if none before has failed. -/
theorem askedBy_append (checks others : List Check) :
    askedBy state (checks ++ others) =
      askedBy state checks ++
        if (firstFailure? state checks).isSome then [] else askedBy state others := by
  induction checks with
  | nil => simp [askedBy, made, firstFailure?]
  | cons check checks ih =>
      rw [List.cons_append, askedBy_cons, askedBy_cons, ih]
      cases hfailure : check.failure? state <;> simp [firstFailure?, hfailure]

theorem askedBy_sublist (checks : List Check) :
    (askedBy state checks).Sublist (checks.flatMap fun check => check.questions state) := by
  induction checks with
  | nil => exact .slnil
  | cons check checks ih =>
      rw [askedBy_cons, List.flatMap_cons]
      apply List.Sublist.append_left
      split
      · exact List.nil_sublist _
      · exact ih

theorem nodup_balance (holder : Address) (value : Word) :
    ((Check.balance holder value).questions state).Nodup := by
  simp only [Check.balance]
  split <;> simp

theorem nodup_creationChecks (scope : Scope) (address : StateView → Address) :
    ((creationChecks scope address).flatMap fun check => check.questions state).Nodup := by
  simp only [creationChecks, Check.balance, Check.nonce, Check.vacancy, List.flatMap_cons,
    List.flatMap_nil]
  split <;> simp

/-- No two checks of a step put the same question. -/
theorem nodup_askedBy (maxCallDepth : Nat) (step : Step) (scope : Scope) :
    (askedBy state (checks maxCallDepth step scope)).Nodup := by
  apply (askedBy_sublist _).nodup
  change ((ownChecks scope step.opcode).flatMap fun check => check.questions state).Nodup
  unfold ownChecks
  split
  · exact nodup_creationChecks scope _
  · exact nodup_creationChecks scope _
  · simpa using nodup_balance _ _
  · simpa using nodup_balance _ _
  · exact List.nodup_nil

end

/-- An inquiry that makes the given checks: it fails with the first failure that they
find, and puts the questions of the checks that are made. -/
structure Makes (inquiry : Inquiry (Option Rejection)) (checks : List Check) : Prop where
  failure_eq : ∀ state, (inquiry.result state).map Rejection.failure = firstFailure? state checks
  questions_eq : ∀ state, inquiry.questions state = askedBy state checks

namespace Makes

variable {first second : Inquiry (Option Rejection)} {checks others : List Check}

/-- An inquiry without questions that finds nothing makes no checks. -/
theorem nil : Makes (.done none) [] where
  failure_eq _ := rfl
  questions_eq _ := rfl

/-- An inquiry that makes one check. -/
theorem singleton {check : Check} {inquiry : Inquiry (Option Rejection)}
    (hfailure : ∀ state, (inquiry.result state).map Rejection.failure = check.failure? state)
    (hquestions : ∀ state, inquiry.questions state = check.questions state) :
    Makes inquiry [check] where
  failure_eq state := by
    rw [hfailure]
    cases hcheck : check.failure? state <;> simp [firstFailure?, hcheck]
  questions_eq state := by
    rw [hquestions, askedBy_singleton]

/-- The checks of two inquiries, one after the other. -/
theorem orElse (hfirst : Makes first checks) (hsecond : Makes second others) :
    Makes (first.orElse second) (checks ++ others) where
  failure_eq state := by
    rw [Inquiry.result_orElse, Option.map_or, hfirst.failure_eq, hsecond.failure_eq]
    exact List.findSome?_append.symm
  questions_eq state := by
    rw [Inquiry.questions_orElse, askedBy_append, hfirst.questions_eq, hsecond.questions_eq,
      ← hfirst.failure_eq, Option.isSome_map]

theorem checkReported (step : Step) (frame : Frame) :
    Makes (checkReported step frame) [.reported step] := by
  apply singleton
  · intro state
    exact Option.map_map ..
  · intro state
    rfl

theorem checkDepth (maxCallDepth : Nat) (step : Step) (frame : Frame) :
    Makes (checkDepth maxCallDepth step frame) [.depth maxCallDepth step] := by
  apply singleton
  · intro state
    simp only [Precheck.checkDepth, Inquiry.result, Check.depth]
    split <;> rfl
  · intro state
    rfl

theorem checkBalance (frame : Frame) :
    Makes (checkBalance frame) [.balance frame.sender frame.value] := by
  unfold Precheck.checkBalance
  by_cases hvalue : frame.value = 0
  · rw [if_pos hvalue]
    apply singleton
    · intro state
      simp [Inquiry.result, Check.balance, hvalue]
    · intro state
      exact (if_pos hvalue).symm
  · rw [if_neg hvalue]
    apply singleton
    · intro state
      change Option.map _ (if state.canTransfer frame.sender frame.value then _ else _) = _
      by_cases hpaid : state.canTransfer frame.sender frame.value = true
      · rw [if_pos hpaid]
        simp [Check.balance, hpaid]
      · rw [if_neg hpaid]
        rw [Bool.not_eq_true] at hpaid
        exact (if_pos ⟨hvalue, hpaid⟩).symm
    · intro state
      exact (if_neg hvalue).symm

theorem checkAddress (address : Address) (frame : Frame) :
    Makes (checkAddress address frame) [.vacancy fun _ => address] := by
  apply singleton
  · intro state
    change Option.map _ (if state.isOccupied address then _ else _) =
      if state.isOccupied address then _ else _
    split <;> rfl
  · intro state
    rfl

/-- The address is checked only if there is a nonce left. -/
theorem checkCreation (addressAt : UInt64 → Address) (frame : Frame) :
    Makes (checkCreation addressAt frame)
      [.nonce frame.sender, .vacancy fun state => addressAt (state.nonce frame.sender)] := by
  have hafter : ∀ state : StateView,
      Makes (Precheck.checkAddress (addressAt (state.nonce frame.sender)) frame)
        [.vacancy fun _ => addressAt (state.nonce frame.sender)] := fun _ => checkAddress _ _
  constructor
  · intro state
    change Option.map _ ((if (state.nonce frame.sender).toNat = UInt64.size - 1 then _
      else _ : Inquiry (Option Rejection)).result state) = _
    simp only [firstFailure?, List.findSome?_cons, Check.nonce]
    split
    · rfl
    · exact (hafter state).failure_eq state
  · intro state
    change Question.nonce frame.sender ::
      (if (state.nonce frame.sender).toNat = UInt64.size - 1 then _
        else _ : Inquiry (Option Rejection)).questions state = _
    rw [askedBy_cons]
    simp only [Check.nonce]
    split
    · rfl
    · rw [askedBy_singleton]
      rfl

/-- Calls without a value have no checks of their own. -/
theorem checkBalance_of_zero {frame : Frame} (hvalue : frame.value = 0) :
    Makes (Precheck.checkBalance frame) [] := by
  unfold Precheck.checkBalance
  rw [if_pos hvalue]
  exact nil

/-- The checks behind those that all openings have in common are settled by the
opcode. -/
theorem ownChecks {opcode : UInt8} {opening : Opening} (scope : Scope) (gas : UInt64)
    (hopening : Opening.ofOpcode? opcode = some opening) :
    Makes ((Precheck.checkBalance (opening.frame scope gas)).orElse
        (checkContract opening scope (opening.frame scope gas)))
      (ownChecks scope opcode) := by
  unfold Opening.ofOpcode? at hopening
  split at hopening <;> cases hopening
  · exact (checkBalance _).orElse (checkCreation _ _)
  · exact (checkBalance _).orElse nil
  · exact (checkBalance _).orElse nil
  · exact (checkBalance_of_zero rfl).orElse nil
  · exact (checkBalance _).orElse (checkCreation _ _)
  · exact (checkBalance_of_zero rfl).orElse nil

/-- The inquiry about an opening makes the checks of its step. -/
theorem check {step : Step} {opening : Opening} (maxCallDepth : Nat) (scope : Scope)
    (hopening : Opening.ofOpcode? step.opcode = some opening) :
    Makes (Precheck.check maxCallDepth step opening scope)
      (Precheck.checks maxCallDepth step scope) :=
  (checkReported step _).orElse <|
    (checkDepth maxCallDepth step _).orElse (ownChecks scope step.gas hopening)

end Makes

/-- The opcodes that open a frame are the call-like ones. -/
theorem exists_opening_iff {opcode : UInt8} :
    (∃ opening, Opening.ofOpcode? opcode = some opening) ↔ opcode ∈ callLike := by
  constructor
  · rintro ⟨opening, hopening⟩
    unfold Opening.ofOpcode? at hopening
    split at hopening <;> simp_all [callLike]
  · intro hopcode
    simp only [callLike, List.mem_cons, List.not_mem_nil, or_false] at hopcode
    rcases hopcode with rfl | rfl | rfl | rfl | rfl | rfl <;> exact ⟨_, rfl⟩

/-- The inquiry of a step that opens a frame makes the checks of the step. -/
theorem makes_inquiry {step : Step} {scope : Scope} (maxCallDepth : Nat)
    (hscope : step.scope = some scope) (hopcode : step.opcode ∈ callLike) :
    Makes (inquiry maxCallDepth step) (checks maxCallDepth step scope) := by
  obtain ⟨opening, hopening⟩ := exists_opening_iff.mpr hopcode
  have hinquiry : inquiry maxCallDepth step = check maxCallDepth step opening scope := by
    simp only [inquiry, hscope, hopening]
  rw [hinquiry]
  exact .check maxCallDepth scope hopening

theorem inquiry_eq_done {step : Step} (maxCallDepth : Nat)
    (hstep : step.scope = none ∨ step.opcode ∉ callLike) :
    inquiry maxCallDepth step = .done none := by
  unfold inquiry
  split
  · next scope opening hscope hopening =>
    rcases hstep with hnone | hother
    · rw [hscope] at hnone
      cases hnone
    · exact absurd (exists_opening_iff.mp ⟨opening, hopening⟩) hother
  · rfl

theorem rejection?_of_state {step : Step} {state : StateView} (maxCallDepth : Nat)
    (hstate : step.state = some state) :
    rejection? maxCallDepth step = (inquiry maxCallDepth step).result state := by
  simp only [rejection?, hstate, Option.bind_some]

theorem questions_of_state {step : Step} {state : StateView} (maxCallDepth : Nat)
    (hstate : step.state = some state) :
    questions maxCallDepth step = (inquiry maxCallDepth step).questions state := by
  simp only [questions, hstate, Option.elim_some]

/-- A step is rejected for the first failure that its checks find. -/
theorem rejection?_failure_iff (maxCallDepth : Nat) (step : Step) (failure : Failure) :
    (∃ frame, rejection? maxCallDepth step = some ⟨frame, failure⟩) ↔
      ∃ scope state, step.scope = some scope ∧ step.state = some state ∧
        step.opcode ∈ callLike ∧
        firstFailure? state (checks maxCallDepth step scope) = some failure := by
  constructor
  · rintro ⟨frame, hrejection⟩
    obtain ⟨state, hstate, hresult⟩ := Option.bind_eq_some_iff.mp hrejection
    have hdone : ¬ (step.scope = none ∨ step.opcode ∉ callLike) := by
      intro hstep
      rw [inquiry_eq_done maxCallDepth hstep] at hresult
      cases hresult
    rw [not_or, Classical.not_not] at hdone
    obtain ⟨scope, hscope⟩ := Option.ne_none_iff_exists'.mp hdone.1
    refine ⟨scope, state, hscope, hstate, hdone.2, ?_⟩
    rw [← (makes_inquiry maxCallDepth hscope hdone.2).failure_eq, hresult]
    rfl
  · rintro ⟨scope, state, hscope, hstate, hopcode, hfailure⟩
    rw [← (makes_inquiry maxCallDepth hscope hopcode).failure_eq, Option.map_eq_some_iff]
      at hfailure
    obtain ⟨⟨frame, _⟩, hresult, rfl⟩ := hfailure
    exact ⟨frame, (rejection?_of_state maxCallDepth hstate).trans hresult⟩

/-- States that answer the questions of a step alike reject it alike, and are asked the
same questions. -/
theorem eq_of_answers {step : Step} {state other : StateView} (maxCallDepth : Nat)
    (hstate : step.state = some state)
    (hanswers : ∀ question ∈ questions maxCallDepth step,
      state.answer question = other.answer question) :
    rejection? maxCallDepth { step with state := some other } = rejection? maxCallDepth step ∧
      questions maxCallDepth { step with state := some other } = questions maxCallDepth step := by
  rw [questions_of_state maxCallDepth hstate] at hanswers ⊢
  rw [rejection?_of_state maxCallDepth hstate]
  exact ⟨(Inquiry.result_eq_of_answers hanswers).symm, Inquiry.questions_eq_of_answers hanswers⟩

/-- A step is rejected if and only if it shows a scope and a state, its opcode opens a
frame, and one of its checks fails; the first check that fails says why.  The questions
put are those of the checks up to that one, none of them twice, and nothing else about the
state matters. -/
theorem first_failing_check_decides (maxCallDepth : Nat) (step : Step) :
    (∀ failure, (∃ frame, rejection? maxCallDepth step = some ⟨frame, failure⟩) ↔
      ∃ scope state, step.scope = some scope ∧ step.state = some state ∧
        step.opcode ∈ callLike ∧
        ∃ passed check rest, checks maxCallDepth step scope = passed ++ check :: rest ∧
          check.failure? state = some failure ∧
          ∀ earlier ∈ passed, earlier.failure? state = none) ∧
    (∀ scope state, step.scope = some scope → step.state = some state →
      step.opcode ∈ callLike →
      questions maxCallDepth step =
        (made state (checks maxCallDepth step scope)).flatMap fun check =>
          check.questions state) ∧
    (step.scope = none ∨ step.state = none ∨ step.opcode ∉ callLike →
      questions maxCallDepth step = []) ∧
    (questions maxCallDepth step).Nodup ∧
    ∀ state other, step.state = some state →
      (∀ question ∈ questions maxCallDepth step,
        state.answer question = other.answer question) →
      rejection? maxCallDepth { step with state := some other } =
          rejection? maxCallDepth step ∧
        questions maxCallDepth { step with state := some other } =
          questions maxCallDepth step := by
  have hmade : ∀ scope state, step.scope = some scope → step.state = some state →
      step.opcode ∈ callLike →
      questions maxCallDepth step = askedBy state (checks maxCallDepth step scope) := by
    intro scope state hscope hstate hopcode
    rw [questions_of_state maxCallDepth hstate]
    exact (makes_inquiry maxCallDepth hscope hopcode).questions_eq state
  have hnone : step.scope = none ∨ step.state = none ∨ step.opcode ∉ callLike →
      questions maxCallDepth step = [] := by
    intro hstep
    cases hstate : step.state with
    | none => simp only [questions, hstate, Option.elim_none]
    | some state =>
        rw [questions_of_state maxCallDepth hstate, inquiry_eq_done]
        · rfl
        · simpa [hstate] using hstep
  refine ⟨?_, hmade, hnone, ?_, fun state other => eq_of_answers maxCallDepth⟩
  · intro failure
    rw [rejection?_failure_iff]
    simp only [firstFailure?, List.findSome?_eq_some_iff]
  · by_cases hstep : step.scope = none ∨ step.state = none ∨ step.opcode ∉ callLike
    · rw [hnone hstep]
      exact List.nodup_nil
    · rw [not_or, not_or, Classical.not_not] at hstep
      obtain ⟨scope, hscope⟩ := Option.ne_none_iff_exists'.mp hstep.1
      obtain ⟨state, hstate⟩ := Option.ne_none_iff_exists'.mp hstep.2.1
      rw [hmade scope state hscope hstate hstep.2.2]
      exact nodup_askedBy maxCallDepth step scope

/-- A creation with a salt fails on its last check only, in any state that gives the same
three answers. -/
theorem first_failing_check_decides_of_collision :
    let scope : Scope := ⟨default, [7, 2, 0, 1], [0x60, 0x00]⟩
    let state : StateView := ⟨fun _ _ => true, fun _ => 5, fun _ => true⟩
    let other : StateView := ⟨fun _ amount => amount == 1, fun _ => 5, fun _ => true⟩
    let step : Step := ⟨0xf5, 100, 2, none, some scope, some state⟩
    (∃ frame, rejection? 1024 step = some ⟨frame, .addressCollision⟩) ∧
      questions 1024 step =
        [.canTransfer default 1, .nonce default,
          .isOccupied (.ofSalt default 7 [0x60, 0x00])] ∧
      (∀ question ∈ questions 1024 step, state.answer question = other.answer question) ∧
      rejection? 1024 { step with state := some other } = rejection? 1024 step := by
  intro scope state other step
  obtain ⟨hrejection, hmade, -, -, hanswers⟩ := first_failing_check_decides 1024 step
  have hopcode : step.opcode ∈ callLike := by decide
  have hquestions : questions 1024 step = [.canTransfer default 1, .nonce default,
      .isOccupied (.ofSalt default 7 [0x60, 0x00])] := hmade scope state rfl rfl hopcode
  have halike : ∀ question ∈ questions 1024 step,
      state.answer question = other.answer question := by
    rw [hquestions]
    simp [StateView.answer, state, other]
  refine ⟨?_, hquestions, halike, (hanswers state other rfl halike).1⟩
  apply (hrejection .addressCollision).mpr
  refine ⟨scope, state, rfl, rfl, hopcode, [.reported step, .depth 1024 step,
    .balance default 1, .nonce default], .vacancy fun _ => .ofSalt default 7 [0x60, 0x00], [], rfl,
    rfl, ?_⟩
  simp [Check.reported, Check.depth, Check.balance, Check.nonce, step, state]

end Precheck

end CallTrace
