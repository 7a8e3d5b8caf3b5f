import CallTrace.Bytes.Basic

/-!
# Inquiries into the state of accounts

An inquiry puts questions about accounts, one after the other, and goes on
according to the answers.  Since it has no other access to the state, the list of
the questions it puts says all that its result depends on.
-/

namespace CallTrace

/-- A question about the state of accounts. -/
inductive Question where
  | canTransfer (holder : Address) (amount : Word)
  | nonce (account : Address)
  | isOccupied (account : Address)
deriving DecidableEq

/-- What answers a question. -/
abbrev Question.Answer : Question → Type
  | canTransfer _ _ => Bool
  | nonce _ => UInt64
  | isOccupied _ => Bool

/-- The state of accounts: whether a holder can transfer an amount, the nonce of an
account, and whether an account has been used before. -/
structure StateView where
  canTransfer : Address → Word → Bool
  nonce : Address → UInt64
  isOccupied : Address → Bool

/-- The answer that the state gives to a question. -/
def StateView.answer (state : StateView) : (question : Question) → question.Answer
  | .canTransfer holder amount => state.canTransfer holder amount
  | .nonce account => state.nonce account
  | .isOccupied account => state.isOccupied account

/-- Questions that depend on earlier answers, with a result at the end. -/
inductive Inquiry (α : Type) where
  | done (result : α)
  | ask (question : Question) (next : question.Answer → Inquiry α)

namespace Inquiry

variable {α : Type}

/-- The result of an inquiry under a state. -/
def result (state : StateView) : Inquiry α → α
  | done result => result
  | ask question next => (next (state.answer question)).result state

/-- The questions that an inquiry puts under a state, in order. -/
def questions (state : StateView) : Inquiry α → List Question
  | done _ => []
  | ask question next => question :: (next (state.answer question)).questions state

/-- Makes the second inquiry only if the first finds nothing. -/
def orElse (first second : Inquiry (Option α)) : Inquiry (Option α) :=
  match first with
  | done none => second
  | done (some found) => done (some found)
  | ask question next => ask question fun answer => (next answer).orElse second

@[simp]
theorem result_orElse (state : StateView) (first second : Inquiry (Option α)) :
    (first.orElse second).result state = (first.result state).or (second.result state) := by
  induction first with
  | done found? => cases found? <;> rfl
  | ask question next ih => exact ih (state.answer question)

/-- The second inquiry puts its questions only if the first finds nothing. -/
@[simp]
theorem questions_orElse (state : StateView) (first second : Inquiry (Option α)) :
    (first.orElse second).questions state =
      first.questions state ++
        if (first.result state).isSome then [] else second.questions state := by
  induction first with
  | done found? => cases found? <;> rfl
  | ask question next ih =>
      change question :: _ = (question :: _) ++ _
      rw [ih, List.cons_append]
      rfl

/-- States that answer the questions of an inquiry alike give it the same
result. -/
theorem result_eq_of_answers {state other : StateView} {inquiry : Inquiry α}
    (hanswers : ∀ question ∈ inquiry.questions state,
      state.answer question = other.answer question) :
    inquiry.result state = inquiry.result other := by
  induction inquiry with
  | done result => rfl
  | ask question next ih =>
      have hfirst : state.answer question = other.answer question :=
        hanswers question (by simp [questions])
      simp only [result]
      rw [← hfirst]
      apply ih
      intro later hlater
      exact hanswers later (by simp [questions, hlater])

end Inquiry

end CallTrace
