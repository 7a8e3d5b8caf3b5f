/-!
# Computations that may fail

What it takes for computations in several steps to succeed, and how they fail.
-/

namespace CallTrace

variable {ε α β : Type}

@[simp]
theorem ok_bind (middle : α) (second : α → Except ε β) :
    Except.ok middle >>= second = second middle :=
  rfl

theorem error_bind (error : ε) (second : α → Except ε β) :
    Except.error error >>= second = .error error :=
  rfl

/-- A computation in two steps succeeds if both do. -/
theorem bind_eq_ok_iff {first : Except ε α} {second : α → Except ε β} {value : β} :
    first >>= second = .ok value ↔ ∃ middle, first = .ok middle ∧ second middle = .ok value := by
  cases first with
  | error cause => simp [error_bind]
  | ok middle => simp

theorem bind_eq_ok {first : Except ε α} {second : α → Except ε β} {middle : α} {value : β}
    (hfirst : first = .ok middle) (hsecond : second middle = .ok value) :
    first >>= second = .ok value :=
  bind_eq_ok_iff.mpr ⟨middle, hfirst, hsecond⟩

theorem bind_eq_of_ok {first : Except ε α} {second : α → Except ε β} {middle : α}
    (hfirst : first = .ok middle) : first >>= second = second middle := by
  rw [hfirst, ok_bind]

/-- A computation in two steps fails in the first of them or, after that, in the second. -/
theorem bind_eq_error_iff {first : Except ε α} {second : α → Except ε β} {error : ε} :
    first >>= second = .error error ↔
      first = .error error ∨ ∃ middle, first = .ok middle ∧ second middle = .error error := by
  cases first with
  | error cause => simp [error_bind]
  | ok middle => simp

theorem bind_eq_error {first : Except ε α} {second : α → Except ε β} {error : ε}
    (hfirst : first = .error error) : first >>= second = .error error :=
  bind_eq_error_iff.mpr (.inl hfirst)

/-- A step behind which nothing can fail decides whether all fails. -/
theorem bind_ok_eq_error_iff {first : Except ε α} {second : α → β} {error : ε} :
    (first >>= fun middle => Except.ok (second middle)) = .error error ↔
      first = .error error := by
  simp [bind_eq_error_iff]

theorem bind_ok_eq_map (first : Except ε α) (second : α → β) :
    (first >>= fun middle => Except.ok (second middle)) = first.map second := by
  cases first <;> rfl

theorem map_eq_ok_iff {first : Except ε α} {second : α → β} {value : β} :
    first.map second = .ok value ↔ ∃ middle, first = .ok middle ∧ second middle = value := by
  cases first with
  | error cause => simp [Except.map]
  | ok middle => simp [Except.map]

theorem map_eq_error_iff {first : Except ε α} {second : α → β} {error : ε} :
    first.map second = .error error ↔ first = .error error := by
  cases first with
  | error cause => simp [Except.map]
  | ok value => simp [Except.map]

/-- A computation succeeds if it has no error. -/
theorem exists_eq_ok_iff {result : Except ε α} :
    (∃ value, result = .ok value) ↔ ∀ error, result ≠ .error error := by
  cases result with
  | error error => simp
  | ok value => simp

end CallTrace
