import CallTrace.Archive
import CallTrace.Proofs.Except

/-!
# Backends that fail

A trace that the backend refuses to write is dropped, and nothing else happens.  A trace
that cannot be loaded is missing, cannot be decoded, or the backend could not be read: the
three are told apart.

So a backend that refuses writes is read as before, whatever has been persisted, and one
that refuses to be read gives its reason for every transaction.
-/

namespace CallTrace

namespace Backend

variable {σ : Type} [Backend σ] {backend : σ} {hash : Hash}

/-- The backend after traces have been persisted one after the other. -/
def persistAll (backend : σ) (traces : List TraceSet) : σ :=
  traces.foldl persist backend

theorem persist_of_write_error {trace : TraceSet} {cause : BackendError}
    (hwrite : write backend trace.context.transactionHash (Stored.encode trace) = .error cause) :
    persist backend trace = backend := by
  unfold persist
  rw [hwrite]

/-- Why a trace cannot be loaded. -/
theorem load_eq_error_iff {error : ReadError} :
    load backend hash = .error error ↔
      (∃ cause, read backend hash = .error cause ∧ error = .unavailable cause) ∨
      (read backend hash = .ok none ∨ read backend hash = .ok (some [])) ∧
          error = .notFound hash ∨
      ∃ bytes cause, read backend hash = .ok (some bytes) ∧ bytes ≠ [] ∧
        Stored.decode bytes = .error cause ∧ error = .undecodable cause := by
  unfold load
  cases hread : read backend hash with
  | error cause => simp [eq_comm]
  | ok found? =>
      rcases found? with _ | _ | ⟨byte, bytes⟩
      · simp [eq_comm]
      · simp [eq_comm]
      · cases hdecode : Stored.decode (byte :: bytes) <;> simp [hdecode, eq_comm]

theorem load_congr {τ : Type} [Backend τ] {other : τ}
    (hread : read backend hash = read other hash) : load backend hash = load other hash := by
  unfold load
  rw [hread]

end Backend

namespace Faulty

open Backend (persist persistAll load)

variable {σ : Type} [Backend σ] {faulty : Faulty σ} {reason : String}

theorem persist_of_writeFault (hfault : faulty.writeFault = some reason) (trace : TraceSet) :
    persist faulty trace = faulty := by
  have hwrite : Backend.write faulty trace.context.transactionHash (Stored.encode trace) =
      .error (.failed reason) := by
    simp only [Backend.write, hfault]
  exact Backend.persist_of_write_error hwrite

theorem persist_of_writeFault_eq_none (hfault : faulty.writeFault = none) (trace : TraceSet) :
    persist faulty trace = { faulty with backend := persist faulty.backend trace } := by
  have hwrite : Backend.write faulty trace.context.transactionHash (Stored.encode trace) =
      (Backend.write faulty.backend trace.context.transactionHash (Stored.encode trace)).map
        fun backend => { faulty with backend } := by
    simp only [Backend.write, hfault]
    exact bind_ok_eq_map _ _
  unfold persist
  rw [hwrite]
  cases Backend.write faulty.backend trace.context.transactionHash (Stored.encode trace) <;> rfl

/-- A backend that refuses writes stays as it is. -/
theorem persistAll_of_writeFault (hfault : faulty.writeFault = some reason)
    (traces : List TraceSet) : persistAll faulty traces = faulty := by
  induction traces with
  | nil => rfl
  | cons trace traces ih =>
      unfold persistAll at ih ⊢
      rw [List.foldl_cons, persist_of_writeFault hfault, ih]

theorem persistAll_of_writeFault_eq_none (hfault : faulty.writeFault = none)
    (traces : List TraceSet) :
    persistAll faulty traces = { faulty with backend := persistAll faulty.backend traces } := by
  induction traces generalizing faulty with
  | nil => rfl
  | cons trace traces ih =>
      unfold persistAll at ih ⊢
      rw [List.foldl_cons, persist_of_writeFault_eq_none hfault]
      exact ih hfault

theorem load_of_readFault (hfault : faulty.readFault = some reason) (hash : Hash) :
    load faulty hash = .error (.unavailable (.failed reason)) := by
  apply Backend.load_eq_error_iff.mpr (.inl ⟨.failed reason, _, rfl⟩)
  simp only [Backend.read, hfault]

theorem load_of_readFault_eq_none (hfault : faulty.readFault = none) (hash : Hash) :
    load faulty hash = load faulty.backend hash := by
  apply Backend.load_congr
  simp only [Backend.read, hfault]

/-- What is loaded after traces have been persisted.  A backend that refuses to be read gives its
reason, one that refuses writes has what it had before, and any other backend has what it has
without the faults. -/
theorem load_persistAll (faulty : Faulty σ) (traces : List TraceSet) (hash : Hash) :
    load (persistAll faulty traces) hash =
      match faulty.readFault, faulty.writeFault with
      | some reason, _ => .error (.unavailable (.failed reason))
      | none, some _ => load faulty.backend hash
      | none, none => load (persistAll faulty.backend traces) hash := by
  obtain ⟨backend, _ | refusal, _ | reason⟩ := faulty
  · rw [persistAll_of_writeFault_eq_none rfl]
    exact load_of_readFault_eq_none rfl hash
  · rw [persistAll_of_writeFault_eq_none rfl]
    exact load_of_readFault rfl hash
  · rw [persistAll_of_writeFault rfl]
    exact load_of_readFault_eq_none rfl hash
  · rw [persistAll_of_writeFault rfl]
    exact load_of_readFault rfl hash

end Faulty

end CallTrace
