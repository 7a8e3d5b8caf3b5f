import CallTrace.Bytes.Hex
import CallTrace.Rendered.Entry
import CallTrace.Stored.Trace

/-!
# Archives of traces

An archive keeps stored traces under the hashes of their transactions.  Writing a
trace is done on a best-effort basis: a write that fails is dropped.  Reading tells
a transaction without a trace from one whose trace is empty.
-/

namespace CallTrace

/-- Why a backend could not do what it was asked to do. -/
inductive BackendError where
  | failed (reason : String)
deriving DecidableEq, Repr

/-- The wording of an error. -/
def BackendError.message : BackendError → String
  | failed reason => "Backend failure: " ++ reason

/-- A store of byte strings under hashes. -/
class Backend (σ : Type) where
  write : σ → Hash → Bytes → Except BackendError σ
  read : σ → Hash → Except BackendError (Option Bytes)

namespace Backend

variable {σ : Type} [Backend σ]

/-- Why no trace could be read. -/
inductive ReadError where
  | undecodable (cause : Stored.Error)
  | unavailable (cause : BackendError)
  | notFound (transactionHash : Hash)
deriving DecidableEq

/-- The wording of an error. -/
def ReadError.message : ReadError → String
  | undecodable cause => "Failed to decode stored trace: " ++ cause.message
  | unavailable cause => "Trace store error: " ++ cause.message
  | notFound transactionHash =>
      "Trace of transaction " ++ Hex.ofBytes transactionHash.bytes ++
        " not found in trace store"

/-- Stores a trace under the hash of its transaction.  If that fails, nothing has
happened. -/
def persist (backend : σ) (trace : TraceSet) : σ :=
  match write backend trace.context.transactionHash (Stored.encode trace) with
  | .ok next => next
  | .error _ => backend

/-- The trace of a transaction.  No bytes at all count as no trace. -/
def load (backend : σ) (transactionHash : Hash) : Except ReadError TraceSet :=
  match read backend transactionHash with
  | .error cause => .error (.unavailable cause)
  | .ok none => .error (.notFound transactionHash)
  | .ok (some []) => .error (.notFound transactionHash)
  | .ok (some bytes) =>
      match Stored.decode bytes with
      | .ok trace => .ok trace
      | .error cause => .error (.undecodable cause)

/-- The trace of a transaction in its rendered form. -/
def loadRendered (backend : σ) (transactionHash : Hash) :
    Except ReadError (List Rendered.Entry) := do
  let trace ← load backend transactionHash
  return Rendered.ofTraceSet trace

end Backend

/-- An archive in memory. -/
structure Archive where
  /-- The bytes under each hash, the last written first. -/
  entries : List (Hash × Bytes)

namespace Archive

/-- An archive without any entries. -/
def empty : Archive :=
  ⟨[]⟩

/-- The number of hashes with an entry. -/
def size (archive : Archive) : Nat :=
  archive.entries.length

/-- The bytes under a hash. -/
def find? (archive : Archive) (hash : Hash) : Option Bytes :=
  archive.entries.lookup hash

/-- The archive with new bytes under a hash, in place of those it had. -/
def insert (archive : Archive) (hash : Hash) (bytes : Bytes) : Archive :=
  ⟨(hash, bytes) :: archive.entries.filter fun entry => entry.1 ≠ hash⟩

private theorem lookup_filter_ne {hash other : Hash} (hother : other ≠ hash)
    (entries : List (Hash × Bytes)) :
    (entries.filter fun entry => entry.1 ≠ hash).lookup other = entries.lookup other := by
  induction entries with
  | nil => rfl
  | cons entry entries ih =>
      obtain ⟨key, bytes⟩ := entry
      by_cases hkey : key = hash
      · have hmiss : (other == key) = false := by
          simpa [hkey] using hother
        rw [List.filter_cons_of_neg (by simpa using hkey), List.lookup_cons, hmiss, ih]
      · rw [List.filter_cons_of_pos (by simpa using hkey), List.lookup_cons, List.lookup_cons, ih]

/-- A write shows under its own hash and nowhere else. -/
theorem find?_insert (archive : Archive) (hash other : Hash) (bytes : Bytes) :
    (archive.insert hash bytes).find? other =
      if other = hash then some bytes else archive.find? other := by
  unfold insert find?
  by_cases hother : other = hash
  · subst hother
    simp
  · have hmiss : (other == hash) = false := by simpa using hother
    rw [if_neg hother, List.lookup_cons, hmiss]
    exact lookup_filter_ne hother archive.entries

end Archive

instance : Backend Archive where
  write archive hash bytes := .ok (archive.insert hash bytes)
  read archive hash := .ok (archive.find? hash)

/-- A backend that may refuse to write or to read, each for a reason. -/
structure Faulty (σ : Type) where
  backend : σ
  writeFault : Option String
  readFault : Option String

instance {σ : Type} [Backend σ] : Backend (Faulty σ) where
  write faulty hash bytes :=
    match faulty.writeFault with
    | some reason => .error (.failed reason)
    | none => do
        let backend ← Backend.write faulty.backend hash bytes
        return { faulty with backend }
  read faulty hash :=
    match faulty.readFault with
    | some reason => .error (.failed reason)
    | none => Backend.read faulty.backend hash

end CallTrace
