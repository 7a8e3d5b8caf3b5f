import CallTrace.Archive
import CallTrace.Proofs.Stored.RoundTrip
import Mathlib.Data.List.Dedup

/-!
# The history of an archive

What an archive answers depends on the last write under each hash, and on nothing else in
its history: not on what was written there before, not on other hashes, and not on what
was read meanwhile.  So two histories lead to the same answers if the writes under each
hash follow one another in the same order in both.
-/

namespace CallTrace.Archive

/-- What can be done with an archive. -/
inductive Access where
  | persist (trace : TraceSet)
  | write (hash : Hash) (bytes : Bytes)
  | read (hash : Hash)
  | load (hash : Hash)
  | loadRendered (hash : Hash)
  | count

/-- What an access is answered. -/
inductive Answer where
  | done
  | refused (cause : BackendError)
  | bytes (answer : Except BackendError (Option Bytes))
  | trace (answer : Except Backend.ReadError TraceSet)
  | entries (answer : Except Backend.ReadError (List Rendered.Entry))
  | size (answer : Nat)

/-- The answer to an access, and the archive after it. -/
def perform (archive : Archive) : Access → Answer × Archive
  | .persist trace => (.done, Backend.persist archive trace)
  | .write hash bytes =>
      match Backend.write archive hash bytes with
      | .ok next => (.done, next)
      | .error cause => (.refused cause, archive)
  | .read hash => (.bytes (Backend.read archive hash), archive)
  | .load hash => (.trace (Backend.load archive hash), archive)
  | .loadRendered hash => (.entries (Backend.loadRendered archive hash), archive)
  | .count => (.size archive.size, archive)

/-- The archive after a sequence of accesses. -/
def run (archive : Archive) (accesses : List Access) : Archive :=
  accesses.foldl (fun archive access => (archive.perform access).2) archive

/-- The answers to a sequence of accesses. -/
def answers (archive : Archive) : List Access → List Answer
  | [] => []
  | access :: accesses => (archive.perform access).1 :: (archive.perform access).2.answers accesses

namespace Access

/-- What an access writes, and under which hash. -/
def written? : Access → Option (Hash × Bytes)
  | persist trace => some (trace.context.transactionHash, Stored.encode trace)
  | write hash bytes => some (hash, bytes)
  | _ => none

/-- Whether an access writes under a hash. -/
def writesTo (hash : Hash) (access : Access) : Bool :=
  access.written?.any fun write => write.1 = hash

theorem writesTo_iff {hash : Hash} {access : Access} :
    access.writesTo hash ↔ ∃ bytes, access.written? = some (hash, bytes) := by
  unfold writesTo
  cases access.written? with
  | none => simp
  | some write =>
      obtain ⟨other, bytes⟩ := write
      simp [eq_comm]

end Access

/-- The last access that wrote under a hash. -/
def lastWrite? (hash : Hash) (accesses : List Access) : Option Access :=
  (accesses.filter (Access.writesTo hash)).getLast?

/-- The bytes that were written last under a hash. -/
def lastBytes? (hash : Hash) (accesses : List Access) : Option Bytes :=
  ((lastWrite? hash accesses).bind Access.written?).map Prod.snd

/-- Whether the writes under each hash follow one another in the same order. -/
def SameOrder (accesses others : List Access) : Prop :=
  ∀ hash, accesses.filter (Access.writesTo hash) = others.filter (Access.writesTo hash)

/-- The hashes that were written under. -/
def hashes (accesses : List Access) : List Hash :=
  accesses.filterMap fun access => access.written?.map Prod.fst

/-- The hashes with an entry. -/
def keys (archive : Archive) : List Hash :=
  archive.entries.map Prod.fst

section Steps

theorem perform_of_written {access : Access} {hash : Hash} {bytes : Bytes} (archive : Archive)
    (hwritten : access.written? = some (hash, bytes)) :
    (archive.perform access).2 = archive.insert hash bytes := by
  cases access <;> cases hwritten <;> rfl

/-- What does not write changes nothing. -/
theorem perform_of_not_written {access : Access} (archive : Archive)
    (hwritten : access.written? = none) : (archive.perform access).2 = archive := by
  cases access with
  | persist trace => cases hwritten
  | write hash bytes => cases hwritten
  | read hash => rfl
  | load hash => rfl
  | loadRendered hash => rfl
  | count => rfl

theorem run_append (archive : Archive) (accesses others : List Access) :
    archive.run (accesses ++ others) = (archive.run accesses).run others :=
  List.foldl_append

/-- What holds at the beginning, and is kept by accesses that write nothing and by those
that write, holds of every history and the archive that it leads to. -/
theorem run_induction (holds : List Access → Archive → Prop) (hempty : holds [] empty)
    (hskip : ∀ accesses archive access, access.written? = none → holds accesses archive →
      holds (accesses ++ [access]) archive)
    (hinsert : ∀ accesses archive access hash bytes, access.written? = some (hash, bytes) →
      holds accesses archive → holds (accesses ++ [access]) (archive.insert hash bytes))
    (accesses : List Access) : holds accesses (empty.run accesses) := by
  induction accesses using List.reverseRecOn with
  | nil => exact hempty
  | append_singleton accesses access ih =>
      rw [run_append]
      change holds _ ((empty.run accesses).perform access).2
      cases hwritten : access.written? with
      | none =>
          rw [perform_of_not_written _ hwritten]
          exact hskip accesses _ access hwritten ih
      | some write =>
          rw [perform_of_written _ hwritten]
          exact hinsert accesses _ access write.1 write.2 hwritten ih

end Steps

section Lookup

theorem lastBytes?_append_of_writesTo {hash : Hash} {access : Access} {bytes : Bytes}
    (accesses : List Access) (hwritten : access.written? = some (hash, bytes)) :
    lastBytes? hash (accesses ++ [access]) = some bytes := by
  have hwrites : access.writesTo hash = true := Access.writesTo_iff.mpr ⟨bytes, hwritten⟩
  simp [lastBytes?, lastWrite?, List.filter_append, hwrites, hwritten]

theorem lastBytes?_append_of_not_writesTo {hash : Hash} {access : Access}
    (accesses : List Access) (hwrites : access.writesTo hash = false) :
    lastBytes? hash (accesses ++ [access]) = lastBytes? hash accesses := by
  simp [lastBytes?, lastWrite?, List.filter_append, hwrites]

/-- The bytes under a hash are those that were written there last. -/
theorem find?_run (accesses : List Access) (hash : Hash) :
    (empty.run accesses).find? hash = lastBytes? hash accesses := by
  apply run_induction fun accesses archive => archive.find? hash = lastBytes? hash accesses
  · rfl
  · intro accesses archive access hwritten ih
    have hwrites : access.writesTo hash = false := by simp [Access.writesTo, hwritten]
    rw [lastBytes?_append_of_not_writesTo _ hwrites, ih]
  · intro accesses archive access other bytes hwritten ih
    rw [find?_insert]
    by_cases hhash : hash = other
    · subst hhash
      rw [if_pos rfl, lastBytes?_append_of_writesTo _ hwritten]
    · have hwrites : access.writesTo hash = false := by
        simpa [Access.writesTo, hwritten] using Ne.symm hhash
      rw [if_neg hhash, lastBytes?_append_of_not_writesTo _ hwrites, ih]

end Lookup

section Size

theorem keys_insert (archive : Archive) (hash : Hash) (bytes : Bytes) :
    (archive.insert hash bytes).keys = hash :: archive.keys.filter (· ≠ hash) := by
  simp [keys, insert, List.filter_map, Function.comp_def]

/-- No hash has two entries. -/
theorem nodup_keys_run (accesses : List Access) : (empty.run accesses).keys.Nodup := by
  apply run_induction fun _ archive => archive.keys.Nodup
  · exact List.nodup_nil
  · intro _ archive _ _ ih
    exact ih
  · intro _ archive _ hash bytes _ ih
    rw [keys_insert]
    exact List.nodup_cons.mpr ⟨by simp, ih.filter _⟩

/-- The hashes with an entry are those that were written under. -/
theorem mem_keys_run {accesses : List Access} {hash : Hash} :
    hash ∈ (empty.run accesses).keys ↔ hash ∈ hashes accesses := by
  apply run_induction fun accesses archive => hash ∈ archive.keys ↔ hash ∈ hashes accesses
  · rfl
  · intro accesses archive access hwritten ih
    simpa [hashes, hwritten] using ih
  · intro accesses archive access other bytes hwritten ih
    have hhashes : hashes (accesses ++ [access]) = hashes accesses ++ [other] := by
      simp [hashes, hwritten]
    rw [keys_insert, hhashes, List.mem_cons, List.mem_filter, ih]
    by_cases hhash : hash = other <;> simp [hhash]

/-- There are as many entries as hashes that were written under. -/
theorem size_run (accesses : List Access) :
    (empty.run accesses).size = (hashes accesses).dedup.length := by
  have hperm : (empty.run accesses).keys.Perm (hashes accesses).dedup := by
    rw [List.perm_ext_iff_of_nodup (nodup_keys_run accesses) (List.nodup_dedup _)]
    intro hash
    rw [List.mem_dedup, mem_keys_run]
  rw [← hperm.length_eq]
  exact (List.length_map Prod.fst).symm

end Size

section Order

namespace SameOrder

variable {accesses others : List Access}

theorem append (hsame : SameOrder accesses others) (later : List Access) :
    SameOrder (accesses ++ later) (others ++ later) := by
  intro hash
  rw [List.filter_append, List.filter_append, hsame hash]

theorem find?_eq (hsame : SameOrder accesses others) (hash : Hash) :
    (empty.run accesses).find? hash = (empty.run others).find? hash := by
  rw [find?_run, find?_run, lastBytes?, lastBytes?, lastWrite?, lastWrite?, hsame hash]

theorem size_eq (hsame : SameOrder accesses others) :
    (empty.run accesses).size = (empty.run others).size := by
  have hmem : ∀ {accesses : List Access} {hash : Hash},
      hash ∈ hashes accesses ↔ accesses.filter (Access.writesTo hash) ≠ [] := by
    intro accesses hash
    simp [hashes, List.filter_eq_nil_iff, Access.writesTo_iff]
  have hperm : (hashes accesses).dedup.Perm (hashes others).dedup := by
    rw [List.perm_ext_iff_of_nodup (List.nodup_dedup _) (List.nodup_dedup _)]
    intro hash
    rw [List.mem_dedup, List.mem_dedup, hmem, hmem, hsame hash]
  rw [size_run, size_run, hperm.length_eq]

/-- What is answered depends on what is found under hashes and on the size only. -/
theorem answer_eq (hsame : SameOrder accesses others) (access : Access) :
    ((empty.run accesses).perform access).1 = ((empty.run others).perform access).1 := by
  have hread : ∀ hash, Backend.read (empty.run accesses) hash =
      Backend.read (empty.run others) hash := by
    intro hash
    exact congrArg Except.ok (hsame.find?_eq hash)
  have hload : ∀ hash, Backend.load (empty.run accesses) hash =
      Backend.load (empty.run others) hash := by
    intro hash
    unfold Backend.load
    rw [hread]
  cases access with
  | persist trace => rfl
  | write hash bytes => rfl
  | read hash => exact congrArg Answer.bytes (hread hash)
  | load hash => exact congrArg Answer.trace (hload hash)
  | loadRendered hash =>
      simp only [perform, Backend.loadRendered]
      rw [hload]
  | count => exact congrArg Answer.size hsame.size_eq

/-- No later answer tells two histories apart if the writes under each hash follow one
another in the same order in both. -/
theorem answers_eq (hsame : SameOrder accesses others) (later : List Access) :
    (empty.run accesses).answers later = (empty.run others).answers later := by
  induction later generalizing accesses others with
  | nil => rfl
  | cons access later ih =>
      have hnext := ih (hsame.append [access])
      rw [run_append, run_append] at hnext
      exact congrArg₂ List.cons (hsame.answer_eq access) hnext

end SameOrder

end Order

section Load

variable {archive : Archive} {hash : Hash}

theorem load_of_nothing (hfind : archive.find? hash = none ∨ archive.find? hash = some []) :
    Backend.load archive hash = .error (.notFound hash) := by
  have hread : Backend.read archive hash = .ok (archive.find? hash) := rfl
  unfold Backend.load
  rcases hfind with hfind | hfind <;> rw [hread, hfind]

theorem load_of_bytes {bytes : Bytes} (hfind : archive.find? hash = some bytes)
    (hbytes : bytes ≠ []) :
    Backend.load archive hash = (Stored.decode bytes).mapError .undecodable := by
  have hread : Backend.read archive hash = .ok (archive.find? hash) := rfl
  unfold Backend.load
  rw [hread, hfind]
  cases bytes with
  | nil => exact absurd rfl hbytes
  | cons byte bytes =>
      simp only
      cases Stored.decode (byte :: bytes) <;> rfl

/-- The bytes of a trace are never mistaken for no trace, even if it has no nodes. -/
theorem load_of_encode {trace : TraceSet} (hfind : archive.find? hash = some (Stored.encode trace))
    (hlength : (Stored.encode trace).length < 2 ^ 64) :
    Backend.load archive hash = .ok ⟨trace.context, trace.nodes.map Node.stored⟩ := by
  rw [load_of_bytes hfind (Stored.SetRecord.lawful_codec.encode_ne_nil _),
    Stored.decode_encode hlength]
  rfl

end Load

section Persisted

variable {accesses : List Access} {hash : Hash} {trace : TraceSet}

theorem lastBytes?_of_persist (hlast : lastWrite? hash accesses = some (.persist trace)) :
    lastBytes? hash accesses = some (Stored.encode trace) := by
  rw [lastBytes?, hlast]
  rfl

theorem load_of_persist (hlast : lastWrite? hash accesses = some (.persist trace))
    (hlength : (Stored.encode trace).length < 2 ^ 64) :
    Backend.load (empty.run accesses) hash =
      .ok ⟨trace.context, trace.nodes.map Node.stored⟩ := by
  apply load_of_encode _ hlength
  rw [find?_run, lastBytes?_of_persist hlast]

/-- A trace is read under the hash of its own transaction where only traces were written. -/
theorem transactionHash_of_load
    (hpersist : ∀ access ∈ accesses, access.writesTo hash →
      ∃ trace, access = .persist trace ∧ (Stored.encode trace).length < 2 ^ 64)
    (hload : Backend.load (empty.run accesses) hash = .ok trace) :
    trace.context.transactionHash = hash := by
  cases hlast : lastWrite? hash accesses with
  | none =>
      have hfind : (empty.run accesses).find? hash = none := by
        rw [find?_run, lastBytes?, hlast]
        rfl
      rw [load_of_nothing (.inl hfind)] at hload
      cases hload
  | some access =>
      obtain ⟨hmem, hwrites⟩ := List.mem_filter.mp (List.mem_of_getLast? hlast)
      obtain ⟨written, rfl, hlength⟩ := hpersist access hmem hwrites
      obtain ⟨bytes, hwritten⟩ := Access.writesTo_iff.mp hwrites
      rw [load_of_persist hlast hlength] at hload
      cases hload
      exact congrArg Prod.fst (Option.some.inj hwritten)

end Persisted

/-- An archive answers from the last write under each hash of its history. -/
structure AnswersFromLastWrites (accesses : List Access) (archive : Archive) : Prop where
  /-- Nothing and no bytes at all count as no trace. -/
  load_eq_notFound : ∀ hash, lastBytes? hash accesses = none ∨ lastBytes? hash accesses = some [] →
    Backend.load archive hash = .error (.notFound hash)
  /-- Other bytes are decoded. -/
  load_eq_decode : ∀ hash bytes, lastBytes? hash accesses = some bytes → bytes ≠ [] →
    Backend.load archive hash = (Stored.decode bytes).mapError .undecodable
  /-- A trace comes back as it was. -/
  load_eq_persisted : ∀ hash trace, lastWrite? hash accesses = some (.persist trace) →
    (∀ node ∈ trace.nodes, node.resultFits) → (Stored.encode trace).length < 2 ^ 64 →
    Backend.load archive hash = .ok trace ∧
      Backend.loadRendered archive hash = .ok (Rendered.ofTraceSet trace)
  /-- A trace is found under its own hash. -/
  transactionHash_eq : ∀ hash trace,
    (∀ access ∈ accesses, access.writesTo hash →
      ∃ trace, access = .persist trace ∧ (Stored.encode trace).length < 2 ^ 64) →
    Backend.load archive hash = .ok trace → trace.context.transactionHash = hash
  /-- Only writes change anything. -/
  perform_eq_self : ∀ access : Access, access.written? = none → (archive.perform access).2 = archive
  /-- Each hash counts once. -/
  size_eq : archive.size = (hashes accesses).dedup.length
  /-- Writes under different hashes may change places. -/
  answers_eq : ∀ others, SameOrder accesses others → ∀ later,
    archive.answers later = (empty.run others).answers later

/-- After every history, an archive answers from the last write under each hash. -/
theorem answers_from_last_writes (accesses : List Access) :
    AnswersFromLastWrites accesses (empty.run accesses) where
  load_eq_notFound hash hlast := load_of_nothing (by rwa [find?_run])
  load_eq_decode hash bytes hlast hbytes := load_of_bytes (by rwa [find?_run]) hbytes
  load_eq_persisted hash trace hlast hfits hlength := by
    have hload : Backend.load (empty.run accesses) hash = .ok trace := by
      rw [load_of_persist hlast hlength, (Stored.map_stored_eq_iff trace.nodes).mpr hfits]
    exact ⟨hload, bind_eq_ok hload rfl⟩
  transactionHash_eq _ _ := transactionHash_of_load
  perform_eq_self _ hwritten := perform_of_not_written _ hwritten
  size_eq := size_run accesses
  answers_eq _ hsame := hsame.answers_eq

/-- An empty trace in place of no bytes, with corrupt bytes under another hash. -/
theorem answers_from_last_writes_of_empty_trace :
    let trace : TraceSet := .empty default
    let hash : Hash := default
    let other : Hash := .ofNat 32 1
    let accesses : List Access :=
      [.write hash [], .load hash, .write other [0xc3, 0x01], .persist trace]
    let others : List Access := [.write other [0xc3, 0x01], .write hash [], .persist trace]
    (Stored.encode trace).length < 2 ^ 64 ∧
      Backend.load (empty.run (accesses.take 2)) hash = .error (.notFound hash) ∧
      Backend.load (empty.run accesses) other =
        (Stored.decode [0xc3, 0x01]).mapError .undecodable ∧
      Backend.load (empty.run accesses) hash = .ok trace ∧
      (empty.run accesses).size = 2 ∧
      (empty.run accesses).answers [.load hash, .count] =
        (empty.run others).answers [.load hash, .count] := by
  intro trace hash other accesses others
  have hlength : (Stored.encode trace).length < 2 ^ 64 := by decide +kernel
  have hanswers := answers_from_last_writes accesses
  have hsame : SameOrder accesses others := by
    intro key
    by_cases hkey : other = key
    · subst hkey
      rfl
    · simp [accesses, others, List.filter_cons, Access.writesTo, Access.written?, hkey]
  refine ⟨hlength, ?_, ?_, ?_, ?_, ?_⟩
  · exact (answers_from_last_writes (accesses.take 2)).load_eq_notFound hash (.inr rfl)
  · exact hanswers.load_eq_decode other _ rfl (by decide)
  · exact (hanswers.load_eq_persisted hash trace rfl (by decide) hlength).1
  · exact hanswers.size_eq.trans (by decide)
  · exact hanswers.answers_eq others hsame _

end CallTrace.Archive
