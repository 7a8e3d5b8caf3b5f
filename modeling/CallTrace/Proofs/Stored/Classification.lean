import CallTrace.Proofs.Rlp.Truncated
import CallTrace.Proofs.Stored.Fault
import CallTrace.Proofs.Stored.RoundTrip
import Mathlib.Logic.ExistsUnique

/-!
# What reading a byte string finds

There are four things that a byte string can be: no record with whatever behind it, a
record with more behind it, a record with a node that no trace has, or the record of a
trace.  It is always exactly one of these, since records delimit themselves, and each has
its own answer.
-/

namespace CallTrace.Stored

/-- What there is to be found in a byte string. -/
inductive Finding where
  | noRecord
  | surplus (record : SetRecord) (rest : Bytes)
  | unusable (record : SetRecord) (error : Error)
  | usable (record : SetRecord)

namespace Finding

/-- Whether this is what a byte string holds. -/
def Holds (input : Bytes) : Finding → Prop
  | noRecord => ∀ record, ¬ SetRecord.codec.encode record <+: input
  | surplus record rest => input = SetRecord.codec.encode record ++ rest ∧ rest ≠ []
  | unusable record error =>
      input = SetRecord.codec.encode record ∧ SetRecord.FirstFault record.nodes error
  | usable record =>
      input = SetRecord.codec.encode record ∧ ∀ node ∈ record.nodes, node.action.Usable

/-- Whether an answer is the one that this deserves. -/
def Answers (answer : Except Error TraceSet) : Finding → Prop
  | noRecord => ∃ cause, answer = .error (.rlp cause)
  | surplus _ rest => answer = .error (.trailingBytes rest.length)
  | unusable _ error => answer = .error error
  | usable record => ∃ trace, answer = .ok trace ∧ record.toTraceSet = .ok trace

/-- What reading finds in a byte string. -/
def ofInput (input : Bytes) : Finding :=
  match SetRecord.codec.decode input with
  | .error _ => noRecord
  | .ok (record, []) =>
      match record.toTraceSet with
      | .error error => unusable record error
      | .ok _ => usable record
  | .ok (record, first :: behind) => surplus record (first :: behind)

/-- The record in front of an input is read. -/
theorem decode_append {record : SetRecord} {rest : Bytes}
    (hlength : (SetRecord.codec.encode record ++ rest).length < 2 ^ 64) :
    SetRecord.codec.decode (SetRecord.codec.encode record ++ rest) = .ok (record, rest) := by
  rw [List.length_append] at hlength
  exact SetRecord.lawful_codec.decode_encode record rest (by omega)

/-- What reading finds is there. -/
theorem holds_ofInput {input : Bytes} (hlength : input.length < 2 ^ 64) :
    (ofInput input).Holds input := by
  unfold ofInput
  split
  · next cause hdecode =>
    rintro record ⟨rest, rfl⟩
    rw [decode_append hlength] at hdecode
    cases hdecode
  · next record hdecode =>
    have hinput := SetRecord.lawful_codec.eq_of_decode hdecode
    rw [List.append_nil] at hinput
    cases htrace : record.toTraceSet with
    | error error => exact ⟨hinput, SetRecord.toTraceSet_eq_error_iff.mp htrace⟩
    | ok trace =>
        refine ⟨hinput, SetRecord.forall_usable_iff.mpr ?_⟩
        intro error hfault
        rw [SetRecord.toTraceSet_eq_error_iff.mpr hfault] at htrace
        cases htrace
  · next record first behind hdecode =>
    exact ⟨SetRecord.lawful_codec.eq_of_decode hdecode, List.cons_ne_nil first behind⟩

/-- What is there is what reading finds, so nothing else can be there. -/
theorem eq_ofInput_of_holds {input : Bytes} (hlength : input.length < 2 ^ 64) {finding : Finding}
    (hholds : finding.Holds input) : finding = ofInput input := by
  unfold ofInput
  cases finding with
  | noRecord =>
      cases hdecode : SetRecord.codec.decode input with
      | error cause => rfl
      | ok found =>
          have hinput := SetRecord.lawful_codec.eq_of_decode hdecode
          exact absurd ⟨found.2, hinput.symm⟩ (hholds found.1)
  | surplus record rest =>
      obtain ⟨rfl, hrest⟩ := hholds
      obtain ⟨first, behind, rfl⟩ := List.exists_cons_of_ne_nil hrest
      rw [decode_append hlength]
  | unusable record error =>
      obtain ⟨hinput, hfault⟩ := hholds
      rw [← List.append_nil (SetRecord.codec.encode record)] at hinput
      subst hinput
      rw [decode_append hlength]
      simp only [SetRecord.toTraceSet_eq_error_iff.mpr hfault]
  | usable record =>
      obtain ⟨hinput, husable⟩ := hholds
      rw [← List.append_nil (SetRecord.codec.encode record)] at hinput
      subst hinput
      rw [decode_append hlength]
      cases htrace : record.toTraceSet with
      | error error =>
          have hfault := SetRecord.toTraceSet_eq_error_iff.mp htrace
          exact absurd hfault (SetRecord.forall_usable_iff.mp husable error)
      | ok trace => simp only [htrace]

/-- Reading answers as it should to what it finds. -/
theorem answers_ofInput (input : Bytes) : (ofInput input).Answers (decode input) := by
  unfold ofInput decode decodeRecord
  cases SetRecord.codec.decode input with
  | error cause => exact ⟨cause, rfl⟩
  | ok found =>
      obtain ⟨record, _ | ⟨first, behind⟩⟩ := found
      · cases htrace : record.toTraceSet with
        | error error => simp [Answers, htrace]
        | ok trace => simp [Answers, htrace]
      · rfl

end Finding

/-- A stored trace of which the end is missing is too short. -/
theorem decode_truncated {trace : TraceSet} {input : Bytes}
    (hlength : (encode trace).length < 2 ^ 64) (hinput : input <+: encode trace)
    (hne : input ≠ encode trace) : decode input = .error (.rlp .inputTooShort) := by
  have hdecode : SetRecord.codec.decode input = .error .inputTooShort :=
    SetRecord.isRecord_codec.decode_truncated hlength hinput hne
  unfold decode decodeRecord
  rw [hdecode]
  rfl

/-- A byte string is exactly one of the four things that it can be, and the answer to
reading it is the one that this deserves.  In particular, a stored trace that is cut off
is too short, and what follows a stored trace is counted. -/
theorem decode_classifies (input : Bytes) (hlength : input.length < 2 ^ 64) :
    (∃! finding : Finding, finding.Holds input) ∧
      (∀ finding : Finding, finding.Holds input → finding.Answers (decode input)) ∧
      ∀ trace : TraceSet, (encode trace).length < 2 ^ 64 →
        (input <+: encode trace → input ≠ encode trace →
          decode input = .error (.rlp .inputTooShort)) ∧
        ∀ rest, rest ≠ [] → input = encode trace ++ rest →
          decode input = .error (.trailingBytes rest.length) := by
  have hanswers : ∀ finding : Finding, finding.Holds input → finding.Answers (decode input) := by
    intro finding hholds
    rw [Finding.eq_ofInput_of_holds hlength hholds]
    exact Finding.answers_ofInput input
  refine ⟨?_, hanswers, ?_⟩
  · refine ⟨.ofInput input, Finding.holds_ofInput hlength, ?_⟩
    intro finding hholds
    exact Finding.eq_ofInput_of_holds hlength hholds
  · intro trace htrace
    constructor
    · exact decode_truncated htrace
    · intro rest hrest hinput
      exact hanswers (.surplus (.ofTraceSet trace) rest) ⟨hinput, hrest⟩

/-- A node of a kind that does not exist is reported before one that lacks a field. -/
theorem decode_classifies_of_unknown_kind :
    let node : NodeRecord :=
      ⟨.ofAction (.selfDestruct ⟨default, default, 0⟩), none, none, [], 2⟩
    let unknown : NodeRecord := { node with action := .blank 9, path := [0] }
    let lacking : NodeRecord := { node with action := .blank 1, path := [1] }
    let input := SetRecord.codec.encode ⟨[node, unknown, lacking], default, 0, default, 0⟩
    input.length < 2 ^ 64 ∧ decode input = .error (.unknownKind 9) := by
  intro node unknown lacking input
  have hlength : input.length < 2 ^ 64 := by decide +kernel
  have hnode : node.action.Usable := NodeRecord.usable_iff.mpr ⟨_, rfl⟩
  have hunknown : unknown.action.HasFault (.unknownKind 9) := .unknownKind (by decide)
  have hfault : SetRecord.FirstFault [node, unknown, lacking] (.unknownKind 9) :=
    .tail hnode (.head hunknown [lacking])
  have hfinding : (Finding.unusable _ (.unknownKind 9)).Holds input := ⟨rfl, hfault⟩
  exact ⟨hlength, (decode_classifies input hlength).2.1 _ hfinding⟩

end CallTrace.Stored
