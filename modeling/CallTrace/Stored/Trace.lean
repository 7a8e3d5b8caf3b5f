import CallTrace.Stored.Record
import CallTrace.Trace.Node

/-!
# Traces in their stored form

Every trace can be stored.  Reading a stored trace can fail: its bytes may be no
record at all, may go on after the record, or the record may lack a field that
its kind of node needs.
-/

namespace CallTrace.Stored

/-- The fields of an action that may be found missing. -/
inductive Field where
  | sender
  | target
  | contract
  | beneficiary
deriving DecidableEq, Repr

/-- The name of a field in messages. -/
def Field.label : Field → String
  | sender => "from"
  | target => "to"
  | contract => "address"
  | beneficiary => "refundAddress"

/-- Why bytes are not a stored trace. -/
inductive Error where
  | rlp (cause : Rlp.Error)
  | unknownKind (tag : UInt8)
  | missingField (kind : Kind) (field : Field)
  | trailingBytes (count : Nat)
deriving DecidableEq, Repr

/-- The wording of an error. -/
def Error.message : Error → String
  | rlp cause => "Invalid RLP: " ++ cause.message
  | unknownKind tag => "Unknown trace kind tag " ++ toString tag.toNat
  | missingField kind field =>
      "Missing field `" ++ field.label ++ "` for " ++ kind.label ++ " trace"
  | trailingBytes count => toString count ++ " trailing bytes after encoded trace set"

/-- The tag of a kind of action. -/
def tagOfKind : Kind → UInt8
  | .create => 0
  | .call .call => 1
  | .call .callCode => 2
  | .call .delegateCall => 3
  | .call .staticCall => 4
  | .selfDestruct => 5

/-- The kind of action behind a tag. -/
def kindOfTag? (tag : UInt8) : Option Kind :=
  match tag with
  | 0 => some .create
  | 1 => some (.call .call)
  | 2 => some (.call .callCode)
  | 3 => some (.call .delegateCall)
  | 4 => some (.call .staticCall)
  | 5 => some .selfDestruct
  | _ => none

@[simp]
theorem kindOfTag?_tagOfKind (kind : Kind) : kindOfTag? (tagOfKind kind) = some kind := by
  match kind with
  | .create => rfl
  | .call .call => rfl
  | .call .callCode => rfl
  | .call .delegateCall => rfl
  | .call .staticCall => rfl
  | .selfDestruct => rfl

namespace ActionRecord

/-- A record with a tag and no other data. -/
def blank (tag : UInt8) : ActionRecord where
  tag
  sender := none
  target := none
  value := none
  gas := 0
  initCode := []
  input := []
  contract := none
  beneficiary := none
  balance := none

/-- The record of an action. -/
def ofAction (action : Action) : ActionRecord :=
  match action with
  | .call details =>
      { blank (tagOfKind action.kind) with
        sender := some details.caller
        target := some details.callee
        value := some details.value
        gas := details.gas
        input := details.input }
  | .create details =>
      { blank (tagOfKind action.kind) with
        sender := some details.creator
        value := some details.value
        gas := details.gas
        initCode := details.initCode
        contract := details.created }
  | .selfDestruct details =>
      { blank (tagOfKind action.kind) with
        contract := some details.contract
        beneficiary := some details.beneficiary
        balance := some details.balance }

/-- A field that actions of the given kind cannot do without. -/
def required (kind : Kind) (field : Field) (address? : Option Address) : Except Error Address :=
  match address? with
  | some address => .ok address
  | none => .error (.missingField kind field)

/-- The action of a record.  Fields foreign to its kind are ignored, and a missing
amount is zero. -/
def toAction (record : ActionRecord) : Except Error Action :=
  match kindOfTag? record.tag with
  | none => .error (.unknownKind record.tag)
  | some (.call variant) => do
      let caller ← required (.call variant) .sender record.sender
      let callee ← required (.call variant) .target record.target
      return .call {
        variant, caller, callee
        value := record.value.getD 0
        gas := record.gas
        input := record.input }
  | some .create => do
      let creator ← required .create .sender record.sender
      return .create {
        creator
        value := record.value.getD 0
        gas := record.gas
        initCode := record.initCode
        created := record.contract }
  | some .selfDestruct => do
      let contract ← required .selfDestruct .contract record.contract
      let beneficiary ← required .selfDestruct .beneficiary record.beneficiary
      return .selfDestruct {
        contract, beneficiary
        balance := record.balance.getD 0 }

end ActionRecord

namespace ResultRecord

/-- The record of a result.  A self-destruct leaves a record without data, so that
it is not read as having no result. -/
def ofResult : Result → ResultRecord
  | .call gasUsed output => ⟨gasUsed, output, [], none⟩
  | .create gasUsed created code => ⟨gasUsed, [], code, created⟩
  | .selfDestruct => ⟨0, [], [], none⟩

/-- The result of a record, of the same kind as the action it belongs to. -/
def toResult (record : ResultRecord) : Action → Result
  | .call _ => .call record.gasUsed record.output
  | .create _ => .create record.gasUsed record.created record.code
  | .selfDestruct _ => .selfDestruct

end ResultRecord

namespace NodeRecord

/-- The record of a node. -/
def ofNode (node : Node) : NodeRecord where
  action := .ofAction node.action
  result := node.result?.map .ofResult
  error := node.error?
  path := node.path
  subtraces := node.subtraces

/-- The outcome that a record gives to an action.  An error counts for more than a
result. -/
def outcome (record : NodeRecord) (action : Action) : Option Outcome :=
  match record.error, record.result with
  | some message, _ => some (.failure message)
  | none, some result => some (.success (result.toResult action))
  | none, none => none

/-- The node of a record. -/
def toNode (record : NodeRecord) : Except Error Node := do
  let action ← record.action.toAction
  return ⟨action, record.outcome action, record.path, record.subtraces⟩

end NodeRecord

namespace SetRecord

/-- The record of a trace. -/
def ofTraceSet (trace : TraceSet) : SetRecord where
  nodes := trace.nodes.map .ofNode
  blockHash := trace.context.blockHash
  blockNumber := trace.context.blockNumber
  transactionHash := trace.context.transactionHash
  transactionPosition := trace.context.transactionPosition

/-- The trace of a record.  Of several bad nodes the first is reported. -/
def toTraceSet (record : SetRecord) : Except Error TraceSet := do
  let nodes ← record.nodes.mapM NodeRecord.toNode
  return {
    context := {
      blockHash := record.blockHash
      blockNumber := record.blockNumber
      transactionHash := record.transactionHash
      transactionPosition := record.transactionPosition }
    nodes }

end SetRecord

/-- Reads the one record that fills the input. -/
def decodeRecord (input : Bytes) : Except Error SetRecord :=
  match SetRecord.codec.decode input with
  | .error cause => .error (.rlp cause)
  | .ok (record, rest) =>
      if rest.isEmpty then .ok record else .error (.trailingBytes rest.length)

/-- The bytes under which a trace is stored. -/
def encode (trace : TraceSet) : Bytes :=
  SetRecord.codec.encode (.ofTraceSet trace)

/-- The trace stored as the given bytes. -/
def decode (input : Bytes) : Except Error TraceSet := do
  let record ← decodeRecord input
  record.toTraceSet

end CallTrace.Stored
