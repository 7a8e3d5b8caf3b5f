import CallTrace.Trace.Node

/-!
# Rendered traces

The descriptive form in which traces are handed out: one entry for each node, which
repeats the transaction it belongs to.  The fields of an action that do not apply
to its kind are absent.
-/

namespace CallTrace.Rendered

/-- The action of an entry. -/
structure ActionEntry where
  callType : Option String
  sender : Option Address
  target : Option Address
  value : Option Word
  gas : UInt64
  initCode : Option Bytes
  input : Option Bytes
  contract : Option Address
  beneficiary : Option Address
  balance : Option Word
deriving DecidableEq

/-- The result of an entry. -/
structure ResultEntry where
  gasUsed : UInt64
  output : Option Bytes
  code : Option Bytes
  created : Option Address
deriving DecidableEq

/-- One node of a trace together with its transaction. -/
structure Entry where
  action : ActionEntry
  blockHash : Hash
  blockNumber : UInt64
  result : Option ResultEntry
  error : Option String
  subtraces : UInt32
  path : List UInt32
  transactionHash : Hash
  transactionPosition : UInt64
  label : String
deriving DecidableEq

/-- An action without any data. -/
def ActionEntry.blank : ActionEntry where
  callType := none
  sender := none
  target := none
  value := none
  gas := 0
  initCode := none
  input := none
  contract := none
  beneficiary := none
  balance := none

/-- The rendered form of an action.  The address of a new contract is part of the
result only. -/
def ActionEntry.ofAction : Action → ActionEntry
  | .call details =>
      { blank with
        callType := some details.variant.label
        sender := some details.caller
        target := some details.callee
        value := some details.value
        gas := details.gas
        input := some details.input }
  | .create details =>
      { blank with
        sender := some details.creator
        value := some details.value
        gas := details.gas
        initCode := some details.initCode }
  | .selfDestruct details =>
      { blank with
        contract := some details.contract
        beneficiary := some details.beneficiary
        balance := some details.balance }

/-- The rendered form of a result.  A self-destruct has none. -/
def ResultEntry.ofResult? : Result → Option ResultEntry
  | .call gasUsed output => some ⟨gasUsed, some output, none, none⟩
  | .create gasUsed created code => some ⟨gasUsed, none, some code, created⟩
  | .selfDestruct => none

/-- The label of an entry.  All ways of calling share one. -/
def labelOfKind : Kind → String
  | .call _ => "call"
  | .create => Kind.create.label
  | .selfDestruct => Kind.selfDestruct.label

/-- The rendered form of a node. -/
def Entry.ofNode (context : Context) (node : Node) : Entry where
  action := .ofAction node.action
  blockHash := context.blockHash
  blockNumber := context.blockNumber
  result := node.result?.bind ResultEntry.ofResult?
  error := node.error?
  subtraces := node.subtraces
  path := node.path
  transactionHash := context.transactionHash
  transactionPosition := context.transactionPosition
  label := labelOfKind node.action.kind

/-- The rendered form of a trace, in the order of its nodes. -/
def ofTraceSet (trace : TraceSet) : List Entry :=
  trace.nodes.map (.ofNode trace.context)

end CallTrace.Rendered
