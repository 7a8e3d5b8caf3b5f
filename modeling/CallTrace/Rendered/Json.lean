import CallTrace.Json.Record
import CallTrace.Rendered.Entry

/-!
# Rendered traces as JSON

Entries are written with their fields in a fixed order.  Byte strings and amounts
are hexadecimal text, counts and positions are numbers.  Most fields that are
absent are left out; the sender and the value of an action are null instead.

Entries are read with more tolerance, see the reading of records and of the values
of their fields.
-/

namespace CallTrace.Rendered

open Json (member optionalMember nullableMember)

/-- A byte string. -/
def bytesJson (bytes : Bytes) : Json :=
  .text (Hex.ofBytes bytes)

/-- A byte string of a certain length. -/
def fixedBytesJson {width : Nat} (fixed : FixedBytes width) : Json :=
  bytesJson fixed.bytes

/-- A word. -/
def wordJson (word : Word) : Json :=
  .text (Hex.ofNat word.toNat)

/-- A 64-bit quantity. -/
def gasJson (gas : UInt64) : Json :=
  .text (Hex.ofNat gas.toNat)

namespace ActionEntry

/-- The fields in their order, with the shapes of their values. -/
def layout : List (String × Json.Shape) :=
  [("callType", .any), ("from", .fixedBytes 20), ("to", .fixedBytes 20), ("value", .any),
    ("gas", .any), ("init", .any), ("input", .any), ("address", .fixedBytes 20),
    ("refundAddress", .fixedBytes 20), ("balance", .any)]

/-- An action as an object. -/
def toJson (entry : ActionEntry) : Json :=
  .object <|
    optionalMember "callType" (entry.callType.map .text) ++
    nullableMember "from" (entry.sender.map fixedBytesJson) ++
    optionalMember "to" (entry.target.map fixedBytesJson) ++
    nullableMember "value" (entry.value.map wordJson) ++
    member "gas" (gasJson entry.gas) ++
    optionalMember "init" (entry.initCode.map bytesJson) ++
    optionalMember "input" (entry.input.map bytesJson) ++
    optionalMember "address" (entry.contract.map fixedBytesJson) ++
    optionalMember "refundAddress" (entry.beneficiary.map fixedBytesJson) ++
    optionalMember "balance" (entry.balance.map wordJson)

/-- The action that a value holds.  Only its gas has to be there. -/
def ofJson? (json : Json) : Option ActionEntry := do
  let fields ← json.fields? layout
  return {
    callType := ← fields.optional "callType" Json.readText
    sender := ← fields.optional "from" (Json.readFixedBytes 20)
    target := ← fields.optional "to" (Json.readFixedBytes 20)
    value := ← fields.optional "value" Json.readWord
    gas := ← fields.required "gas" Json.readGas
    initCode := ← fields.optional "init" Json.readBytes
    input := ← fields.optional "input" Json.readBytes
    contract := ← fields.optional "address" (Json.readFixedBytes 20)
    beneficiary := ← fields.optional "refundAddress" (Json.readFixedBytes 20)
    balance := ← fields.optional "balance" Json.readWord }

end ActionEntry

namespace ResultEntry

/-- The fields in their order, with the shapes of their values. -/
def layout : List (String × Json.Shape) :=
  [("gasUsed", .any), ("output", .any), ("code", .any), ("address", .fixedBytes 20)]

/-- A result as an object. -/
def toJson (entry : ResultEntry) : Json :=
  .object <|
    member "gasUsed" (gasJson entry.gasUsed) ++
    optionalMember "output" (entry.output.map bytesJson) ++
    optionalMember "code" (entry.code.map bytesJson) ++
    optionalMember "address" (entry.created.map fixedBytesJson)

/-- The result that a value holds.  Only the gas used has to be there. -/
def ofJson? (json : Json) : Option ResultEntry := do
  let fields ← json.fields? layout
  return {
    gasUsed := ← fields.required "gasUsed" Json.readGas
    output := ← fields.optional "output" Json.readBytes
    code := ← fields.optional "code" Json.readBytes
    created := ← fields.optional "address" (Json.readFixedBytes 20) }

end ResultEntry

namespace Entry

/-- The fields in their order, with the shapes of their values. -/
def layout : List (String × Json.Shape) :=
  [("action", .record ActionEntry.layout), ("blockHash", .fixedBytes 32),
    ("blockNumber", .any), ("result", .record ResultEntry.layout), ("error", .any),
    ("subtraces", .any), ("traceAddress", .any), ("transactionHash", .fixedBytes 32),
    ("transactionPosition", .any), ("type", .any)]

/-- An entry as an object. -/
def toJson (entry : Entry) : Json :=
  .object <|
    member "action" entry.action.toJson ++
    member "blockHash" (fixedBytesJson entry.blockHash) ++
    member "blockNumber" (.natural entry.blockNumber.toNat) ++
    optionalMember "result" (entry.result.map ResultEntry.toJson) ++
    optionalMember "error" (entry.error.map .text) ++
    member "subtraces" (.natural entry.subtraces.toNat) ++
    member "traceAddress" (.array (entry.path.map fun child => .natural child.toNat)) ++
    member "transactionHash" (fixedBytesJson entry.transactionHash) ++
    member "transactionPosition" (.natural entry.transactionPosition.toNat) ++
    member "type" (.text entry.label)

/-- The entry that a value holds.  Only its result and its error may be missing. -/
def ofJson? (json : Json) : Option Entry := do
  let fields ← json.fields? layout
  return {
    action := ← fields.required "action" ActionEntry.ofJson?
    blockHash := ← fields.required "blockHash" (Json.readFixedBytes 32)
    blockNumber := ← fields.required "blockNumber" Json.readUInt64
    result := ← fields.optional "result" ResultEntry.ofJson?
    error := ← fields.optional "error" Json.readText
    subtraces := ← fields.required "subtraces" Json.readUInt32
    path := ← fields.required "traceAddress" (Json.readArray Json.readUInt32)
    transactionHash := ← fields.required "transactionHash" (Json.readFixedBytes 32)
    transactionPosition := ← fields.required "transactionPosition" Json.readUInt64
    label := ← fields.required "type" Json.readText }

/-- The text of an entry. -/
def toText (entry : Entry) : String :=
  entry.toJson.toText

/-- The entry that a text holds. -/
def ofText? (source : String) : Option Entry :=
  (Json.ofText? (.record layout) source).bind ofJson?

end Entry

/-- The text of a list of entries. -/
def toText (entries : List Entry) : String :=
  (Json.array (entries.map Entry.toJson)).toText

/-- The list of entries that a text holds. -/
def ofText? (source : String) : Option (List Entry) :=
  (Json.ofText? (.list (.record Entry.layout)) source).bind (Json.readArray Entry.ofJson?)

/-- The rendered text of a trace. -/
def text (trace : TraceSet) : String :=
  toText (ofTraceSet trace)

end CallTrace.Rendered
