import CallTrace.Proofs.Json.Record
import CallTrace.Rendered.Json

/-!
# Rendered traces are read as they were written

The text of a list of entries is read as the same entries, of whatever kinds their actions
are and whatever they hold.
-/

namespace CallTrace.Rendered

open Json (ReadsBack Shape Slots)

/-! ## Values -/

theorem readsBack_bytes (shape : Shape) : ReadsBack shape bytesJson Json.readBytes where
  read_write bytes := Hex.toBytes?_ofBytes bytes
  write_ne_null _ := Json.noConfusion
  isPlain _ := trivial

theorem readsBack_fixedBytes (shape : Shape) (width : Nat) :
    ReadsBack shape fixedBytesJson (Json.readFixedBytes width) where
  read_write fixed := by
    have hbytes := (readsBack_bytes shape).read_write fixed.bytes
    simp only [Json.readFixedBytes, fixedBytesJson, hbytes, Option.bind_some]
    exact FixedBytes.ofBytes?_eq_some_iff.mpr rfl
  write_ne_null _ := Json.noConfusion
  isPlain _ := trivial

theorem readsBack_word (shape : Shape) : ReadsBack shape wordJson Json.readWord where
  read_write word := by
    have hquantity : Json.readQuantity Word.size (wordJson word) = some word.toNat :=
      Json.readQuantity_ofNat word.isLt
    simp [Json.readWord, hquantity]
  write_ne_null _ := Json.noConfusion
  isPlain _ := trivial

theorem readsBack_gas (shape : Shape) : ReadsBack shape gasJson Json.readGas where
  read_write gas := by
    have hquantity : Json.readQuantity UInt64.size (gasJson gas) = some gas.toNat :=
      Json.readQuantity_ofNat gas.toNat_lt_size
    simp [Json.readGas, hquantity]
  write_ne_null _ := Json.noConfusion
  isPlain _ := trivial

/-! ## Records -/

namespace ActionEntry

/-- The fields of an action as they are written. -/
def slots (entry : ActionEntry) : Slots :=
  [("callType", entry.callType.map .text),
    ("from", some ((entry.sender.map fixedBytesJson).getD .null)),
    ("to", entry.target.map fixedBytesJson),
    ("value", some ((entry.value.map wordJson).getD .null)),
    ("gas", some (gasJson entry.gas)),
    ("init", entry.initCode.map bytesJson),
    ("input", entry.input.map bytesJson),
    ("address", entry.contract.map fixedBytesJson),
    ("refundAddress", entry.beneficiary.map fixedBytesJson),
    ("balance", entry.balance.map wordJson)]

theorem toJson_eq (entry : ActionEntry) : entry.toJson = .object entry.slots.members := by
  simp [toJson, slots, Slots.members, Json.optionalMember, Json.nullableMember]

theorem fill_slots (entry : ActionEntry) : entry.slots.Fill layout :=
  ⟨rfl, by decide⟩

theorem ofJson?_toJson (entry : ActionEntry) : ofJson? entry.toJson = some entry := by
  have hfields : entry.toJson.fields? layout = some entry.slots.fields := by
    rw [toJson_eq, entry.fill_slots.fields?_object]
  have hlookup := entry.fill_slots.lookup_fields
  have hcallType := (Json.readsBack_text .any).optional_eq (.inl (hlookup "callType"))
  have hsender := (readsBack_fixedBytes .any 20).optional_eq (.inr (hlookup "from"))
  have htarget := (readsBack_fixedBytes .any 20).optional_eq (.inl (hlookup "to"))
  have hvalue := (readsBack_word .any).optional_eq (.inr (hlookup "value"))
  have hgas := (readsBack_gas .any).required_eq (hlookup "gas")
  have hinitCode := (readsBack_bytes .any).optional_eq (.inl (hlookup "init"))
  have hinput := (readsBack_bytes .any).optional_eq (.inl (hlookup "input"))
  have hcontract := (readsBack_fixedBytes .any 20).optional_eq (.inl (hlookup "address"))
  have hbeneficiary := (readsBack_fixedBytes .any 20).optional_eq (.inl (hlookup "refundAddress"))
  have hbalance := (readsBack_word .any).optional_eq (.inl (hlookup "balance"))
  simp only [ofJson?, hfields, Option.bind_eq_bind, Option.bind_some, hcallType, hsender, htarget,
    hvalue, hgas, hinitCode, hinput, hcontract, hbeneficiary, hbalance]
  rfl

theorem readsBack : ReadsBack (.record layout) toJson ofJson? where
  read_write := ofJson?_toJson
  write_ne_null _ := Json.noConfusion
  isPlain entry := by
    rw [toJson_eq]
    apply Slots.isPlain_object
    simp only [slots, List.forall_mem_cons]
    refine ⟨?_, ?_, ?_, ?_, ?_, ?_, ?_, ?_, ?_, ?_, nofun⟩
    · exact (Json.readsBack_text _).isPlain_map entry.callType
    · exact (readsBack_fixedBytes _ 20).isPlain_nullable entry.sender
    · exact (readsBack_fixedBytes _ 20).isPlain_map entry.target
    · exact (readsBack_word _).isPlain_nullable entry.value
    · exact (readsBack_gas _).isPlain_some entry.gas
    · exact (readsBack_bytes _).isPlain_map entry.initCode
    · exact (readsBack_bytes _).isPlain_map entry.input
    · exact (readsBack_fixedBytes _ 20).isPlain_map entry.contract
    · exact (readsBack_fixedBytes _ 20).isPlain_map entry.beneficiary
    · exact (readsBack_word _).isPlain_map entry.balance

end ActionEntry

namespace ResultEntry

/-- The fields of a result as they are written. -/
def slots (entry : ResultEntry) : Slots :=
  [("gasUsed", some (gasJson entry.gasUsed)),
    ("output", entry.output.map bytesJson),
    ("code", entry.code.map bytesJson),
    ("address", entry.created.map fixedBytesJson)]

theorem toJson_eq (entry : ResultEntry) : entry.toJson = .object entry.slots.members := by
  simp [toJson, slots, Slots.members, Json.optionalMember]

theorem fill_slots (entry : ResultEntry) : entry.slots.Fill layout :=
  ⟨rfl, by decide⟩

theorem ofJson?_toJson (entry : ResultEntry) : ofJson? entry.toJson = some entry := by
  have hfields : entry.toJson.fields? layout = some entry.slots.fields := by
    rw [toJson_eq, entry.fill_slots.fields?_object]
  have hlookup := entry.fill_slots.lookup_fields
  have hgasUsed := (readsBack_gas .any).required_eq (hlookup "gasUsed")
  have houtput := (readsBack_bytes .any).optional_eq (.inl (hlookup "output"))
  have hcode := (readsBack_bytes .any).optional_eq (.inl (hlookup "code"))
  have hcreated := (readsBack_fixedBytes .any 20).optional_eq (.inl (hlookup "address"))
  simp only [ofJson?, hfields, Option.bind_eq_bind, Option.bind_some, hgasUsed, houtput, hcode,
    hcreated]
  rfl

theorem readsBack : ReadsBack (.record layout) toJson ofJson? where
  read_write := ofJson?_toJson
  write_ne_null _ := Json.noConfusion
  isPlain entry := by
    rw [toJson_eq]
    apply Slots.isPlain_object
    simp only [slots, List.forall_mem_cons]
    refine ⟨?_, ?_, ?_, ?_, nofun⟩
    · exact (readsBack_gas _).isPlain_some entry.gasUsed
    · exact (readsBack_bytes _).isPlain_map entry.output
    · exact (readsBack_bytes _).isPlain_map entry.code
    · exact (readsBack_fixedBytes _ 20).isPlain_map entry.created

end ResultEntry

namespace Entry

/-- The fields of an entry as they are written. -/
def slots (entry : Entry) : Slots :=
  [("action", some entry.action.toJson),
    ("blockHash", some (fixedBytesJson entry.blockHash)),
    ("blockNumber", some (.natural entry.blockNumber.toNat)),
    ("result", entry.result.map ResultEntry.toJson),
    ("error", entry.error.map .text),
    ("subtraces", some (.natural entry.subtraces.toNat)),
    ("traceAddress", some (.array (entry.path.map fun child => .natural child.toNat))),
    ("transactionHash", some (fixedBytesJson entry.transactionHash)),
    ("transactionPosition", some (.natural entry.transactionPosition.toNat)),
    ("type", some (.text entry.label))]

theorem toJson_eq (entry : Entry) : entry.toJson = .object entry.slots.members := by
  simp [toJson, slots, Slots.members, Json.optionalMember]

theorem fill_slots (entry : Entry) : entry.slots.Fill layout :=
  ⟨rfl, by decide⟩

/-- The place of a node is an array of numbers. -/
theorem readsBack_path : ReadsBack .any
    (fun path : List UInt32 => .array (path.map fun child => .natural child.toNat))
    (Json.readArray Json.readUInt32) :=
  Json.readsBack_array (Json.readsBack_uint32 .any) rfl

theorem ofJson?_toJson (entry : Entry) : ofJson? entry.toJson = some entry := by
  have hfields : entry.toJson.fields? layout = some entry.slots.fields := by
    rw [toJson_eq, entry.fill_slots.fields?_object]
  have hlookup := entry.fill_slots.lookup_fields
  have haction := ActionEntry.readsBack.required_eq (hlookup "action")
  have hblockHash := (readsBack_fixedBytes .any 32).required_eq (hlookup "blockHash")
  have hblockNumber := (Json.readsBack_uint64 .any).required_eq (hlookup "blockNumber")
  have hresult := ResultEntry.readsBack.optional_eq (.inl (hlookup "result"))
  have herror := (Json.readsBack_text .any).optional_eq (.inl (hlookup "error"))
  have hsubtraces := (Json.readsBack_uint32 .any).required_eq (hlookup "subtraces")
  have hpath := readsBack_path.required_eq (hlookup "traceAddress")
  have hhash := (readsBack_fixedBytes .any 32).required_eq (hlookup "transactionHash")
  have hposition := (Json.readsBack_uint64 .any).required_eq (hlookup "transactionPosition")
  have hlabel := (Json.readsBack_text .any).required_eq (hlookup "type")
  simp only [ofJson?, hfields, Option.bind_eq_bind, Option.bind_some, haction, hblockHash,
    hblockNumber, hresult, herror, hsubtraces, hpath, hhash, hposition, hlabel]
  rfl

theorem readsBack : ReadsBack (.record layout) toJson ofJson? where
  read_write := ofJson?_toJson
  write_ne_null _ := Json.noConfusion
  isPlain entry := by
    rw [toJson_eq]
    apply Slots.isPlain_object
    simp only [slots, List.forall_mem_cons]
    refine ⟨?_, ?_, ?_, ?_, ?_, ?_, ?_, ?_, ?_, ?_, nofun⟩
    · exact ActionEntry.readsBack.isPlain_some entry.action
    · exact (readsBack_fixedBytes _ 32).isPlain_some entry.blockHash
    · exact (Json.readsBack_uint64 _).isPlain_some entry.blockNumber
    · exact ResultEntry.readsBack.isPlain_map entry.result
    · exact (Json.readsBack_text _).isPlain_map entry.error
    · exact (Json.readsBack_uint32 _).isPlain_some entry.subtraces
    · exact readsBack_path.isPlain_some entry.path
    · exact (readsBack_fixedBytes _ 32).isPlain_some entry.transactionHash
    · exact (Json.readsBack_uint64 _).isPlain_some entry.transactionPosition
    · exact (Json.readsBack_text _).isPlain_some entry.label

end Entry

/-! ## Traces -/

/-- A list of entries is read as it was written, whether or not it belongs to a trace. -/
theorem ofText?_toText (entries : List Entry) : ofText? (toText entries) = some entries := by
  have hentries : ReadsBack (.list (.record Entry.layout))
      (fun entries => .array (entries.map Entry.toJson)) (Json.readArray Entry.ofJson?) :=
    Json.readsBack_array Entry.readsBack rfl
  simp only [ofText?, toText, Json.ofText?_toText (hentries.isPlain entries), Option.bind_some]
  exact hentries.read_write entries

/-- The text that a trace is rendered as is read, and as the entries of the trace. -/
theorem ofText?_text (trace : TraceSet) : ofText? (text trace) = some (ofTraceSet trace) :=
  ofText?_toText (ofTraceSet trace)

end CallTrace.Rendered
