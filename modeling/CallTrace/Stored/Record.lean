import CallTrace.Rlp.Compound

/-!
# Stored records

The stored form of a trace is a tree of records.  A record for actions has room
for the fields of every kind; a tag says which kind it is, and fields that do not
belong to that kind are absent or empty.  The records are written as RLP with
their fields in the order in which they are declared.
-/

namespace CallTrace.Stored

open Rlp (Codec)

/-- The record of an action of any kind. -/
structure ActionRecord where
  tag : UInt8
  sender : Option Address
  target : Option Address
  value : Option Word
  gas : UInt64
  initCode : Bytes
  input : Bytes
  contract : Option Address
  beneficiary : Option Address
  balance : Option Word
deriving DecidableEq

/-- The record of a result of any kind. -/
structure ResultRecord where
  gasUsed : UInt64
  output : Bytes
  code : Bytes
  created : Option Address
deriving DecidableEq

/-- The record of a trace node. -/
structure NodeRecord where
  action : ActionRecord
  result : Option ResultRecord
  error : Option String
  path : List UInt32
  subtraces : UInt32
deriving DecidableEq

/-- The record of the trace of one transaction. -/
structure SetRecord where
  nodes : List NodeRecord
  blockHash : Hash
  blockNumber : UInt64
  transactionHash : Hash
  transactionPosition : UInt64
deriving DecidableEq

/-- The codec of addresses that may be absent. -/
def optionalAddress : Codec (Option Address) :=
  .option (.fixedBytes 20)

/-- The codec of words that may be absent. -/
def optionalWord : Codec (Option Word) :=
  .option .word

/-- The codec of action records. -/
def ActionRecord.codec : Codec ActionRecord :=
  .record <|
    (Codec.uint8.both <| optionalAddress.both <| optionalAddress.both <|
      optionalWord.both <| Codec.uint64.both <| Codec.bytes.both <| Codec.bytes.both <|
      optionalAddress.both <| optionalAddress.both optionalWord).map
    (fun (tag, sender, target, value, gas, initCode, input, contract, beneficiary, balance) =>
      ⟨tag, sender, target, value, gas, initCode, input, contract, beneficiary, balance⟩)
    (fun record =>
      (record.tag, record.sender, record.target, record.value, record.gas, record.initCode,
        record.input, record.contract, record.beneficiary, record.balance))

/-- The codec of result records. -/
def ResultRecord.codec : Codec ResultRecord :=
  .record <|
    (Codec.uint64.both <| Codec.bytes.both <| Codec.bytes.both optionalAddress).map
    (fun (gasUsed, output, code, created) => ⟨gasUsed, output, code, created⟩)
    (fun record => (record.gasUsed, record.output, record.code, record.created))

/-- The codec of node records. -/
def NodeRecord.codec : Codec NodeRecord :=
  .record <|
    (ActionRecord.codec.both <| (Codec.option ResultRecord.codec).both <|
      (Codec.option Codec.text).both <| (Codec.list Codec.uint32).both Codec.uint32).map
    (fun (action, result, error, path, subtraces) => ⟨action, result, error, path, subtraces⟩)
    (fun record =>
      (record.action, record.result, record.error, record.path, record.subtraces))

/-- The codec of whole traces. -/
def SetRecord.codec : Codec SetRecord :=
  .record <|
    ((Codec.list NodeRecord.codec).both <| (Codec.fixedBytes 32).both <| Codec.uint64.both <|
      (Codec.fixedBytes 32).both Codec.uint64).map
    (fun (nodes, blockHash, blockNumber, transactionHash, transactionPosition) =>
      ⟨nodes, blockHash, blockNumber, transactionHash, transactionPosition⟩)
    (fun record =>
      (record.nodes, record.blockHash, record.blockNumber, record.transactionHash,
        record.transactionPosition))

end CallTrace.Stored
