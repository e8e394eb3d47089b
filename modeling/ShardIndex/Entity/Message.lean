import ShardIndex.Chain.Wire
import ShardIndex.Json
/-!
# Messages

An indexed message has two sides, each with an address, the transaction that owns it and the
contract label of its account. A record made from one transaction knows one side only;
`Message.fillFrom` completes it from the record of the other transaction.

| here | in the indexer |
| --- | --- |
| `Message.side`, `Message.relabel` | `Message.side` and `contract`, `Message.set_contract` |
| `Message.isResolved` | `Message.is_resolved` |
| `Message.masterSeqno?` | `Message.master_seqno` |
| `Message.fillFrom` | `Message.merge` |
| `Message.clearPayload` | `Message.clear_parsed` |
-/
namespace ShardIndex

/-- The name of a contract interface, which serves as a label. -/
abbrev ContractName := String

inductive MessageKind where
  | internal
  | externalIn
  | externalOut
deriving DecidableEq, Repr, Inhabited

/-- A side of a message, seen from its sender or from its receiver. -/
inductive Direction where
  | outgoing
  | incoming
deriving DecidableEq, Repr, Inhabited

/-- The transaction that sends or receives a message. -/
structure TransactionRef where
  hash : Hash
  lt : UInt64
  block : BlockRef
  masterSeqno : UInt32
deriving DecidableEq, Inhabited

/-- The sending side of a message as found in committed history. -/
structure MessageSource where
  tx : TransactionRef
  contract : Option ContractName
deriving DecidableEq, Inhabited

/-- One side of a message. -/
structure Side where
  address : Option Address := none
  tx : Option TransactionRef := none
  contract : Option ContractName := none
deriving DecidableEq, Inhabited

/-- What reading a message's body has produced. -/
structure Payload where
  operation : Option String := none
  data : Option Json := none
  error : Option String := none
deriving DecidableEq, Inhabited

/-- An indexed message. -/
structure Message where
  hash : Hash
  kind : MessageKind
  source : Side := {}
  destination : Side := {}
  bounce : Bool := false
  bounced : Bool := false
  amount : Nat := 0
  ihrFee : Nat := 0
  fwdFee : Nat := 0
  importFee : Nat := 0
  createdLt : UInt64 := 0
  createdAt : UInt32 := 0
  initCode : Option Bytes := none
  initData : Option Bytes := none
  body : Bytes := []
  operationId : Option UInt32 := none
  payload : Payload := {}
deriving DecidableEq, Inhabited

/-- Takes over the transaction and the label that are missing here. -/
def Side.fillFrom (s other : Side) : Side :=
  { s with tx := s.tx <|> other.tx, contract := s.contract <|> other.contract }

namespace Message

/-- The side that belongs to the direction. -/
def side (m : Message) : Direction → Side
  | .outgoing => m.source
  | .incoming => m.destination

/-- Puts a contract label on one side. -/
def relabel (m : Message) (d : Direction) (contract : Option ContractName) : Message :=
  match d with
  | .outgoing => { m with source := { m.source with contract := contract } }
  | .incoming => { m with destination := { m.destination with contract := contract } }

/-- Whether every side that a message of this kind can have is known. -/
def isResolved (m : Message) : Bool :=
  match m.kind with
  | .internal => m.source.tx.isSome && m.destination.tx.isSome
  | .externalIn => m.destination.tx.isSome
  | .externalOut => m.source.tx.isSome

/-- The master block that finalised the latest known side. -/
def masterSeqno? (m : Message) : Option UInt32 :=
  (m.destination.tx <|> m.source.tx).map (·.masterSeqno)

/-- Completes the sides of a record from another record of the same message. -/
def fillFrom (m other : Message) : Message :=
  { m with
    source := m.source.fillFrom other.source
    destination := m.destination.fillFrom other.destination }

/-- Forgets everything that reading the body has produced. -/
def clearPayload (m : Message) : Message :=
  { m with payload := {} }

end Message

end ShardIndex
