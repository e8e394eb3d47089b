import ShardIndex.Entity.Message
/-!
# Transactions and blocks

A transaction carries the records of its messages until the linkage takes them; the hashes of the
messages stay. Shard blocks belong to the master block that finalised them.

| here | in the indexer |
| --- | --- |
| `Transaction.ref` | `Transaction.tx_ref` |
| `Transaction.messages`, `withoutMessages` | what `Transaction.take_messages` takes and leaves |
| `Block.masterSeqno` | `Block.master_seqno` |
| `Block.headerOnly` | `Block.header` |
-/
namespace ShardIndex

/-- An indexed transaction. -/
structure Transaction where
  address : Address
  hash : Hash
  lt : UInt64
  prevHash : Hash
  prevLt : UInt64
  block : BlockRef
  masterSeqno : UInt32
  createdAt : UInt32
  totalFees : Nat
  statusBefore : AccountStatus
  statusAfter : AccountStatus
  aborted : Bool
  exitCode : Option Int32
  inMessageHash : Option Hash
  outMessageHashes : List Hash
  /-- The inbound message, which knows its destination only. -/
  inMessage : Option Message
  /-- The outbound messages, which know their source only. -/
  outMessages : List Message
deriving DecidableEq, Inhabited

namespace Transaction

/-- The reference under which messages name the transaction. -/
def ref (t : Transaction) : TransactionRef where
  hash := t.hash
  lt := t.lt
  block := t.block
  masterSeqno := t.masterSeqno

/-- The message records, the inbound one first. -/
def messages (t : Transaction) : List Message :=
  t.inMessage.toList ++ t.outMessages

/-- The transaction after its message records were taken. -/
def withoutMessages (t : Transaction) : Transaction :=
  { t with inMessage := none, outMessages := [] }

end Transaction

/-- An indexed block. -/
structure Block where
  id : BlockId
  /-- The master block that finalised a shard block. -/
  masterRef : Option BlockRef
  genTime : UInt32
  startLt : UInt64
  endLt : UInt64
  transactions : List Transaction
deriving DecidableEq, Inhabited

namespace Block

def isMasterchain (b : Block) : Bool :=
  b.id.isMasterchain

/-- The number of the master block that the block belongs to. -/
def masterSeqno (b : Block) : UInt32 :=
  match b.masterRef with
  | some master => master.seqno
  | none => b.id.seqno

/-- The block without its transactions. -/
def headerOnly (b : Block) : Block :=
  { b with transactions := [] }

end Block

end ShardIndex
