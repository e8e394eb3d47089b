import ShardIndex.Chain.Wire
import ShardIndex.Fault
/-!
# Chain nodes

A node answers point-in-time reads. It is a record of operations in some monad `M`, so the same
readers run against a pure function, a scripted node or a node whose answers take time.
-/
namespace ShardIndex

/-- The reads that a chain node serves (`ChainClient`). -/
structure ChainNode (M : Type → Type) where
  /-- The number of the latest applied master block. -/
  lastMaster : ExceptT Fault M UInt32
  /-- The full name of the master block with the number. -/
  masterBlock : UInt32 → ExceptT Fault M BlockId
  /-- The newest block of every shard that the master block refers to. -/
  topShards : BlockId → ExceptT Fault M (List BlockId)
  header : BlockId → ExceptT Fault M Header
  /-- The next page of a block's transactions after the cursor, and whether more pages follow. -/
  transactionPage : BlockId → Option TransactionKey → ExceptT Fault M (List TransactionKey × Bool)
  transaction : BlockId → Address → UInt64 → ExceptT Fault M WireTransaction
  /-- The account as of the block. -/
  account : BlockId → Address → ExceptT Fault M WireAccount
  /-- The code of those libraries among the requested ones that the node knows. -/
  libraries : List Hash → ExceptT Fault M (List (Hash × Bytes))

end ShardIndex
