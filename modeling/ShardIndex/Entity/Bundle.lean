import ShardIndex.Entity.Account
import ShardIndex.Entity.Block
/-!
# Master bundles

What one master block finalises: the master block itself and the shard blocks it newly refers to,
each with a snapshot of every account it touched.
-/
namespace ShardIndex

/-- An indexed block with the accounts it touched. -/
structure BlockRecord where
  block : Block
  accounts : List AccountState := []
deriving DecidableEq, Inhabited

/-- Everything finalised by one master block. -/
structure MasterBundle where
  seqno : UInt32
  master : BlockRecord
  shards : List BlockRecord := []
deriving DecidableEq, Inhabited

namespace MasterBundle

/-- The master block, then the shard blocks. -/
def records (b : MasterBundle) : List BlockRecord :=
  b.master :: b.shards

def transactions (b : MasterBundle) : List Transaction :=
  b.records.flatMap (·.block.transactions)

def accounts (b : MasterBundle) : List AccountState :=
  b.records.flatMap (·.accounts)

/-- The message records of all transactions, in order. -/
def messages (b : MasterBundle) : List Message :=
  b.transactions.flatMap (·.messages)

end MasterBundle

end ShardIndex
