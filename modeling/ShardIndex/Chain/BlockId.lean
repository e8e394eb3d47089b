import ShardIndex.Chain.Hash
/-!
# Shards and block identifiers

A shard is a workchain together with a node of the binary tree that splits its accounts. The node
is a path of at most 60 bits, closed by a set bit and filled up with zeros, so a path is never `0`
and its three lowest bits are clear; the masterchain is never split. A block is named by its shard
and sequence number (`BlockRef`), in full with the two digests of its content (`BlockId`).
-/
namespace ShardIndex

/-- What makes a path a shard of the workchain. -/
def ShardPath (workchain : Int32) (path : UInt64) : Prop :=
  path ≠ 0 ∧ path &&& 7 = 0 ∧ (workchain = -1 → path = 0x8000000000000000)

instance (workchain : Int32) (path : UInt64) : Decidable (ShardPath workchain path) := by
  unfold ShardPath; infer_instance

/-- A shard: a workchain and a path in the tree of its accounts. -/
structure Shard where
  workchain : Int32
  path : UInt64
  valid : ShardPath workchain path := by decide
deriving DecidableEq

namespace Shard

/-- The unsplit masterchain. -/
def masterchain : Shard := { workchain := -1, path := 0x8000000000000000 }

/-- The unsplit basechain. -/
def basechain : Shard := { workchain := 0, path := 0x8000000000000000 }

instance : Inhabited Shard := ⟨basechain⟩

/-- The shard with these parts, if there is one. -/
def ofParts? (workchain : Int32) (path : UInt64) : Option Shard :=
  if h : ShardPath workchain path then some ⟨workchain, path, h⟩ else none

def isMasterchain (s : Shard) : Bool :=
  s.workchain == -1

/-- The written form, `workchain:path`. -/
def text (s : Shard) : String :=
  toString s.workchain.toInt ++ ":" ++ hexText 16 s.path.toNat

end Shard

/-- The short name of a block. -/
structure BlockRef where
  shard : Shard
  seqno : UInt32
deriving DecidableEq, Inhabited

/-- The written form, `shard:seqno`. -/
def BlockRef.text (b : BlockRef) : String :=
  b.shard.text ++ ":" ++ toString b.seqno.toNat

/-- The full name of a block. -/
structure BlockId where
  shard : Shard
  seqno : UInt32
  rootHash : Hash
  fileHash : Hash
deriving DecidableEq, Inhabited

namespace BlockId

/-- The short name of the block. -/
def ref (b : BlockId) : BlockRef :=
  ⟨b.shard, b.seqno⟩

def isMasterchain (b : BlockId) : Bool :=
  b.shard.isMasterchain

/-- The written form, `shard:seqno:root:file`. -/
def text (b : BlockId) : String :=
  b.ref.text ++ ":" ++ b.rootHash.text ++ ":" ++ b.fileHash.text

/-- Blocks in the order of their numbers, then of their workchains and paths. Digests do not
count. -/
def le (a b : BlockId) : Bool :=
  a.seqno < b.seqno ||
    (a.seqno == b.seqno &&
      (a.shard.workchain < b.shard.workchain ||
        (a.shard.workchain == b.shard.workchain && a.shard.path ≤ b.shard.path)))

end BlockId

end ShardIndex
