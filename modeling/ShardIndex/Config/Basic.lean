import ShardIndex.Batch
import ShardIndex.Config.Duration
/-!
# Configuration

The settings of an indexer and their defaults.

| here | in the indexer |
| --- | --- |
| `IndexerConfig.windowSize` | `workers`, as `MasterFetchPipeline.run` reads it |
| `IndexerConfig.batch` | `IndexerConfig.batch_sink` |
| `IndexerConfig.rescanBatch` | `IndexerConfig.rescan_batch_masters` |
-/
namespace ShardIndex

/-- How long and how much the reader remembers. -/
structure CachesConfig where
  /-- The time after which the name of a master block that nobody asked for is forgotten. -/
  masterBlocksTtl : Duration := .ofSeconds 1
  /-- The same for the top shard blocks of a master block. -/
  shardsTtl : Duration := .ofSeconds 1
  /-- Account snapshots remembered, at least one. -/
  accountsCapacity : UInt64 := 16384
  /-- Libraries remembered, at least one. -/
  librariesCapacity : UInt64 := 16384
deriving DecidableEq, Inhabited

/-- How much the linker remembers. -/
structure LinkerConfig where
  /-- Outbound messages remembered while they wait for their destination. -/
  retainedCapacity : UInt64 := 65536
deriving DecidableEq, Inhabited

/-- How history is rescanned. -/
structure RescanConfig where
  enabled : Bool := true
  /-- The pause between two looks for an unfinished task. -/
  pollInterval : Duration := .ofSeconds 1
  /-- Master blocks of one step; by default the number of workers. -/
  batchMasters : Option UInt32 := none
  /-- Accounts with a remembered history, at least one. -/
  stateCacheAddresses : UInt64 := 4096
  /-- Snapshots of a remembered history. -/
  stateCacheDepth : UInt64 := 32
deriving DecidableEq, Inhabited

/-- The settings of an indexer. -/
structure IndexerConfig where
  /-- Master blocks fetched at the same time, at least one. -/
  workers : UInt64 := 4
  /-- Master blocks of a batch. -/
  batchMasters : UInt64 := 10
  /-- Fetched master blocks that may wait for the sink. -/
  channelCapacity : UInt64 := 32
  /-- The pause before a master block is tried again. -/
  retryInterval : Duration := { seconds := 0, nanos := 100000000 }
  /-- Requests of one block at the same time. -/
  transactionsConcurrency : UInt64 := 16
  /-- The pause before the forward path starts again after a fault. -/
  restartDelay : Duration := .ofSeconds 5
  /-- Further attempts after a refused commit. -/
  commitRetries : UInt64 := 5
  /-- The pause between attempts to commit. -/
  commitRetryInterval : Duration := .ofSeconds 1
  /-- The first master block of an empty store; by default the latest one of the chain. -/
  fromMaster : Option UInt32 := none
  caches : CachesConfig := {}
  linker : LinkerConfig := {}
  rescan : RescanConfig := {}
deriving DecidableEq, Inhabited

namespace IndexerConfig

/-- The number of heights in a window of the fetch pipeline: the workers, as a 32-bit word. -/
def windowSize (c : IndexerConfig) : UInt32 :=
  c.workers.toUInt32

/-- Master blocks of a full batch, at least one. -/
def fullBatch (c : IndexerConfig) : Nat :=
  max c.batchMasters.toNat 1

/-- How batches are made and committed. -/
def batch (c : IndexerConfig) : BatchConfig where
  masters := c.fullBatch
  retries := c.commitRetries.toNat
  retryDelay := c.commitRetryInterval.waitMillis

/-- Master blocks of one rescan step. -/
def rescanBatch (c : IndexerConfig) : UInt32 :=
  c.rescan.batchMasters.getD c.workers.toUInt32

end IndexerConfig

end ShardIndex
