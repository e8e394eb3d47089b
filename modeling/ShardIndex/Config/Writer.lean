import ShardIndex.Config.Basic
import ShardIndex.Config.DurationText
import ShardIndex.Json.Printer
/-!
# Writing a configuration

A configuration is written with all its fields, as the object that the reader reads back.
-/
namespace ShardIndex

open Json

/-- The written form of a duration. -/
def Duration.toJson (d : Duration) : Json :=
  .string d.text

def CachesConfig.toJson (c : CachesConfig) : Json :=
  .object
    [("master_blocks_ttl", c.masterBlocksTtl.toJson),
     ("shards_ttl", c.shardsTtl.toJson),
     ("accounts_capacity", ofNat c.accountsCapacity.toNat),
     ("libraries_capacity", ofNat c.librariesCapacity.toNat)]

def LinkerConfig.toJson (c : LinkerConfig) : Json :=
  .object [("retained_capacity", ofNat c.retainedCapacity.toNat)]

def RescanConfig.toJson (c : RescanConfig) : Json :=
  .object
    [("enabled", .bool c.enabled),
     ("poll_interval", c.pollInterval.toJson),
     ("batch_masters", ofOption (fun n => ofNat n.toNat) c.batchMasters),
     ("state_cache_addresses", ofNat c.stateCacheAddresses.toNat),
     ("state_cache_depth", ofNat c.stateCacheDepth.toNat)]

/-- The fields of a configuration with their values. -/
def IndexerConfig.entries (c : IndexerConfig) : List (String × Json) :=
  [("workers", ofNat c.workers.toNat),
   ("batch_masters", ofNat c.batchMasters.toNat),
   ("channel_capacity", ofNat c.channelCapacity.toNat),
   ("retry_interval", c.retryInterval.toJson),
   ("transactions_concurrency", ofNat c.transactionsConcurrency.toNat),
   ("restart_delay", c.restartDelay.toJson),
   ("commit_retries", ofNat c.commitRetries.toNat),
   ("commit_retry_interval", c.commitRetryInterval.toJson),
   ("from_master", ofOption (fun n => ofNat n.toNat) c.fromMaster),
   ("caches", c.caches.toJson),
   ("linker", c.linker.toJson),
   ("rescan", c.rescan.toJson)]

def IndexerConfig.toJson (c : IndexerConfig) : Json :=
  .object c.entries

end ShardIndex
