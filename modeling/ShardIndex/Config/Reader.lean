import ShardIndex.Config.Basic
import ShardIndex.Config.Scan
import ShardIndex.Text.Escape
/-!
# Reading a configuration

A configuration is a JSON object, or an array of its values in the order of the fields. A missing
field has its default, an unknown one is passed over, and what follows the first value of the text
is not read.
-/
namespace ShardIndex

open Scan

/-- The greatest 64-bit word. -/
def word64Max : Nat := UInt64.size - 1

/-- The greatest 32-bit word. -/
def word32Max : Nat := UInt32.size - 1

namespace CachesConfig

def fields : List (RecordField CachesConfig) :=
  [.of "master_blocks_ttl" duration fun c d => { c with masterBlocksTtl := d },
   .of "shards_ttl" duration fun c d => { c with shardsTtl := d },
   .of "accounts_capacity" (positive word64Max) fun c n =>
     { c with accountsCapacity := UInt64.ofNat n },
   .of "libraries_capacity" (positive word64Max) fun c n =>
     { c with librariesCapacity := UInt64.ofNat n }]

end CachesConfig

namespace LinkerConfig

def fields : List (RecordField LinkerConfig) :=
  [.of "retained_capacity" (natural word64Max) fun c n =>
     { c with retainedCapacity := UInt64.ofNat n }]

end LinkerConfig

namespace RescanConfig

def fields : List (RecordField RescanConfig) :=
  [.of "enabled" boolean fun c b => { c with enabled := b },
   .of "poll_interval" duration fun c d => { c with pollInterval := d },
   .of "batch_masters" (optional (positive word32Max)) fun c n =>
     { c with batchMasters := n.map UInt32.ofNat },
   .of "state_cache_addresses" (positive word64Max) fun c n =>
     { c with stateCacheAddresses := UInt64.ofNat n },
   .of "state_cache_depth" (natural word64Max) fun c n =>
     { c with stateCacheDepth := UInt64.ofNat n }]

end RescanConfig

namespace IndexerConfig

def fields : List (RecordField IndexerConfig) :=
  [.of "workers" (positive word64Max) fun c n => { c with workers := UInt64.ofNat n },
   .of "batch_masters" (natural word64Max) fun c n => { c with batchMasters := UInt64.ofNat n },
   .of "channel_capacity" (natural word64Max) fun c n =>
     { c with channelCapacity := UInt64.ofNat n },
   .of "retry_interval" duration fun c d => { c with retryInterval := d },
   .of "transactions_concurrency" (natural word64Max) fun c n =>
     { c with transactionsConcurrency := UInt64.ofNat n },
   .of "restart_delay" duration fun c d => { c with restartDelay := d },
   .of "commit_retries" (natural word64Max) fun c n => { c with commitRetries := UInt64.ofNat n },
   .of "commit_retry_interval" duration fun c d => { c with commitRetryInterval := d },
   .of "from_master" (optional (natural word32Max)) fun c n =>
     { c with fromMaster := n.map UInt32.ofNat },
   .of "caches" (record CachesConfig.fields {}) fun c v => { c with caches := v },
   .of "linker" (record LinkerConfig.fields {}) fun c v => { c with linker := v },
   .of "rescan" (record RescanConfig.fields {}) fun c v => { c with rescan := v }]

/-- Reads a configuration from text. -/
def ofText (s : String) : Except ReadFault IndexerConfig :=
  (record fields {} s.toList).map Prod.fst

end IndexerConfig

/-- Why a configuration file was not loaded. -/
inductive LoadFault where
  | missing
  /-- The file is no text. -/
  | notText
  | unreadable (fault : ReadFault)
deriving DecidableEq, Repr

/-- Loads a configuration from the contents of a file, if there is one
(`IndexerConfig.from_file`). -/
def IndexerConfig.load : Option Bytes → Except LoadFault IndexerConfig
  | none => .error .missing
  | some bytes =>
    match String.fromUTF8? ⟨bytes.toArray⟩ with
    | none => .error .notText
    | some s => (ofText s).mapError .unreadable

namespace PathStep

/-- A path in its written form: names are separated by points, positions stand in brackets, and the
empty path is a point. -/
def pathText : List PathStep → String
  | [] => "."
  | steps =>
    steps.foldl
      (fun s step =>
        match step with
        | .key name => if s.isEmpty then name else s ++ "." ++ name
        | .index i => s ++ "[" ++ toString i ++ "]") ""

end PathStep

/-- The complaint about a text that should be a duration. -/
def notDurationMessage (s : String) : String :=
  "invalid value: string " ++ Text.quoted s ++ ", expected a duration"

end ShardIndex
