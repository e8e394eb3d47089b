import ShardIndex.Store.Basic
/-!
# Queries on the store

The reads of the forward path and of the rescan. A range of master blocks includes both ends.

| here | in the indexer |
| --- | --- |
| `AccountFilter.selects`, `MessageFilter.selects` | `AccountStateFilter.matches`, `MessageFilter.matches` |
| `Store.firstMaster`, `lastMaster` | `get_first_master_block`, `get_last_master_block` |
| `Store.statesBefore` | `get_all_account_states` |
| `Store.findSource` | `find_message_source` |
| `Store.unfinishedTask` | `get_unfinished_rescan_task` |
| `Store.statesInRange` | `get_account_states_in_range` |
| `Store.messagesInRange` | `get_messages_in_range` |
-/
namespace ShardIndex

/-- Selects account snapshots: those that an interface accepts and those that carry a label. -/
structure AccountFilter where
  interface : Option ContractInterface := none
  withType : Option ContractName := none
deriving Inhabited

/-- Selects messages by operation, kind and known side. -/
structure MessageFilter where
  operationId : Option UInt32 := none
  kind : Option MessageKind := none
  /-- Messages whose side of this direction has a transaction. -/
  direction : Option Direction := none
deriving Inhabited

/-- Whether a filter selects the snapshot. -/
def AccountFilter.selects (f : AccountFilter) (s : AccountState) : Bool :=
  f.interface.any (·.accepts s) || f.withType.any s.hasInterface

/-- Whether a filter selects the message. -/
def MessageFilter.selects (f : MessageFilter) (m : Message) : Bool :=
  f.operationId.all (fun op => m.operationId == some op) &&
    f.kind.all (fun k => m.kind == k) &&
    f.direction.all fun d => (m.side d).tx.isSome

/-- The first of the rows with the least key. -/
def firstLeast {ρ κ : Type} [LT κ] [DecidableRel (α := κ) (· < ·)] (key : ρ → κ) :
    List ρ → Option ρ
  | [] => none
  | r :: rs => some (rs.foldl (fun least x => if key x < key least then x else least) r)

/-- The last of the rows with the greatest key. -/
def lastGreatest {ρ κ : Type} [LT κ] [DecidableRel (α := κ) (· < ·)] (key : ρ → κ) :
    List ρ → Option ρ
  | [] => none
  | r :: rs => some (rs.foldl (fun top x => if key x < key top then top else x) r)

namespace Store

/-- The earliest committed master block. -/
def firstMaster (s : Store) : Option Block :=
  firstLeast (·.id.seqno) (s.blocks.filter (·.isMasterchain))

/-- The latest committed master block. -/
def lastMaster (s : Store) : Option Block :=
  lastGreatest (·.id.seqno) (s.blocks.filter (·.isMasterchain))

/-- The snapshots of an account before a logical time, newest first. -/
def statesBefore (s : Store) (address : Address) (beforeLt : UInt64) : List AccountState :=
  (s.accounts.filter fun a => a.address == address && decide (a.lastTxLt < beforeLt)).mergeSort
    fun a b => decide (b.lastTxLt ≤ a.lastTxLt)

/-- The snapshots of an account, oldest first. -/
def statesOf (s : Store) (address : Address) : List AccountState :=
  (s.accounts.filter (·.address == address)).mergeSort fun a b => decide (a.lastTxLt ≤ b.lastTxLt)

/-- The committed transaction that sent the message, and the label that its account had right after
that transaction: the first one of the earliest snapshot not before it. -/
def findSource (s : Store) (hash : Hash) : Option MessageSource := do
  let tx ← s.transactions.find? fun t => t.outMessageHashes.contains hash
  let later := s.accounts.filter fun a => a.address == tx.address && decide (tx.lt ≤ a.lastTxLt)
  return { tx := tx.ref, contract := (firstLeast (·.lastTxLt) later).bind (·.types.head?) }

/-- The unfinished task with the least id. -/
def unfinishedTask (s : Store) : Option RescanTask :=
  s.tasks.find? fun t => !t.finished

def task? (s : Store) (id : Nat) : Option RescanTask :=
  s.tasks.find? fun t => t.id == id

def interface? (s : Store) (name : ContractName) : Option ContractInterface :=
  s.interfaces.find? fun i => i.name == name

/-- The definition of an operation of a contract in one direction. -/
def operation? (s : Store) (contract : ContractName) (direction : Direction) (id : UInt32) :
    Option ContractOperation :=
  s.operations.find? fun o =>
    o.contract == contract && o.direction == direction && o.operationId == id

def message? (s : Store) (hash : Hash) : Option Message :=
  s.messages.find? fun m => m.hash == hash

/-- The selected snapshots of a range of master blocks, in the order of their logical times. -/
def statesInRange (s : Store) (f : AccountFilter) (first last : UInt32) : List AccountState :=
  (s.accounts.filter fun a =>
      decide (first ≤ a.masterSeqno) && decide (a.masterSeqno ≤ last) && f.selects a).mergeSort
    fun a b => decide (a.lastTxLt ≤ b.lastTxLt)

/-- Messages in the order of their creation, then of their digests. -/
def messageLe (a b : Message) : Bool :=
  decide (a.createdLt < b.createdLt) || (a.createdLt == b.createdLt && decide (a.hash ≤ b.hash))

/-- The selected messages whose latest known side belongs to a range of master blocks. -/
def messagesInRange (s : Store) (f : MessageFilter) (first last : UInt32) : List Message :=
  (s.messages.filter fun m =>
      m.masterSeqno?.any (fun n => decide (first ≤ n) && decide (n ≤ last)) &&
        f.selects m).mergeSort messageLe

end Store

end ShardIndex
