import ShardIndex.Chain.Node
import ShardIndex.Contract.Parser
import ShardIndex.Entity.Mapping
import ShardIndex.Table
/-!
# Cached reads of a node

A reader asks the node and keeps what it was told: the names of master blocks, their top shard
blocks, labelled account snapshots as of a block, and library code. Nothing that a later step adds
to a snapshot flows back into the cache.

| here | in the indexer |
| --- | --- |
| `Reader.masterBlock` | `Fetcher.lookup_master_block` |
| `Reader.topShards` | `Fetcher.get_shards_info` |
| `Reader.libraryCode` | `Fetcher.get_library` |
| `Reader.account` | `Fetcher.get_account` |
| `Reader.lookupAt` | `ChainAccountLookup.get_account_state` |
-/
namespace ShardIndex

/-- What a reader was told so far. -/
structure ReadCache where
  masters : Table UInt32 BlockId := []
  topShards : Table BlockId (List BlockId) := []
  accounts : Table (BlockRef × Address) AccountState := []
  libraries : Table Hash Bytes := []

/-- Reads a node and labels its accounts. -/
structure Reader (M : Type → Type) where
  node : ChainNode M
  parser : Parser M
  /-- Pages that a transaction listing may have. -/
  pageLimit : Nat

namespace Reader

variable {M : Type → Type} [Monad M] [MonadStateOf ReadCache M]

/-- The full name of the master block with the number. -/
def masterBlock (r : Reader M) (seqno : UInt32) : ExceptT Fault M BlockId := do
  match (← getThe ReadCache).masters.get? seqno with
  | some id => return id
  | none =>
    let id ← r.node.masterBlock seqno
    modifyThe ReadCache fun c => { c with masters := c.masters.set id.seqno id }
    return id

/-- The newest block of every shard that the master block refers to. -/
def topShards (r : Reader M) (master : BlockId) : ExceptT Fault M (List BlockId) := do
  match (← getThe ReadCache).topShards.get? master with
  | some shards => return shards
  | none =>
    let shards ← r.node.topShards master
    modifyThe ReadCache fun c => { c with topShards := c.topShards.set master shards }
    return shards

/-- The code of a library. Every library that the node returns is kept, of several with one digest
the last. -/
def libraryCode (r : Reader M) (hash : Hash) : ExceptT Fault M Bytes := do
  match (← getThe ReadCache).libraries.get? hash with
  | some code => return code
  | none =>
    let answer ← r.node.libraries [hash]
    modifyThe ReadCache fun c =>
      { c with libraries := answer.foldl (fun t e => t.set e.1 e.2) c.libraries }
    match (Table.ofEntries answer).get? hash with
    | some code => return code
    | none => throw (.libraryNotFound hash)

/-- The account with the code of its library filled in. -/
def resolveCode (r : Reader M) (a : WireAccount) : ExceptT Fault M WireAccount := do
  match a.library with
  | none => return a
  | some library =>
    let code ← r.libraryCode library
    return { a with code := some code, codeHash := some library }

/-- The snapshot of an account as of a block, labelled with its interfaces if it is active, and
nothing read from its contracts yet. -/
def account (r : Reader M) (header : Header) (masterSeqno : UInt32) (address : Address) :
    ExceptT Fault M AccountState := do
  match (← getThe ReadCache).accounts.get? (header.id.ref, address) with
  | some state => return state
  | none =>
    let raw ← r.node.account header.id address
    let raw ← r.resolveCode raw
    let state := raw.toState header.id masterSeqno header.genTime
    let types ← if state.isActive then r.parser.interfacesOf state else pure []
    let state := { state with types := types }
    modifyThe ReadCache fun c =>
      { c with accounts := c.accounts.set (header.id.ref, state.address) state }
    return state

/-- Looks siblings up as of a master block. The snapshot at the end of that block answers whatever
the logical time, and inactive accounts are not found. -/
def lookupAt (r : Reader M) (master : Header) : Lookup M := fun address _ => do
  let state ← r.account master master.id.seqno address
  return if state.isActive then some state else none

end Reader

end ShardIndex
