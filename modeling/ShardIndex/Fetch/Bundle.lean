import ShardIndex.Entity.Bundle
import ShardIndex.Fetch.Discovery
/-!
# Fetching a master bundle

A block is fetched with all its transactions, in the order in which the node lists them, and with
one snapshot of every account that has a transaction in it, in the order of the first ones. The
messages of a transaction carry the first label of its account.

What is asked for a list of things is gathered in some way (`Gather`): by one request after the other, or
with many requests under way.

| here | in the indexer |
| --- | --- |
| `Reader.listTransactions` | `Fetcher.get_transaction_ids` |
| `Reader.fetchBlock` | `Fetcher.fetch_block` |
| `Reader.fetchMaster` | `Fetcher.fetch_master` |
-/
namespace ShardIndex

/-- Makes requests for the members of a list and hands out their results. -/
abbrev Gather (M : Type → Type) :=
  ∀ {α β : Type}, (α → ExceptT Fault M β) → List α → ExceptT Fault M (List β)

/-- One request after the other. -/
def oneByOne {M : Type → Type} [Monad M] : Gather M :=
  fun f items => items.mapM f

namespace Reader

variable {M : Type → Type} [Monad M]

/-- Reads a transaction listing page by page, from a cursor on. The listing ends with a page after
which there are no more, or with an empty page. -/
def listTransactions (r : Reader M) (block : BlockId) :
    Nat → Option TransactionKey → ExceptT Fault M (List TransactionKey)
  | 0, _ => throw .endlessListing
  | pages + 1, after => do
    let (page, more) ← r.node.transactionPage block after
    match page.getLast? with
    | none => return page
    | some last =>
      if more then
        return page ++ (← r.listTransactions block pages (some last))
      else
        return page

/-- The label that each account passes on to its messages: its first one. -/
def labels (accounts : List AccountState) : Table Address ContractName :=
  Table.ofEntries (accounts.filterMap fun s => s.types.head?.map (s.address, ·))

section

variable [MonadStateOf ReadCache M]

/-- Fetches one block on behalf of a master block, its transactions and its accounts gathered in some
way. -/
def fetchBlockBy (gather : Gather M) (r : Reader M) (header : Header) (masterRef : Option BlockRef)
    (master : Header) : ExceptT Fault M BlockRecord := do
  let masterSeqno := master.id.seqno
  let keys ← r.listTransactions header.id r.pageLimit none
  let workchain := header.id.shard.workchain.toInt8
  let raws ← gather (fun key => r.node.transaction header.id ⟨workchain, key.account⟩ key.lt) keys
  let accounts ← gather (fun address => do
    let state ← r.account header masterSeqno address
    r.parser.fillAccount (r.lookupAt master) state) (raws.map (·.account)).eraseDups
  let labels := labels accounts
  let transactions := raws.map fun raw =>
    let tx := raw.toTransaction header.id masterSeqno
    tx.labelMessages (labels.get? tx.address)
  return {
    block := {
      id := header.id
      masterRef := masterRef
      genTime := header.genTime
      startLt := header.startLt
      endLt := header.endLt
      transactions := transactions }
    accounts := accounts }

/-- Fetches one block with one request after the other. -/
def fetchBlock (r : Reader M) : Header → Option BlockRef → Header → ExceptT Fault M BlockRecord :=
  r.fetchBlockBy oneByOne

/-- Fetches a master block with every shard block that it newly finalises, the shard blocks gathered
in some other way. -/
def fetchMasterBy (gather shards : Gather M) (r : Reader M) (seqno : UInt32) :
    ExceptT Fault M MasterBundle := do
  let unseen ← r.unseenBlocks seqno
  let master ← r.fetchBlockBy gather unseen.master none unseen.master
  let shards ← shards (fun header =>
    r.fetchBlockBy gather header (some unseen.master.id.ref) unseen.master) unseen.shards
  return { seqno := seqno, master := master, shards := shards }

/-- Fetches a master block with one request after the other. -/
def fetchMaster (r : Reader M) : UInt32 → ExceptT Fault M MasterBundle :=
  r.fetchMasterBy oneByOne oneByOne

end

end Reader

end ShardIndex
