import ShardIndex.Chain.Node
import ShardIndex.Chain.Synthetic
import ShardIndex.Clock
import ShardIndex.Script
/-!
# A chain node held in memory

The ledger holds hand-built blocks and serves them as a node would: transaction listings come in
pages of two, a header may take its time, a master block may be unavailable for a number of
look-ups. A script may answer any call in the ledger's place; a scripted answer is a fault and does
not touch the ledger.
-/
namespace ShardIndex

/-- The blocks and accounts of a node in memory (`TestChain`), with counts of the requests it
served. -/
structure Ledger where
  masters : Table UInt32 BlockId := []
  topShards : Table BlockId (List BlockId) := []
  headers : Table BlockId Header := []
  transactions : Table BlockId (List WireTransaction) := []
  accounts : Table Address WireAccount := []
  /-- Accounts that differ as of one block. -/
  pinnedAccounts : Table (BlockId × Address) WireAccount := []
  knownLibraries : Table Hash Bytes := []
  /-- Libraries added to every answer about libraries. -/
  extraLibraries : List (Hash × Bytes) := []
  /-- Milliseconds that a header takes. -/
  delays : Table BlockId Nat := []
  /-- Look-ups of a master block that still fail. -/
  outages : Table UInt32 Nat := []
  accountRequests : Nat := 0
  libraryRequests : Nat := 0
  script : Script Fault := []

namespace Ledger

/-- The number of transactions listed on one page. -/
def pageSize : Nat := 2

/-- Adds a block with its transactions. -/
def addBlock (l : Ledger) (header : Header) (transactions : List WireTransaction) : Ledger :=
  { l with
    transactions := l.transactions.set header.id transactions
    headers := l.headers.set header.id header }

/-- Adds a master block that refers to the given top shard blocks. -/
def addMaster (l : Ledger) (header : Header) (transactions : List WireTransaction)
    (shards : List BlockId) : Ledger :=
  let l := l.addBlock header transactions
  { l with
    masters := l.masters.set header.id.seqno header.id
    topShards := l.topShards.set header.id shards }

/-- Adds a master block together with the one basechain block it refers to. -/
def addSimpleMaster (l : Ledger) (seqno : UInt32)
    (masterTransactions shardTransactions : List WireTransaction) : Ledger :=
  let before := if seqno = 0 then 0 else seqno - 1
  let shardId := Synthetic.blockId .basechain seqno
  let shardHeader := Synthetic.header shardId [Synthetic.blockId .basechain before]
  let masterHeader := Synthetic.header (Synthetic.masterId seqno) [Synthetic.masterId before]
  (l.addBlock shardHeader shardTransactions).addMaster masterHeader masterTransactions [shardId]

/-- Sets an account, for all blocks or as of one block. -/
def setAccount (l : Ledger) (account : WireAccount) : Option BlockId → Ledger
  | none => { l with accounts := l.accounts.set account.address account }
  | some block =>
    { l with pinnedAccounts := l.pinnedAccounts.set (block, account.address) account }

/-- The number of the latest master block. -/
def lastMaster (l : Ledger) : Except Fault UInt32 :=
  match l.masters with
  | [] => .error .blockNotFound
  | (seqno, _) :: rest => .ok (rest.foldl (fun m e => max m e.1) seqno)

/-- The entry of a table about blocks; without one the block is unknown. -/
def found {V : Type} : Option V → Except Fault V
  | some v => .ok v
  | none => .error .blockNotFound

/-- Looks a master block up, unless it is still unavailable. -/
def masterBlock (l : Ledger) (seqno : UInt32) : Except Fault BlockId × Ledger :=
  match l.outages.get? seqno with
  | some (n + 1) => (.error .blockNotApplied, { l with outages := l.outages.set seqno n })
  | _ => (found (l.masters.get? seqno), l)

/-- The name under which a block lists a transaction. -/
def keyOf (t : WireTransaction) : TransactionKey :=
  ⟨t.account.account, t.lt, t.hash⟩

/-- The page of a listing after the cursor. -/
def pageAfter (keys : List TransactionKey) (after : Option TransactionKey) :
    Except Fault (List TransactionKey × Bool) := do
  let offset ← match after with
    | none => pure 0
    | some key =>
      match keys.findIdx? (· == key) with
      | some i => pure (i + 1)
      | none => throw .unknownCursor
  let page := (keys.drop offset).take pageSize
  return (page, decide (offset + page.length < keys.length))

/-- The account as of a block. -/
def accountAt (l : Ledger) (block : BlockId) (address : Address) : WireAccount :=
  match l.pinnedAccounts.get? (block, address) with
  | some account => account
  | none =>
    match l.accounts.get? address with
    | some account => account
    | none => .absent address

/-- The known ones among the libraries. -/
def librariesOf (l : Ledger) (hashes : List Hash) : List (Hash × Bytes) :=
  hashes.filterMap (fun h => (l.knownLibraries.get? h).map (h, ·)) ++ l.extraLibraries

section

variable {M : Type → Type} [Monad M] [MonadStateOf Ledger M] [Clock M]

/-- Serves a call, unless the script answers it. -/
def serve {α : Type} (call key : String) (body : ExceptT Fault M α) : ExceptT Fault M α := do
  let (answer, script) := (← getThe Ledger).script.consult call key
  modifyThe Ledger fun l => { l with script := script }
  match answer with
  | some fault => throw fault
  | none => body

/-- Answers from what the ledger holds. -/
def ask {α : Type} (f : Ledger → Except Fault α) : ExceptT Fault M α := do
  ExceptT.mk (pure (f (← getThe Ledger)))

/-- The node that the ledger is. -/
def node : ChainNode M where
  lastMaster := serve "last" "" (ask lastMaster)
  masterBlock seqno := serve "lookup" (toString seqno.toNat) do
    let (answer, l) := (← getThe Ledger).masterBlock seqno
    set l
    ExceptT.mk (pure answer)
  topShards master := serve "shards" master.ref.text
    (ask fun l => found (l.topShards.get? master))
  header block := serve "header" block.ref.text do
    match (← getThe Ledger).delays.get? block with
    | some ms => Clock.wait ms
    | none => pure ()
    ask fun l => found (l.headers.get? block)
  transactionPage block after := serve "tx_ids" block.ref.text (ask fun l => do
    pageAfter ((← found (l.transactions.get? block)).map keyOf) after)
  transaction block address lt := serve "tx" (toString lt.toNat) (ask fun l => do
    let listed ← found (l.transactions.get? block)
    found (listed.find? fun t => t.account == address && t.lt == lt))
  account block address := serve "account" address.text do
    modifyThe Ledger fun l => { l with accountRequests := l.accountRequests + 1 }
    ask fun l => .ok (l.accountAt block address)
  libraries hashes := serve "libraries" "" do
    modifyThe Ledger fun l => { l with libraryRequests := l.libraryRequests + 1 }
    ask fun l => .ok (l.librariesOf hashes)

end

end Ledger

end ShardIndex
