import ShardIndex.Contract.Definition
import ShardIndex.Entity.Block
import ShardIndex.Fault
import ShardIndex.Rescan.Task
import ShardIndex.Table
/-!
# The store

Tables of indexed entities. They change by commits only: a list of writes is applied as a whole or
not at all, and a commit that wrote master blocks is logged with their numbers.

Each table has a key, and a written row takes the place of the row with its key:

* snapshots, messages and tasks keep the place of the row (`Rows.replaceOrAppend`);
* blocks and transactions are moved to the end (`Rows.moveToEnd`), so that their order is the order
  of the last write.

| here | in the indexer |
| --- | --- |
| `Write` | the calls of a `RepositoryTx`; an update is the same write as an addition |
| `Store.write`, with `putBlock`, `putAccount` and so on | what `MemoryTx.commit` does with one call |
| `Store.commit` | `MemoryTx.commit` |
-/
namespace ShardIndex

/-- The indexed entities, the contract definitions and the log of commits. -/
structure Store where
  blocks : List Block := []
  accounts : List AccountState := []
  messages : List Message := []
  transactions : List Transaction := []
  /-- In increasing order of ids. -/
  tasks : List RescanTask := []
  interfaces : List ContractInterface := []
  operations : List ContractOperation := []
  /-- The numbers of the master blocks of each commit that had some. -/
  commits : List (List UInt32) := []
  /-- Commits that will still be refused. -/
  refusals : Nat := 0

/-- One write of a commit. -/
inductive Write where
  | blocks (rows : List Block)
  | accounts (rows : List AccountState)
  | messages (rows : List Message)
  | transactions (rows : List Transaction)
  | task (row : RescanTask)

/-- Snapshots of one account after one transaction in one block are the same row. -/
def AccountState.sameKey (a b : AccountState) : Bool :=
  a.address == b.address && a.lastTxLt == b.lastTxLt && a.block == b.block

/-- Puts a task among tasks in increasing order of ids. -/
def RescanTask.insertInto (t : RescanTask) : List RescanTask → List RescanTask
  | [] => [t]
  | r :: rs =>
    if r.id = t.id then t :: rs
    else if t.id < r.id then t :: r :: rs
    else r :: t.insertInto rs

namespace Store

/-- Stores a block as the last one. -/
def putBlock (blocks : List Block) (b : Block) : List Block :=
  Rows.moveToEnd (fun old => old.id == b.id) b blocks

/-- Stores a snapshot in the place of the one with its key. -/
def putAccount (accounts : List AccountState) (s : AccountState) : List AccountState :=
  Rows.replaceOrAppend (·.sameKey s) s accounts

/-- Stores a message in the place of the one with its hash. -/
def putMessage (messages : List Message) (m : Message) : List Message :=
  Rows.replaceOrAppend (fun old => old.hash == m.hash) m messages

/-- Stores a transaction as the last one. -/
def putTransaction (transactions : List Transaction) (t : Transaction) : List Transaction :=
  Rows.moveToEnd (fun old => old.hash == t.hash) t transactions

/-- Applies one write, row by row. -/
def write (s : Store) : Write → Store
  | .blocks rows => { s with blocks := rows.foldl putBlock s.blocks }
  | .accounts rows => { s with accounts := rows.foldl putAccount s.accounts }
  | .messages rows => { s with messages := rows.foldl putMessage s.messages }
  | .transactions rows => { s with transactions := rows.foldl putTransaction s.transactions }
  | .task row => { s with tasks := row.insertInto s.tasks }

/-- The numbers of the master blocks that a write holds. -/
def mastersOf : Write → List UInt32
  | .blocks rows => (rows.filter (·.isMasterchain)).map (·.id.seqno)
  | _ => []

/-- Adds an entry to the log of commits, unless it is empty. -/
def logCommit (s : Store) (masters : List UInt32) : Store :=
  if masters.isEmpty then s else { s with commits := s.commits ++ [masters] }

/-- Commits writes as a whole. A refused commit leaves every row as it is. -/
def commit (s : Store) (writes : List Write) : Except Fault Unit × Store :=
  match s.refusals with
  | n + 1 => (.error .commitRefused, { s with refusals := n })
  | 0 => (.ok (), (writes.foldl write s).logCommit (writes.flatMap mastersOf))

section Definitions

/-- Defines an interface; an older definition of the name is replaced. -/
def addInterface (s : Store) (i : ContractInterface) : Store :=
  { s with interfaces := Rows.replaceOrAppend (fun old => old.name == i.name) i s.interfaces }

def removeInterface (s : Store) (name : ContractName) : Store :=
  { s with interfaces := s.interfaces.filter fun i => decide (i.name ≠ name) }

/-- Defines an operation. Older definitions stay and go first. -/
def addOperation (s : Store) (o : ContractOperation) : Store :=
  { s with operations := s.operations ++ [o] }

/-- Adds a task, or replaces the one with its id. -/
def addTask (s : Store) (t : RescanTask) : Store :=
  { s with tasks := t.insertInto s.tasks }

end Definitions

end Store

end ShardIndex
