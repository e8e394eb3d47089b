import ShardIndex.Clock
import ShardIndex.Contract.Parser
import ShardIndex.Linkage
import ShardIndex.Store.Query
/-!
# Batches of master blocks

The sink takes master bundles in the order of their numbers, has their messages linked and their
payloads read, and commits them in batches. A commit that is refused is tried again a number of
times; when the last attempt fails as well, the batch is kept as it is.

| here | in the indexer |
| --- | --- |
| `Batch.add` | how `BatchSink.handle_master` fills the batch |
| `Batch.writes` | `BatchSink.try_commit` |
| `Sink.resume` | the linker and the sink that `run_pipeline` starts with |
| `Sink.attempt`, `Sink.flush` | the loop in `BatchSink.flush`, and `flush` itself |
| `Sink.takeIn`, `Sink.handle` | `BatchSink.handle_master` behind its check of the number, and with it |
-/
namespace ShardIndex

/-- How batches are made and committed. -/
structure BatchConfig where
  /-- Master blocks of a full batch. -/
  masters : Nat
  /-- Further attempts after a refused commit. -/
  retries : Nat
  /-- Milliseconds between attempts. -/
  retryDelay : Nat
deriving Inhabited

/-- What waits for its commit. -/
structure Batch where
  masters : List UInt32 := []
  blocks : List Block := []
  accounts : List AccountState := []
  messages : List Message := []
  transactions : List Transaction := []
deriving Inhabited

namespace Batch

/-- Adds a master bundle, with its messages taken out and completed. -/
def add (b : Batch) (bundle : MasterBundle) (messages : List Message) : Batch where
  masters := b.masters ++ [bundle.seqno]
  blocks := b.blocks ++ bundle.records.map (·.block.headerOnly)
  accounts := b.accounts ++ bundle.accounts
  messages := b.messages ++ messages
  transactions := b.transactions ++ bundle.transactions.map (·.withoutMessages)

/-- The writes that commit a batch. -/
def writes (b : Batch) : List Write :=
  [.blocks b.blocks, .accounts b.accounts, .messages b.messages, .transactions b.transactions]

end Batch

/-- The end of the forward path. -/
structure Sink where
  config : BatchConfig
  linker : Linker
  batch : Batch := {}
  /-- The last master block that was taken in, or committed before. -/
  lastSeqno : Option UInt32 := none

namespace Sink

/-- The number after a sequence number; the last number stays. -/
def successor (seqno : UInt32) : UInt32 :=
  if seqno = UInt32.ofNat (UInt32.size - 1) then seqno else seqno + 1

/-- A fresh sink that goes on after what is committed. -/
def resume (config : BatchConfig) (capacity : Nat) (store : Store) : Sink where
  config := config
  linker := { capacity := capacity, historyStart := store.firstMaster.map (·.startLt) }
  lastSeqno := store.lastMaster.map (·.id.seqno)

/-- The number of the master block that has to come next, once one has come. -/
def expected (s : Sink) : Option UInt32 :=
  s.lastSeqno.map successor

section

variable {M : Type → Type} [Monad M] [MonadStateOf Store M] [Clock M]

/-- Commits writes, trying again after a pause as often as `retries` says. The result counts the
attempts and ends with the refusal of the last one, if it was refused. -/
def attempt (writes : List Write) (pause : Nat) :
    (retries attempts : Nat) → M (Nat × Except Fault Unit)
  | 0, attempts => do
    let answer ← modifyGetThe Store (·.commit writes)
    return (attempts + 1, answer)
  | retries + 1, attempts => do
    match ← modifyGetThe Store (·.commit writes) with
    | .ok () => return (attempts + 1, .ok ())
    | .error _ =>
      Clock.wait pause
      attempt writes pause retries (attempts + 1)

/-- Commits everything that waits, as one transaction. -/
def flush (s : Sink) : M (Except Fault Unit × Sink) := do
  match s.batch.masters.getLast? with
  | none => return (.ok (), s)
  | some last =>
    match ← attempt s.batch.writes s.config.retryDelay s.config.retries 0 with
    | (_, .ok ()) => return (.ok (), { s with batch := {}, linker := s.linker.prune last })
    | (attempts, .error cause) => return (.error (.commitFailed last attempts cause), s)

/-- Reads the payloads of messages in order. -/
def readPayloads (parser : Parser M) (ms : List Message) : ExceptT Fault M (List Message) :=
  ms.mapM parser.fillMessage

/-- Takes in a master bundle, whatever its number, and commits the batch when it is full. -/
def takeIn (parser : Parser M) (s : Sink) (b : MasterBundle) : M (Except Fault Unit × Sink) := do
  let (linked, linker) := s.linker.handle (← getThe Store).findSource b
  let s := { s with linker := linker }
  match linked with
  | .error fault => return (.error fault, s)
  | .ok messages =>
    match ← (readPayloads parser messages).run with
    | .error fault => return (.error fault, s)
    | .ok messages =>
      let s := { s with batch := s.batch.add b messages, lastSeqno := some b.seqno }
      if s.config.masters ≤ s.batch.masters.length && s.linker.unresolved.isEmpty then
        s.flush
      else
        return (.ok (), s)

/-- Takes in the next master bundle. -/
def handle (parser : Parser M) (s : Sink) (b : MasterBundle) : M (Except Fault Unit × Sink) := do
  match s.expected with
  | some expected =>
    if b.seqno ≠ expected then
      return (.error (.outOfOrder b.seqno expected), s)
  | none => pure ()
  s.takeIn parser b

end

end Sink

end ShardIndex
