import ShardIndex.Entity.Bundle
import ShardIndex.Fault
/-!
# Linkage of internal messages

An internal message shows up twice: its sender's transaction makes an outbound record, its
receiver's an inbound one. The linker joins the two.

* Outbound records wait in `retained` for their counterpart, over as many master blocks as it takes;
  `prune` gives up the oldest of those that are committed and can be found in history again.
* Inbound records have to be completed within their own master block: from a retained record or
  from history. Only messages of system accounts, and messages made before the indexed history
  starts, may stay without a source.

| here | in the indexer |
| --- | --- |
| `unresolved`, `retained` | `awaiting_source`, `awaiting_destination` |
| `Linker.link` | `MessageLinker.link` |
| `Linker.resolve` | `MessageLinker.resolve_from_history` |
| `Linker.handle` | `MessageLinker.handle_master` |
| `Linker.evicted`, `Linker.prune` | `MessageLinker.prune` |
-/
namespace ShardIndex

/-- The records waiting for their counterpart, at most one a message in each list. -/
structure Linker where
  /-- Outbound records kept before the oldest are given up. -/
  capacity : Nat
  /-- The logical time at which the indexed history starts. -/
  historyStart : Option UInt64 := none
  /-- Inbound records without a known source. -/
  unresolved : List Message := []
  /-- Outbound records without a known destination. -/
  retained : List Message := []

namespace Linker

/-- The records other than those of the message. -/
def dropMessage (hash : Hash) (ms : List Message) : List Message :=
  ms.filter fun m => decide (m.hash ≠ hash)

/-- The record of the message. -/
def findMessage (hash : Hash) (ms : List Message) : Option Message :=
  ms.find? fun m => m.hash == hash

/-- Takes in one record. The result is the record that it completes, if any; an external message is
complete as it is. -/
def link (l : Linker) (m : Message) : Option Message × Linker :=
  if m.kind ≠ .internal then (some m, l)
  else if m.source.tx.isSome then
    match findMessage m.hash l.unresolved with
    | some inbound =>
      (some (inbound.fillFrom m), { l with unresolved := dropMessage m.hash l.unresolved })
    | none => (none, { l with retained := dropMessage m.hash l.retained ++ [m] })
  else
    match findMessage m.hash l.retained with
    | some outbound =>
      (some (m.fillFrom outbound), { l with retained := dropMessage m.hash l.retained })
    | none => (none, { l with unresolved := dropMessage m.hash l.unresolved ++ [m] })

/-- Takes in records in order; the completed ones come out in the same order. -/
def linkAll : Linker → List Message → List Message × Linker
  | l, [] => ([], l)
  | l, m :: ms =>
    let (done, l) := l.link m
    let (rest, l) := linkAll l ms
    (done.toList ++ rest, l)

/-- Whether an inbound record may stay without a source: a system account sent it, or it was made
before the indexed history starts. -/
def exempt (historyStart : Option UInt64) (m : Message) : Bool :=
  m.source.address.any Address.isSystem ||
    historyStart.any fun start => decide (m.createdLt < start)

/-- An inbound record with the source that history knows. A label it has already is kept. -/
def withSource (m : Message) (s : MessageSource) : Message :=
  { m with source :=
    { m.source with tx := some s.tx, contract := m.source.contract <|> s.contract } }

/-- Completes inbound records from history. The first one that has no source and may not stay
without stops the master block. -/
def resolve (history : Hash → Option MessageSource) (historyStart : Option UInt64)
    (master : UInt32) : List Message → Except Fault (List Message)
  | [] => .ok []
  | m :: ms =>
    match history m.hash with
    | some source => return withSource m source :: (← resolve history historyStart master ms)
    | none =>
      if exempt historyStart m then return m :: (← resolve history historyStart master ms)
      else .error (.unknownSource master m.hash m.destination.address)

/-- Takes the messages out of a master block and returns the completed ones. The inbound records
leave the linker whether they could be completed or not. -/
def handle (l : Linker) (history : Hash → Option MessageSource) (b : MasterBundle) :
    Except Fault (List Message) × Linker :=
  let historyStart := l.historyStart <|> some b.master.block.startLt
  let (linked, l) := linkAll { l with historyStart := historyStart } b.messages
  let resolved := resolve history historyStart b.seqno l.unresolved
  (resolved.map (linked ++ ·), { l with unresolved := [] })

/-- Records in the order in which they are given up: the oldest first, then by digest. -/
def oldestFirst (a b : Message) : Bool :=
  decide (a.createdLt < b.createdLt) || (a.createdLt == b.createdLt && decide (a.hash ≤ b.hash))

/-- The records that are given up, once all master blocks up to `committed` are committed: the
oldest committed ones, as many as there are records above the capacity. -/
def evicted (l : Linker) (committed : UInt32) : List Message :=
  ((l.retained.filter fun m => m.masterSeqno?.any fun n => decide (n ≤ committed)).mergeSort
    oldestFirst).take (l.retained.length - l.capacity)

/-- Gives up retained records above the capacity. -/
def prune (l : Linker) (committed : UInt32) : Linker :=
  let hashes := (l.evicted committed).map (·.hash)
  { l with retained := l.retained.filter fun m => !hashes.contains m.hash }

end Linker

end ShardIndex
