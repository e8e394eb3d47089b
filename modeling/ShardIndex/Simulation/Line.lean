import ShardIndex.Config.Basic
import ShardIndex.Pipeline
import ShardIndex.Simulation.World
/-!
# Feeds, lines and loops

The long-running activities of a simulation, as data.

* A feed fetches master bundles through a pipeline into a bounded queue. Every height of a window is
  fetched on its own; the publisher takes over what is fetched and fills the queue.
* A line empties the queue of a feed into a sink, and is supervised: a fault sends it back to its
  opening stage after a pause, with a feed that starts after the last committed master block.
* A rescan loop works on unfinished tasks, step after step.

Each of them is served in turns. Whoever can be served is an `Actor`.
-/
namespace ShardIndex

/-- Who can be served. -/
inductive Actor where
  | fetch (feed : Nat) (height : UInt32)
  | publisher (feed : Nat)
  | consumer (line : Nat)
  | rescan (loop : Nat)
deriving DecidableEq

/-- The feed that an actor fetches for. -/
def Actor.feed? : Actor → Option Nat
  | .fetch feed _ => some feed
  | .publisher _ | .consumer _ | .rescan _ => none

/-- The fetch of one height: it is attempted until it succeeds. An attempt that fails results in
nothing, after a pause. -/
inductive FetchStage where
  | attempting (program : Ongoing World (Option MasterBundle))
  | fetched (bundle : MasterBundle)

/-- The fetch of one height. -/
structure Fetch where
  stage : FetchStage
  /-- Whether the publisher has asked to be told of the success. -/
  awaited : Bool := false

namespace Fetch

/-- Whether the fetch has not succeeded yet. -/
def isPending (f : Fetch) : Bool :=
  match f.stage with
  | .attempting _ => true
  | .fetched _ => false

end Fetch

/-- Who takes the bundles of a feed. -/
inductive Listener where
  /-- Nobody does: bundles are refused. -/
  | nobody
  | caller
  | line (id : Nat)

/-- A fetch pipeline with the queue that it fills. -/
structure Feed where
  config : IndexerConfig
  /-- The reader whose cache the fetches use. -/
  reader : Nat
  listener : Listener
  pipeline : Pipeline MasterBundle
  fetches : Table UInt32 Fetch := []
  /-- The heights that the publisher is to look at, in order. -/
  arrivals : List UInt32 := []
  /-- Whether the next arrival gives the publisher a turn. -/
  attentive : Bool := false
  queue : List MasterBundle := []
  /-- Whether the publisher may still add to the queue. -/
  publishing : Bool := true
  /-- Whether the publisher waits for room in the queue. -/
  blocked : Bool := false
  /-- Whether the listener waits for a bundle. -/
  hungry : Bool := false

namespace Feed

/-- The number of bundles that the queue holds. -/
def capacity (f : Feed) : Nat :=
  max f.config.channelCapacity.toNat 1

/-- One attempt to fetch a height; a pause follows a failure. -/
def attempt (f : Feed) (height : UInt32) : Timed World (Option MasterBundle) := do
  match ← (World.reader.fetchMaster height).run with
  | .ok bundle => return some bundle
  | .error _ =>
    Clock.wait f.config.retryInterval.waitMillis
    return none

/-- A fetch that begins with its first attempt. -/
def newFetch (f : Feed) (height : UInt32) : Fetch where
  stage := .attempting (.active (f.attempt height))

/-- A feed that starts at a height, and nothing fetched yet. -/
def openAt (config : IndexerConfig) (reader : Nat) (listener : Listener) (start : UInt32) :
    Feed where
  config := config
  reader := reader
  listener := listener
  pipeline := { workers := config.windowSize, next := start }

/-- The feed with the next window of heights. -/
def openWindow (f : Feed) : Feed :=
  let p := f.pipeline.openWindow
  { f with
    pipeline := p
    fetches := p.running.map fun h => (h, f.newFetch h)
    arrivals := p.running }

end Feed

/-- The stage of a line. -/
inductive Stage where
  | opening (program : Ongoing World (Except Fault (Sink × UInt32)))
  | receiving (feed : Nat) (sink : Sink)
  | handling (feed : Nat) (program : Ongoing World (Except Fault Unit × Sink))
  | closing (feed : Nat) (program : Ongoing World (Except Fault Unit × Sink))
  /-- The line has failed and pauses. -/
  | restarting (program : Ongoing World Unit)
  | stopped

namespace Stage

/-- The feed of a line at a stage. -/
def feed? : Stage → Option Nat
  | .receiving feed _ | .handling feed _ | .closing feed _ => some feed
  | .opening _ | .restarting _ | .stopped => none

end Stage

/-- A supervised line from a feed to the store. -/
structure Line where
  config : IndexerConfig
  /-- The reader that its feeds use. -/
  reader : Nat
  cancelled : Bool := false
  stage : Stage

namespace Line

/-- Whether the line has ended for good. -/
def isStopped (l : Line) : Bool :=
  match l.stage with
  | .stopped => true
  | _ => false

/-- The sink of a line that opens, and the height at which its pipeline starts: after the last
committed master block; with an empty store at the configured one, or else at the latest one of the
chain. -/
def opening (c : IndexerConfig) : Timed World (Except Fault (Sink × UInt32)) :=
  ExceptT.run do
    let store ← getThe Store
    let last := store.lastMaster.map (·.id.seqno)
    let start ← match last, c.fromMaster with
      | some seqno, _ => pure (Sink.successor seqno)
      | none, some seqno => pure seqno
      | none, none => World.node.lastMaster
    return (Sink.resume c.batch c.linker.retainedCapacity.toNat store, start)

/-- A line that is about to open. -/
def ofConfig (config : IndexerConfig) (reader : Nat) : Line where
  config := config
  reader := reader
  stage := .opening (.active (opening config))

end Line

/-- A loop of rescan steps. -/
structure RescanLoop where
  /-- Milliseconds between two looks for an unfinished task. -/
  pollInterval : Nat
  batch : UInt32
  snapshots : Snapshots
  /-- The step on its way. It says whether there was something to do; if not, a pause follows. -/
  program : Ongoing World Bool
  cancelled : Bool := false
  stopped : Bool := false

namespace RescanLoop

/-- One step, and a pause if there was nothing to do or the step failed. -/
def nextStep (pollInterval : Nat) (batch : UInt32) : Timed World Bool := do
  match ← (Rescan.step World.parser batch).run with
  | .ok (some _) => return true
  | .ok none | .error _ =>
    Clock.wait pollInterval
    return false

/-- A loop with nothing remembered yet. -/
def ofConfig (pollInterval : Nat) (batch : UInt32) (depth : Nat) : RescanLoop where
  pollInterval := pollInterval
  batch := batch
  snapshots := .empty depth
  program := .active (nextStep pollInterval batch)

/-- The loop before its next step. -/
def again (l : RescanLoop) : RescanLoop :=
  { l with program := .active (nextStep l.pollInterval l.batch) }

end RescanLoop

end ShardIndex
