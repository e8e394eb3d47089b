import ShardIndex.Simulation.Round
/-!
# Indexers

An indexer is one line from the node to the store and, if its configuration says so, one rescan
loop next to it. It can be started as long as it was not stopped. To stop it is to cancel all that
it runs and to wait for the end: a line flushes what its sink holds, a loop ends after its step.
-/
namespace ShardIndex

/-- A configured indexer with all that it was started as. -/
structure Indexer where
  config : IndexerConfig
  /-- The reader that its lines share. -/
  reader : Nat
  lines : List Nat := []
  loops : List Nat := []
  cancelled : Bool := false

/-- Whether an actor is a line or a loop of an indexer. -/
def Indexer.runs (ix : Indexer) : Actor → Bool
  | .consumer line => ix.lines.contains line
  | .rescan loop => ix.loops.contains loop
  | .fetch _ _ | .publisher _ => false

namespace Simulation

/-- An indexer that was not started yet. -/
def newIndexer (s : Simulation) (config : IndexerConfig) : Indexer × Simulation :=
  ({ config := config, reader := s.fresh }, { s with fresh := s.fresh + 1 })

/-- Adds a line that is ready to open, and says its name. -/
def addLine (s : Simulation) (l : Line) : Nat × Simulation :=
  let id := s.fresh
  (id, { s with lines := Table.set s.lines id l, fresh := id + 1 }.wake (.consumer id))

/-- Adds a loop that is ready for its first step, and says its name. -/
def addLoop (s : Simulation) (l : RescanLoop) : Nat × Simulation :=
  let id := s.fresh
  (id, { s with loops := Table.set s.loops id l, fresh := id + 1 }.wake (.rescan id))

/-- The rescan loop of a configuration. -/
def loopOf (c : IndexerConfig) : RescanLoop :=
  .ofConfig c.rescan.pollInterval.waitMillis c.rescanBatch c.rescan.stateCacheDepth.toNat

/-- Starts an indexer (`Indexer.start`). Once it was stopped, nothing happens. -/
def start (s : Simulation) (ix : Indexer) : Indexer × Simulation :=
  if ix.cancelled then (ix, s)
  else
    let (line, s) := s.addLine (.ofConfig ix.config ix.reader)
    let ix := { ix with lines := ix.lines ++ [line] }
    if ix.config.rescan.enabled then
      let (loop, s) := s.addLoop (loopOf ix.config)
      ({ ix with loops := ix.loops ++ [loop] }, s)
    else (ix, s)

/-- Cancels a line: its feed ends. What the sink has on its way is finished. -/
def cancelLine (s : Simulation) (id : Nat) : Simulation :=
  match Table.get? s.lines id with
  | none => s
  | some l =>
    let s := s.setLine id { l with cancelled := true }
    l.stage.feed?.elim s s.endFeed

/-- Cancels a loop. A step on its way is finished. -/
def cancelLoop (s : Simulation) (id : Nat) : Simulation :=
  match Table.get? s.loops id with
  | none => s
  | some l => s.setLoop id { l with cancelled := true }

/-- Ends the waits of lines and loops that were cancelled. -/
def alert (s : Simulation) (concerned : Actor → Bool) : Simulation :=
  let s' := { s with heeding := s.heeding.filter fun a => !concerned a }
  (s.heeding.filter concerned).foldl hasten s'

/-- Whether a line has ended. -/
def lineStopped (s : Simulation) (id : Nat) : Bool :=
  (Table.get? s.lines id).all Line.isStopped

/-- Whether a loop has ended. -/
def loopStopped (s : Simulation) (id : Nat) : Bool :=
  (Table.get? s.loops id).all RescanLoop.stopped

/-- Whether everything that an indexer was started as has ended. -/
def allStopped (ix : Indexer) (s : Simulation) : Bool :=
  ix.lines.all s.lineStopped && ix.loops.all s.loopStopped

/-- Whether an indexer was not stopped and some of it still runs (`Indexer.is_running`). -/
def isRunning (s : Simulation) (ix : Indexer) : Bool :=
  !ix.cancelled && !allStopped ix s

/-- Stops an indexer and waits until everything has ended (`Indexer.stop`). Feeds learn of it first,
the latest one at once, then the lines and loops that wait, in the order in which they began to. -/
def stop (s : Simulation) (ix : Indexer) : Indexer × Simulation :=
  let s := ix.lines.reverse.foldl cancelLine s
  let s := ix.loops.foldl cancelLoop s
  let s := s.alert ix.runs
  ({ ix with cancelled := true }, s.await (allStopped ix) none)

/-- Runs a rescan loop for so many milliseconds, then cancels it and waits for its end. -/
def runLoop (s : Simulation) (l : RescanLoop) (ms : Nat) : Simulation :=
  let (id, s) := s.addLoop l
  let s := ((s.sleep ms).cancelLoop id).alert fun a => decide (a = .rescan id)
  let s := s.await (fun s => s.loopStopped id) none
  { s with loops := Table.erase s.loops id }

end Simulation

end ShardIndex
