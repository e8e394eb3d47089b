import ShardIndex.Simulation.Publication
/-!
# Supervised lines and rescan loops

The turns of a line and of a rescan loop. A line goes through its stages: it opens, receives and
handles bundles, and closes when it is cancelled or nothing more can come; a fault makes it pause
and open again. A rescan loop steps back after every step that got something done, and pauses after
any other.

| here | in the indexer |
| --- | --- |
| `receiveStep` | the loop of `run_pipeline` |
| `consumerStep` | `supervise`, with `run_pipeline` in it |
| `rescanStep` | `RescanScheduler.run` |
-/
namespace ShardIndex

namespace Simulation

/-! ## Lines -/

/-- A line has reached a stage. -/
def enter (s : Simulation) (id : Nat) (l : Line) (stage : Stage) : Simulation :=
  s.setLine id { l with stage := stage }

/-- A line has failed: it drops its feed and pauses, unless it is cancelled. -/
def fail (s : Simulation) (id : Nat) (l : Line) : Simulation :=
  let s := l.stage.feed?.elim s s.dropFeed
  if l.cancelled then s.enter id l .stopped
  else s.enter id l (.restarting (.active (Clock.wait l.config.restartDelay.waitMillis)))

/-- A line has a sink, and a new feed from the height on. -/
def beginReceiving (s : Simulation) (id : Nat) (l : Line) (sink : Sink) (start : UInt32) :
    Simulation :=
  let (feed, s) := s.openFeed (.openAt l.config l.reader (.line id) start)
  s.enter id l (.receiving feed sink)

/-- A program of a line, which is at a stage meanwhile. -/
def runningFor {α : Type} (s : Simulation) (id : Nat) (l : Line) (program : Ongoing World α)
    (stage : Ongoing World α → Stage) : Running α where
  actor := .consumer id
  program := program
  world := s.worldOf l.reader
  keep := fun w s => s.keep l.reader w
  store := fun p s => s.enter id l (stage p)

/-- A step of a line that has nothing on its way: it takes the next bundle from the queue, or closes
when it is cancelled or nothing more can come. -/
def receiveStep (id : Nat) (l : Line) (feed : Nat) (sink : Sink) : Step := fun n s =>
  if n = 0 then (none, s.defer (.turn (.consumer id)))
  else if l.cancelled then (some n, s.enter id l (.closing feed (.active sink.flush)))
  else
    match s.feeds.get? feed with
    | none => (none, s)
    | some f =>
      match f.queue with
      | bundle :: rest =>
        (some (n - 1), (s.takeBundle feed f rest).enter id l
          (.handling feed (.active (Sink.handle World.parser sink bundle))))
      | [] =>
        if f.publishing then
          (none, (s.setFeed feed { f with hungry := true }).heed (.consumer id))
        else (some (n - 1), s.enter id l (.closing feed (.active sink.flush)))

/-- A step of a line. -/
def consumerStep (id : Nat) : Step := fun n s =>
  match s.lines.get? id with
  | none => (none, s)
  | some l =>
    match l.stage with
    | .stopped => (none, s)
    | .opening program =>
      proceed (s.runningFor id l program .opening)
        (fun result s =>
          match result with
          | .ok (sink, start) => s.beginReceiving id l sink start
          | .error _ => s.fail id l)
        n s
    | .receiving feed sink => receiveStep id l feed sink n s
    | .handling feed program =>
      proceed (s.runningFor id l program (.handling feed))
        (fun result s =>
          match result with
          | (.ok (), sink) => s.enter id l (.receiving feed sink)
          | (.error _, _) => s.fail id l)
        n s
    | .closing feed program =>
      proceed (s.runningFor id l program (.closing feed))
        (fun result s =>
          match result with
          | (.ok (), _) => (s.dropFeed feed).enter id l .stopped
          | (.error _, _) => s.fail id l)
        n s
    | .restarting program =>
      if l.cancelled then (none, s.enter id l .stopped)
      else
        let running := s.runningFor id l program .restarting
        proceed { running with store := fun p s => running.store p (s.heed (.consumer id)) }
          (fun _ s => s.enter id l (.opening (.active (Line.opening l.config)))) n s

/-! ## Rescan loops -/

/-- A step of a rescan loop. Once the loop is cancelled, it stops. -/
def rescanStep (id : Nat) : Step := fun n s =>
  match s.loops.get? id with
  | none => (none, s)
  | some l =>
    if l.stopped then (none, s)
    else if l.cancelled then (none, s.setLoop id { l with stopped := true })
    else
      let outcome := l.program.resume s.now n { site := s.site, snapshots := l.snapshots }
      match outcome with
      | none => (none, s)
      | some (pause, n, w) =>
        let s := { s with site := w.site }
        let l := { l with snapshots := w.snapshots }
        match pause with
        | .finished true => (none, (s.setLoop id l.again).defer (.turn (.rescan id)))
        | .finished false => (some n, s.setLoop id l.again)
        | .waiting ms rest =>
          let due := s.momentIn ms
          (none, ((s.setLoop id { l with program := .waiting due rest }).wakeAt due
            (.rescan id)).heed (.rescan id))
        | .tired rest =>
          (none, (s.setLoop id { l with program := .active rest }).defer (.turn (.rescan id)))

end Simulation

end ShardIndex
