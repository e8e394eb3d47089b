import ShardIndex.Simulation.Basic
/-!
# Fetching and publishing

The turns of a feed. A fetch goes on with its attempts until one succeeds. The publisher puts the
next bundle into the queue as long as it has it and there is room; then it looks at the fetches it
was told of, first come, first served, and takes over the first one that has succeeded. When the
window is used up it opens the next one.

| here | in the indexer |
| --- | --- |
| `fetchStep` | `fetch_with_retry` |
| `publisherStep` | `MasterFetchPipeline.run` |
-/
namespace ShardIndex

namespace Simulation

/-! ## Fetches -/

/-- Tells the publisher of a feed to look at a height. -/
def tell (s : Simulation) (id : Nat) (height : UInt32) : Simulation :=
  match s.feeds.get? id with
  | none => s
  | some f =>
    if f.arrivals.contains height || !f.pipeline.running.contains height then s
    else
      let s := s.setFeed id
        { f with arrivals := f.arrivals ++ [height], attentive := false }
      if f.attentive then s.wake (.publisher id) else s

/-- The fetch of a height has succeeded. -/
def fetched (s : Simulation) (id : Nat) (f : Feed) (height : UInt32) (fetch : Fetch)
    (bundle : MasterBundle) : Simulation :=
  let s := s.setFeed id
    { f with fetches := f.fetches.set height { fetch with stage := .fetched bundle } }
  if fetch.awaited then s.tell id height else s

/-- A step of a fetch: it goes on with an attempt. -/
def fetchStep (id : Nat) (height : UInt32) : Step := fun n s =>
  match s.feeds.get? id with
  | none => (none, s)
  | some f =>
    match f.fetches.get? height with
    | none => (none, s)
    | some fetch =>
      match fetch.stage with
      | .fetched _ => (none, s)
      | .attempting program =>
        if n = 0 then (none, s.defer (.turn (.fetch id height)))
        else
          let keepStage (p : Ongoing World (Option MasterBundle)) (s : Simulation) : Simulation :=
            s.setFeed id
              { f with fetches := f.fetches.set height { fetch with stage := .attempting p } }
          proceed
            { actor := .fetch id height
              program := program
              world := s.worldOf f.reader
              keep := fun w s => s.keep f.reader w
              store := keepStage }
            (fun result s =>
              match result with
              | some bundle => s.fetched id f height fetch bundle
              | none => keepStage (.active (f.attempt height)) s)
            n s

/-! ## The publisher -/

/-- Gives the listener of a feed a turn if it waits for a bundle. -/
def feedListener (s : Simulation) (f : Feed) : Simulation :=
  match f.listener with
  | .line id => if f.hungry then s.wake (.consumer id) else s
  | .caller | .nobody => s

/-- Ends a feed: the publisher and every pending fetch have one more turn, in which there is nothing
left to do. What is in the queue stays there. -/
def endFeed (s : Simulation) (id : Nat) : Simulation :=
  match s.feeds.get? id with
  | none => s
  | some f =>
    if f.publishing then
      let pending := f.pipeline.running.filter fun h => (f.fetches.get? h).any Fetch.isPending
      let s := s.setFeed id { f with fetches := [], arrivals := [], publishing := false }
      let s := { s with timers := s.timers.filter fun t => decide (t.2.feed? ≠ some id) }
      (pending.map (Actor.fetch id) ++ [Actor.publisher id]).foldl wake s
    else s

/-- Ends a feed and forgets it. -/
def dropFeed (s : Simulation) (id : Nat) : Simulation :=
  let s := s.endFeed id
  { s with feeds := s.feeds.erase id }

/-- The publisher looks at one height after the other until one of them is fetched, and takes it
over. Without allowance nothing is taken over: the look is put off until the round is over. When the
publisher has seen every height that is left of the window, it lets others go first. -/
def look (id n : Nat) : List UInt32 → Nat → Feed → Simulation → Option Nat × Simulation
  | [], _, f, s => (none, s.setFeed id { f with arrivals := [] })
  | h :: rest, unseen, f, s =>
    let passOn (f : Feed) (s : Simulation) : Option Nat × Simulation :=
      if unseen ≤ 1 then (none, (s.setFeed id { f with arrivals := rest }).wake (.publisher id))
      else look id n rest (unseen - 1) f s
    if n = 0 then passOn f (s.defer (.look id h))
    else
      match f.fetches.get? h with
      | none => passOn f s
      | some fetch =>
        match fetch.stage with
        | .attempting _ =>
          passOn { f with fetches := f.fetches.set h { fetch with awaited := true } } s
        | .fetched bundle =>
          (some (n - 1), s.setFeed id
            { f with
              arrivals := rest
              fetches := f.fetches.erase h
              pipeline := f.pipeline.complete h bundle })

/-- The fetches of a window begin. If it has no heights it is used up at once, and the publisher goes on before
anybody else. -/
def beginWindow (s : Simulation) (id n : Nat) (f : Feed) : Option Nat × Simulation :=
  let s := f.pipeline.running.foldl (fun s h => s.wake (.fetch id h)) (s.setFeed id f)
  if f.pipeline.running.isEmpty then (none, s.insist (.publisher id)) else (some n, s)

/-- A step of a publisher. -/
def publisherStep (id : Nat) : Step := fun n s =>
  match s.feeds.get? id with
  | none => (none, s)
  | some f =>
    if !f.publishing then (none, s)
    else
      match f.pipeline.head? with
      | some bundle =>
        if n = 0 then (none, s.defer (.turn (.publisher id)))
        else
          match f.listener with
          | .nobody => (none, s.endFeed id)
          | .caller | .line _ =>
            if f.queue.length < f.capacity then
              let s := s.setFeed id
                { f with
                  queue := f.queue ++ [bundle]
                  pipeline := f.pipeline.publish
                  blocked := false
                  hungry := false }
              (some (n - 1), s.feedListener f)
            else (none, s.setFeed id { f with blocked := true })
      | none =>
        if !f.pipeline.running.isEmpty then
          look id n f.arrivals f.pipeline.running.length { f with attentive := true } s
        else if f.pipeline.exhausted then
          (none, (s.setFeed id { f with publishing := false, hungry := false }).feedListener f)
        else
          s.beginWindow id n f.openWindow

/-- A new feed, whose publisher is ready. -/
def openFeed (s : Simulation) (f : Feed) : Nat × Simulation :=
  let id := s.fresh
  (id, { s with feeds := s.feeds.set id f, fresh := id + 1 }.wake (.publisher id))

/-- Takes the next bundle out of a queue. A publisher that waits for room goes on. -/
def takeBundle (s : Simulation) (id : Nat) (f : Feed) (rest : List MasterBundle) : Simulation :=
  let s := s.setFeed id { f with queue := rest, blocked := false }
  if f.blocked then s.wake (.publisher id) else s

end Simulation

end ShardIndex
