import ShardIndex.Simulation.Line
/-!
# Simulations on a virtual clock

A simulation serves feeds, lines and rescan loops in turns, on a clock that stands still while
anybody has something to do. Who is ready is served in the order in which they became ready, and
waits that end at the same moment end in the order in which they began.

A turn is made of steps and comes with an allowance (`Simulation.allowance`). Taking a bundle over,
publishing it, receiving it and the end of a wait take one from it each. Who has used it up steps
back (`Simulation.defer`) and is made ready again when the round is over, the last one first.
-/
namespace ShardIndex

/-- What happens to those who stepped back when a round is over. -/
inductive Signal where
  /-- An actor is ready. -/
  | turn (a : Actor)
  /-- The publisher of a feed is to look at a height. -/
  | look (feed : Nat) (height : UInt32)
deriving DecidableEq

/-- Everything that goes on at a moment. -/
structure Simulation where
  /-- Milliseconds since the start. -/
  now : Nat := 0
  site : Site := {}
  /-- Who is to be served next, in order. -/
  ready : List Actor := []
  /-- Who stepped back, the last one first. -/
  deferred : List Signal := []
  /-- The ends of waits, the next one first. -/
  timers : List (Nat × Actor) := []
  /-- Lines and loops that wait and would notice that they are cancelled, in the order in which they
  began to wait. -/
  heeding : List Actor := []
  /-- What the readers of feeds remember. -/
  caches : Table Nat ReadCache := []
  feeds : Table Nat Feed := []
  lines : Table Nat Line := []
  loops : Table Nat RescanLoop := []
  /-- The name of the next feed, line, loop or reader. -/
  fresh : Nat := 0
  /-- What is left of the allowance of the caller. -/
  credit : Nat := 128

namespace Simulation

/-- The allowance of a turn. -/
def allowance : Nat := 128

/-- The longest wait in milliseconds: thirty years of 365 days. -/
def longestWait : Nat := 946080000000

/-- The moment at which a wait ends that begins now. -/
def momentIn (s : Simulation) (ms : Nat) : Nat :=
  s.now + min ms longestWait

/-! ## Readiness -/

/-- Makes an actor ready, once. -/
def wake (s : Simulation) (a : Actor) : Simulation :=
  if s.ready.contains a then s else { s with ready := s.ready ++ [a] }

/-- Goes on before anybody else has a turn. -/
def insist (s : Simulation) (a : Actor) : Simulation :=
  { s with ready := a :: s.ready }

/-- Steps back until the round is over. -/
def defer (s : Simulation) (x : Signal) : Simulation :=
  if s.deferred.head? = some x then s else { s with deferred := x :: s.deferred }

/-- Adds the end of a wait, after those that are due no later. -/
def insertTimer (due : Nat) (a : Actor) : List (Nat × Actor) → List (Nat × Actor)
  | [] => [(due, a)]
  | (d, b) :: rest =>
    if d ≤ due then (d, b) :: insertTimer due a rest else (due, a) :: (d, b) :: rest

/-- Makes an actor ready at a moment to come. -/
def wakeAt (s : Simulation) (due : Nat) (a : Actor) : Simulation :=
  { s with timers := insertTimer due a s.timers }

/-- Moves the clock to a moment and makes everybody ready whose wait ends. -/
def fire (s : Simulation) (moment : Nat) : Simulation :=
  let due := s.timers.takeWhile fun t => decide (t.1 ≤ moment)
  let later := s.timers.dropWhile fun t => decide (t.1 ≤ moment)
  due.foldl (fun s t => s.wake t.2) { s with now := moment, timers := later }

/-- An actor goes on and no longer waits. -/
def unheed (s : Simulation) (a : Actor) : Simulation :=
  { s with heeding := s.heeding.filter fun b => decide (b ≠ a) }

/-- An actor waits and would notice that it is cancelled. -/
def heed (s : Simulation) (a : Actor) : Simulation :=
  { s with heeding := (s.unheed a).heeding ++ [a] }

/-- Ends the wait of an actor early. -/
def hasten (s : Simulation) (a : Actor) : Simulation :=
  { s with timers := s.timers.filter fun t => decide (t.2 ≠ a) }.wake a

/-! ## Parts -/

def setFeed (s : Simulation) (id : Nat) (f : Feed) : Simulation :=
  { s with feeds := s.feeds.set id f }

def setLine (s : Simulation) (id : Nat) (l : Line) : Simulation :=
  { s with lines := s.lines.set id l }

def setLoop (s : Simulation) (id : Nat) (l : RescanLoop) : Simulation :=
  { s with loops := s.loops.set id l }

/-- What a program that uses a reader sees. -/
def worldOf (s : Simulation) (reader : Nat) : World :=
  { site := s.site, cache := (Table.get? s.caches reader).getD {} }

/-- Keeps what a program that uses a reader has changed. -/
def keep (s : Simulation) (reader : Nat) (w : World) : Simulation :=
  { s with site := w.site, caches := s.caches.set reader w.cache }

/-! ## Turns -/

/-- A step of a turn: what is left of the allowance if the turn goes on. -/
abbrev Step := Nat → Simulation → Option Nat × Simulation

/-- Steps of a turn until one of them ends it. -/
def steps (step : Step) : Nat → Nat → Simulation → Simulation
  | 0, _, s => s
  | k + 1, n, s =>
    match step n s with
    | (some n, s) => steps step k n s
    | (none, s) => s

/-- A whole turn. No actor takes more than a few steps without taking from the allowance. -/
def turn (step : Step) (s : Simulation) : Simulation :=
  steps step (8 * (allowance + 1)) allowance s

/-- A program that an actor is running. -/
structure Running (α : Type) where
  actor : Actor
  program : Ongoing World α
  /-- What the program sees. -/
  world : World
  /-- Keeps what the program has changed. -/
  keep : World → Simulation → Simulation
  /-- Keeps the program itself for a later turn. -/
  store : Ongoing World α → Simulation → Simulation

/-- Goes on with a program in a turn. When it is finished, `next` says what follows in the same
turn. -/
def proceed {α : Type} (r : Running α) (next : α → Simulation → Simulation) : Step := fun n s =>
  match r.program.resume s.now n r.world with
  | none => (none, s)
  | some (pause, n, w) =>
    let s := r.keep w s
    match pause with
    | .finished a => (some n, next a s)
    | .waiting ms rest =>
      let due := s.momentIn ms
      (none, (r.store (.waiting due rest) s).wakeAt due r.actor)
    | .tired rest => (none, (r.store (.active rest) s).defer (.turn r.actor))

end Simulation

end ShardIndex
