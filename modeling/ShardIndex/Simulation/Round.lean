import ShardIndex.Simulation.Supervision
/-!
# Rounds

The turns of a simulation come in rounds (`Simulation.round`). A round is over after so many turns
or when nobody is ready. Then whoever stepped back is made ready; if there is nobody, the clock
moves to the next moment at which a wait ends.

Whoever calls from outside waits for a round to end, too, and goes first in the next one. So a
caller that lets time pass up to a moment (`Simulation.sleep`) finds everything settled that
happened before that moment, and nothing that happens at it. A caller has an allowance like
everybody else, and steps back for a round when it is used up.
-/
namespace ShardIndex

namespace Simulation

/-- A bound on the rounds of a simulation that no run comes near. -/
def patience : Nat := 1000000000000

/-- The turns of a round. -/
def roundSize : Nat := 61

/-- Serves one actor for a turn. -/
def serve (s : Simulation) : Actor → Simulation
  | .fetch feed height => turn (fetchStep feed height) s
  | .publisher feed => turn (publisherStep feed) s
  | .consumer line => turn (consumerStep line) (s.unheed (.consumer line))
  | .rescan loop => turn (rescanStep loop) (s.unheed (.rescan loop))

/-- Serves up to so many actors. The flag says whether that was less than asked for, because nobody
was left. -/
def serveReady : Nat → Simulation → Simulation × Bool
  | 0, s => (s, false)
  | n + 1, s =>
    match s.ready with
    | [] => (s, true)
    | a :: rest => serveReady n ({ s with ready := rest }.serve a)

/-- What a signal means. -/
def obey (s : Simulation) : Signal → Simulation
  | .turn a => s.wake a
  | .look feed height => s.tell feed height

/-- Makes everybody ready who stepped back, the last one first. -/
def recallDeferred (s : Simulation) : Simulation :=
  s.deferred.foldl obey { s with deferred := [] }

/-- The next moment at which a wait ends, that of the caller included. -/
def nextMoment (s : Simulation) (horizon : Option Nat) : Option Nat :=
  match s.timers.head?, horizon with
  | some (due, _), some moment => some (min due moment)
  | some (due, _), none => some due
  | none, horizon => horizon

/-- A round for a caller that waits until something holds, or until a moment has come. The clock
does not move if the caller has something to do. -/
def round (goal : Simulation → Bool) (horizon : Option Nat) (s : Simulation) : Simulation :=
  let (s, idle) := serveReady roundSize s
  if !idle || !s.deferred.isEmpty then s.recallDeferred
  else if goal s then s
  else (s.nextMoment horizon).elim s s.fire

/-- Rounds until something holds; the caller then has its full allowance. -/
def rounds (goal : Simulation → Bool) (horizon : Option Nat) : Nat → Simulation → Simulation
  | 0, s => s
  | n + 1, s =>
    let s := s.round goal horizon
    if goal s then { s with credit := allowance } else rounds goal horizon n s

/-- The caller waits until something holds, which it may already. -/
def await (s : Simulation) (goal : Simulation → Bool) (horizon : Option Nat) : Simulation :=
  if goal s then s else rounds goal horizon patience s

/-- The caller has used up its allowance: it steps back for a round. -/
def stepBack (s : Simulation) : Simulation :=
  { (serveReady roundSize s).1.recallDeferred with credit := allowance }

/-- Takes one from the allowance of the caller. -/
def spend (s : Simulation) : Simulation :=
  { s with credit := s.credit - 1 }

/-- Lets so many milliseconds pass. -/
def sleep (s : Simulation) (ms : Nat) : Simulation :=
  let due := s.momentIn ms
  let s := if s.credit = 0 then s.stepBack else s
  (s.await (fun s => decide (due ≤ s.now)) (some due)).spend

/-- Runs a program from outside; while it waits, time passes for everybody. It remembers what it was
told and the windows of snapshots it uses. -/
def perform {α : Type} :
    Timed World α → ReadCache → Snapshots → Simulation → α × ReadCache × Snapshots × Simulation
  | .done a, cache, snapshots, s => (a, cache, snapshots, s)
  | .look k, cache, snapshots, s =>
    perform (k { site := s.site, cache := cache, snapshots := snapshots }) cache snapshots s
  | .put w k, _, _, s => perform k w.cache w.snapshots { s with site := w.site }
  | .wait ms k, cache, snapshots, s => perform k cache snapshots (s.sleep ms)

end Simulation

end ShardIndex
