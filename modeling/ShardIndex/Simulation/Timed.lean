import ShardIndex.Clock
/-!
# Timed programs

A timed program reads and writes a shared world and sometimes waits. Between two waits it runs
without interruption; while it waits, others may change the world. A program is a tree of what it
does next, so it can be run for a turn (`Timed.advance`) and continued in a later one.

A turn comes with an allowance, a number of waits that may end in it. A wait of no length ends in
the turn in which it begins, as long as there is allowance left: so no program keeps the turn
forever, not even one that tries again and again without a pause.
-/
namespace ShardIndex

/-- A program over a world `W` with result `α`. -/
inductive Timed (W α : Type) : Type where
  | done (a : α)
  | look (k : W → Timed W α)
  | put (w : W) (k : Timed W α)
  | wait (ms : Nat) (k : Timed W α)

namespace Timed

variable {W α β : Type}

/-- Continues with the result of a program. -/
protected def bind : Timed W α → (α → Timed W β) → Timed W β
  | .done a, f => f a
  | .look k, f => .look fun w => (k w).bind f
  | .put w k, f => .put w (k.bind f)
  | .wait ms k, f => .wait ms (k.bind f)

instance : Monad (Timed W) where
  pure := .done
  bind := .bind

/-- A change of the world with a result. -/
def access (f : W → α × W) : Timed W α :=
  .look fun w => let (a, w') := f w; .put w' (.done a)

instance : Clock (Timed W) where
  wait ms := .wait ms (.done ())

/-- How a turn of a program ends. -/
inductive Pause (W α : Type) where
  | finished (a : α)
  /-- A wait of some length has begun. -/
  | waiting (ms : Nat) (rest : Timed W α)
  /-- The allowance is used up at the beginning of a wait. -/
  | tired (rest : Timed W α)

/-- Runs a program for a turn. The number is the allowance, and what is left of it. -/
def advance : Timed W α → Nat → W → Pause W α × Nat × W
  | .done a, n, w => (.finished a, n, w)
  | .look k, n, w => (k w).advance n w
  | .put w k, n, _ => k.advance n w
  | .wait ms k, 0, w => (.tired (.wait ms k), 0, w)
  | .wait 0 k, n + 1, w => k.advance n w
  | .wait (ms + 1) k, n + 1, w => (.waiting (ms + 1) k, n + 1, w)

/-- Runs a program in a world where nothing else happens. The number counts the milliseconds that
it waits. -/
def run : Timed W α → W → α × W × Nat
  | .done a, w => (a, w, 0)
  | .look k, w => (k w).run w
  | .put w k, _ => k.run w
  | .wait ms k, w =>
    let (a, w, waited) := k.run w
    (a, w, ms + waited)

end Timed

/-- A program on its way. -/
inductive Ongoing (W α : Type) where
  /-- The program goes on with its next turn. -/
  | active (rest : Timed W α)
  /-- The program goes on when a moment has come. -/
  | waiting (due : Nat) (rest : Timed W α)

namespace Ongoing

variable {W α : Type}

/-- A turn of a program at a moment. The end of a wait takes from the allowance; before the end
there is nothing to do. -/
def resume (now : Nat) : Ongoing W α → Nat → W → Option (Timed.Pause W α × Nat × W)
  | .active rest, n, w => some (rest.advance n w)
  | .waiting due rest, n, w => if now < due then none else some (rest.advance (n - 1) w)

end Ongoing

end ShardIndex
