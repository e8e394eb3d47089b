/-!
# Programs that wait

The programs of this library are polymorphic in the monad they run in. `Clock M` is the only thing
they assume about time: a program may wait for a number of milliseconds. A monad without a clock
may let the wait pass at once.
-/
namespace ShardIndex

/-- Monads in which a program can wait. -/
class Clock (M : Type → Type) where
  /-- Lets so many milliseconds pass. -/
  wait : Nat → M Unit

variable {M : Type → Type}

instance [Monad M] [Clock M] {ε : Type} : Clock (ExceptT ε M) where
  wait ms := ExceptT.lift (Clock.wait ms)

instance [Monad M] [Clock M] {σ : Type} : Clock (StateT σ M) where
  wait ms := StateT.lift (Clock.wait ms)

/-- In a monad of pure state changes waiting takes no time. -/
instance {σ : Type} : Clock (StateM σ) where
  wait _ := pure ()

end ShardIndex
