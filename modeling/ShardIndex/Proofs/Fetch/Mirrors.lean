import ShardIndex.Fetch.Bundle
import ShardIndex.Proofs.Rescan.Behaviour
/-!
# Programs next to functions

A reader is a program over any monad, so the same reader also runs where there is nothing to remember in
(`Id`): every read goes to the node, and its result is a function of the arguments. A program `Mirrors` such a
function if it ends with the same result, fault or not, and keeps a property of the context that it runs in.

Caches lose entries whenever they are looked at (`LossyCache`), so nothing that is proved about a program with a
cache depends on how much is kept.
-/
namespace ShardIndex

/-! ## Caches that lose entries -/

/-- A name under which a reader keeps an answer. -/
inductive CacheKey where
  | master (seqno : UInt32)
  | topShards (master : BlockId)
  | account (block : BlockRef) (address : Address)
  | library (hash : Hash)

/-- What is left of a cache when answers get lost. -/
def ReadCache.evict (lost : CacheKey → Bool) (c : ReadCache) : ReadCache where
  masters := c.masters.filter fun e => !lost (.master e.1)
  topShards := c.topShards.filter fun e => !lost (.topShards e.1)
  accounts := c.accounts.filter fun e => !lost (.account e.1.1 e.1.2)
  libraries := c.libraries.filter fun e => !lost (.library e.1)

/-- A cache that may lose answers whenever it is looked at. -/
structure LossyCache where
  answers : ReadCache := {}
  /-- What gets lost before the next looks at the cache, look by look. -/
  losses : Nat → CacheKey → Bool

/-- The cache after answers got lost. -/
def LossyCache.evict (c : LossyCache) : LossyCache where
  answers := c.answers.evict (c.losses 0)
  losses n := c.losses (n + 1)

/-- Where nothing is remembered every cache is empty. -/
instance : MonadStateOf ReadCache Id where
  get := {}
  set _ := ()
  modifyGet f := (f {}).1

namespace Rescan

variable {σ α β : Type}

namespace Context

/-- The context with other answers in its cache. -/
def cache (w : Context (σ × LossyCache)) (c : ReadCache) : Context (σ × LossyCache) :=
  { w with parser := (w.parser.1, { w.parser.2.evict with answers := c }) }

end Context

/-- Every look at the cache loses answers first. -/
instance : MonadStateOf ReadCache (RescanM (σ × LossyCache)) where
  get w := (w.parser.2.evict.answers, w.cache w.parser.2.evict.answers)
  set c w := ((), w.cache c)
  modifyGet f w := ((f w.parser.2.evict.answers).1, w.cache (f w.parser.2.evict.answers).2)

/-! ## Mirrors -/

/-- The program keeps a property of the context and ends as the function does. -/
def Mirrors {ε : Type} (I : Context σ → Prop) (x : ExceptT ε (RescanM σ) α) (y : ExceptT ε Id α) : Prop :=
  Ends I x.run (· = y.run)

namespace Mirrors

variable {I : Context σ → Prop} {ε : Type}

theorem pure (a : α) : Mirrors I (Pure.pure a : ExceptT ε (RescanM σ) α) (Pure.pure a) :=
  .run_pure rfl

theorem mk (r : Except ε α) :
    Mirrors I (ExceptT.mk (Pure.pure r) : ExceptT ε (RescanM σ) α) (ExceptT.mk (Pure.pure r)) :=
  .run_mk rfl

theorem bind {x : ExceptT ε (RescanM σ) α} {y : ExceptT ε Id α} {f : α → ExceptT ε (RescanM σ) β}
    {g : α → ExceptT ε Id β} (hx : Mirrors I x y) (hf : ∀ a, y = Pure.pure a → Mirrors I (f a) (g a)) :
    Mirrors I (x >>= f) (y >>= g) := by
  refine Ends.run_bind hx (fun a ha => ?_) fun e he => ?_
  · obtain rfl : y = Pure.pure a := ha.symm
    exact hf a rfl
  · obtain rfl : y = ExceptT.mk (Pure.pure (.error e)) := he.symm
    rfl

/-- What a program without a result of its own comes to does not show. -/
theorem then_of_keeps {x : ExceptT ε (RescanM σ) Unit} {f : Unit → ExceptT ε (RescanM σ) β}
    {y : ExceptT ε Id β} (hx : Ends I x.run (· = .ok ())) (hf : Mirrors I (f ()) y) : Mirrors I (x >>= f) y :=
  hx.run_bind (fun _ _ => hf) (by simp)

/-- A program that hands the result of another one on, whatever the result is. -/
theorem lift {ε' : Type} {x : ExceptT ε (RescanM σ) α} {y : ExceptT ε Id α} (hx : Mirrors I x y) :
    Mirrors I (ExceptT.lift x.run : ExceptT ε' (RescanM σ) (Except ε α)) (ExceptT.lift y.run) :=
  .run_lift (hx.weaken fun _ ha => congrArg Except.ok ha)

theorem mapM {f : α → ExceptT ε (RescanM σ) β} {g : α → ExceptT ε Id β} :
    ∀ {l : List α}, (∀ a ∈ l, Mirrors I (f a) (g a)) → Mirrors I (l.mapM f) (l.mapM g)
  | [], _ => by
    rw [List.mapM_nil, List.mapM_nil]
    exact .pure _
  | a :: l, h => by
    obtain ⟨ha, hl⟩ := List.forall_mem_cons.1 h
    rw [List.mapM_cons, List.mapM_cons]
    exact ha.bind fun _ _ => (mapM hl).bind fun _ _ => .pure _

end Mirrors

end Rescan

end ShardIndex
