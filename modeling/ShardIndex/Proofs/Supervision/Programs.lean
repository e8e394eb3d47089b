import ShardIndex.Simulation.Timed
/-!
# Programs in a world that others change

A timed program runs without interruption between its waits, and while it waits others may change the
world. `Timed.Safe` is the contract of such a program: it finds `I` whenever it goes on after a wait, has
to have `I` again when it begins to wait, and ends with `Q`; all that time it leaves `held` as it is. So a
program can be followed from turn to turn without knowing where in the program a turn ends
(`Timed.Safe.advance`, `Ongoing.Safe.resume`).

`Timed.Gives` is the contract of a program that can fault, from any world with `I` to another one: what it
gives has `Q`, what it faults with has `F`.
-/
namespace ShardIndex

variable {W α β κ ε : Type}

namespace Timed

theorem bind_done (p : Timed W α) : p.bind .done = p := by
  induction p with
  | done a => rfl
  | look k ih => exact congrArg Timed.look (funext ih)
  | put v k ih => exact congrArg (Timed.put v) ih
  | wait ms k ih => exact congrArg (Timed.wait ms) ih

theorem bind_bind {γ : Type} (p : Timed W α) (f : α → Timed W β) (g : β → Timed W γ) :
    (p.bind f).bind g = p.bind fun a => (f a).bind g := by
  induction p with
  | done a => rfl
  | look k ih => exact congrArg Timed.look (funext ih)
  | put v k ih => exact congrArg (Timed.put v) ih
  | wait ms k ih => exact congrArg (Timed.wait ms) ih

instance : LawfulMonad (Timed W) :=
  LawfulMonad.mk' (Timed W) bind_done (fun _ _ => rfl) bind_bind

/-- What is known of a program at a world. -/
def Safe (I : W → Prop) (held : W → κ) (Q : α → W → Prop) : Timed W α → W → Prop
  | .done a, w => Q a w
  | .look k, w => Safe I held Q (k w) w
  | .put v k, w => held v = held w ∧ Safe I held Q k v
  | .wait _ k, w => I w ∧ ∀ v, I v → Safe I held Q k v

/-- What is known at the end of a turn. -/
def Pause.Safe (I : W → Prop) (held : W → κ) (Q : α → W → Prop) (w : W) : Pause W α → Prop
  | .finished a => Q a w
  | .waiting _ rest | .tired rest => I w ∧ ∀ v, I v → rest.Safe I held Q v

namespace Safe

variable {I : W → Prop} {held : W → κ} {Q : α → W → Prop} {R : β → W → Prop}

theorem mono {Q' : α → W → Prop} (himp : ∀ a w, Q a w → Q' a w) {p : Timed W α} {w : W}
    (h : p.Safe I held Q w) : p.Safe I held Q' w := by
  induction p generalizing w with
  | done a => exact himp a w h
  | look k ih => exact ih w h
  | put v k ih => exact ⟨h.1, ih h.2⟩
  | wait ms k ih => exact ⟨h.1, fun v hv => ih (h.2 v hv)⟩

theorem bind {p : Timed W α} {f : α → Timed W β} {w : W} (h : p.Safe I held Q w)
    (hf : ∀ a v, Q a v → (f a).Safe I held R v) : (p >>= f).Safe I held R w := by
  show (p.bind f).Safe I held R w
  induction p generalizing w with
  | done a => exact hf a w h
  | look k ih => exact ih w h
  | put v k ih => exact ⟨h.1, ih h.2⟩
  | wait ms k ih => exact ⟨h.1, fun v hv => ih (h.2 v hv)⟩

/-- A turn of a program, wherever it ends. -/
theorem advance {p : Timed W α} {w : W} (h : p.Safe I held Q w) (n : Nat) :
    held (p.advance n w).2.2 = held w ∧ (p.advance n w).1.Safe I held Q (p.advance n w).2.2 := by
  induction p generalizing w n with
  | done a => exact ⟨rfl, h⟩
  | look k ih => exact ih w h n
  | put v k ih =>
    obtain ⟨hheld, hrest⟩ := ih h.2 n
    exact ⟨hheld.trans h.1, hrest⟩
  | wait ms k ih =>
    match ms, n with
    | _, 0 => exact ⟨rfl, h.1, fun v hv => ⟨hv, h.2⟩⟩
    | 0, n + 1 => exact ih (h.2 w h.1) n
    | ms + 1, n + 1 => exact ⟨rfl, h.1, h.2⟩

end Safe

/-- The outcome of a program that can fault. -/
def Outcome (Q : α → Prop) (F : ε → Prop) : Except ε α → Prop
  | .ok a => Q a
  | .error e => F e

theorem outcome_trivial (r : Except ε α) : Outcome (fun _ => True) (fun _ => True) r := by
  cases r <;> trivial

/-- What a program that can fault ends with, from every world with `I`. -/
def Gives (I : W → Prop) (held : W → κ) (Q : α → Prop) (F : ε → Prop)
    (p : ExceptT ε (Timed W) α) : Prop :=
  ∀ w, I w → Safe I held (fun r v => I v ∧ Outcome Q F r) p.run w

namespace Gives

variable {I : W → Prop} {held : W → κ} {Q : α → Prop} {R : β → Prop} {F : ε → Prop}

theorem mono {Q' : α → Prop} (himp : ∀ a, Q a → Q' a) {F' : ε → Prop} (hf : ∀ e, F e → F' e)
    {p : ExceptT ε (Timed W) α} (h : Gives I held Q F p) : Gives I held Q' F' p := by
  intro w hw
  refine (h w hw).mono ?_
  rintro (e | a) v ⟨hv, hr⟩
  · exact ⟨hv, hf e hr⟩
  · exact ⟨hv, himp a hr⟩

theorem pure {a : α} (ha : Q a) : Gives I held Q F (Pure.pure a : ExceptT ε (Timed W) α) :=
  fun _ hw => ⟨hw, ha⟩

theorem throw {e : ε} (he : F e) : Gives I held Q F (MonadExcept.throw e : ExceptT ε (Timed W) α) :=
  fun _ hw => ⟨hw, he⟩

/-- An answer that is there already. -/
theorem answer {r : Except ε α} (hr : Outcome Q F r) :
    Gives I held Q F (ExceptT.mk (Pure.pure r) : ExceptT ε (Timed W) α) :=
  fun _ hw => ⟨hw, hr⟩

theorem bind {p : ExceptT ε (Timed W) α} {f : α → ExceptT ε (Timed W) β} (h : Gives I held Q F p)
    (hf : ∀ a, Q a → Gives I held R F (f a)) : Gives I held R F (p >>= f) := by
  intro w hw
  rw [ExceptT.run_bind]
  refine (h w hw).bind ?_
  rintro (e | a) v ⟨hv, hr⟩
  · exact ⟨hv, hr⟩
  · exact hf a hr v hv

/-- The outcome of another program is looked at. -/
theorem lift {δ : Type} {F' : δ → Prop} {p : ExceptT δ (Timed W) α} (h : Gives I held Q F' p) :
    Gives I held (Outcome Q F') F (ExceptT.lift p.run : ExceptT ε (Timed W) (Except δ α)) := by
  intro w hw
  exact (h w hw).bind fun _ _ ha => ha

theorem mapM {f : α → ExceptT ε (Timed W) β} (xs : List α) (hf : ∀ x ∈ xs, Gives I held R F (f x)) :
    Gives I held (fun ys => ∀ y ∈ ys, R y) F (xs.mapM f) := by
  induction xs with
  | nil => exact pure (by simp)
  | cons x xs ih =>
    rw [List.mapM_cons]
    refine bind (hf x List.mem_cons_self) fun y hy => ?_
    refine bind (ih fun z hz => hf z (List.mem_cons_of_mem x hz)) fun ys hys => pure ?_
    intro z hz
    rcases List.mem_cons.mp hz with rfl | hz
    · exact hy
    · exact hys z hz

end Gives

end Timed

namespace Ongoing

/-- What is known of a program between its turns. -/
def Safe (I : W → Prop) (held : W → κ) (Q : α → W → Prop) : Ongoing W α → Prop
  | .active rest | .waiting _ rest => ∀ v, I v → rest.Safe I held Q v

variable {I : W → Prop} {held : W → κ} {Q : α → W → Prop}

/-- A turn of a program on its way. -/
theorem Safe.resume {p : Ongoing W α} (h : p.Safe I held Q) {now n m : Nat} {w v : W}
    {pause : Timed.Pause W α} (hw : I w) (he : p.resume now n w = some (pause, m, v)) :
    held v = held w ∧ pause.Safe I held Q v := by
  cases p with
  | active rest =>
    have hturn := (h w hw).advance n
    rw [Option.some.inj he] at hturn
    exact hturn
  | waiting due rest =>
    rw [Ongoing.resume] at he
    split at he
    · cases he
    · have hturn := (h w hw).advance (n - 1)
      rw [Option.some.inj he] at hturn
      exact hturn

end Ongoing

end ShardIndex
