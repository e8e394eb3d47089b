import ShardIndex.Proofs.Pipeline.Turns
import ShardIndex.Simulation.Indexer
/-!
# What lasts through turns and rounds

A line, whatever its stage, does little to a simulation: it opens a feed, takes bundles out of it, drops
it, and changes itself. A property that these keep is kept by its turns (`Simulation.LineKeeps`).

The scheduler does nothing but serve actors, tell publishers of fetches and move actors between its own
lists. So a property that does not speak of these lists and that steps keep lasts for good
(`Simulation.Lasting`): through turns and rounds, and however long a caller waits
(`Simulation.Lasting.serve`, `Simulation.Lasting.await`).
-/
namespace ShardIndex

namespace Simulation

/-! ## Turns of a line -/

/-- What a line does keeps the property, which speaks of feeds, lines and loops only. -/
structure LineKeeps (id : Nat) (K : Simulation → Prop) : Prop where
  of_eq {s t : Simulation} (h : K s) (hfeeds : t.feeds = s.feeds) (hlines : t.lines = s.lines)
    (hloops : t.loops = s.loops) : K t
  setLine {s : Simulation} (h : K s) (l : Line) : K (s.setLine id l)
  openFeed {s : Simulation} (h : K s) (config : IndexerConfig) (reader : Nat) (start : UInt32) :
    K (s.openFeed (.openAt config reader (.line id) start)).2
  dropFeed {s : Simulation} (h : K s) (feed : Nat) : K (s.dropFeed feed)
  takeBundle {s : Simulation} (h : K s) {feed : Nat} {f : Feed} (hf : s.feeds.get? feed = some f)
    {b : MasterBundle} {rest : List MasterBundle} (hq : f.queue = b :: rest) :
    K (s.takeBundle feed f rest)
  starve {s : Simulation} (h : K s) {feed : Nat} {f : Feed} (hf : s.feeds.get? feed = some f) :
    K (s.setFeed feed { f with hungry := true })

namespace LineKeeps

variable {id : Nat} {K : Simulation → Prop} {s : Simulation}

variable (hK : LineKeeps id K)

include hK

theorem defer (h : K s) (x : Signal) : K (s.defer x) := by
  unfold Simulation.defer
  split
  · exact h
  · exact hK.of_eq h rfl rfl rfl

theorem enter (h : K s) (l : Line) (stage : Stage) : K (s.enter id l stage) :=
  hK.setLine h _

theorem fail (h : K s) (l : Line) : K (s.fail id l) := by
  have hdrop : K (l.stage.feed?.elim s s.dropFeed) := by
    cases l.stage.feed? with
    | none => exact h
    | some feed => exact hK.dropFeed h feed
  unfold Simulation.fail
  dsimp only
  split
  · exact hK.enter hdrop l _
  · exact hK.enter hdrop l _

/-- A line that goes on with a program keeps it for later, or does what follows from its result. -/
theorem proceed {α : Type} (h : K s) (l : Line) (program : Ongoing World α)
    (store : Ongoing World α → Simulation → Simulation) {next : α → Simulation → Simulation} (n : Nat)
    (hstore : ∀ p t, K t → K (store p t)) (hnext : ∀ a t, K t → K (next a t)) :
    K (Simulation.proceed
      { actor := .consumer id
        program := program
        world := s.worldOf l.reader
        keep := fun w s => s.keep l.reader w
        store := store } next n s).2 := by
  have hkeep : ∀ w, K (s.keep l.reader w) := fun w => hK.of_eq h rfl rfl rfl
  unfold Simulation.proceed
  split
  · exact h
  · rename_i pause m w _
    cases pause with
    | finished a => exact hnext a _ (hkeep w)
    | waiting ms rest => exact hK.of_eq (hstore _ _ (hkeep w)) rfl rfl rfl
    | tired rest => exact hK.defer (hstore _ _ (hkeep w)) _

theorem receiveStep (h : K s) (l : Line) (feed : Nat) (sink : Sink) (n : Nat) :
    K (Simulation.receiveStep id l feed sink n s).2 := by
  unfold Simulation.receiveStep
  split
  · exact hK.defer h _
  · split
    · exact hK.enter h l _
    · split
      · exact h
      · rename_i f hf
        split
        · rename_i b rest hq
          exact hK.enter (hK.takeBundle h hf hq) l _
        · split
          · exact hK.of_eq (hK.starve h hf) rfl rfl rfl
          · exact hK.enter h l _

/-- Every turn of the line keeps the property. -/
theorem consumerStep (h : K s) (n : Nat) : K (Simulation.consumerStep id n s).2 := by
  unfold Simulation.consumerStep
  split
  · exact h
  · rename_i l _
    split
    · exact h
    · refine hK.proceed h l _ _ n (fun _ _ ht => hK.enter ht l _) fun result t ht => ?_
      split
      · exact hK.enter (hK.openFeed ht l.config l.reader _) l _
      · exact hK.fail ht l
    · exact hK.receiveStep h l _ _ n
    · refine hK.proceed h l _ _ n (fun _ _ ht => hK.enter ht l _) fun result t ht => ?_
      split
      · exact hK.enter ht l _
      · exact hK.fail ht l
    · refine hK.proceed h l _ _ n (fun _ _ ht => hK.enter ht l _) fun result t ht => ?_
      split
      · exact hK.enter (hK.dropFeed ht _) l _
      · exact hK.fail ht l
    · split
      · exact hK.enter h l _
      · refine hK.proceed h l _ _ n (fun p t ht => ?_) fun _ _ ht => hK.enter ht l _
        have hheed : K (t.heed (.consumer id)) := hK.of_eq ht rfl rfl rfl
        exact hK.enter hheed l _

end LineKeeps

/-! ## Rounds -/

/-- Every step keeps the property, which does not depend on readiness, time or names to come. -/
structure Lasting (K : Simulation → Prop) : Prop where
  of_eq {s t : Simulation} (h : K s) (hsite : t.site = s.site) (hcaches : t.caches = s.caches)
    (hfeeds : t.feeds = s.feeds) (hlines : t.lines = s.lines) (hloops : t.loops = s.loops) : K t
  fetchStep {s : Simulation} (h : K s) (feed : Nat) (height : UInt32) (n : Nat) :
    K (fetchStep feed height n s).2
  publisherStep {s : Simulation} (h : K s) (feed n : Nat) : K (publisherStep feed n s).2
  consumerStep {s : Simulation} (h : K s) (line n : Nat) : K (consumerStep line n s).2
  rescanStep {s : Simulation} (h : K s) (loop n : Nat) : K (rescanStep loop n s).2
  tell {s : Simulation} (h : K s) (feed : Nat) (height : UInt32) : K (s.tell feed height)

namespace Lasting

variable {K : Simulation → Prop} {s t : Simulation}

theorem steps {step : Step} (hstep : ∀ n t, K t → K (step n t).2) :
    ∀ (k n : Nat) (s : Simulation), K s → K (Simulation.steps step k n s)
  | 0, _, _, h => h
  | k + 1, n, s, h => by
    have hs := hstep n s h
    unfold Simulation.steps
    rcases heq : step n s with ⟨_ | m, t⟩
    · rw [heq] at hs
      exact hs
    · rw [heq] at hs
      exact steps hstep k m t hs

variable (hK : Lasting K)

include hK

theorem wake (h : K s) (a : Actor) : K (s.wake a) := by
  unfold Simulation.wake
  split
  · exact h
  · exact hK.of_eq h rfl rfl rfl rfl rfl

theorem foldl_wake {α : Type} (g : α → Actor) (as : List α) (h : K s) :
    K (as.foldl (fun s a => s.wake (g a)) s) := by
  induction as generalizing s with
  | nil => exact h
  | cons a as ih => exact ih (hK.wake h (g a))

/-- Whoever is served. -/
theorem serve (h : K s) (a : Actor) : K (s.serve a) := by
  have hunheed : ∀ b, K (s.unheed b) := fun b => hK.of_eq h rfl rfl rfl rfl rfl
  cases a with
  | fetch feed height => exact steps (K := K) (fun n t ht => hK.fetchStep ht feed height n) _ _ _ h
  | publisher feed => exact steps (K := K) (fun n t ht => hK.publisherStep ht feed n) _ _ _ h
  | consumer line => exact steps (K := K) (fun n t ht => hK.consumerStep ht line n) _ _ _ (hunheed _)
  | rescan loop => exact steps (K := K) (fun n t ht => hK.rescanStep ht loop n) _ _ _ (hunheed _)

theorem serveReady : ∀ (n : Nat) (s : Simulation), K s → K (Simulation.serveReady n s).1
  | 0, _, h => h
  | n + 1, s, h => by
    unfold Simulation.serveReady
    split
    · exact h
    · rename_i a rest _
      have hrest : K { s with ready := rest } := hK.of_eq h rfl rfl rfl rfl rfl
      exact serveReady n _ (hK.serve hrest a)

theorem recallDeferred (h : K s) : K s.recallDeferred := by
  unfold Simulation.recallDeferred
  have hstart : K { s with deferred := [] } := hK.of_eq h rfl rfl rfl rfl rfl
  generalize { s with deferred := [] } = t at hstart
  induction s.deferred generalizing t with
  | nil => exact hstart
  | cons x xs ih =>
    refine ih _ ?_
    cases x with
    | turn a => exact hK.wake hstart a
    | look feed height => exact hK.tell hstart feed height

theorem fire (h : K s) (moment : Nat) : K (s.fire moment) := by
  have hmoved : K { s with
      now := moment
      timers := s.timers.dropWhile fun t => decide (t.1 ≤ moment) } := hK.of_eq h rfl rfl rfl rfl rfl
  exact hK.foldl_wake Prod.snd _ hmoved

theorem round (h : K s) (goal : Simulation → Bool) (horizon : Option Nat) :
    K (s.round goal horizon) := by
  have hserved := hK.serveReady roundSize s h
  unfold Simulation.round
  dsimp only
  split
  · exact hK.recallDeferred hserved
  · split
    · exact hserved
    · cases Simulation.nextMoment _ horizon with
      | none => exact hserved
      | some moment => exact hK.fire hserved moment

theorem rounds (goal : Simulation → Bool) (horizon : Option Nat) :
    ∀ (n : Nat) (s : Simulation), K s → K (Simulation.rounds goal horizon n s)
  | 0, _, h => h
  | n + 1, s, h => by
    have hround := hK.round h goal horizon
    unfold Simulation.rounds
    dsimp only
    split
    · exact hK.of_eq hround rfl rfl rfl rfl rfl
    · exact rounds goal horizon n _ hround

/-- However long a caller waits. -/
theorem await (h : K s) (goal : Simulation → Bool) (horizon : Option Nat) :
    K (s.await goal horizon) := by
  unfold Simulation.await
  split
  · exact h
  · exact hK.rounds goal horizon patience s h

/-- A caller lets time pass. -/
theorem sleep (h : K s) (ms : Nat) : K (s.sleep ms) := by
  have hback : K (if s.credit = 0 then s.stepBack else s) := by
    split
    · exact hK.of_eq (hK.recallDeferred (hK.serveReady roundSize s h)) rfl rfl rfl rfl rfl
    · exact h
  exact hK.of_eq (hK.await hback _ _) rfl rfl rfl rfl rfl

theorem alert (h : K s) (concerned : Actor → Bool) : K (s.alert concerned) := by
  have hstart : K { s with heeding := s.heeding.filter fun a => !concerned a } :=
    hK.of_eq h rfl rfl rfl rfl rfl
  unfold Simulation.alert
  dsimp only
  generalize { s with heeding := s.heeding.filter fun a => !concerned a } = t at hstart
  induction s.heeding.filter concerned generalizing t with
  | nil => exact hstart
  | cons a as ih =>
    refine ih _ ?_
    have hhurried : K { t with timers := t.timers.filter fun x => decide (x.2 ≠ a) } :=
      hK.of_eq hstart rfl rfl rfl rfl rfl
    exact hK.wake hhurried a

end Lasting

end Simulation

end ShardIndex
