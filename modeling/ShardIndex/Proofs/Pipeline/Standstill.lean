import ShardIndex.Proofs.Pipeline.Feeds
import ShardIndex.Proofs.Pipeline.Progress
import ShardIndex.Simulation.Round
/-!
# A publisher that never steps back

A feed whose windows have no heights keeps its publisher busy: it opens a window, finds it used up and opens the
next one, in one and the same turn (`Simulation.Spins`). Nobody else is served any more, so the clock stands and
whatever a caller waits for does not come (`Simulation.Spins.await`). Such a feed is opened by a configuration
with a multiple of 2 ^ 32 workers (`Simulation.spins_openFeed`).
-/
namespace ShardIndex

theorem Pipeline.windowEnd_of_no_workers {β : Type} {p : Pipeline β} (h : p.workers = 0) :
    p.windowEnd = p.next := by
  rw [← UInt32.toNat_inj, toNat_windowEnd, h]
  have hle := p.next.toNat_lt
  show min (p.next.toNat + 0) 4294967295 = p.next.toNat
  omega

/-- The publisher of the feed has a window without heights, and will have another one. -/
structure Feed.Spins (f : Feed) : Prop where
  publishing : f.publishing = true
  workers : f.pipeline.workers = 0
  running : f.pipeline.running = []
  fetched : f.pipeline.fetched = []
  more : f.pipeline.next ≠ lastHeight

/-- The next window of such a feed has no heights either. -/
theorem Feed.Spins.openWindow {f : Feed} (h : f.Spins) :
    f.openWindow.Spins ∧ f.openWindow.queue = f.queue ∧ f.openWindow.publishing = f.publishing := by
  have hwindow : ∀ q : Pipeline MasterBundle, q.workers = 0 → q.running = [] → q.fetched = [] →
      q.next ≠ lastHeight → (f.withWindow q).Spins ∧ (f.withWindow q).queue = f.queue ∧
        (f.withWindow q).publishing = f.publishing := fun _ hworkers hrunning hfetched hmore =>
    ⟨⟨h.publishing, hworkers, hrunning, hfetched, hmore⟩, rfl, rfl⟩
  rw [Feed.openWindow_eq]
  refine hwindow _ ((Pipeline.openWindow_workers _).trans h.workers) ?_
    ((Pipeline.openWindow_fetched _).trans h.fetched) ?_
  · rw [Pipeline.openWindow_running, Pipeline.windowEnd_of_no_workers h.workers, heightsBetween_self]
  · rw [Pipeline.openWindow_next]
    exact h.more

namespace Simulation

/-- The publisher of a feed has the turn, and spins. -/
structure Spins (id : Nat) (s : Simulation) : Prop where
  first : ∃ rest, s.ready = .publisher id :: rest
  feed : ∃ f, Table.get? s.feeds id = some f ∧ f.Spins

/-- Nothing has happened that anybody would notice. -/
structure Stands (s t : Simulation) : Prop where
  now : t.now = s.now
  timers : t.timers = s.timers
  site : t.site = s.site
  caches : t.caches = s.caches
  lines : t.lines = s.lines
  loops : t.loops = s.loops
  queues : ∀ id, (Table.get? t.feeds id).map (fun f => (f.queue, f.publishing)) =
    (Table.get? s.feeds id).map fun f => (f.queue, f.publishing)

variable {id : Nat} {s t u : Simulation}

theorem Stands.refl (s : Simulation) : s.Stands s :=
  ⟨rfl, rfl, rfl, rfl, rfl, rfl, fun _ => rfl⟩

theorem Stands.trans (h : s.Stands t) (h' : t.Stands u) : s.Stands u :=
  ⟨h'.now.trans h.now, h'.timers.trans h.timers, h'.site.trans h.site, h'.caches.trans h.caches,
    h'.lines.trans h.lines, h'.loops.trans h.loops, fun id => (h'.queues id).trans (h.queues id)⟩

theorem Stands.setFeed {f g : Feed} (hf : Table.get? s.feeds id = some f) (hqueue : g.queue = f.queue)
    (hpublishing : g.publishing = f.publishing) : s.Stands (s.setFeed id g) where
  now := rfl
  timers := rfl
  site := rfl
  caches := rfl
  lines := rfl
  loops := rfl
  queues k := by
    rw [Simulation.setFeed, Table.get?_set]
    by_cases hk : k = id
    · rw [if_pos hk, hk, hf, Option.map_some, Option.map_some, hqueue, hpublishing]
    · rw [if_neg hk]

theorem Stands.wake (s : Simulation) (a : Actor) : s.Stands (s.wake a) := by
  unfold Simulation.wake
  split
  · exact .refl s
  · exact ⟨rfl, rfl, rfl, rfl, rfl, rfl, fun _ => rfl⟩

theorem steps_of_none {step : Step} {n : Nat} (h : step n s = (none, t)) (k : Nat) :
    steps step (k + 1) n s = t := by
  rw [steps, h]

/-- The turn of such a publisher opens a window and is followed by its next turn. -/
theorem serve_spinning {f : Feed} (hf : Table.get? s.feeds id = some f) (h : f.Spins) :
    ∃ g : Feed, g.Spins ∧ g.queue = f.queue ∧ g.publishing = f.publishing ∧
      s.serve (.publisher id) = (s.setFeed id g).insist (.publisher id) := by
  obtain ⟨hopened, hqueue, hpublishing⟩ := h.openWindow
  have hhead : f.pipeline.head? = none := by rw [Pipeline.head?, h.fetched]
  have hexhausted : f.pipeline.exhausted = false := by simpa [Pipeline.exhausted] using h.more
  have hbegin : ∀ n, s.beginWindow id n f.openWindow =
      (none, (s.setFeed id f.openWindow).insist (.publisher id)) := by
    intro n
    simp [beginWindow, hopened.running]
  refine ⟨f.openWindow, hopened, hqueue, hpublishing, steps_of_none ?_ _⟩
  simp only [publisherStep, hf, h.publishing, hhead, h.running, hexhausted, hbegin, Bool.not_true,
    Bool.false_eq_true, if_false, List.isEmpty_nil]

namespace Spins

theorem serve (h : s.Spins id) {a : Actor} {rest : List Actor} (hready : s.ready = a :: rest) :
    (({ s with ready := rest } : Simulation).serve a).Spins id ∧
      s.Stands (({ s with ready := rest } : Simulation).serve a) := by
  obtain ⟨⟨rest', hfirst⟩, f, hf, hspins⟩ := h
  obtain ⟨rfl, rfl⟩ := List.cons.inj (hready.symm.trans hfirst)
  obtain ⟨g, hg, hqueue, hpublishing, hserve⟩ := serve_spinning (s := { s with ready := rest }) hf hspins
  have hset := Stands.setFeed hf hqueue hpublishing
  rw [hserve]
  refine ⟨⟨⟨rest, rfl⟩, g, ?_, hg⟩, ?_⟩
  · show Table.get? (s.feeds.set id g) id = _
    rw [Table.get?_set, if_pos rfl]
  · exact ⟨hset.now, hset.timers, hset.site, hset.caches, hset.lines, hset.loops, hset.queues⟩

theorem serveReady : ∀ (n : Nat) {s : Simulation}, s.Spins id →
    (Simulation.serveReady n s).1.Spins id ∧ s.Stands (Simulation.serveReady n s).1 ∧
      (Simulation.serveReady n s).2 = false
  | 0, s, h => ⟨h, .refl s, rfl⟩
  | n + 1, s, h => by
    obtain ⟨rest, hready⟩ := h.first
    obtain ⟨hspins, hstands⟩ := h.serve hready
    obtain ⟨hlast, hkept, hmore⟩ := serveReady n hspins
    rw [Simulation.serveReady, hready]
    exact ⟨hlast, hstands.trans hkept, hmore⟩

theorem wake (h : s.Spins id) (a : Actor) : (s.wake a).Spins id := by
  obtain ⟨⟨rest, hready⟩, hfeed⟩ := h
  unfold Simulation.wake
  split
  · exact ⟨⟨rest, hready⟩, hfeed⟩
  · refine ⟨⟨rest ++ [a], ?_⟩, hfeed⟩
    show s.ready ++ [a] = _
    rw [hready]
    rfl

/-- Nobody is told anything that counts. -/
theorem tell (h : s.Spins id) (feed : Nat) (height : UInt32) :
    (s.tell feed height).Spins id ∧ s.Stands (s.tell feed height) := by
  unfold Simulation.tell
  split
  · exact ⟨h, .refl s⟩
  · rename_i g hg
    split
    · exact ⟨h, .refl s⟩
    · rename_i hheeds
      have hother : feed ≠ id := by
        rintro rfl
        obtain ⟨f, hf, hspins⟩ := h.feed
        obtain rfl := Option.some.inj (hg.symm.trans hf)
        simp [hspins.running] at hheeds
      have hset := Stands.setFeed hg
        (g := { g with arrivals := g.arrivals ++ [height], attentive := false }) rfl rfl
      have hspins : (s.setFeed feed
          { g with arrivals := g.arrivals ++ [height], attentive := false }).Spins id := by
        refine ⟨h.first, ?_⟩
        obtain ⟨f, hf, hf'⟩ := h.feed
        refine ⟨f, ?_, hf'⟩
        rw [Simulation.setFeed, Table.get?_set, if_neg (Ne.symm hother)]
        exact hf
      dsimp only
      split
      · exact ⟨hspins.wake _, hset.trans (.wake _ _)⟩
      · exact ⟨hspins, hset⟩

theorem recallDeferred (h : s.Spins id) :
    s.recallDeferred.Spins id ∧ s.Stands s.recallDeferred := by
  have hfold : ∀ (signals : List Signal) {t : Simulation}, t.Spins id →
      (signals.foldl obey t).Spins id ∧ t.Stands (signals.foldl obey t) := by
    intro signals
    induction signals with
    | nil => exact fun ht => ⟨ht, .refl _⟩
    | cons x signals ih =>
      intro t ht
      have hx : (t.obey x).Spins id ∧ t.Stands (t.obey x) := by
        cases x with
        | turn a => exact ⟨ht.wake a, .wake t a⟩
        | look feed height => exact ht.tell feed height
      obtain ⟨hspins, hstands⟩ := ih hx.1
      exact ⟨hspins, hx.2.trans hstands⟩
  have hstart : ({ s with deferred := [] } : Simulation).Spins id := ⟨h.first, h.feed⟩
  obtain ⟨hspins, hstands⟩ := hfold s.deferred hstart
  exact ⟨hspins, ⟨hstands.now, hstands.timers, hstands.site, hstands.caches, hstands.lines, hstands.loops,
    hstands.queues⟩⟩

theorem round (h : s.Spins id) (goal : Simulation → Bool) (horizon : Option Nat) :
    (s.round goal horizon).Spins id ∧ s.Stands (s.round goal horizon) := by
  obtain ⟨hspins, hstands, hmore⟩ := serveReady roundSize h
  obtain ⟨hlast, hkept⟩ := hspins.recallDeferred
  have hround : s.round goal horizon = (Simulation.serveReady roundSize s).1.recallDeferred := by
    unfold Simulation.round
    dsimp only
    rw [hmore]
    rfl
  rw [hround]
  exact ⟨hlast, hstands.trans hkept⟩

/-- However many rounds go by: the clock stands, no wait ends, and nobody gets to do anything. -/
theorem rounds (goal : Simulation → Bool) (horizon : Option Nat) : ∀ (n : Nat) {s : Simulation}, s.Spins id →
    s.Stands (s.rounds goal horizon n)
  | 0, s, _ => .refl s
  | n + 1, s, h => by
    obtain ⟨hspins, hstands⟩ := h.round goal horizon
    unfold Simulation.rounds
    dsimp only
    split
    · exact hstands.trans ⟨rfl, rfl, rfl, rfl, rfl, rfl, fun _ => rfl⟩
    · exact hstands.trans (rounds goal horizon n hspins)

theorem await (h : s.Spins id) (goal : Simulation → Bool) (horizon : Option Nat) :
    s.Stands (s.await goal horizon) := by
  unfold Simulation.await
  split
  · exact .refl s
  · exact rounds goal horizon patience h

end Spins

/-- A publisher without workers spins from its first turn on, unless it starts at the end of the range. -/
theorem spins_openFeed {c : IndexerConfig} (hc : UInt32.size ∣ c.workers.toNat) (reader : Nat)
    (listener : Listener) {start : UInt32} (hstart : start ≠ lastHeight) (hidle : s.ready = []) :
    (s.openFeed (.openAt c reader listener start)).2.Spins s.fresh := by
  have hspins : (Feed.openAt c reader listener start).Spins :=
    ⟨rfl, c.windowSize_eq_zero_iff.2 hc, rfl, rfl, hstart⟩
  refine ⟨⟨[], ?_⟩, _, ?_, hspins⟩
  · simp [openFeed, Simulation.wake, hidle]
  · simp [openFeed, Table.get?_set]

end Simulation

end ShardIndex
