import ShardIndex.Proofs.Pipeline.Publication
import ShardIndex.Proofs.Pipeline.Turns
/-!
# Feeds publish in order

A feed of a simulation is a publication in one particular order of events: the turns of its fetches and
of its publisher only do what the events of a publication do. `Feed.Shows` relates the two. It speaks of
the pipeline and the fetches as long as the publisher may add to the queue, and of the queue for good:
it holds what was sent and not received.

`Simulation.Published` says that all feeds of a simulation have come about in this way. Every operation
of a feed keeps it, so what holds after every list of events holds of every feed: its queue has the
results of consecutive heights, in order (`Feed.Publishes.queue_in_order`).
-/
namespace ShardIndex

/-- A table of what belongs to each of some keys. -/
theorem Table.get?_map_keys {K V : Type} [DecidableEq K] (g : K → V) (ks : List K) (k : K) :
    Table.get? (ks.map fun h => (h, g h)) k = if k ∈ ks then some (g k) else none := by
  induction ks with
  | nil => rfl
  | cons a ks ih =>
    by_cases hak : a = k
    · simp [Table.get?, hak]
    · simp [Table.get?, hak, ih, Ne.symm hak]

/-! ## Events that happen -/

namespace Publication

variable {β : Type} {p : Publication β}

theorem step_turn (hl : p.ended = false) (hdone : p.pipeline.windowDone = true)
    (hmore : p.pipeline.exhausted = false) :
    p.step .turn =
      { p with
        pipeline := p.pipeline.openWindow
        windowStart := p.pipeline.next
        windowEnd := p.pipeline.windowEnd } := by
  simp [step, unlessEnded, hl, turn, hdone, hmore]

theorem step_attempt_ok (hl : p.ended = false) {height : UInt32} (hf : p.isFetching height = true) (b : β) :
    p.step (.attempt height (.ok b)) =
      { p with
        attempts := p.attempts ++ [(height, .ok b)]
        results := p.results.set height (some b) } := by
  simp [step, unlessEnded, hl, attempt, hf]

theorem step_collect (hl : p.ended = false) (hnone : p.pipeline.head? = none) {height : UInt32} {b : β}
    (hres : p.results.get? height = some (some b)) :
    p.step (.collect height) =
      { p with pipeline := p.pipeline.complete height b, results := p.results.erase height } := by
  simp [step, unlessEnded, hl, collect, hnone, hres]

theorem step_send (hl : p.ended = false) (ho : p.closed = false) {b : β} (hb : p.pipeline.head? = some b)
    (hroom : p.sent.length < p.received + p.capacity) :
    p.step .send = { p with pipeline := p.pipeline.publish, sent := p.sent ++ [b] } := by
  simp [step, unlessEnded, hl, send, hb, ho, hroom]

end Publication

/-! ## A feed and its publication -/

/-- The feed is where the publication is. -/
structure Feed.Shows (f : Feed) (p : Publication MasterBundle) : Prop where
  capacity : p.capacity = f.capacity
  received_le : p.received ≤ p.sent.length
  queue : f.queue = p.sent.drop p.received
  working : f.publishing = true → p.ended = false ∧ p.closed = false ∧ p.pipeline = f.pipeline
  pending : f.publishing = true → ∀ h fetch program, f.fetches.get? h = some fetch →
    fetch.stage = .attempting program → p.isFetching h = true
  fetched : f.publishing = true → ∀ h fetch b, f.fetches.get? h = some fetch →
    fetch.stage = .fetched b → p.results.get? h = some (some b)

/-- The feed has come about by events of a publication. -/
def Feed.Publishes (f : Feed) : Prop :=
  ∃ start events, f.Shows ((Publication.openAt start f.config.windowSize f.capacity).run events)

namespace Feed

open Publication

/-- The feed with a window of heights. -/
def withWindow (f : Feed) (q : Pipeline MasterBundle) : Feed :=
  { f with
    pipeline := q
    fetches := q.running.map fun h => (h, f.newFetch h)
    arrivals := q.running }

theorem withWindow_config (f : Feed) (q : Pipeline MasterBundle) : (f.withWindow q).config = f.config :=
  rfl

theorem openWindow_eq (f : Feed) : f.openWindow = f.withWindow f.pipeline.openWindow := by
  rw [openWindow, withWindow]

variable {f g : Feed}

namespace Shows

variable {p : Publication MasterBundle}

/-- The queue outlives the publisher. -/
theorem quit (h : f.Shows p) (hc : g.config = f.config) (hq : g.queue = f.queue)
    (hp : g.publishing = false) : g.Shows p where
  capacity := by rw [h.capacity, Feed.capacity, Feed.capacity, hc]
  received_le := h.received_le
  queue := by rw [hq, h.queue]
  working := by simp [hp]
  pending := by simp [hp]
  fetched := by simp [hp]

/-- A fetch goes on with an attempt. -/
theorem attempting (h : f.Shows p) {height : UInt32} {fetch : Fetch}
    {program : Ongoing World (Option MasterBundle)} (hfetch : f.fetches.get? height = some fetch)
    (hstage : fetch.stage = .attempting program) {fetch' : Fetch}
    {program' : Ongoing World (Option MasterBundle)} (hstage' : fetch'.stage = .attempting program') :
    { f with fetches := f.fetches.set height fetch' }.Shows p where
  capacity := h.capacity
  received_le := h.received_le
  queue := h.queue
  working := h.working
  pending := by
    intro hp k x q hk hx
    rw [Table.get?_set] at hk
    split at hk
    · rename_i heq
      rw [heq]
      exact h.pending hp height fetch program hfetch hstage
    · exact h.pending hp k x q hk hx
  fetched := by
    intro hp k x b hk hx
    rw [Table.get?_set] at hk
    split at hk
    · obtain rfl := Option.some.inj hk
      rw [hstage'] at hx
      cases hx
    · exact h.fetched hp k x b hk hx

/-- A fetch succeeds. -/
theorem succeed (h : f.Shows p) (hp : f.publishing = true) {height : UInt32} {fetch : Fetch}
    {program : Ongoing World (Option MasterBundle)} (hfetch : f.fetches.get? height = some fetch)
    (hstage : fetch.stage = .attempting program) {fetch' : Fetch} {b : MasterBundle}
    (hstage' : fetch'.stage = .fetched b) :
    { f with fetches := f.fetches.set height fetch' }.Shows (p.step (.attempt height (.ok b))) := by
  obtain ⟨hl, ho, hpipe⟩ := h.working hp
  rw [step_attempt_ok hl (h.pending hp height fetch program hfetch hstage)]
  refine ⟨h.capacity, h.received_le, h.queue, h.working, ?_, ?_⟩
  · intro _ k x q hk hx
    rw [Table.get?_set] at hk
    split at hk
    · obtain rfl := Option.some.inj hk
      rw [hstage'] at hx
      cases hx
    · rename_i hne
      obtain ⟨hr, hnone⟩ := isFetching_iff.mp (h.pending hp k x q hk hx)
      refine isFetching_iff.mpr ⟨hr, ?_⟩
      rw [Table.get?_set, if_neg hne]
      exact hnone
  · intro _ k x c hk hx
    rw [Table.get?_set] at hk ⊢
    split at hk
    · rename_i heq
      obtain rfl := Option.some.inj hk
      rw [hstage'] at hx
      cases hx
      rw [if_pos heq]
    · rename_i hne
      rw [if_neg hne]
      exact h.fetched hp k x c hk hx

/-- The publisher takes over a fetched bundle. -/
theorem takeOver (h : f.Shows p) (hp : f.publishing = true) (hnone : f.pipeline.head? = none)
    {height : UInt32} {fetch : Fetch} {b : MasterBundle} (hfetch : f.fetches.get? height = some fetch)
    (hstage : fetch.stage = .fetched b) :
    { f with
      fetches := f.fetches.erase height
      pipeline := f.pipeline.complete height b }.Shows (p.step (.collect height)) := by
  obtain ⟨hl, ho, hpipe⟩ := h.working hp
  rw [step_collect hl (hpipe ▸ hnone) (h.fetched hp height fetch b hfetch hstage)]
  refine ⟨h.capacity, h.received_le, h.queue, ?_, ?_, ?_⟩
  · intro _
    refine ⟨hl, ho, ?_⟩
    show p.pipeline.complete height b = f.pipeline.complete height b
    rw [hpipe]
  · intro _ k x q hk hx
    rw [Table.get?_erase] at hk
    split at hk
    · cases hk
    · rename_i hne
      obtain ⟨hr, hno⟩ := isFetching_iff.mp (h.pending hp k x q hk hx)
      refine isFetching_iff.mpr ⟨?_, ?_⟩
      · exact List.mem_filter.mpr ⟨hr, decide_eq_true hne⟩
      · rw [Table.get?_erase, if_neg hne]
        exact hno
  · intro _ k x c hk hx
    rw [Table.get?_erase] at hk ⊢
    split at hk
    · cases hk
    · rename_i hne
      rw [if_neg hne]
      exact h.fetched hp k x c hk hx

/-- The publisher puts the next bundle into the queue. -/
theorem enqueue (h : f.Shows p) (hp : f.publishing = true) {b : MasterBundle}
    (hb : f.pipeline.head? = some b) (hroom : f.queue.length < f.capacity) :
    { f with queue := f.queue ++ [b], pipeline := f.pipeline.publish }.Shows (p.step .send) := by
  obtain ⟨hl, ho, hpipe⟩ := h.working hp
  have hreceived := h.received_le
  have hlength : f.queue.length = p.sent.length - p.received := by
    rw [h.queue, List.length_drop]
  have hsent : p.sent.length < p.received + p.capacity := by
    rw [h.capacity]
    omega
  rw [step_send hl ho (hpipe ▸ hb) hsent]
  refine ⟨h.capacity, ?_, ?_, ?_, ?_, h.fetched⟩
  · show p.received ≤ (p.sent ++ [b]).length
    rw [List.length_append]
    omega
  · show f.queue ++ [b] = (p.sent ++ [b]).drop p.received
    rw [List.drop_append_of_le_length hreceived, h.queue]
  · intro _
    refine ⟨hl, ho, ?_⟩
    show p.pipeline.publish = f.pipeline.publish
    rw [hpipe]
  · intro _ k x q hk hx
    exact h.pending hp k x q hk hx

/-- The listener takes a bundle out of the queue. -/
theorem dequeue (h : f.Shows p) {b : MasterBundle} {rest : List MasterBundle} (hq : f.queue = b :: rest) :
    { f with queue := rest }.Shows (p.step .receive) := by
  have hdrop : p.sent.drop p.received = b :: rest := by rw [← h.queue, hq]
  have hlt : p.received < p.sent.length := by
    refine Nat.lt_of_not_le ?_
    intro hle
    rw [List.drop_eq_nil_of_le hle] at hdrop
    cases hdrop
  refine ⟨h.capacity, Nat.min_le_right _ _, ?_, h.working, ?_, h.fetched⟩
  · show rest = p.sent.drop (min (p.received + 1) p.sent.length)
    have hle : p.received + 1 ≤ p.sent.length := hlt
    rw [Nat.min_eq_left hle, ← List.drop_drop, hdrop]
    rfl
  · intro hp k x q hk hx
    exact h.pending hp k x q hk hx

/-- A window opens when no result waits. Which heights it has does not matter here. -/
theorem withWindow (h : f.Shows p) (hl : p.ended = false) (ho : p.closed = false)
    (hnone : ∀ k, p.results.get? k = none) (q : Pipeline MasterBundle) (first last : UInt32) :
    (f.withWindow q).Shows { p with pipeline := q, windowStart := first, windowEnd := last } := by
  refine ⟨h.capacity, h.received_le, h.queue, fun _ => ⟨hl, ho, rfl⟩, ?_, ?_⟩
  · intro _ k x program hk hx
    rw [Feed.withWindow, Table.get?_map_keys] at hk
    split at hk
    · rename_i hmem
      exact isFetching_iff.mpr ⟨hmem, hnone k⟩
    · cases hk
  · intro _ k x c hk hx
    rw [Feed.withWindow, Table.get?_map_keys] at hk
    split at hk
    · obtain rfl := Option.some.inj hk
      cases hx
    · cases hk

/-- The publisher opens a window. -/
theorem openNext {start workers : UInt32} (h : f.Shows p) (o : p.Ordered start workers)
    (hp : f.publishing = true) (hdone : f.pipeline.windowDone = true)
    (hmore : f.pipeline.exhausted = false) : f.openWindow.Shows (p.step .turn) := by
  obtain ⟨hl, ho, hpipe⟩ := h.working hp
  have hnone : ∀ k, p.results.get? k = none := by
    intro k
    cases hres : p.results.get? k with
    | none => rfl
    | some r =>
      have hr := o.running_of_result k r hres
      rw [(o.window.done (hpipe ▸ hdone)).2.1] at hr
      cases hr
  rw [step_turn hl (hpipe ▸ hdone) (hpipe ▸ hmore), hpipe, openWindow_eq]
  exact h.withWindow hl ho hnone _ _ _

end Shows

namespace Publishes

theorem congr (h : f.Publishes) (hc : g.config = f.config) (hq : g.queue = f.queue)
    (hp : g.publishing = f.publishing) (hpipe : g.pipeline = f.pipeline) (hf : g.fetches = f.fetches) :
    g.Publishes := by
  obtain ⟨start, events, hs⟩ := h
  refine ⟨start, events, ?_⟩
  rw [capacity, hc]
  refine ⟨hs.capacity.trans (by rw [capacity, capacity, hc]), hs.received_le, hq.trans hs.queue, ?_, ?_, ?_⟩
  · rw [hp, hpipe]
    exact hs.working
  · rw [hp, hf]
    exact hs.pending
  · rw [hp, hf]
    exact hs.fetched

/-- An event takes a feed to another one that the publication shows then. -/
theorem event (h : f.Publishes) (hc : g.config = f.config) (e : PublicationEvent MasterBundle)
    (hstep : ∀ p start workers, Publication.Ordered start workers p → f.Shows p → g.Shows (p.step e)) :
    g.Publishes := by
  obtain ⟨start, events, hs⟩ := h
  refine ⟨start, events ++ [e], ?_⟩
  have hrun := hstep _ _ _ (ordered_run (ordered_openAt start f.config.windowSize f.capacity) events) hs
  rw [capacity, hc, run, List.foldl_append]
  exact hrun

theorem openAt (config : IndexerConfig) (reader : Nat) (listener : Listener) (start : UInt32) :
    (Feed.openAt config reader listener start).Publishes := by
  refine ⟨start, [], rfl, Nat.le_refl _, rfl, fun _ => ⟨rfl, rfl, rfl⟩, ?_, ?_⟩
  · intro _ h fetch program hfetch
    cases hfetch
  · intro _ h fetch b hfetch
    cases hfetch

theorem quit (h : f.Publishes) (hc : g.config = f.config) (hq : g.queue = f.queue)
    (hp : g.publishing = false) : g.Publishes := by
  obtain ⟨start, events, hs⟩ := h
  refine ⟨start, events, ?_⟩
  rw [capacity, hc]
  exact hs.quit hc hq hp

theorem attempting (h : f.Publishes) {height : UInt32} {fetch : Fetch}
    {program : Ongoing World (Option MasterBundle)} (hfetch : f.fetches.get? height = some fetch)
    (hstage : fetch.stage = .attempting program) (fetch' : Fetch)
    {program' : Ongoing World (Option MasterBundle)} (hstage' : fetch'.stage = .attempting program') :
    { f with fetches := f.fetches.set height fetch' }.Publishes := by
  obtain ⟨start, events, hs⟩ := h
  exact ⟨start, events, hs.attempting hfetch hstage hstage'⟩

theorem succeed (h : f.Publishes) {height : UInt32} {fetch : Fetch}
    {program : Ongoing World (Option MasterBundle)} (hfetch : f.fetches.get? height = some fetch)
    (hstage : fetch.stage = .attempting program) (fetch' : Fetch) {b : MasterBundle}
    (hstage' : fetch'.stage = .fetched b) :
    { f with fetches := f.fetches.set height fetch' }.Publishes := by
  by_cases hp : f.publishing = true
  · exact h.event rfl _ fun p _ _ _ hs => hs.succeed hp hfetch hstage hstage'
  · exact h.quit rfl rfl (by simpa using hp)

theorem takeOver (h : f.Publishes) (hp : f.publishing = true) (hnone : f.pipeline.head? = none)
    {height : UInt32} {fetch : Fetch} {b : MasterBundle} (hfetch : f.fetches.get? height = some fetch)
    (hstage : fetch.stage = .fetched b) :
    { f with
      fetches := f.fetches.erase height
      pipeline := f.pipeline.complete height b }.Publishes :=
  h.event rfl (.collect height) fun _ _ _ _ hs => hs.takeOver hp hnone hfetch hstage

theorem enqueue (h : f.Publishes) (hp : f.publishing = true) {b : MasterBundle}
    (hb : f.pipeline.head? = some b) (hroom : f.queue.length < f.capacity) :
    { f with queue := f.queue ++ [b], pipeline := f.pipeline.publish }.Publishes :=
  h.event rfl .send fun _ _ _ _ hs => hs.enqueue hp hb hroom

theorem dequeue (h : f.Publishes) {b : MasterBundle} {rest : List MasterBundle} (hq : f.queue = b :: rest) :
    { f with queue := rest }.Publishes :=
  h.event rfl .receive fun _ _ _ _ hs => hs.dequeue hq

theorem openNext (h : f.Publishes) (hp : f.publishing = true) (hdone : f.pipeline.windowDone = true)
    (hmore : f.pipeline.exhausted = false) : f.openWindow.Publishes := by
  refine h.event ?_ .turn fun _ _ _ o hs => hs.openNext o hp hdone hmore
  rw [openWindow_eq, withWindow_config]

/-- The queue of a feed holds the results of consecutive heights, in order. -/
theorem queue_in_order (h : f.Publishes) :
    ∃ start received p, Publication.Ordered start f.config.windowSize p ∧
      List.Forall₂ (fun h b => ∀ r, (h, .ok r) ∈ p.attempts ↔ r = b)
        ((heightsBetween start p.pipeline.next).drop received) f.queue := by
  obtain ⟨start, events, hs⟩ := h
  have o := ordered_run (ordered_openAt start f.config.windowSize f.capacity) events
  generalize (Publication.openAt start f.config.windowSize f.capacity).run events = p at hs o
  refine ⟨start, p.received, p, o, ?_⟩
  rw [hs.queue]
  exact List.forall₂_drop p.received o.sent_eq

end Publishes

end Feed

/-! ## The feeds of a simulation -/

namespace Simulation

/-- All feeds have come about by events of publications. -/
def Published (s : Simulation) : Prop :=
  ∀ id f, s.feeds.get? id = some f → f.Publishes

variable {s t : Simulation} {f : Feed} {id : Nat}

/-- What publishers do are events of publications. -/
theorem stable_publishes : Feed.Stable fun _ f => f.Publishes where
  congr := Feed.Publishes.congr
  quit h hc hq hp _ _ := h.quit hc hq hp
  attend h _ _ _ hfetch hstage := h.attempting hfetch hstage _ hstage
  takeOver := Feed.Publishes.takeOver
  enqueue := Feed.Publishes.enqueue
  openNext := Feed.Publishes.openNext

namespace Published

/-- A simulation starts without feeds. -/
theorem of_nil (h : s.feeds = []) : s.Published := by
  intro id f hf
  rw [h] at hf
  cases hf

/-- Only the feeds count. -/
theorem of_feeds (h : s.Published) (e : t.feeds = s.feeds) : t.Published :=
  AllFeeds.of_feeds h e

theorem setFeed (h : s.Published) (id : Nat) (hf : f.Publishes) : (s.setFeed id f).Published :=
  AllFeeds.setFeed h hf

theorem tell (h : s.Published) (id : Nat) (height : UInt32) : (s.tell id height).Published :=
  ((Turned.refl h).tell stable_publishes id height).feeds

theorem dropFeed (h : s.Published) (id : Nat) : (s.dropFeed id).Published :=
  ((Turned.refl h).dropFeed stable_publishes id).feeds

theorem openFeed (h : s.Published) (hf : f.Publishes) : (s.openFeed f).2.Published :=
  (h.setFeed s.fresh hf).of_feeds (wake_feeds _ _)

theorem takeBundle (h : s.Published) (hf : s.feeds.get? id = some f) {b : MasterBundle}
    {rest : List MasterBundle} (hq : f.queue = b :: rest) : (s.takeBundle id f rest).Published := by
  have hset := h.setFeed id (f := { f with queue := rest, blocked := false })
    (((h id f hf).dequeue hq).congr rfl rfl rfl rfl rfl)
  unfold Simulation.takeBundle
  dsimp only
  split
  · exact hset.of_feeds (wake_feeds _ _)
  · exact hset

/-- A turn of a fetch. -/
theorem fetchStep (h : s.Published) (id : Nat) (height : UInt32) (n : Nat) :
    (Simulation.fetchStep id height n s).2.Published := by
  have hturn := Turned.fetchStep stable_publishes h id height n fun f fetch program pause m w stage
      hf hfetch hstage _ hafter => by
    cases hafter with
    | fetched b => exact (h id f hf).succeed hfetch hstage _ rfl
    | again => exact (h id f hf).attempting hfetch hstage _ rfl
    | waiting ms due rest => exact (h id f hf).attempting hfetch hstage _ rfl
    | tired rest => exact (h id f hf).attempting hfetch hstage _ rfl
  rcases hturn with hturn | ⟨f, fetch, program, pause, m, w, -, -, -, -, hturn⟩
  · exact hturn.feeds
  · exact hturn.feeds

/-- A turn of a publisher. -/
theorem publisherStep (h : s.Published) (id n : Nat) : (Simulation.publisherStep id n s).2.Published :=
  (Turned.publisherStep stable_publishes h id n).feeds

end Published

end Simulation

end ShardIndex
