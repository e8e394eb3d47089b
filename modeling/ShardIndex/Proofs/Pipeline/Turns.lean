import ShardIndex.Simulation.Publication
/-!
# What turns do to feeds

The turns of fetches and publishers come down to a few changes of one feed each: a fetch goes on, a
fetched bundle is taken over or put into the queue, a window opens, the publisher quits. Which property of
feeds they keep is up to the property (`Feed.Stable`); that all feeds of a simulation keep it, and that
nothing changes but feeds and who is ready, then follows once and for all (`Simulation.Turned`).
-/
namespace ShardIndex

/-- The stage of a fetch after a turn of its attempt. -/
inductive Feed.StageAfter (f : Feed) (height : UInt32) :
    Timed.Pause World (Option MasterBundle) → FetchStage → Prop
  | fetched (b : MasterBundle) : StageAfter f height (.finished (some b)) (.fetched b)
  | again : StageAfter f height (.finished none) (.attempting (.active (f.attempt height)))
  | waiting (ms due : Nat) (rest : Timed World (Option MasterBundle)) :
      StageAfter f height (.waiting ms rest) (.attempting (.waiting due rest))
  | tired (rest : Timed World (Option MasterBundle)) :
      StageAfter f height (.tired rest) (.attempting (.active rest))

/-- A property of named feeds that publishers keep. -/
structure Feed.Stable (P : Nat → Feed → Prop) : Prop where
  /-- What the publisher is told does not count. -/
  congr {id : Nat} {f g : Feed} (h : P id f) (hc : g.config = f.config) (hq : g.queue = f.queue)
    (hp : g.publishing = f.publishing) (hpipe : g.pipeline = f.pipeline) (hf : g.fetches = f.fetches) : P id g
  quit {id : Nat} {f g : Feed} (h : P id f) (hc : g.config = f.config) (hq : g.queue = f.queue)
    (hp : g.publishing = false) (hpipe : g.pipeline = f.pipeline)
    (hf : ∀ height fetch, g.fetches.get? height = some fetch → f.fetches.get? height = some fetch) : P id g
  attend {id : Nat} {f : Feed} (h : P id f) {height : UInt32} {fetch : Fetch}
    {program : Ongoing World (Option MasterBundle)} (hfetch : f.fetches.get? height = some fetch)
    (hstage : fetch.stage = .attempting program) :
    P id { f with fetches := f.fetches.set height { fetch with awaited := true } }
  takeOver {id : Nat} {f : Feed} (h : P id f) (hp : f.publishing = true) (hnone : f.pipeline.head? = none)
    {height : UInt32} {fetch : Fetch} {b : MasterBundle} (hfetch : f.fetches.get? height = some fetch)
    (hstage : fetch.stage = .fetched b) :
    P id { f with
      fetches := f.fetches.erase height
      pipeline := f.pipeline.complete height b }
  enqueue {id : Nat} {f : Feed} (h : P id f) (hp : f.publishing = true) {b : MasterBundle}
    (hb : f.pipeline.head? = some b) (hroom : f.queue.length < f.capacity) :
    P id { f with queue := f.queue ++ [b], pipeline := f.pipeline.publish }
  openNext {id : Nat} {f : Feed} (h : P id f) (hp : f.publishing = true)
    (hdone : f.pipeline.windowDone = true) (hmore : f.pipeline.exhausted = false) : P id f.openWindow

namespace Simulation

/-- All feeds have the property. -/
def AllFeeds (P : Nat → Feed → Prop) (s : Simulation) : Prop :=
  ∀ id f, s.feeds.get? id = some f → P id f

/-- Since `s` only feeds have changed and who is ready, and all feeds have the property. -/
structure Turned (P : Nat → Feed → Prop) (s t : Simulation) : Prop where
  site : t.site = s.site
  caches : t.caches = s.caches
  lines : t.lines = s.lines
  loops : t.loops = s.loops
  feeds : t.AllFeeds P

variable {P : Nat → Feed → Prop} {s t : Simulation} {f : Feed} {id : Nat}

@[simp] theorem wake_feeds (s : Simulation) (a : Actor) : (s.wake a).feeds = s.feeds := by
  unfold wake
  split <;> rfl

@[simp] theorem wake_site (s : Simulation) (a : Actor) : (s.wake a).site = s.site := by
  unfold wake
  split <;> rfl

@[simp] theorem defer_feeds (s : Simulation) (x : Signal) : (s.defer x).feeds = s.feeds := by
  unfold defer
  split <;> rfl

/-- Only the feeds count. -/
theorem AllFeeds.of_feeds (h : s.AllFeeds P) (e : t.feeds = s.feeds) : t.AllFeeds P := by
  unfold AllFeeds
  rw [e]
  exact h

theorem AllFeeds.setFeed (h : s.AllFeeds P) (hf : P id f) : (s.setFeed id f).AllFeeds P := by
  intro k g hk
  rw [Simulation.setFeed, Table.get?_set] at hk
  split at hk
  · rename_i hid
    obtain rfl := Option.some.inj hk
    exact hid ▸ hf
  · exact h k g hk

namespace Turned

theorem refl (h : s.AllFeeds P) : s.Turned P s :=
  ⟨rfl, rfl, rfl, rfl, h⟩

theorem setFeed (h : s.Turned P t) (hf : P id f) : s.Turned P (t.setFeed id f) :=
  ⟨h.site, h.caches, h.lines, h.loops, h.feeds.setFeed hf⟩

theorem retime (h : s.Turned P t) (timers : List (Nat × Actor)) :
    s.Turned P { t with timers := timers } :=
  ⟨h.site, h.caches, h.lines, h.loops, h.feeds⟩

theorem wake (h : s.Turned P t) (a : Actor) : s.Turned P (t.wake a) := by
  unfold Simulation.wake
  split
  · exact h
  · exact ⟨h.site, h.caches, h.lines, h.loops, h.feeds⟩

theorem foldl_wake {α : Type} (g : α → Actor) (as : List α) (h : s.Turned P t) :
    s.Turned P (as.foldl (fun s a => s.wake (g a)) t) := by
  induction as generalizing t with
  | nil => exact h
  | cons a as ih => exact ih (h.wake (g a))

theorem insist (h : s.Turned P t) (a : Actor) : s.Turned P (t.insist a) :=
  ⟨h.site, h.caches, h.lines, h.loops, h.feeds⟩

theorem defer (h : s.Turned P t) (x : Signal) : s.Turned P (t.defer x) := by
  unfold Simulation.defer
  split
  · exact h
  · exact ⟨h.site, h.caches, h.lines, h.loops, h.feeds⟩

theorem feedListener (h : s.Turned P t) (f : Feed) : s.Turned P (t.feedListener f) := by
  unfold Simulation.feedListener
  split
  · split
    · exact h.wake _
    · exact h
  · exact h
  · exact h

/-- A window begins with a feed that has the property. -/
theorem beginWindow (h : s.Turned P t) (hf : P id f) (n : Nat) : s.Turned P (t.beginWindow id n f).2 := by
  have hopened := (h.setFeed hf).foldl_wake (Actor.fetch id) f.pipeline.running
  unfold Simulation.beginWindow
  dsimp only
  split
  · exact hopened.insist _
  · exact hopened

variable (hP : Feed.Stable P)

include hP

theorem tell (h : s.Turned P t) (id : Nat) (height : UInt32) : s.Turned P (t.tell id height) := by
  unfold Simulation.tell
  split
  · exact h
  · rename_i f hf
    split
    · exact h
    · have hset := h.setFeed (f := { f with arrivals := f.arrivals ++ [height], attentive := false })
        (hP.congr (h.feeds id f hf) rfl rfl rfl rfl rfl)
      dsimp only
      split
      · exact hset.wake _
      · exact hset

theorem endFeed (h : s.Turned P t) (id : Nat) : s.Turned P (t.endFeed id) := by
  unfold Simulation.endFeed
  split
  · exact h
  · rename_i f hf
    split
    · have hset := h.setFeed (f := { f with fetches := [], arrivals := [], publishing := false })
        (hP.quit (h.feeds id f hf) rfl rfl rfl rfl fun _ _ hnil => by cases hnil)
      exact (hset.retime _).foldl_wake (fun a => a) _
    · exact h

theorem dropFeed (h : s.Turned P t) (id : Nat) : s.Turned P (t.dropFeed id) := by
  have hend := endFeed hP h id
  refine ⟨hend.site, hend.caches, hend.lines, hend.loops, ?_⟩
  intro k g hk
  rw [Simulation.dropFeed, Table.get?_erase] at hk
  split at hk
  · cases hk
  · exact hend.feeds k g hk

/-- A turn of a fetch: it has nothing to do, or goes on with its attempt. -/
theorem fetchStep (h : s.AllFeeds P) (id : Nat) (height : UInt32) (n : Nat)
    (hturn : ∀ f fetch program pause m w stage, s.feeds.get? id = some f →
      f.fetches.get? height = some fetch → fetch.stage = .attempting program →
      program.resume s.now n (s.worldOf f.reader) = some (pause, m, w) → f.StageAfter height pause stage →
      P id { f with fetches := f.fetches.set height { fetch with stage := stage } }) :
    s.Turned P (Simulation.fetchStep id height n s).2 ∨
      ∃ f fetch program pause m w, s.feeds.get? id = some f ∧ f.fetches.get? height = some fetch ∧
        fetch.stage = .attempting program ∧
        program.resume s.now n (s.worldOf f.reader) = some (pause, m, w) ∧
        (s.keep f.reader w).Turned P (Simulation.fetchStep id height n s).2 := by
  unfold Simulation.fetchStep
  split
  · exact .inl (refl h)
  · rename_i f hf
    split
    · exact .inl (refl h)
    · rename_i fetch hfetch
      split
      · exact .inl (refl h)
      · rename_i program hstage
        split
        · exact .inl ((refl h).defer _)
        · unfold proceed
          dsimp only
          split
          · exact .inl (refl h)
          · rename_i pause m w hr
            refine .inr ⟨f, fetch, program, pause, m, w, hf, hfetch, hstage, hr, ?_⟩
            have hkeep : (s.keep f.reader w).Turned P (s.keep f.reader w) := refl (h.of_feeds rfl)
            have hset : ∀ stage, f.StageAfter height pause stage →
                (s.keep f.reader w).Turned P ((s.keep f.reader w).setFeed id
                  { f with fetches := f.fetches.set height { fetch with stage := stage } }) :=
              fun stage ha => hkeep.setFeed (hturn f fetch program pause m w stage hf hfetch hstage hr ha)
            split
            · rename_i result
              cases result with
              | none => exact hset _ .again
              | some b =>
                have hfetched := hset _ (.fetched b)
                simp only [Simulation.fetched]
                split
                · exact tell hP hfetched id height
                · exact hfetched
            · rename_i ms rest
              exact (hset _ (.waiting ms _ rest)).retime _
            · rename_i rest
              exact (hset _ (.tired rest)).defer _

/-- The publisher looks at fetches when it has nothing to publish. -/
theorem look (id n : Nat) (heights : List UInt32) :
    ∀ (unseen : Nat) (f : Feed) (t : Simulation), s.Turned P t → P id f → f.publishing = true →
      f.pipeline.head? = none → s.Turned P (Simulation.look id n heights unseen f t).2 := by
  induction heights with
  | nil =>
    intro unseen f t h hf hp hnone
    exact h.setFeed (hP.congr hf rfl rfl rfl rfl rfl)
  | cons k rest ih =>
    intro unseen f t h hf hp hnone
    have hpass : ∀ (g : Feed) (u : Simulation), s.Turned P u → P id g → g.publishing = true →
        g.pipeline.head? = none →
        s.Turned P (if unseen ≤ 1 then
          ((none : Option Nat), (u.setFeed id { g with arrivals := rest }).wake (.publisher id))
          else Simulation.look id n rest (unseen - 1) g u).2 := by
      intro g u hu hg hgp hgn
      split
      · exact (hu.setFeed (f := { g with arrivals := rest }) (hP.congr hg rfl rfl rfl rfl rfl)).wake _
      · exact ih _ g u hu hg hgp hgn
    unfold Simulation.look
    dsimp only
    split
    · exact hpass f _ (h.defer _) hf hp hnone
    · split
      · exact hpass f t h hf hp hnone
      · rename_i fetch hfetch
        split
        · rename_i program hstage
          exact hpass _ t h (hP.attend hf hfetch hstage) hp hnone
        · rename_i b hstage
          exact h.setFeed (hP.congr (hP.takeOver hf hp hnone hfetch hstage) rfl rfl rfl rfl rfl)

/-- A turn of a publisher. -/
theorem publisherStep (h : s.AllFeeds P) (id n : Nat) :
    s.Turned P (Simulation.publisherStep id n s).2 := by
  have hs : s.Turned P s := refl h
  unfold Simulation.publisherStep
  split
  · exact hs
  · rename_i f hf
    have hfeed := h id f hf
    split
    · exact hs
    · rename_i hpub
      have hp : f.publishing = true := by simpa using hpub
      split
      · rename_i b hb
        split
        · exact hs.defer _
        · have hsend : s.Turned P (if f.queue.length < f.capacity then
                (some (n - 1), Simulation.feedListener (s.setFeed id
                  { f with
                    queue := f.queue ++ [b]
                    pipeline := f.pipeline.publish
                    blocked := false
                    hungry := false }) f)
              else (none, s.setFeed id { f with blocked := true })).2 := by
            split
            · rename_i hroom
              have hset := hs.setFeed (f := { f with
                  queue := f.queue ++ [b]
                  pipeline := f.pipeline.publish
                  blocked := false
                  hungry := false }) (hP.congr (hP.enqueue hfeed hp hb hroom) rfl rfl rfl rfl rfl)
              exact hset.feedListener f
            · exact hs.setFeed (hP.congr hfeed rfl rfl rfl rfl rfl)
          split
          · exact endFeed hP hs id
          · exact hsend
          · exact hsend
      · rename_i hnone
        split
        · exact look hP id n f.arrivals _ { f with attentive := true } s hs
            (hP.congr hfeed rfl rfl rfl rfl rfl) hp hnone
        · rename_i hrunning
          split
          · have hset := hs.setFeed (f := { f with publishing := false, hungry := false })
              (hP.quit hfeed rfl rfl rfl rfl fun _ _ hk => hk)
            exact hset.feedListener f
          · rename_i hmore
            have hdone : f.pipeline.windowDone = true := by
              simpa [Pipeline.windowDone, hnone] using hrunning
            exact hs.beginWindow (hP.openNext hfeed hp hdone (by simpa using hmore)) n

end Turned

end Simulation

end ShardIndex
