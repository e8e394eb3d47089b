import Mathlib.Logic.Function.Basic
import ShardIndex.Proofs.Supervision.Supervised
/-!
# Following a line through its stages

What is known of a supervised line at each of its stages (`Outset.Fits`), and of the simulation around it
(`Outset.Tracks`). Until the line has flushed, all commits since the start are full batches that go on
where the store ended at the start; a sink goes on after them, with what it accepted either committed or
still held, and the queue goes on after the sink. A fault or a restart loses what the sink holds, but
nothing that is committed: the next sink starts from the store again.

Every step of a run keeps this (`Outset.Tracks.serve`, `Outset.Tracks.fetch`, `Outset.Tracks.turned`,
`Outset.Tracks.cancel`), and so does every run (`Outset.Tracked.of_supervised`).
-/
namespace ShardIndex

open Timed (Safe)

/-- What a supervised line starts from: its configuration and the end of the store. -/
structure Outset where
  config : IndexerConfig
  last : Option UInt32
  commits : List (List UInt32)

namespace Outset

variable (o : Outset)

/-- The last master block after more batches are committed. -/
def lastAfter (added : List (List UInt32)) : Option UInt32 :=
  added.flatten.getLast?.or o.last

/-- What the line relies on after more batches are committed. -/
abbrev Quiet (added : List (List UInt32)) : World → Prop :=
  Sink.Quiet (o.lastAfter added) (o.commits ++ added)

/-- The batches are full, and they go on after the outset. -/
structure Full (added : List (List UInt32)) : Prop where
  full : ∀ batch ∈ added, batch.length = o.config.fullBatch
  succession : o.config.Succession o.last added.flatten

/-- The sink goes on after the batches, and the queue, with the bundle `n`, goes on after the sink. What
the sink has accepted is in a batch, or it still holds it. -/
structure Stands (added : List (List UInt32)) (accepted : List UInt32) (n : Nat) (s : Sink) : Prop where
  holds : s.Holds o.config (o.lastAfter added)
  short : s.batch.masters.length < o.config.fullBatch
  awaits : o.config.Awaits s.lastSeqno n
  kept : ∀ m ∈ accepted, m ∈ added.flatten ∨ m ∈ s.batch.masters

/-- What handling a bundle ends with. -/
inductive Handles (added : List (List UInt32)) (accepted : List UInt32) (n : Nat) :
    Except Fault Unit × Sink → World → Prop
  | taken {w : World} (added' : List (List UInt32)) (s : Sink) (seqno : UInt32) (hfull : o.Full added')
      (hw : o.Quiet added' w) (hseqno : s.lastSeqno = some seqno)
      (hs : o.Stands added' (accepted ++ [seqno]) n s) : Handles added accepted n (.ok (), s) w
  | failed {w : World} (s : Sink) (e : Fault) (he : e.InOrder) (hw : o.Quiet added w) :
      Handles added accepted n (.error e, s) w

/-- The batches of a line that has stopped: the last one may be short. -/
structure Complete (added : List (List UInt32)) (accepted : List UInt32) : Prop where
  batches : ∃ full rest, added = full ++ rest ∧ o.Full full ∧ rest.length ≤ 1
  succession : o.config.Succession o.last added.flatten
  kept : ∀ m ∈ accepted, m ∈ added.flatten

/-- What the final flush ends with. -/
inductive Closes (added : List (List UInt32)) (accepted : List UInt32) :
    Except Fault Unit × Sink → World → Prop
  | flushed {w : World} (added' : List (List UInt32)) (s : Sink) (hadded : o.Complete added' accepted)
      (hw : o.Quiet added' w) : Closes added accepted (.ok (), s) w
  | failed {w : World} (s : Sink) (e : Fault) (he : e.InOrder) (hw : o.Quiet added w) :
      Closes added accepted (.error e, s) w

/-- What is known of a line at a stage, after so many batches, with the numbers with which the queues of
the feeds go on. -/
def Fits (added : List (List UInt32)) (accepted : List UInt32) (numbers : Nat → Nat) : Stage → Prop
  | .opening program => program.Safe (o.Quiet added) Sink.free
      (Line.OpeningEnds o.config (o.lastAfter added) (o.commits ++ added))
  | .receiving feed sink => o.Stands added accepted (numbers feed) sink
  | .handling feed program => program.Safe (o.Quiet added) Sink.free
      (o.Handles added accepted (numbers feed))
  | .closing _ program => program.Safe (o.Quiet added) Sink.free (o.Closes added accepted)
  | .restarting program => program.Safe (o.Quiet added) Sink.free fun _ => o.Quiet added
  | .stopped => True

/-- Where a line stands after the events. -/
inductive Standing (numbers : Nat → Nat) (events : List LineEvent) : Stage → Store → Prop
  | going {stage : Stage} {store : Store} (added : List (List UInt32)) (hfull : o.Full added)
      (hstore : store.At (o.lastAfter added) (o.commits ++ added))
      (hstage : o.Fits added (LineEvent.acceptedIn events) numbers stage) (hopen : .flushed ∉ events) :
      Standing numbers events stage store
  | closed {store : Store} (added : List (List UInt32))
      (hadded : o.Complete added (LineEvent.acceptedIn events))
      (hstore : store.At (o.lastAfter added) (o.commits ++ added)) (hflushed : .flushed ∈ events) :
      Standing numbers events .stopped store

/-- What is known of a simulation apart from the line. -/
structure Footing (numbers : Nat → Nat) (events : List LineEvent) (s : Simulation) : Prop where
  honest : s.Honest
  inOrder : ∀ e, .failed e ∈ events → e.InOrder
  feeds : s.AllFeeds fun feed f => f.Delivers (numbers feed)

/-- What is known of a simulation in a run of the line. -/
structure Tracks (id : Nat) (numbers : Nat → Nat) (l : Line) (events : List LineEvent) (s : Simulation) :
    Prop where
  footing : Footing numbers events s
  line : Table.get? s.lines id = some l
  config : l.config = o.config
  standing : o.Standing numbers events l.stage s.site.store

/-- The same for whatever numbers the queues go on with. -/
def Tracked (id : Nat) (events : List LineEvent) (s : Simulation) : Prop :=
  ∃ numbers l, o.Tracks id numbers l events s

variable {o} {added : List (List UInt32)} {accepted : List UInt32} {n : Nat}

/-! ## Sinks -/

theorem lastAfter_append (batch : List UInt32) :
    o.lastAfter (added ++ [batch]) = batch.getLast?.or (o.lastAfter added) := by
  rw [lastAfter, lastAfter, List.flatten_append, List.flatten_singleton, List.getLast?_append,
    Option.or_assoc]

theorem Full.snoc (h : o.Full added) {batch : List UInt32} (hfull : batch.length = o.config.fullBatch)
    (hbatch : o.config.Succession (o.lastAfter added) batch) : o.Full (added ++ [batch]) where
  full := by
    intro b hb
    rcases List.mem_append.mp hb with hb | hb
    · exact h.full b hb
    · exact List.mem_singleton.mp hb ▸ hfull
  succession := by
    rw [List.flatten_append, List.flatten_singleton]
    exact h.succession.append hbatch

theorem fullBatch_pos (c : IndexerConfig) : 0 < c.fullBatch :=
  Nat.lt_of_lt_of_le Nat.one_pos (Nat.le_max_right _ _)

namespace Stands

variable {s : Sink}

/-- A line opens with a sink that holds nothing and has accepted nothing. -/
theorem opened {start : UInt32} (hs : s.Holds o.config (o.lastAfter added))
    (hempty : s.batch.masters = []) (hstart : o.config.Awaits (o.lastAfter added) start.toNat) :
    o.Stands added [] start.toNat s where
  holds := hs
  short := by
    rw [hempty]
    exact fullBatch_pos o.config
  awaits := by
    rw [hs.lastSeqno, hempty]
    exact hstart
  kept _ hm := nomatch hm

theorem handle (h : o.Stands added accepted n s) (hfull : o.Full added) {b : MasterBundle}
    (hb : b.Sound) (hlast : b.seqno < lastHeight) (hn : b.seqno.toNat = n) {w : World}
    (hw : o.Quiet added w) :
    (Sink.handle World.parser s b : Timed World _).Safe (o.Quiet added) Sink.free
      (o.Handles added accepted (n + 1)) w := by
  have hnext : o.config.Follows s.lastSeqno b.seqno := h.awaits b.seqno hlast hn
  have hawaits : o.config.Awaits (some b.seqno) (n + 1) := by
    intro x _ hx k hk
    obtain rfl := Option.some.inj hk
    rw [hx, hn]
  refine (Sink.handle_safe h.holds h.short hb hnext hw).mono ?_
  rintro ⟨r, s'⟩ v hend
  cases hend with
  | failed _ e he hv => exact .failed s' e he hv
  | waits _ hs hmasters hshort hv =>
    have hseqno : s'.lastSeqno = some b.seqno := by
      rw [hs.lastSeqno, hmasters, List.getLast?_concat, Option.some_or]
    refine .taken added s' b.seqno hfull hv hseqno ⟨hs, hshort, hseqno ▸ hawaits, ?_⟩
    intro m hm
    rw [hmasters]
    rcases List.mem_append.mp hm with hm | hm
    · exact (h.kept m hm).imp_right (List.mem_append_left _)
    · exact .inr (List.mem_append_right _ hm)
  | commits _ hs hempty hlength hv =>
    have hbatch : o.config.Succession (o.lastAfter added) (s.batch.masters ++ [b.seqno]) :=
      h.holds.masters.snoc (h.holds.lastSeqno ▸ hnext)
    have hafter : o.lastAfter (added ++ [s.batch.masters ++ [b.seqno]]) = some b.seqno := by
      rw [lastAfter_append, List.getLast?_concat, Option.some_or]
    have hseqno : s'.lastSeqno = some b.seqno := by
      rw [hs.lastSeqno, hempty]
      rfl
    rw [List.append_assoc, ← hafter] at hv
    refine .taken _ s' b.seqno (hfull.snoc hlength hbatch) hv hseqno ⟨hafter ▸ hs, ?_, ?_, ?_⟩
    · rw [hempty]
      exact fullBatch_pos o.config
    · exact hseqno ▸ hawaits
    · intro m hm
      rw [List.flatten_append, List.flatten_singleton]
      refine .inl ?_
      rcases List.mem_append.mp hm with hm | hm
      · rcases h.kept m hm with hm | hm
        · exact List.mem_append_left _ hm
        · exact List.mem_append_right _ (List.mem_append_left _ hm)
      · exact List.mem_append_right _ (List.mem_append_right _ hm)

theorem flush (h : o.Stands added accepted n s) (hfull : o.Full added) {w : World}
    (hw : o.Quiet added w) :
    (Sink.flush s : Timed World _).Safe (o.Quiet added) Sink.free (o.Closes added accepted) w := by
  refine (Sink.flush_safe h.holds hw).mono ?_
  rintro ⟨r, s'⟩ v hend
  cases hend with
  | failed e he hv => exact .failed s e he hv
  | nothing hnil hv =>
    refine .flushed added s ⟨⟨added, [], (List.append_nil _).symm, hfull, Nat.zero_le 1⟩,
      hfull.succession, ?_⟩ hv
    intro m hm
    rcases h.kept m hm with hm | hm
    · exact hm
    · rw [hnil] at hm
      cases hm
  | committed k hk hv =>
    have hafter : o.lastAfter (added ++ [s.batch.masters]) = some k := by
      rw [lastAfter_append, hk, Option.some_or]
    rw [List.append_assoc, ← hafter] at hv
    refine .flushed _ _ ⟨⟨added, [s.batch.masters], rfl, hfull, Nat.le_refl 1⟩, ?_, ?_⟩ hv
    · rw [List.flatten_append, List.flatten_singleton]
      exact hfull.succession.append h.holds.masters
    · intro m hm
      rw [List.flatten_append, List.flatten_singleton]
      exact List.mem_append.mpr (h.kept m hm)

end Stands

/-! ## Feeds -/

theorem Standing.of_store {numbers : Nat → Nat} {events : List LineEvent} {stage : Stage}
    {store store' : Store} (h : o.Standing numbers events stage store)
    (hlast : store'.lastSeqno = store.lastSeqno) (hcommits : store'.commits = store.commits) :
    o.Standing numbers events stage store' := by
  cases h with
  | going added hfull hstore hstage hopen =>
    exact .going added hfull ⟨hlast.trans hstore.last, hcommits.trans hstore.commits⟩ hstage hopen
  | closed added hadded hstore hflushed =>
    exact .closed added hadded ⟨hlast.trans hstore.last, hcommits.trans hstore.commits⟩ hflushed

variable {id : Nat} {numbers : Nat → Nat} {l : Line} {events : List LineEvent} {s t : Simulation}

namespace Footing

theorem keep (h : Footing numbers events s) {J : Store → Prop} {w : World} (hw : World.Kept J w)
    (reader : Nat) : Footing numbers events (s.keep reader w) where
  honest := h.honest.keep hw reader
  inOrder := h.inOrder
  feeds := h.feeds.of_feeds rfl

theorem turned (h : Footing numbers events s)
    (hturn : s.Turned (fun feed f => f.Delivers (numbers feed)) t) : Footing numbers events t where
  honest := ⟨hturn.site ▸ h.honest.site, hturn.caches ▸ h.honest.caches⟩
  inOrder := h.inOrder
  feeds := hturn.feeds

theorem refl (h : Footing numbers events s) : s.Turned (fun feed f => f.Delivers (numbers feed)) s :=
  .refl h.feeds

end Footing

namespace Tracks

theorem turned (h : o.Tracks id numbers l events s)
    (hturn : s.Turned (fun feed f => f.Delivers (numbers feed)) t) :
    o.Tracks id numbers l events t where
  footing := h.footing.turned hturn
  line := by rw [hturn.lines, h.line]
  config := h.config
  standing := by
    rw [hturn.site]
    exact h.standing

theorem meanwhile (h : o.Tracks id numbers l events s) (e : s.Meanwhile id t) :
    o.Tracks id numbers l events t where
  footing := ⟨e.honest h.footing.honest, h.footing.inOrder, h.footing.feeds.of_feeds e.feeds⟩
  line := e.line.trans h.line
  config := h.config
  standing := h.standing.of_store e.last e.commits

/-- A turn of a fetch. It leaves the store alone, and brings what it is to bring. -/
theorem fetch (h : o.Tracks id numbers l events s) (feed : Nat) (height : UInt32) (n : Nat) :
    o.Tracks id numbers l events (Simulation.fetchStep feed height n s).2 := by
  have hresume : ∀ f fetch program pause m w, s.feeds.get? feed = some f →
      f.fetches.get? height = some fetch → fetch.stage = .attempting program →
      program.resume s.now n (s.worldOf f.reader) = some (pause, m, w) →
      w.site.store = s.site.store ∧
        pause.Safe Fetch.Quiet Fetch.held (Fetch.AttemptEnds height) w := by
    intro f fetch program pause m w hf hfetch hstage hr
    have hbrings := ((h.footing.feeds feed f hf).fetches height fetch hfetch).1
    rw [hstage] at hbrings
    exact hbrings.resume (h.footing.honest.worldOf trivial f.reader) hr
  have hturn := Simulation.Turned.fetchStep (Feed.stable_delivers numbers) h.footing.feeds feed height n
    fun f fetch program pause m w stage hf hfetch hstage hr hafter =>
      (h.footing.feeds feed f hf).setFetch hfetch
        (hafter.brings (hresume f fetch program pause m w hf hfetch hstage hr).2)
  rcases hturn with hturn | ⟨f, fetch, program, pause, m, w, hf, hfetch, hstage, hr, hturn⟩
  · exact h.turned hturn
  · obtain ⟨hstore, hsafe⟩ := hresume f fetch program pause m w hf hfetch hstage hr
    have hquiet : Fetch.Quiet w := by
      cases pause with
      | finished r => exact hsafe.quiet
      | waiting ms rest => exact hsafe.1
      | tired rest => exact hsafe.1
    refine Tracks.turned ?_ hturn
    refine ⟨h.footing.keep hquiet f.reader, h.line, h.config, ?_⟩
    exact h.standing.of_store (congrArg _ hstore) (congrArg _ hstore)

end Tracks

/-! ## The line -/

theorem Tracked.meanwhile (h : o.Tracked id events s) (e : s.Meanwhile id t) : o.Tracked id events t := by
  obtain ⟨numbers, l, h⟩ := h
  exact ⟨numbers, l, h.meanwhile e⟩

namespace Footing

/-- One more event. Only a fault has to be of the right kind. -/
theorem add (h : Footing numbers events s) (event : LineEvent)
    (hevent : ∀ e, event = .failed e → e.InOrder) : Footing numbers (events ++ [event]) s where
  honest := h.honest
  inOrder := by
    intro e he
    rcases List.mem_append.mp he with he | he
    · exact h.inOrder e he
    · exact hevent e (List.mem_singleton.mp he).symm
  feeds := h.feeds

/-- A feed is set, with the number with which its queue goes on. -/
theorem setFeed (h : Footing numbers events s) (feed : Nat) {f : Feed} (hf : f.Delivers n) :
    Footing (Function.update numbers feed n) events (s.setFeed feed f) where
  honest := ⟨h.honest.site, h.honest.caches⟩
  inOrder := h.inOrder
  feeds := by
    intro k g hk
    rw [Simulation.setFeed, Table.get?_set] at hk
    split at hk
    · rename_i hfeed
      obtain rfl := Option.some.inj hk
      rw [hfeed, Function.update_self]
      exact hf
    · rename_i hne
      rw [Function.update_of_ne hne]
      exact h.feeds k g hk

theorem wake (h : Footing numbers events s) (a : Actor) : Footing numbers events (s.wake a) :=
  h.turned (h.refl.wake a)

/-- A bundle is taken out of a queue, which goes on with the next number. -/
theorem takeBundle (h : Footing numbers events s) {feed : Nat} {f : Feed} {rest : List MasterBundle}
    (hf : { f with queue := rest }.Delivers n) :
    Footing (Function.update numbers feed n) events (s.takeBundle feed f rest) := by
  have hset := h.setFeed feed (f := { f with queue := rest, blocked := false })
    (hf.congr rfl rfl rfl rfl)
  unfold Simulation.takeBundle
  dsimp only
  split
  · exact hset.wake _
  · exact hset

theorem openFeed (h : Footing numbers events s) {f : Feed} (hf : f.Delivers n) :
    Footing (Function.update numbers s.fresh n) events (s.openFeed f).2 := by
  have hset : Footing (Function.update numbers s.fresh n) events
      { s with feeds := Table.set s.feeds s.fresh f, fresh := s.fresh + 1 } :=
    ⟨⟨h.honest.site, h.honest.caches⟩, h.inOrder, (h.setFeed _ hf).feeds⟩
  exact hset.wake _

theorem enter (h : Footing numbers events s) (hconfig : l.config = o.config) {stage : Stage}
    (hstanding : o.Standing numbers events stage s.site.store) (id : Nat) :
    o.Tracked id events (s.enter id l stage) := by
  refine ⟨numbers, { l with stage := stage }, ⟨⟨h.honest.site, h.honest.caches⟩, h.inOrder, h.feeds⟩, ?_,
    hconfig, hstanding⟩
  rw [Simulation.enter, Simulation.setLine, Table.get?_set, if_pos rfl]

theorem dropFeed (h : Footing numbers events s) (feed : Nat) :
    Footing numbers events (s.dropFeed feed) :=
  h.turned (h.refl.dropFeed (Feed.stable_delivers numbers) feed)

theorem dropFeed_store (h : Footing numbers events s) (feed : Nat) :
    (s.dropFeed feed).site.store = s.site.store :=
  congrArg Site.store (h.refl.dropFeed (Feed.stable_delivers numbers) feed).site

/-- A line that fails pauses or stops. Nothing that is committed is lost. -/
theorem fail (h : Footing numbers events s) (hconfig : l.config = o.config) (hfull : o.Full added)
    (hstore : s.site.store.At (o.lastAfter added) (o.commits ++ added)) (hopen : .flushed ∉ events)
    (id : Nat) : o.Tracked id events (s.fail id l) := by
  have hdrop : ∃ t, l.stage.feed?.elim s s.dropFeed = t ∧ Footing numbers events t ∧
      t.site.store = s.site.store := by
    cases l.stage.feed? with
    | none => exact ⟨s, rfl, h, rfl⟩
    | some feed => exact ⟨_, rfl, h.dropFeed feed, h.dropFeed_store feed⟩
  obtain ⟨t, ht, hfooting, hsame⟩ := hdrop
  have hgoing : ∀ stage, o.Fits added (LineEvent.acceptedIn events) numbers stage →
      o.Standing numbers events stage t.site.store :=
    fun stage hstage => .going added hfull (hsame ▸ hstore) hstage hopen
  unfold Simulation.fail
  rw [ht]
  dsimp only
  split
  · exact hfooting.enter hconfig (hgoing .stopped trivial) id
  · refine hfooting.enter hconfig (hgoing (.restarting _) ?_) id
    exact fun v hv => ⟨hv, fun u hu => hu⟩

end Footing

/-- A turn of a program of the line. The program is kept for later, or something follows from its
result. -/
theorem Tracked.proceed {α : Type} {I : World → Prop} {Q : α → World → Prop}
    {r : Simulation.Running α} {next : α → Simulation → Simulation} {n : Nat}
    (shows : α → Option LineEvent) (h : o.Tracked id events s) (hr : r.program.Safe I Sink.free Q)
    (hw : I r.world) (hwait : ∀ w p, I w → p.Safe I Sink.free Q → o.Tracked id events (r.store p (r.keep w s)))
    (hnext : ∀ a w, Q a w → o.Tracked id (events ++ (shows a).toList) (next a (r.keep w s))) :
    o.Tracked id (events ++ ((r.program.result? s.now n r.world).bind shows).toList)
      (Simulation.proceed r next n s).2 := by
  unfold Simulation.proceed Ongoing.result?
  cases hresume : r.program.resume s.now n r.world with
  | none =>
    rw [Option.bind_none, Option.toList_none, List.append_nil]
    exact h
  | some turn =>
    obtain ⟨pause, m, w⟩ := turn
    have hsafe := (hr.resume hw hresume).2
    cases pause with
    | finished a => exact hnext a w hsafe
    | waiting ms rest =>
      rw [Option.bind_none, Option.toList_none, List.append_nil]
      exact (hwait w (.waiting _ rest) hsafe.1 hsafe.2).meanwhile (.of_eq rfl rfl rfl rfl)
    | tired rest =>
      rw [Option.bind_none, Option.toList_none, List.append_nil]
      exact (hwait w (.active rest) hsafe.1 hsafe.2).meanwhile (.defer _ _)

/-- The same for a program whose result does not show. -/
theorem Tracked.proceed_silent {α : Type} {I : World → Prop} {Q : α → World → Prop}
    {r : Simulation.Running α} {next : α → Simulation → Simulation} {n : Nat}
    (h : o.Tracked id events s) (hr : r.program.Safe I Sink.free Q) (hw : I r.world)
    (hwait : ∀ w p, I w → p.Safe I Sink.free Q → o.Tracked id events (r.store p (r.keep w s)))
    (hnext : ∀ a w, Q a w → o.Tracked id events (next a (r.keep w s))) :
    o.Tracked id events (Simulation.proceed r next n s).2 := by
  have hgoes := Tracked.proceed (fun _ => none) (n := n) h hr hw hwait (by simpa using hnext)
  simpa using hgoes

section

variable (h : o.Tracks id numbers l events s) (hfull : o.Full added) (hopen : .flushed ∉ events)

include h hfull hopen

/-- A program of a line is kept at its stage for later. -/
theorem Tracks.keepStage {w : World} (hw : o.Quiet added w) (stage : Stage)
    (hstage : o.Fits added (LineEvent.acceptedIn events) numbers stage) :
    o.Tracked id events ((s.keep l.reader w).enter id l stage) :=
  (h.footing.keep hw l.reader).enter h.config (.going added hfull hw.store hstage hopen) id

/-- A program of a line ends with a fault. -/
theorem Tracks.faultOf {w : World} (hw : o.Quiet added w) {e : Fault} (he : e.InOrder) :
    o.Tracked id (events ++ [.failed e]) ((s.keep l.reader w).fail id l) := by
  have hfooting := (h.footing.keep hw l.reader).add (.failed e) (by rintro _ ⟨⟩; exact he)
  refine hfooting.fail h.config hfull hw.store ?_ id
  simpa using hopen

variable (hstore : s.site.store.At (o.lastAfter added) (o.commits ++ added))

include hstore

/-- A line opens: it starts with a sink and a feed that go on after the store. -/
theorem Tracks.openingStep {program : Ongoing World (Except Fault (Sink × UInt32))}
    (hstage : l.stage = .opening program)
    (hfits : o.Fits added (LineEvent.acceptedIn events) numbers (.opening program)) (n : Nat) :
    o.Tracked id (events ++ (s.event? id n).toList) (Simulation.consumerStep id n s).2 := by
  unfold Simulation.consumerStep Simulation.event?
  rw [h.line, Option.bind_some]
  simp only [hstage]
  refine Tracked.proceed (r := s.runningFor id l program .opening) _ ⟨numbers, l, h⟩ hfits
    (h.footing.honest.worldOf hstore l.reader) ?_ ?_
  · exact fun w p hw hp => h.keepStage hfull hopen hw (.opening p) hp
  · intro a w hend
    cases hend with
    | failed e he hw => exact h.faultOf hfull hopen hw he
    | opened sink start hs hempty hstart hw =>
      have hopening := (h.footing.keep hw l.reader).add .opened (by rintro _ ⟨⟩)
      have hfooting := hopening.openFeed (Feed.Delivers.openAt l.config l.reader (.line id) start)
      refine hfooting.enter h.config (.going added hfull ?_ ?_ (by simpa using hopen)) id
      · rw [Simulation.openFeed_site]
        exact hw.store
      · show o.Stands added (LineEvent.acceptedIn (events ++ [.opened]))
          (Function.update numbers s.fresh start.toNat s.fresh) sink
        rw [LineEvent.acceptedIn_append, Function.update_self]
        exact .opened hs hempty hstart

/-- A line handles a bundle: it is taken in, and what was full is committed, or the line fails. -/
theorem Tracks.handlingStep {feed : Nat} {program : Ongoing World (Except Fault Unit × Sink)}
    (hstage : l.stage = .handling feed program)
    (hfits : o.Fits added (LineEvent.acceptedIn events) numbers (.handling feed program)) (n : Nat) :
    o.Tracked id (events ++ (s.event? id n).toList) (Simulation.consumerStep id n s).2 := by
  unfold Simulation.consumerStep Simulation.event?
  rw [h.line, Option.bind_some]
  simp only [hstage]
  refine Tracked.proceed (r := s.runningFor id l program (.handling feed)) _ ⟨numbers, l, h⟩ hfits
    (h.footing.honest.worldOf hstore l.reader) ?_ ?_
  · exact fun w p hw hp => h.keepStage hfull hopen hw (.handling feed p) hp
  · intro a w hend
    cases hend with
    | failed sink e he hw => exact h.faultOf hfull hopen hw he
    | taken added' sink seqno hfull' hw hseqno hs =>
      have hfooting := (h.footing.keep hw l.reader).add (.accepted seqno) (by rintro _ ⟨⟩)
      dsimp only
      rw [hseqno]
      refine hfooting.enter h.config (.going added' hfull' hw.store ?_ (by simpa using hopen)) id
      show o.Stands added' (LineEvent.acceptedIn (events ++ [.accepted seqno])) (numbers feed) sink
      rw [LineEvent.acceptedIn_append]
      exact hs

/-- A line closes: what its sink holds is committed, or the line fails. -/
theorem Tracks.closingStep {feed : Nat} {program : Ongoing World (Except Fault Unit × Sink)}
    (hstage : l.stage = .closing feed program)
    (hfits : o.Fits added (LineEvent.acceptedIn events) numbers (.closing feed program)) (n : Nat) :
    o.Tracked id (events ++ (s.event? id n).toList) (Simulation.consumerStep id n s).2 := by
  unfold Simulation.consumerStep Simulation.event?
  rw [h.line, Option.bind_some]
  simp only [hstage]
  refine Tracked.proceed (r := s.runningFor id l program (.closing feed)) _ ⟨numbers, l, h⟩ hfits
    (h.footing.honest.worldOf hstore l.reader) ?_ ?_
  · exact fun w p hw hp => h.keepStage hfull hopen hw (.closing feed p) hp
  · intro a w hend
    cases hend with
    | failed sink e he hw => exact h.faultOf hfull hopen hw he
    | flushed added' sink hadded hw =>
      have hfooting := (h.footing.keep hw l.reader).add .flushed (by rintro _ ⟨⟩)
      refine (hfooting.dropFeed feed).enter h.config (.closed added' ?_ ?_ (by simp)) id
      · rw [LineEvent.acceptedIn_append]
        exact hadded
      · rw [hfooting.dropFeed_store feed]
        exact hw.store

/-- A line that pauses opens again. -/
theorem Tracks.restartingStep {program : Ongoing World Unit} (hstage : l.stage = .restarting program)
    (hfits : o.Fits added (LineEvent.acceptedIn events) numbers (.restarting program)) (n : Nat) :
    o.Tracked id (events ++ (s.event? id n).toList) (Simulation.consumerStep id n s).2 := by
  have hnone : s.event? id n = none := by
    rw [Simulation.event?, h.line, Option.bind_some, hstage]
    rfl
  rw [hnone, Option.toList_none, List.append_nil]
  unfold Simulation.consumerStep
  rw [h.line]
  simp only [hstage]
  split
  · have hstopped : o.Standing numbers events .stopped s.site.store :=
      .going added hfull hstore trivial hopen
    exact h.footing.enter h.config hstopped id
  · refine Tracked.proceed_silent ⟨numbers, l, h⟩ hfits (h.footing.honest.worldOf hstore l.reader) ?_ ?_
    · intro w p hw hp
      exact (h.keepStage hfull hopen hw (.restarting p) hp).meanwhile (.of_eq rfl rfl rfl rfl)
    · intro a w hw
      refine h.keepStage hfull hopen hw (.opening _) ?_
      intro v hv
      rw [h.config]
      exact Line.opening_safe o.config hv

/-- A line that receives takes the next bundle, waits for one, or closes. -/
theorem Tracks.receivingStep {feed : Nat} {sink : Sink} (hstage : l.stage = .receiving feed sink)
    (hfits : o.Fits added (LineEvent.acceptedIn events) numbers (.receiving feed sink)) (n : Nat) :
    o.Tracked id (events ++ (s.event? id n).toList) (Simulation.consumerStep id n s).2 := by
  have hnone : s.event? id n = none := by
    rw [Simulation.event?, h.line, Option.bind_some, hstage]
    rfl
  have hstands : o.Stands added (LineEvent.acceptedIn events) (numbers feed) sink := hfits
  have hclosing : o.Tracked id events (s.enter id l (.closing feed (.active sink.flush))) := by
    refine h.footing.enter h.config (.going added hfull hstore ?_ hopen) id
    exact fun v hv => hstands.flush hfull hv
  rw [hnone, Option.toList_none, List.append_nil]
  unfold Simulation.consumerStep
  rw [h.line]
  simp only [hstage]
  unfold Simulation.receiveStep
  split
  · exact Tracked.meanwhile ⟨numbers, l, h⟩ (.defer s _)
  · split
    · exact hclosing
    · split
      · exact ⟨numbers, l, h⟩
      · rename_i f hf
        split
        · rename_i b rest hq
          obtain ⟨hb, hlast, hn, hrest⟩ := (h.footing.feeds feed f hf).dequeue hq
          refine (h.footing.takeBundle hrest).enter h.config (.going added hfull ?_ ?_ hopen) id
          · rw [Simulation.takeBundle_site]
            exact hstore
          · intro v hv
            show (Sink.handle World.parser sink b).Safe _ _
              (o.Handles added _ (Function.update numbers feed (numbers feed + 1) feed)) v
            rw [Function.update_self]
            exact hstands.handle hfull hb hlast hn hv
        · split
          · have hhungry := h.turned ((h.footing.refl).setFeed
              ((h.footing.feeds feed f hf).congr (g := { f with hungry := true }) rfl rfl rfl rfl))
            exact Tracked.meanwhile ⟨numbers, l, hhungry⟩ (.of_eq rfl rfl rfl rfl)
          · exact hclosing

end

/-- A turn of the line, whatever its stage. -/
theorem Tracks.serve (h : o.Tracks id numbers l events s) (n : Nat) :
    o.Tracked id (events ++ (s.event? id n).toList) (Simulation.consumerStep id n s).2 := by
  cases hstage : l.stage with
  | stopped =>
    have hnone : s.event? id n = none := by
      rw [Simulation.event?, h.line, Option.bind_some, hstage]
      rfl
    have hsame : (Simulation.consumerStep id n s).2 = s := by
      unfold Simulation.consumerStep
      rw [h.line]
      simp only [hstage]
    rw [hnone, hsame, Option.toList_none, List.append_nil]
    exact ⟨numbers, l, h⟩
  | opening program =>
    have hstanding := hstage ▸ h.standing
    cases hstanding with
    | going added hfull hstore hfits hopen => exact h.openingStep hfull hopen hstore hstage hfits n
  | receiving feed sink =>
    have hstanding := hstage ▸ h.standing
    cases hstanding with
    | going added hfull hstore hfits hopen => exact h.receivingStep hfull hopen hstore hstage hfits n
  | handling feed program =>
    have hstanding := hstage ▸ h.standing
    cases hstanding with
    | going added hfull hstore hfits hopen => exact h.handlingStep hfull hopen hstore hstage hfits n
  | closing feed program =>
    have hstanding := hstage ▸ h.standing
    cases hstanding with
    | going added hfull hstore hfits hopen => exact h.closingStep hfull hopen hstore hstage hfits n
  | restarting program =>
    have hstanding := hstage ▸ h.standing
    cases hstanding with
    | going added hfull hstore hfits hopen => exact h.restartingStep hfull hopen hstore hstage hfits n

/-! ## Runs -/

/-- A cancelled line goes on as before, but its feed ends. -/
theorem Tracks.cancel (h : o.Tracks id numbers l events s) : o.Tracked id events (s.cancelLine id) := by
  have hset : o.Tracks id numbers { l with cancelled := true } events
      (s.setLine id { l with cancelled := true }) := by
    refine ⟨⟨⟨h.footing.honest.site, h.footing.honest.caches⟩, h.footing.inOrder, h.footing.feeds⟩, ?_,
      h.config, h.standing⟩
    rw [Simulation.setLine, Table.get?_set, if_pos rfl]
  unfold Simulation.cancelLine
  rw [h.line]
  dsimp only
  cases l.stage.feed? with
  | none => exact ⟨numbers, _, hset⟩
  | some feed =>
    exact ⟨numbers, _, hset.turned (hset.footing.refl.endFeed (Feed.stable_delivers numbers) feed)⟩

/-- A line opens at its outset. -/
theorem Tracked.start {c : IndexerConfig} (h : s.Opens c id) :
    Outset.Tracked ⟨c, s.site.store.lastSeqno, s.site.store.commits⟩ id [] s := by
  obtain ⟨reader, hline⟩ := h.line
  refine ⟨fun _ => 0, .ofConfig c reader, ⟨h.honest, by simp, ?_⟩, hline, rfl, ?_⟩
  · intro feed f hf
    rw [h.feeds] at hf
    cases hf
  · refine .going [] ⟨by simp, .nil⟩ ⟨rfl, (List.append_nil _).symm⟩ ?_ (by simp)
    exact fun v hv => Line.opening_safe c hv

/-- Whatever happens in a run, the line is where it is to be. -/
theorem Tracked.of_supervised {c : IndexerConfig} {s₀ : Simulation} (h₀ : s₀.Opens c id)
    (h : Simulation.Supervised id s₀ events s) :
    Outset.Tracked ⟨c, s₀.site.store.lastSeqno, s₀.site.store.commits⟩ id events s := by
  induction h with
  | start => exact .start h₀
  | line _ n ih =>
    obtain ⟨numbers, l, h⟩ := ih
    exact h.serve n
  | fetch _ feed height n ih =>
    obtain ⟨numbers, l, h⟩ := ih
    exact ⟨numbers, l, h.fetch feed height n⟩
  | publisher _ feed n ih =>
    obtain ⟨numbers, l, h⟩ := ih
    exact ⟨numbers, l, h.turned (.publisherStep (Feed.stable_delivers numbers) h.footing.feeds feed n)⟩
  | tell _ feed height ih =>
    obtain ⟨numbers, l, h⟩ := ih
    exact ⟨numbers, l, h.turned (h.footing.refl.tell (Feed.stable_delivers numbers) feed height)⟩
  | endFeed _ feed ih =>
    obtain ⟨numbers, l, h⟩ := ih
    exact ⟨numbers, l, h.turned (h.footing.refl.endFeed (Feed.stable_delivers numbers) feed)⟩
  | cancel _ ih =>
    obtain ⟨numbers, l, h⟩ := ih
    exact h.cancel
  | meanwhile _ e ih => exact ih.meanwhile e

/-- The log of commits, whether the line has flushed or not. -/
theorem Standing.log {stage : Stage} {store : Store} (h : o.Standing numbers events stage store) :
    ∃ full rest, store.commits = o.commits ++ (full ++ rest) ∧ o.Full full ∧
      o.config.Succession o.last (full ++ rest).flatten ∧ rest.length ≤ 1 ∧
      (rest ≠ [] → .flushed ∈ events) ∧
      (.flushed ∈ events → ∀ m ∈ LineEvent.acceptedIn events, m ∈ (full ++ rest).flatten) := by
  cases h with
  | going added hfull hstore _ hopen =>
    refine ⟨added, [], ?_, hfull, ?_, Nat.zero_le 1, fun hne => absurd rfl hne, fun hf => absurd hf hopen⟩
    · rw [List.append_nil, hstore.commits]
    · rw [List.append_nil]
      exact hfull.succession
  | closed added hadded hstore hflushed =>
    obtain ⟨full, rest, rfl, hfull, hrest⟩ := hadded.batches
    exact ⟨full, rest, hstore.commits, hfull, hadded.succession, hrest, fun _ => hflushed,
      fun _ => hadded.kept⟩

end Outset

end ShardIndex
