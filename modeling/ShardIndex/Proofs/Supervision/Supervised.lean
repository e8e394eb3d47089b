import ShardIndex.Proofs.Supervision.Deliveries
import ShardIndex.Simulation.Indexer
/-!
# Runs of a supervised line

A run of a line is a list of things that happen in any order (`Simulation.Supervised`): the line is served,
a fetch of any feed is served, a publisher is served or told of a fetch, a feed ends, the line is
cancelled, or something happens elsewhere. How far a turn goes depends on its allowance, which may be any
number. A cancelled line goes on receiving until it notices; since its feed may end before, this is a line
that is cancelled later.

Elsewhere anything may happen that leaves the feeds, the line, the last committed master block and the log
of commits alone, and stays honest (`Simulation.Meanwhile`): the clock moves, the node falls behind or
catches up, commits start to be refused, other rows of the store change.

What one sees of a run are its events (`LineEvent`).
-/
namespace ShardIndex

/-- What a line does, as far as its results show it. -/
inductive LineEvent where
  /-- It has a new sink. -/
  | opened
  /-- Its sink has taken a bundle in, and kept or committed it. -/
  | accepted (seqno : UInt32)
  /-- It has left its loop, and committed what its sink held. -/
  | flushed
  | failed (fault : Fault)

/-- The master blocks that a sink has accepted, with one more event. -/
def LineEvent.addTo (accepted : List UInt32) : LineEvent → List UInt32
  | .opened => []
  | .accepted seqno => accepted ++ [seqno]
  | .flushed | .failed _ => accepted

/-- The master blocks that the last sink has accepted. -/
def LineEvent.acceptedIn (events : List LineEvent) : List UInt32 :=
  events.foldl addTo []

theorem LineEvent.acceptedIn_append (events : List LineEvent) (event : LineEvent) :
    acceptedIn (events ++ [event]) = event.addTo (acceptedIn events) := by
  rw [acceptedIn, List.foldl_append]
  rfl

/-- The result of a program that ends in a turn. -/
def Ongoing.result? {W α : Type} (p : Ongoing W α) (now n : Nat) (w : W) : Option α :=
  match p.resume now n w with
  | some (.finished a, _) => some a
  | _ => none

/-- What the result of a program shows. -/
def Stage.event? (now n : Nat) (w : World) : Stage → Option LineEvent
  | .opening program => (program.result? now n w).bind fun
    | .ok _ => some .opened
    | .error fault => some (.failed fault)
  | .handling _ program => (program.result? now n w).bind fun
    | (.ok (), sink) => sink.lastSeqno.map .accepted
    | (.error fault, _) => some (.failed fault)
  | .closing _ program => (program.result? now n w).bind fun
    | (.ok (), _) => some .flushed
    | (.error fault, _) => some (.failed fault)
  | .receiving _ _ | .restarting _ | .stopped => none

namespace Simulation

/-- What a step of a line shows. -/
def event? (s : Simulation) (id n : Nat) : Option LineEvent :=
  (Table.get? s.lines id).bind fun l => l.stage.event? s.now n (s.worldOf l.reader)

/-- All that programs share is honest, and so is what readers remember. -/
structure Honest (s : Simulation) : Prop where
  site : s.site.Honest
  caches : ∀ reader cache, Table.get? s.caches reader = some cache → cache.Honest

/-- What may happen elsewhere. -/
structure Meanwhile (id : Nat) (s t : Simulation) : Prop where
  feeds : t.feeds = s.feeds
  line : Table.get? t.lines id = Table.get? s.lines id
  last : t.site.store.lastSeqno = s.site.store.lastSeqno
  commits : t.site.store.commits = s.site.store.commits
  honest : s.Honest → t.Honest

/-- A simulation with a line that is about to open, and no feed yet. -/
structure Opens (c : IndexerConfig) (id : Nat) (s : Simulation) : Prop where
  line : ∃ reader, Table.get? s.lines id = some (.ofConfig c reader)
  feeds : s.feeds = []
  honest : s.Honest

/-- The runs of a line, with the events that they show. -/
inductive Supervised (id : Nat) (s₀ : Simulation) : List LineEvent → Simulation → Prop
  | start : Supervised id s₀ [] s₀
  | line {events : List LineEvent} {s : Simulation} (h : Supervised id s₀ events s) (n : Nat) :
      Supervised id s₀ (events ++ (s.event? id n).toList) (consumerStep id n s).2
  | fetch {events : List LineEvent} {s : Simulation} (h : Supervised id s₀ events s) (feed : Nat)
      (height : UInt32) (n : Nat) : Supervised id s₀ events (fetchStep feed height n s).2
  | publisher {events : List LineEvent} {s : Simulation} (h : Supervised id s₀ events s) (feed n : Nat) :
      Supervised id s₀ events (publisherStep feed n s).2
  | tell {events : List LineEvent} {s : Simulation} (h : Supervised id s₀ events s) (feed : Nat)
      (height : UInt32) : Supervised id s₀ events (s.tell feed height)
  | endFeed {events : List LineEvent} {s : Simulation} (h : Supervised id s₀ events s) (feed : Nat) :
      Supervised id s₀ events (s.endFeed feed)
  | cancel {events : List LineEvent} {s : Simulation} (h : Supervised id s₀ events s) :
      Supervised id s₀ events (s.cancelLine id)
  | meanwhile {events : List LineEvent} {s t : Simulation} (h : Supervised id s₀ events s)
      (e : s.Meanwhile id t) : Supervised id s₀ events t

variable {s t : Simulation} {id : Nat}

theorem openFeed_site (s : Simulation) (f : Feed) : (s.openFeed f).2.site = s.site :=
  wake_site _ _

theorem takeBundle_site (s : Simulation) (feed : Nat) (f : Feed) (rest : List MasterBundle) :
    (s.takeBundle feed f rest).site = s.site := by
  unfold takeBundle
  dsimp only
  split
  · exact wake_site _ _
  · rfl

namespace Meanwhile

/-- Nothing happens to what counts. -/
theorem of_eq (hsite : t.site = s.site) (hcaches : t.caches = s.caches) (hfeeds : t.feeds = s.feeds)
    (hlines : t.lines = s.lines) : s.Meanwhile id t where
  feeds := hfeeds
  line := by rw [hlines]
  last := by rw [hsite]
  commits := by rw [hsite]
  honest h := ⟨hsite ▸ h.site, hcaches ▸ h.caches⟩

theorem refl (s : Simulation) : s.Meanwhile id s :=
  of_eq rfl rfl rfl rfl

theorem defer (s : Simulation) (x : Signal) : s.Meanwhile id (s.defer x) := by
  unfold Simulation.defer
  split
  · exact refl s
  · exact of_eq rfl rfl rfl rfl

end Meanwhile

namespace Honest

theorem worldOf (h : s.Honest) {J : Store → Prop} (hJ : J s.site.store) (reader : Nat) :
    World.Kept J (s.worldOf reader) := by
  refine ⟨h.site, ?_, hJ⟩
  unfold Simulation.worldOf
  cases hc : Table.get? s.caches reader with
  | none => exact ⟨fun _ _ h => (nomatch h), fun _ _ h => (nomatch h)⟩
  | some cache => exact h.caches reader cache hc

theorem keep (h : s.Honest) {J : Store → Prop} {w : World} (hw : World.Kept J w) (reader : Nat) :
    (s.keep reader w).Honest := by
  refine ⟨hw.site, ?_⟩
  intro k cache hk
  rw [Simulation.keep, Table.get?_set] at hk
  split at hk
  · obtain rfl := Option.some.inj hk
    exact hw.cache
  · exact h.caches k cache hk

end Honest

end Simulation

end ShardIndex
