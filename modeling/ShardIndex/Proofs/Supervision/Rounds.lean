import ShardIndex.Proofs.Pipeline.Scheduling
import ShardIndex.Proofs.Supervision.Supervised
/-!
# The rounds of a simulation are runs of its line

When a simulation has one line and no rescan loop (`Simulation.Alone`), whatever its scheduler does is
part of a run of that line: whoever is served, the clock that moves, those who stepped back, callers that
wait. So letting time pass and stopping an indexer lead from runs to runs (`Simulation.Runs.sleep`,
`Simulation.Runs.stop`), and starting one is where they begin (`Simulation.opens_start`).
-/
namespace ShardIndex

/-- Turns of fetches and publishers keep what holds anyway. -/
theorem Feed.stable_true : Feed.Stable fun _ _ => True := by
  constructor <;> intros <;> trivial

namespace Simulation

/-- The simulation has no other line than this one, and no rescan loop. -/
structure Alone (id : Nat) (s : Simulation) : Prop where
  lines : ∀ k, k ≠ id → Table.get? s.lines k = none
  loops : s.loops = []

variable {id : Nat} {s₀ s t : Simulation}

namespace Alone

theorem of_eq (h : s.Alone id) (hlines : t.lines = s.lines) (hloops : t.loops = s.loops) : t.Alone id where
  lines := hlines ▸ h.lines
  loops := hloops.trans h.loops

theorem turned {P : Nat → Feed → Prop} (h : s.Alone id) (hturn : s.Turned P t) : t.Alone id :=
  h.of_eq hturn.lines hturn.loops

theorem refl (s : Simulation) : s.Turned (fun _ _ => True) s :=
  .refl fun _ _ _ => trivial

theorem fetchStep (h : s.Alone id) (feed : Nat) (height : UInt32) (n : Nat) :
    (Simulation.fetchStep feed height n s).2.Alone id := by
  rcases Turned.fetchStep Feed.stable_true (refl s).feeds feed height n fun _ _ _ _ _ _ _ _ _ _ _ _ => trivial
    with hturn | ⟨f, fetch, program, pause, m, w, -, -, -, -, hturn⟩
  · exact h.turned hturn
  · exact (h.of_eq (t := s.keep f.reader w) rfl rfl).turned hturn

theorem publisherStep (h : s.Alone id) (feed n : Nat) : (Simulation.publisherStep feed n s).2.Alone id :=
  h.turned (Turned.publisherStep Feed.stable_true (refl s).feeds feed n)

theorem setLine (h : s.Alone id) (l : Line) : (s.setLine id l).Alone id where
  lines := by
    intro k hk
    rw [Simulation.setLine, Table.get?_set, if_neg hk]
    exact h.lines k hk
  loops := h.loops

/-- A line changes itself and no other one. -/
theorem lineKeeps (id : Nat) : LineKeeps id (Alone id) where
  of_eq h _ hlines hloops := h.of_eq hlines hloops
  setLine := setLine
  openFeed := by
    intro s h config reader start
    have hset : { s with
        feeds := Table.set s.feeds s.fresh (.openAt config reader (.line id) start)
        fresh := s.fresh + 1 }.Alone id := h.of_eq rfl rfl
    exact hset.turned ((refl _).wake _)
  dropFeed h feed := h.turned ((refl _).dropFeed Feed.stable_true feed)
  takeBundle := by
    intro s h feed f _ b rest _
    have hset : (s.setFeed feed { f with queue := rest, blocked := false }).Alone id := h.of_eq rfl rfl
    unfold Simulation.takeBundle
    dsimp only
    split
    · exact hset.turned ((refl _).wake _)
    · exact hset
  starve h _ _ _ := h.of_eq rfl rfl

end Alone

/-- A run of the only line leads to the simulation. -/
structure Runs (id : Nat) (s₀ s : Simulation) : Prop where
  alone : s.Alone id
  run : ∃ events, Supervised id s₀ events s

namespace Runs

/-- What makes no difference to feeds and lines. -/
theorem idle (h : Runs id s₀ s) (e : s.Meanwhile id t) (hlines : t.lines = s.lines)
    (hloops : t.loops = s.loops) : Runs id s₀ t := by
  obtain ⟨events, hrun⟩ := h.run
  exact ⟨h.alone.of_eq hlines hloops, events, hrun.meanwhile e⟩

theorem of_eq (h : Runs id s₀ s) (hsite : t.site = s.site) (hcaches : t.caches = s.caches)
    (hfeeds : t.feeds = s.feeds) (hlines : t.lines = s.lines) (hloops : t.loops = s.loops) :
    Runs id s₀ t :=
  h.idle (.of_eq hsite hcaches hfeeds hlines) hlines hloops

theorem fetchStep (h : Runs id s₀ s) (feed : Nat) (height : UInt32) (n : Nat) :
    Runs id s₀ (Simulation.fetchStep feed height n s).2 := by
  obtain ⟨events, hrun⟩ := h.run
  exact ⟨h.alone.fetchStep feed height n, events, hrun.fetch feed height n⟩

theorem publisherStep (h : Runs id s₀ s) (feed n : Nat) :
    Runs id s₀ (Simulation.publisherStep feed n s).2 := by
  obtain ⟨events, hrun⟩ := h.run
  exact ⟨h.alone.publisherStep feed n, events, hrun.publisher feed n⟩

theorem tell (h : Runs id s₀ s) (feed : Nat) (height : UInt32) : Runs id s₀ (s.tell feed height) := by
  obtain ⟨events, hrun⟩ := h.run
  exact ⟨h.alone.turned ((Alone.refl s).tell Feed.stable_true feed height), events, hrun.tell feed height⟩

/-- Another line is not there. -/
theorem consumerStep (h : Runs id s₀ s) (line n : Nat) :
    Runs id s₀ (Simulation.consumerStep line n s).2 := by
  by_cases hline : line = id
  · obtain ⟨events, hrun⟩ := h.run
    subst hline
    exact ⟨(Alone.lineKeeps line).consumerStep h.alone n, _, hrun.line n⟩
  · unfold Simulation.consumerStep
    rw [h.alone.lines line hline]
    exact h

/-- Rescan loops are not there. -/
theorem rescanStep (h : Runs id s₀ s) (loop n : Nat) : Runs id s₀ (Simulation.rescanStep loop n s).2 := by
  unfold Simulation.rescanStep
  rw [h.alone.loops]
  exact h

/-- Whatever a scheduler does is part of a run of the only line. -/
theorem lasting (id : Nat) (s₀ : Simulation) : Lasting (Runs id s₀) where
  of_eq := of_eq
  fetchStep := fetchStep
  publisherStep := publisherStep
  consumerStep := consumerStep
  rescanStep := rescanStep
  tell := tell

/-- A caller lets time pass. -/
theorem sleep (h : Runs id s₀ s) (ms : Nat) : Runs id s₀ (s.sleep ms) :=
  (lasting id s₀).sleep h ms

theorem cancelLine (h : Runs id s₀ s) (line : Nat) : Runs id s₀ (s.cancelLine line) := by
  by_cases hline : line = id
  · obtain ⟨events, hrun⟩ := h.run
    subst hline
    refine ⟨?_, events, hrun.cancel⟩
    unfold Simulation.cancelLine
    split
    · exact h.alone
    · rename_i l _
      have hset := h.alone.setLine { l with cancelled := true }
      dsimp only
      cases l.stage.feed? with
      | none => exact hset
      | some feed => exact hset.turned ((Alone.refl _).endFeed Feed.stable_true feed)
  · unfold Simulation.cancelLine
    rw [h.alone.lines line hline]
    exact h

theorem cancelLoop (h : Runs id s₀ s) (loop : Nat) : Runs id s₀ (s.cancelLoop loop) := by
  unfold Simulation.cancelLoop
  rw [h.alone.loops]
  exact h

/-- An indexer is stopped. -/
theorem stop (h : Runs id s₀ s) (ix : Indexer) : Runs id s₀ (s.stop ix).2 := by
  have hlines : ∀ (lines : List Nat) (t : Simulation), Runs id s₀ t →
      Runs id s₀ (lines.foldl Simulation.cancelLine t) := by
    intro lines
    induction lines with
    | nil => exact fun _ ht => ht
    | cons line lines ih => exact fun t ht => ih _ (ht.cancelLine line)
  have hloops : ∀ (loops : List Nat) (t : Simulation), Runs id s₀ t →
      Runs id s₀ (loops.foldl Simulation.cancelLoop t) := by
    intro loops
    induction loops with
    | nil => exact fun _ ht => ht
    | cons loop loops ih => exact fun t ht => ih _ (ht.cancelLoop loop)
  have hcancelled := hloops ix.loops _ (hlines ix.lines.reverse s h)
  have halerted := (lasting id s₀).alert hcancelled ix.runs
  exact (lasting id s₀).await halerted (allStopped ix) none

end Runs

/-- An indexer opens its line when it is started. -/
theorem opens_start {c : IndexerConfig} {s : Simulation} (h : s.Honest) (hfeeds : s.feeds = [])
    (hlines : s.lines = []) (hloops : s.loops = []) (hrescan : c.rescan.enabled = false) :
    ((s.newIndexer c).2.start (s.newIndexer c).1).2.Opens c (s.fresh + 1) ∧
      ((s.newIndexer c).2.start (s.newIndexer c).1).2.Alone (s.fresh + 1) := by
  generalize hadded : { s with
    fresh := s.fresh + 2
    lines := [(s.fresh + 1, Line.ofConfig c s.fresh)] } = added
  have hstart : ((s.newIndexer c).2.start (s.newIndexer c).1).2 = added.wake (.consumer (s.fresh + 1)) := by
    simp [newIndexer, start, addLine, hrescan, hlines, Table.set, Table.erase, ← hadded]
  have hwake := (Alone.refl added).wake (.consumer (s.fresh + 1))
  have hline : added.lines = [(s.fresh + 1, Line.ofConfig c s.fresh)] := by rw [← hadded]
  rw [hstart]
  refine ⟨⟨⟨s.fresh, ?_⟩, ?_, ⟨?_, ?_⟩⟩, ?_, ?_⟩
  · rw [hwake.lines, hline, Table.get?, if_pos rfl]
  · rw [wake_feeds, ← hadded, hfeeds]
  · rw [hwake.site, ← hadded]
    exact h.site
  · rw [hwake.caches, ← hadded]
    exact h.caches
  · intro k hk
    rw [hwake.lines, hline, Table.get?, if_neg (Ne.symm hk), Table.get?]
  · rw [hwake.loops, ← hadded, hloops]

end Simulation

end ShardIndex
