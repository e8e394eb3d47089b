import ShardIndex.Proofs.Pipeline.Feeds
import ShardIndex.Proofs.Pipeline.Scheduling
/-!
# Rounds keep feeds in order

Lines open feeds, take bundles out of them and drop them; nothing else in a simulation touches a feed
but its own turns. So however actors are served, and however long a simulation runs that had no feeds at
first, its feeds have come about by events of publications (`Simulation.Published.serve`,
`Simulation.Published.await`).
-/
namespace ShardIndex

namespace Simulation

variable {s t : Simulation}

theorem rescanStep_feeds (id n : Nat) (s : Simulation) : (rescanStep id n s).2.feeds = s.feeds := by
  unfold rescanStep
  split
  · rfl
  · split
    · rfl
    · split
      · rfl
      · dsimp only
        split
        · rfl
        · split
          · exact defer_feeds _ _
          · rfl
          · rfl
          · exact defer_feeds _ _

theorem lineKeeps_published (id : Nat) : LineKeeps id Simulation.Published where
  of_eq h hfeeds _ _ := h.of_feeds hfeeds
  setLine h _ := h.of_feeds rfl
  openFeed h config reader start := h.openFeed (Feed.Publishes.openAt config reader (.line id) start)
  dropFeed h feed := h.dropFeed feed
  takeBundle h _ _ hf _ _ hq := h.takeBundle hf hq
  starve h _ _ hf := h.setFeed _ ((h _ _ hf).congr rfl rfl rfl rfl rfl)

theorem lasting_published : Lasting Simulation.Published where
  of_eq h _ _ hfeeds _ _ := h.of_feeds hfeeds
  fetchStep h feed height n := h.fetchStep feed height n
  publisherStep h feed n := h.publisherStep feed n
  consumerStep h line n := (lineKeeps_published line).consumerStep h n
  rescanStep h loop n := h.of_feeds (rescanStep_feeds loop n _)
  tell h feed height := h.tell feed height

/-- Whoever is served, the feeds have come about by events of publications. -/
theorem Published.serve (h : s.Published) (a : Actor) : (s.serve a).Published :=
  lasting_published.serve h a

/-- However long a simulation runs, its feeds have come about by events of publications. -/
theorem Published.await (h : s.Published) (goal : Simulation → Bool) (horizon : Option Nat) :
    (s.await goal horizon).Published :=
  lasting_published.await h goal horizon

end Simulation

end ShardIndex
