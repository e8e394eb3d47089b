import Mathlib
import ShardIndex.Proofs.Supervision.Rounds
import ShardIndex.Proofs.Supervision.Tracking
/-!
# Commits of a supervised line

The log of commits of a run, read across all restarts: `Simulation.Supervised.commit_order`.
-/
namespace ShardIndex

namespace Simulation

namespace Supervised

variable {c : IndexerConfig} {id : Nat} {s₀ s : Simulation} {events : List LineEvent}

/-- A supervised line never finds a master block out of order. What it commits, in the order of the
commits and across all restarts, are consecutive master blocks, from the one after the last committed one
on, or from the configured one if the store was empty. Every batch is full but the one of the final flush,
and after that flush everything is committed that the last sink has accepted. -/
theorem commit_order (h₀ : s₀.Opens c id) (h : Supervised id s₀ events s) :
    (∀ seqno expected, .failed (.outOfOrder seqno expected) ∉ events) ∧
      ∃ full rest start,
        s.site.store.commits = s₀.site.store.commits ++ (full ++ rest) ∧
        (full ++ rest).flatten.map UInt32.toNat = List.range' start (full ++ rest).flatten.length ∧
        (∀ last, s₀.site.store.lastSeqno = some last → start = last.toNat + 1) ∧
        (s₀.site.store.lastSeqno = none → ∀ first, c.fromMaster = some first → start = first.toNat) ∧
        (∀ batch ∈ full, batch.length = max 1 c.batchMasters.toNat) ∧
        (rest ≠ [] → .flushed ∈ events ∧ rest.length = 1) ∧
        (.flushed ∈ events → ∀ n ∈ LineEvent.acceptedIn events, n ∈ (full ++ rest).flatten) := by
  obtain ⟨numbers, l, htracks⟩ := Outset.Tracked.of_supervised h₀ h
  obtain ⟨full, rest, hcommits, hfull, ⟨start, hnumbers, hstart⟩, hrest, hflushed, hkept⟩ :=
    htracks.standing.log
  refine ⟨fun seqno expected hmem => htracks.footing.inOrder _ hmem seqno expected rfl,
    full, rest, start, hcommits, hnumbers, ?_, ?_, ?_, ?_, hkept⟩
  · intro last hlast
    refine hstart _ ?_
    rw [hlast]
    rfl
  · intro hnone first hfirst
    refine hstart _ ?_
    rw [hnone, IndexerConfig.firstAfter, hfirst]
    rfl
  · intro batch hbatch
    rw [hfull.full batch hbatch, IndexerConfig.fullBatch, Nat.max_comm]
  · intro hne
    exact ⟨hflushed hne, Nat.le_antisymm hrest (List.length_pos_of_ne_nil hne)⟩

/-- An indexer of batches of two, which starts with master block 1 and tries nothing twice. -/
def pairs : IndexerConfig :=
  { workers := 2
    batchMasters := 2
    retryInterval := .ofSeconds 100
    restartDelay := .ofSeconds 0
    commitRetries := 0
    fromMaster := some 1
    rescan := { enabled := false } }

/-- A node with the master blocks up to 3, and a store that refuses the first commit. -/
def refusing : Simulation :=
  let ledger := [0, 1, 2, 3].foldl (fun l seqno => Ledger.addSimpleMaster l seqno [] []) {}
  { site := { ledger := ledger, store := { refusals := 1 } } }

/-- The indexer is started, and stopped after a while. -/
def begun : Indexer × Simulation :=
  (refusing.newIndexer pairs).2.start (refusing.newIndexer pairs).1

def ended : Simulation :=
  ((begun.2.sleep 10).stop begun.1).2

/-- The first batch is refused and the line opens again; the last master block is committed by the final
flush. -/
theorem commit_order_sample :
    begun.2.Opens pairs 1 ∧ ended.site.store.commits = [[1, 2], [3]] ∧
      ∃ events, Supervised 1 begun.2 events ended ∧
        (∀ seqno expected, .failed (.outOfOrder seqno expected) ∉ events) ∧
        .flushed ∈ events ∧ ∀ n ∈ LineEvent.acceptedIn events, n ∈ [1, 2, 3] := by
  have hhonest : refusing.Honest := by
    have hledger := (((Ledger.Honest.empty.addSimpleMaster 0 [] []).addSimpleMaster 1 [] []).addSimpleMaster
      2 [] []).addSimpleMaster 3 [] []
    exact ⟨⟨hledger, fun _ _ h => (nomatch h)⟩, fun _ _ h => (nomatch h)⟩
  obtain ⟨hopens, halone⟩ := opens_start (c := pairs) hhonest rfl rfl rfl rfl
  have hruns : Runs 1 begun.2 ended := (Runs.sleep ⟨halone, [], .start⟩ 10).stop begun.1
  have hcommits : ended.site.store.commits = [[1, 2], [3]] := by cbv
  obtain ⟨events, hrun⟩ := hruns.run
  obtain ⟨hinOrder, full, rest, start, hlog, -, -, -, hfull, hrest, hkept⟩ := commit_order hopens hrun
  have hlog : full ++ rest = [[1, 2], [3]] := by
    rw [← hcommits, hlog]
    rfl
  have hflushed : .flushed ∈ events := by
    refine (hrest ?_).1
    rintro rfl
    rw [List.append_nil] at hlog
    have hlength := hfull [3] (by rw [hlog]; decide)
    cases hlength
  refine ⟨hopens, hcommits, events, hrun, hinOrder, hflushed, fun n hn => ?_⟩
  have hmem := hkept hflushed n hn
  rw [hlog] at hmem
  exact hmem

end Supervised

end Simulation

end ShardIndex
