import ShardIndex.Simulation.Indexer
/-!
# Listening to a feed

A listener takes bundles from a feed as soon as they are published, until it has as many as it
wants, until the feed ends, or until none has come for a while. A feed that nobody listens to ends
with its first publication.
-/
namespace ShardIndex

/-- What a listener asks for. -/
structure Listening where
  /-- The settings of the feed: workers, retry interval and channel capacity. -/
  config : IndexerConfig
  /-- The first height. -/
  start : UInt32
  /-- The number of bundles wanted. -/
  take : Nat
  /-- Milliseconds after which a listener gives up. -/
  timeout : Nat

/-- Why a listener stopped. -/
inductive ListeningEnd where
  | taken
  | timeout
  | closed
deriving DecidableEq, Repr

/-- What a listener has heard: bundles with the moments at which they came. -/
structure Heard where
  bundles : List (Nat × MasterBundle)
  reason : ListeningEnd

namespace Simulation

/-- Whether a feed has ended. -/
def feedEnded (s : Simulation) (id : Nat) : Bool :=
  (Table.get? s.feeds id).all fun f => !f.publishing

/-- Whether there is news for the listener of a feed: a bundle, or the end. -/
def hasNews (s : Simulation) (id : Nat) : Bool :=
  (Table.get? s.feeds id).all fun f => !f.queue.isEmpty || !f.publishing

/-- Takes bundles from a feed; the last one was taken at the moment `since`. -/
def collect (id take timeout : Nat) :
    Nat → Nat → List (Nat × MasterBundle) → Simulation → Heard × Simulation
  | 0, _, heard, s => (⟨heard, .timeout⟩, s)
  | n + 1, since, heard, s =>
    if take ≤ heard.length then (⟨heard, .taken⟩, s)
    else if s.credit = 0 then collect id take timeout n since heard s.stepBack
    else
      match Table.get? s.feeds id with
      | none => (⟨heard, .closed⟩, s)
      | some f =>
        match f.queue with
        | bundle :: rest =>
          let s := (s.takeBundle id f rest).spend
          collect id take timeout n s.now (heard ++ [(s.now, bundle)]) s
        | [] =>
          let deadline := since + min timeout longestWait
          if !f.publishing then (⟨heard, .closed⟩, s.spend)
          else if deadline ≤ s.now then (⟨heard, .timeout⟩, s.spend)
          else
            let ready (s : Simulation) : Bool := s.hasNews id || decide (deadline ≤ s.now)
            collect id take timeout n since heard (s.await ready (some deadline))

/-- Listens to a new feed. -/
def listen (s : Simulation) (want : Listening) : Heard × Simulation :=
  let (reader, s) := (s.fresh, { s with fresh := s.fresh + 1 })
  let (id, s) := s.openFeed (.openAt want.config reader .caller want.start)
  let (heard, s) := collect id want.take want.timeout patience s.now [] s
  (heard, s.dropFeed id)

/-- Runs a feed that nobody listens to until it ends. -/
def runUnheard (s : Simulation) (config : IndexerConfig) (start : UInt32) : Simulation :=
  let (reader, s) := (s.fresh, { s with fresh := s.fresh + 1 })
  let (id, s) := s.openFeed (.openAt config reader .nobody start)
  (s.await (fun s => s.feedEnded id) none).dropFeed id

end Simulation

end ShardIndex
