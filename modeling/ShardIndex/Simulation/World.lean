import ShardIndex.Chain.Ledger
import ShardIndex.Contract.Registry
import ShardIndex.Fetch.Bundle
import ShardIndex.Rescan.Scheduler
import ShardIndex.Simulation.Timed
/-!
# The world of a simulation

The collaborators that all programs share are the node, the parser and the store (`Site`). A program
sees them together with what it remembers itself: the cache of its reader and its windows of
snapshots (`World`).
-/
namespace ShardIndex

/-- What all programs share. -/
structure Site where
  ledger : Ledger := {}
  registry : Registry := {}
  store : Store := {}

/-- What one program sees. -/
structure World where
  site : Site
  cache : ReadCache := {}
  snapshots : Snapshots := .empty 1

namespace World

/-- The part of a world that `get` reads and `put` writes, as state of timed programs. -/
@[reducible] def part {σ : Type} (get : World → σ) (put : World → σ → World) :
    MonadStateOf σ (Timed World) where
  get := Timed.access fun w => (get w, w)
  set s := Timed.access fun w => ((), put w s)
  modifyGet f := Timed.access fun w => let (a, s) := f (get w); (a, put w s)

instance : MonadStateOf Ledger (Timed World) :=
  part (·.site.ledger) fun w s => { w with site := { w.site with ledger := s } }

instance : MonadStateOf Registry (Timed World) :=
  part (·.site.registry) fun w s => { w with site := { w.site with registry := s } }

instance : MonadStateOf Store (Timed World) :=
  part (·.site.store) fun w s => { w with site := { w.site with store := s } }

instance : MonadStateOf ReadCache (Timed World) :=
  part (·.cache) fun w s => { w with cache := s }

instance : MonadStateOf Snapshots (Timed World) :=
  part (·.snapshots) fun w s => { w with snapshots := s }

/-- The pages that a transaction listing of the simulated node may have. -/
def pageLimit : Nat := 1000000

/-- The simulated node. -/
def node : ChainNode (Timed World) := Ledger.node

/-- The simulated parser. -/
def parser : Parser (Timed World) := Registry.parser

/-- A reader of the simulated node. -/
def reader : Reader (Timed World) where
  node := node
  parser := parser
  pageLimit := pageLimit

end World

end ShardIndex
