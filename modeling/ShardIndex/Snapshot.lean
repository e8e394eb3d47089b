import ShardIndex.Contract.Parser
import ShardIndex.Store.Query
/-!
# Point-in-time snapshots

"What was the state of the account just before a logical time" is answered from the store. The
latest answers are kept, per account, as a window of consecutive snapshots: up to `depth` of them,
the newest one before `loadedBefore`. A window answers a question only if no snapshot outside of it
could be the answer (`History.covers`).

| here | in the indexer |
| --- | --- |
| `History.covers`, `History.find` | `AddressHistory.covers`, `AddressHistory.find` |
| `Snapshots.stateBefore` | `PointInTimeStateCache.get_before` |
| `Snapshots.lookup` | `PointInTimeStateCache.get_account_state` |
| `Snapshots.invalidate`, `Snapshots.clear` | `PointInTimeStateCache.invalidate`, `clear` |
-/
namespace ShardIndex

/-- A window of consecutive snapshots of one account. -/
structure History where
  /-- Oldest first. -/
  states : List AccountState
  /-- Every snapshot of the window is before this time. -/
  loadedBefore : UInt64
  /-- Whether the account has no older snapshots. -/
  exhaustive : Bool

namespace History

/-- Whether the window holds the answer for the time. -/
def covers (h : History) (beforeLt : UInt64) : Bool :=
  decide (beforeLt ≤ h.loadedBefore) &&
    (h.exhaustive || h.states.head?.any fun oldest => decide (oldest.lastTxLt < beforeLt))

/-- The latest snapshot of the window before the time. -/
def find (h : History) (beforeLt : UInt64) : Option AccountState :=
  h.states.reverse.find? fun s => decide (s.lastTxLt < beforeLt)

/-- The window of the snapshots that the store has before the time. -/
def load (s : Store) (depth : Nat) (address : Address) (beforeLt : UInt64) : History :=
  let states := (s.statesBefore address beforeLt).take depth
  { states := states.reverse
    loadedBefore := beforeLt
    exhaustive := decide (states.length < depth) }

end History

/-- Windows of snapshots by account. -/
structure Snapshots where
  /-- The number of snapshots that a window may hold, at least one. -/
  depth : Nat
  histories : Table Address History := []

namespace Snapshots

/-- No windows yet. A depth of `0` counts as `1`. -/
def empty (depth : Nat) : Snapshots :=
  { depth := max depth 1 }

instance : Inhabited Snapshots := ⟨empty 1⟩

/-- The latest snapshot of the account before the time, and the windows afterwards. -/
def stateBefore (c : Snapshots) (s : Store) (address : Address) (beforeLt : UInt64) :
    Option AccountState × Snapshots :=
  match (c.histories.get? address).filter (·.covers beforeLt) with
  | some h => (h.find beforeLt, c)
  | none =>
    let h := History.load s c.depth address beforeLt
    (h.find beforeLt, { c with histories := c.histories.set address h })

/-- Forgets the window of one account. -/
def invalidate (c : Snapshots) (address : Address) : Snapshots :=
  { c with histories := c.histories.erase address }

/-- Forgets every window. -/
def clear (c : Snapshots) : Snapshots :=
  { c with histories := [] }

/-- The number of accounts with a window. -/
def size (c : Snapshots) : Nat :=
  c.histories.length

/-- Looks accounts up in committed history. -/
def lookup {M : Type → Type} [Monad M] [MonadStateOf Store M] [MonadStateOf Snapshots M] :
    Lookup M := fun address beforeLt => do
  let s ← getThe Store
  modifyGetThe Snapshots fun c => c.stateBefore s address beforeLt

end Snapshots

end ShardIndex
