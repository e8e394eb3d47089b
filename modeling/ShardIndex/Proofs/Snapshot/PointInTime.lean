import Mathlib
import ShardIndex.Proofs.Store.Transactions
import ShardIndex.Proofs.Store.Versions
/-!
# Lookups between commits

Windows of snapshots are asked, forgotten and lost in any order, and commits come in between
(`Lookups.Reached`). A window is loaded for one question and answers later ones, so a commit could make it
wrong in two ways. New snapshots might belong into it: they are not before any bound that the account was
asked for. Or rows of the account were rewritten: then the account is stale, and its window has to be
forgotten before the account is asked for again.

Under these conditions an account that is not stale is answered as if there were no windows: with the first
snapshot before the bound in the newest-first list of the store (`Lookups.Reached.answers_as_listed`). The
invariant (`Lookups.Sound`) is that the windows of accounts that are not stale are faithful, and that every
window was loaded up to a bound that was asked for.
-/
namespace ShardIndex

/-! ## Snapshots of commits -/

namespace Store

/-- A commit is accepted, and then its snapshots are put among those of the store, or refused. -/
theorem accounts_commit (s : Store) (writes : List Write) :
    (s.commit writes).1 = .ok () ∧
        (s.commit writes).2.accounts = (writes.flatMap Write.snapshots).foldl putAccount s.accounts ∨
      (s.commit writes).1 = .error .commitRefused ∧ (s.commit writes).2.accounts = s.accounts := by
  rcases s.commit_cases writes with ⟨-, hcommit⟩ | ⟨-, hcommit⟩
  · exact .inr ⟨congrArg Prod.fst hcommit, congrArg (·.2.accounts) hcommit⟩
  · refine .inl ⟨congrArg Prod.fst hcommit, (congrArg (·.2.accounts) hcommit).trans ?_⟩
    have hlog := StoreTable.snapshots.rows_logCommit (writes.foldl write s) (mastersAmong writes)
    exact hlog.trans (StoreTable.snapshots.rows_foldl_write writes s)

/-- The latest snapshot before a time is the first such one of the account's list. -/
theorem stateBefore_eq_find? (s : Store) (address : Address) (beforeLt : UInt64) :
    s.stateBefore address beforeLt =
      (s.newestFirst address).find? fun a => decide (a.lastTxLt < beforeLt) := by
  rw [stateBefore, statesBefore_eq_filter, List.head?_filter]

end Store

/-! ## Lookups -/

/-- Windows in use, and the store that they are loaded from. -/
structure Lookups where
  store : Store
  windows : Snapshots
  /-- The accounts and the bounds that were asked for so far. -/
  asked : List (Address × UInt64)
  /-- The accounts with rewritten rows whose windows were not forgotten since. -/
  stale : List Address

namespace Lookups

/-- The account is asked for its state before a time. -/
def ask (l : Lookups) (address : Address) (beforeLt : UInt64) : Lookups :=
  { l with
    windows := (l.windows.stateBefore l.store address beforeLt).2
    asked := l.asked ++ [(address, beforeLt)] }

/-- The window of the account is forgotten. -/
def invalidate (l : Lookups) (address : Address) : Lookups :=
  { l with
    windows := l.windows.invalidate address
    stale := l.stale.filter fun a => decide (a ≠ address) }

/-- All windows are forgotten. -/
def clear (l : Lookups) : Lookups :=
  { l with windows := l.windows.clear, stale := [] }

/-- Something is committed that makes windows of some accounts stale. -/
def commit (l : Lookups) (writes : List Write) (rewritten : List Address) : Lookups :=
  { l with store := (l.store.commit writes).2, stale := l.stale ++ rewritten }

/-- The snapshot is not before any bound that its account was asked for. -/
def Beyond (l : Lookups) (row : AccountState) : Prop :=
  ∀ beforeLt, (row.address, beforeLt) ∈ l.asked → beforeLt ≤ row.lastTxLt

/-- What any course of lookups, commits and losses leads to, from any store and windows of any depth. Accounts
are not asked for while they are stale; and what an accepted commit writes is of stale accounts, those that it
makes stale included, or beyond the bounds. -/
inductive Reached : Lookups → Prop
  | start (store : Store) (depth : Nat) : Reached ⟨store, .empty depth, [], []⟩
  | ask {l : Lookups} (h : Reached l) {address : Address} (hfresh : address ∉ l.stale) (beforeLt : UInt64) :
      Reached (l.ask address beforeLt)
  | invalidate {l : Lookups} (h : Reached l) (address : Address) : Reached (l.invalidate address)
  | clear {l : Lookups} (h : Reached l) : Reached l.clear
  | lose {l : Lookups} (h : Reached l) {windows : Snapshots} (hrest : windows.RestOf l.windows) :
      Reached { l with windows := windows }
  | commit {l : Lookups} (h : Reached l) (writes : List Write) (rewritten : List Address)
      (hrows : (l.store.commit writes).1 = .ok () → ∀ row ∈ writes.flatMap Write.snapshots,
        row.address ∈ l.stale ++ rewritten ∨ l.Beyond row) : Reached (l.commit writes rewritten)

/-! ## The invariant -/

/-- The windows of accounts that are not stale agree with the store, and every window goes back to a
question. -/
structure Sound (l : Lookups) : Prop where
  depth : 1 ≤ l.windows.depth
  faithful : ∀ address ∉ l.stale, ∀ h, l.windows.histories.get? address = some h → h.Faithful l.store address
  asked : ∀ address h, l.windows.histories.get? address = some h → (address, h.loadedBefore) ∈ l.asked

namespace Sound

variable {l : Lookups}

theorem empty (store : Store) (depth : Nat) : Sound ⟨store, .empty depth, [], []⟩ where
  depth := Nat.le_max_right _ _
  faithful _ _ h hh := by cases hh
  asked _ h hh := by cases hh

theorem ask (hl : l.Sound) (address : Address) (beforeLt : UInt64) : (l.ask address beforeLt).Sound := by
  obtain ⟨hdepth, hwindows⟩ := l.windows.windows_stateBefore l.store address beforeLt
  refine ⟨hdepth ▸ hl.depth, fun a ha h hh => ?_, fun a h hh => ?_⟩
  · rcases hwindows a h hh with hh | ⟨rfl, rfl⟩
    · exact hl.faithful a ha h hh
    · exact History.faithful_load l.store l.windows.depth a beforeLt
  · rcases hwindows a h hh with hh | ⟨rfl, rfl⟩
    · exact List.mem_append_left _ (hl.asked a h hh)
    · exact List.mem_append_right _ (List.mem_singleton_self _)

/-- Where windows get lost, an account may be fresh again that has no window any more. -/
theorem lose (hl : l.Sound) {windows : Snapshots} (hrest : windows.RestOf l.windows) {stale : List Address}
    (hstale : ∀ address ∉ stale, address ∈ l.stale → windows.histories.get? address = none) :
    Sound { l with windows := windows, stale := stale } where
  depth := hrest.depth ▸ hl.depth
  faithful address hfresh h hh := by
    refine hl.faithful address (fun hmem => ?_) h (hrest.windows address h hh)
    rw [hstale address hfresh hmem] at hh
    cases hh
  asked address h hh := hl.asked address h (hrest.windows address h hh)

theorem invalidate (hl : l.Sound) (address : Address) : (l.invalidate address).Sound := by
  refine hl.lose (.forget l.windows address) fun a hfresh hmem => ?_
  have ha : a = address := by
    by_contra hne
    exact hfresh (List.mem_filter.2 ⟨hmem, decide_eq_true hne⟩)
  rw [Snapshots.windows_invalidate, if_pos ha]

theorem commit (hl : l.Sound) {writes : List Write} {rewritten : List Address}
    (hrows : (l.store.commit writes).1 = .ok () → ∀ row ∈ writes.flatMap Write.snapshots,
      row.address ∈ l.stale ++ rewritten ∨ l.Beyond row) : (l.commit writes rewritten).Sound where
  depth := hl.depth
  faithful address hfresh h hh := by
    have hfaithful := hl.faithful address (fun hmem => hfresh (List.mem_append_left _ hmem)) h hh
    rcases l.store.accounts_commit writes with ⟨hok, haccounts⟩ | ⟨-, haccounts⟩
    · refine hfaithful.write haccounts fun row hrow haddress => ?_
      subst haddress
      exact (hrows hok row hrow).resolve_left hfresh _ (hl.asked _ h hh)
    · have hnone : (l.store.commit writes).2.accounts = [].foldl Store.putAccount l.store.accounts := haccounts
      exact hfaithful.write hnone (by simp)
  asked := hl.asked

end Sound

theorem Reached.sound {l : Lookups} (h : Reached l) : l.Sound := by
  induction h with
  | start store depth => exact .empty store depth
  | ask h hfresh beforeLt ih => exact ih.ask _ beforeLt
  | invalidate h address ih => exact ih.invalidate address
  | clear h ih => exact ih.lose (.clear _) fun _ _ _ => rfl
  | lose h hrest ih => exact ih.lose hrest fun _ hfresh hmem => absurd hmem hfresh
  | commit h writes rewritten hrows ih => exact ih.commit hrows

/-- Whatever the windows went through, an account that is not stale is answered with the first snapshot before
the bound in the newest-first list of the store, and with none if there is none. The store's own listing up to
the bound, of which windows are the beginning, says the same. -/
theorem Reached.answers_as_listed {l : Lookups} (h : Reached l) {address : Address} (hfresh : address ∉ l.stale)
    (beforeLt : UInt64) :
    (l.windows.stateBefore l.store address beforeLt).1 =
        ((l.store.newestFirst address).find? fun a => decide (a.lastTxLt < beforeLt)) ∧
      (l.windows.stateBefore l.store address beforeLt).1 = (l.store.statesBefore address beforeLt).head? := by
  have hstore := Snapshots.stateBefore_of_faithful h.sound.depth (h.sound.faithful address hfresh) beforeLt
  exact ⟨hstore.trans (l.store.stateBefore_eq_find? address beforeLt), hstore⟩

/-! ## A sample -/

namespace Sample

def holder : Address := ⟨0, 1⟩

def item (lt : UInt64) (seqno : UInt32) (types : List ContractName) : AccountState where
  address := holder
  block := ⟨.basechain, seqno⟩
  masterSeqno := seqno
  updatedAt := 0
  status := .active
  balance := 0
  lastTxLt := lt
  lastTxHash := 0
  types := types

/-- Two of the snapshots have the same logical time. -/
def twins : Store where
  accounts := [item 10 1 [], item 20 2 [], item 20 3 ["wallet"], item 30 4 []]

/-- Windows of two snapshots: the second question is answered from the window of the first, the third needs
another one. -/
def askedThrice : Lookups :=
  ((Lookups.ask ⟨twins, .empty 2, [], []⟩ holder 35).ask holder 25).ask holder 20

/-- A later snapshot is committed and an earlier one rewritten. -/
def rewritten : Lookups :=
  ((askedThrice.commit [.accounts [item 40 5 []]] []).commit [.accounts [item 20 2 ["nft_item"]]]
    [holder]).invalidate holder

theorem reached_rewritten : Reached rewritten := by
  have hfresh : holder ∉ ([] : List Address) := List.not_mem_nil
  have hasked : Reached askedThrice := (((Reached.start twins 2).ask hfresh 35).ask hfresh 25).ask hfresh 20
  have hbeyond : askedThrice.Beyond (item 40 5 []) := by
    intro beforeLt hmem
    have hbounds : beforeLt = 35 ∨ beforeLt = 25 ∨ beforeLt = 20 := by
      simpa [askedThrice, Lookups.ask, item] using hmem
    rcases hbounds with rfl | rfl | rfl <;> decide
  have hlater : ∀ row ∈ [item 40 5 []],
      row.address ∈ askedThrice.stale ++ [] ∨ askedThrice.Beyond row := by
    intro row hrow
    obtain rfl := List.mem_singleton.1 hrow
    exact .inr hbeyond
  have hgrown := hasked.commit [.accounts [item 40 5 []]] [] fun _ => hlater
  refine (hgrown.commit _ _ fun _ row hrow => ?_).invalidate _
  obtain rfl := List.mem_singleton.1 hrow
  exact .inl (List.mem_append_right _ (List.mem_singleton_self _))

end Sample

open Lookups.Sample in
/-- Of the twins the one whose row comes first is found, as it was rewritten. -/
theorem Reached.answers_as_listed_sample :
    Reached rewritten ∧ holder ∉ rewritten.stale ∧
      (rewritten.windows.stateBefore rewritten.store holder 25).1 =
        ((rewritten.store.newestFirst holder).find? fun a => decide (a.lastTxLt < 25)) ∧
      (rewritten.windows.stateBefore rewritten.store holder 25).1 = some (item 20 2 ["nft_item"]) := by
  have hfresh : holder ∉ rewritten.stale := by decide +kernel
  exact ⟨reached_rewritten, hfresh, (reached_rewritten.answers_as_listed hfresh 25).1, by cbv⟩

end Lookups

end ShardIndex
