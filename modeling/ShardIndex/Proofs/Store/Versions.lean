import ShardIndex.Proofs.Snapshot.Coherence
import ShardIndex.Proofs.Store.Rows
/-!
# Tables with rewritten rows

A table is rewritten by reading some of its rows, changing them one by one and writing back those that
have changed. As long as a row keeps its key this is a map over the table
(`Rows.foldl_changed`), whatever the order in which the rows were read. Snapshots that keep their
account and their logical time are found as before (`Store.stateBefore_map`).
-/
namespace ShardIndex

namespace Rows

variable {ρ κ : Type} [DecidableEq κ] {key : ρ → κ}

/-- Replacing a row of the table leaves every other row in its place. -/
theorem replaceOrAppend_eq_map {same : ρ → Bool} {row : ρ}
    (hsame : ∀ r, same r = true ↔ key r = key row) : ∀ {table : List ρ}, (table.map key).Nodup →
      key row ∈ table.map key →
        replaceOrAppend same row table = table.map fun r => if key r = key row then row else r
  | [], _, hmem => by cases hmem
  | r :: rs, hnodup, hmem => by
    obtain ⟨hr, hrs⟩ := List.nodup_cons.1 hnodup
    rw [replaceOrAppend, List.map_cons]
    by_cases h : key r = key row
    · have hrest : rs.map (fun x => if key x = key row then row else x) = rs := by
        refine (List.map_congr_left fun x hx => if_neg fun e => hr ?_).trans (List.map_id' rs)
        rw [h, ← e]
        exact List.mem_map_of_mem hx
      rw [if_pos ((hsame r).2 h), if_pos h, hrest]
    · rw [if_neg (fun e => h ((hsame r).1 e)), if_neg h, replaceOrAppend_eq_map hsame hrs
        ((List.mem_cons.1 hmem).resolve_left (Ne.symm h))]

/-- A row that is not selected does not show among the selected ones. -/
theorem filter_replaceOrAppend {same p : ρ → Bool} {row : ρ} (hsame : ∀ r, same r = true → p r = p row)
    (hrow : p row = false) : ∀ table : List ρ,
      (replaceOrAppend same row table).filter p = table.filter p
  | [] => by simp [replaceOrAppend, hrow]
  | r :: table => by
    rw [replaceOrAppend]
    split
    · rename_i hr
      rw [List.filter_cons_of_neg (by simp [hrow]), List.filter_cons_of_neg (by simp [hsame r hr, hrow])]
    · rw [List.filter_cons, List.filter_cons, filter_replaceOrAppend hsame hrow table]

variable {same : ρ → ρ → Bool} (hsame : ∀ row r, same row r = true ↔ key r = key row)

include hsame

/-- Writing back rows of the table that keep their keys is a map over the table. -/
theorem foldl_replaceOrAppend (g : ρ → ρ) : ∀ {picked table : List ρ}, (table.map key).Nodup →
    (picked.map key).Nodup → (∀ r ∈ picked, r ∈ table ∧ key (g r) = key r) →
      (picked.map g).foldl (fun rows row => replaceOrAppend (same row) row rows) table =
        table.map fun r => if key r ∈ picked.map key then g r else r
  | [], table, _, _, _ => by simp
  | p :: picked, table, htable, hpicked, hg => by
    obtain ⟨hp, hpicked'⟩ := List.nodup_cons.1 hpicked
    obtain ⟨hmem, hkey⟩ := hg p List.mem_cons_self
    have hput : replaceOrAppend (same (g p)) (g p) table =
        table.map fun r => if key r = key p then g p else r := by
      rw [replaceOrAppend_eq_map (hsame (g p)) htable (hkey ▸ List.mem_map_of_mem hmem), hkey]
    have hkeys : (table.map fun r => if key r = key p then g p else r).map key = table.map key := by
      rw [List.map_map]
      refine List.map_congr_left fun r _ => ?_
      by_cases h : key r = key p
      · simp [h, hkey]
      · simp [h]
    have hrest : ∀ r ∈ picked,
        r ∈ (table.map fun r => if key r = key p then g p else r) ∧ key (g r) = key r := by
      intro r hr
      obtain ⟨hrt, hrk⟩ := hg r (List.mem_cons_of_mem _ hr)
      refine ⟨List.mem_map.2 ⟨r, hrt, if_neg fun e => hp ?_⟩, hrk⟩
      exact e ▸ List.mem_map_of_mem hr
    rw [List.map_cons, List.foldl_cons, hput,
      foldl_replaceOrAppend g (hkeys ▸ htable) hpicked' hrest, List.map_map]
    refine List.map_congr_left fun r hr => ?_
    by_cases h : key r = key p
    · have hrp : r = p := List.inj_on_of_nodup_map htable hr hmem h
      subst hrp
      simp only [Function.comp_apply, if_true, hkey, hp, if_false, List.map_cons, List.mem_cons, true_or]
    · simp [h]

/-- Rows are picked in any order, rewritten, and written back if they have changed. -/
theorem foldl_changed [DecidableEq ρ] (g : ρ → ρ) (p : ρ → Bool) {picked table : List ρ}
    (htable : (table.map key).Nodup) (hpicked : picked.Perm (table.filter p))
    (hg : ∀ r ∈ table, p r = true → key (g r) = key r) :
    ((picked.filter fun r => decide (g r ≠ r)).map g).foldl
        (fun rows row => replaceOrAppend (same row) row rows) table =
      table.map fun r => if p r then g r else r := by
  have hmem : ∀ r, r ∈ picked.filter (fun r => decide (g r ≠ r)) ↔ (r ∈ table ∧ p r = true) ∧ g r ≠ r := by
    intro r
    rw [List.mem_filter, hpicked.mem_iff, List.mem_filter, decide_eq_true_eq]
  have hkeys : ((picked.filter fun r => decide (g r ≠ r)).map key).Nodup := by
    have hnodup : (picked.map key).Nodup :=
      (hpicked.map key).nodup_iff.2 (htable.sublist (List.filter_sublist.map key))
    exact hnodup.sublist (List.filter_sublist.map key)
  rw [foldl_replaceOrAppend hsame g htable hkeys fun r hr => by
    obtain ⟨⟨hrt, hrp⟩, -⟩ := (hmem r).1 hr
    exact ⟨hrt, hg r hrt hrp⟩]
  refine List.map_congr_left fun r hr => ?_
  have hiff : key r ∈ (picked.filter fun r => decide (g r ≠ r)).map key ↔ p r = true ∧ g r ≠ r := by
    constructor
    · intro hk
      obtain ⟨x, hx, hxr⟩ := List.mem_map.1 hk
      obtain ⟨⟨hxt, hxp⟩, hxg⟩ := (hmem x).1 hx
      rw [← List.inj_on_of_nodup_map htable hxt hr hxr]
      exact ⟨hxp, hxg⟩
    · rintro ⟨hp, hne⟩
      exact List.mem_map_of_mem ((hmem r).2 ⟨⟨hr, hp⟩, hne⟩)
  by_cases hp : p r = true
  · by_cases hne : g r = r
    · rw [if_neg (fun h => (hiff.1 h).2 hne), if_pos hp, hne]
    · rw [if_pos (hiff.2 ⟨hp, hne⟩), if_pos hp]
  · rw [if_neg (fun h => hp (hiff.1 h).1), if_neg hp]

end Rows

namespace Store

/-- Snapshots are found as before when each of them keeps its account and its logical time. -/
theorem statesBefore_map {s s' : Store} {g : AccountState → AccountState}
    (hs : s'.accounts = s.accounts.map g)
    (hg : ∀ a ∈ s.accounts, (g a).address = a.address ∧ (g a).lastTxLt = a.lastTxLt)
    (address : Address) (beforeLt : UInt64) :
    s'.statesBefore address beforeLt = (s.statesBefore address beforeLt).map g := by
  have hfilter : s'.accounts.filter (fun a => a.address == address && decide (a.lastTxLt < beforeLt)) =
      (s.accounts.filter fun a => a.address == address && decide (a.lastTxLt < beforeLt)).map g := by
    rw [hs, List.filter_map]
    congr 1
    refine List.filter_congr fun a ha => ?_
    obtain ⟨haddress, hlt⟩ := hg a ha
    simp only [Function.comp_apply, haddress, hlt]
  rw [statesBefore, statesBefore, hfilter, List.map_mergeSort]
  intro a ha b hb
  rw [(hg a (List.mem_filter.1 ha).1).2, (hg b (List.mem_filter.1 hb).1).2]

theorem stateBefore_map {s s' : Store} {g : AccountState → AccountState}
    (hs : s'.accounts = s.accounts.map g)
    (hg : ∀ a ∈ s.accounts, (g a).address = a.address ∧ (g a).lastTxLt = a.lastTxLt)
    (address : Address) (beforeLt : UInt64) :
    s'.stateBefore address beforeLt = (s.stateBefore address beforeLt).map g := by
  rw [stateBefore, stateBefore, statesBefore_map hs hg, List.head?_map]

/-- The latest snapshot before a time is one of the store's. -/
theorem mem_of_stateBefore {s : Store} {address : Address} {beforeLt : UInt64} {a : AccountState}
    (h : s.stateBefore address beforeLt = some a) :
    a ∈ s.accounts ∧ a.address = address ∧ a.lastTxLt < beforeLt := by
  have hmem := List.mem_of_head? h
  rw [statesBefore, List.mem_mergeSort, List.mem_filter, Bool.and_eq_true, beq_iff_eq,
    decide_eq_true_eq] at hmem
  exact hmem

/-- What is written about other accounts does not change the answers about an account. -/
theorem stateBefore_of_kept {s s' : Store} {g : AccountState → AccountState}
    (hs : s'.accounts = s.accounts.map g)
    (hg : ∀ a ∈ s.accounts, (g a).address = a.address ∧ (g a).lastTxLt = a.lastTxLt)
    {address : Address} (hkept : ∀ a ∈ s.accounts, a.address = address → g a = a)
    (beforeLt : UInt64) : s'.stateBefore address beforeLt = s.stateBefore address beforeLt := by
  rw [stateBefore_map hs hg]
  cases hfound : s.stateBefore address beforeLt with
  | none => rfl
  | some a =>
    obtain ⟨hmem, haddress, -⟩ := mem_of_stateBefore hfound
    exact congrArg some (hkept a hmem haddress)

/-- Rows of other accounts, and rows that are not before a time, do not show among the snapshots of an
account before the time. -/
theorem statesBefore_putAccount {address : Address} {beforeLt : UInt64} : ∀ (rows : List AccountState)
    {s s' : Store}, s'.accounts = rows.foldl putAccount s.accounts →
      (∀ r ∈ rows, r.address = address → beforeLt ≤ r.lastTxLt) →
        s'.statesBefore address beforeLt = s.statesBefore address beforeLt := by
  have hput : ∀ (rows table : List AccountState),
      (∀ r ∈ rows, r.address = address → beforeLt ≤ r.lastTxLt) →
        (rows.foldl putAccount table).filter
            (fun a => a.address == address && decide (a.lastTxLt < beforeLt)) =
          table.filter fun a => a.address == address && decide (a.lastTxLt < beforeLt) := by
    intro rows
    induction rows with
    | nil => exact fun _ _ => rfl
    | cons r rows ih =>
      intro table hrows
      obtain ⟨hr, hrows⟩ := List.forall_mem_cons.1 hrows
      rw [List.foldl_cons, ih _ hrows, putAccount]
      refine Rows.filter_replaceOrAppend (fun a ha => ?_) ?_ table
      · obtain ⟨⟨haddress, hlt⟩, -⟩ : (a.address = r.address ∧ a.lastTxLt = r.lastTxLt) ∧ a.block = r.block := by
          simpa [AccountState.sameKey] using ha
        rw [haddress, hlt]
      · by_cases haddress : r.address = address
        · have hlt : ¬ r.lastTxLt < beforeLt := UInt64.not_lt.2 (hr haddress)
          simp [hlt]
        · simp [haddress]
  intro rows s s' hs hrows
  rw [statesBefore, statesBefore, hs, hput rows s.accounts hrows]

/-- The snapshot of an account with the greatest logical time before a bound, if there is one. -/
def LatestBefore (s : Store) (address : Address) (beforeLt : UInt64) : Option AccountState → Prop
  | some found => found ∈ s.accounts ∧ found.address = address ∧ found.lastTxLt < beforeLt ∧
      ∀ a ∈ s.accounts, a.address = address → a.lastTxLt < beforeLt → a.lastTxLt ≤ found.lastTxLt
  | none => ∀ a ∈ s.accounts, a.address = address → ¬ a.lastTxLt < beforeLt

theorem latestBefore_stateBefore (s : Store) (address : Address) (beforeLt : UInt64) :
    s.LatestBefore address beforeLt (s.stateBefore address beforeLt) := by
  have hmem : ∀ a ∈ s.accounts, a.address = address → a.lastTxLt < beforeLt →
      a ∈ s.statesBefore address beforeLt := by
    intro a ha haddress hlt
    rw [statesBefore, List.mem_mergeSort, List.mem_filter]
    exact ⟨ha, by simp [haddress, hlt]⟩
  cases hfound : s.stateBefore address beforeLt with
  | none =>
    intro a ha haddress hlt
    have hstates : s.statesBefore address beforeLt = [] := List.head?_eq_none_iff.1 hfound
    exact List.ne_nil_of_mem (hmem a ha haddress hlt) hstates
  | some found =>
    obtain ⟨hstored, haddress, hlt⟩ := mem_of_stateBefore hfound
    refine ⟨hstored, haddress, hlt, fun a ha haddress hlt => ?_⟩
    have hsorted : (s.statesBefore address beforeLt).Pairwise fun a b => decide (b.lastTxLt ≤ a.lastTxLt) :=
      List.pairwise_mergeSort newer_trans newer_total _
    have ha := hmem a ha haddress hlt
    obtain ⟨rest, hstates⟩ := List.head?_eq_some_iff.1 hfound
    rw [hstates] at ha hsorted
    rcases List.mem_cons.1 ha with rfl | ha
    · exact UInt64.le_refl _
    · exact of_decide_eq_true ((List.pairwise_cons.1 hsorted).1 a ha)

end Store

/-- Rows of the account that are not before the time up to which a window was loaded do not show in it. -/
theorem History.Faithful.write {h : History} {s s' : Store} {address : Address}
    (hfaithful : h.Faithful s address) {rows : List AccountState} (hs : s'.accounts = rows.foldl Store.putAccount s.accounts)
    (hrows : ∀ r ∈ rows, r.address = address → h.loadedBefore ≤ r.lastTxLt) : h.Faithful s' address := by
  intro beforeLt hcovers
  have hbound : beforeLt ≤ h.loadedBefore := by
    rw [History.covers, Bool.and_eq_true, decide_eq_true_eq] at hcovers
    exact hcovers.1
  rw [hfaithful beforeLt hcovers, Store.stateBefore, Store.stateBefore, Store.statesBefore_putAccount rows hs
    fun r hr haddress => UInt64.le_trans hbound (hrows r hr haddress)]

end ShardIndex
