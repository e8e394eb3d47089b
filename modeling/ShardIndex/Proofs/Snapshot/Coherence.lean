import ShardIndex.Snapshot
/-!
# Windows of snapshots agree with the store

A window is faithful if it answers as the store does wherever it claims to hold the answer
(`History.Faithful`), and windows are coherent if all of them are faithful (`Snapshots.Coherent`). A loaded
window is faithful because the snapshots before an earlier time are a part of those before a later one,
in the same order (`Store.statesBefore_of_le`). So coherent windows answer every question as the store
does (`Coherent.stateBefore`); they stay coherent when some of them get lost, and when rows of other
accounts are written.
-/
namespace ShardIndex

/-! ## Sorting -/

/-- A list is split in one way only into rows with and rows without a property. -/
theorem split_unique {ρ : Type} (q : ρ → Bool) {l₁ l₂ m₁ m₂ : List ρ} (h : l₁ ++ l₂ = m₁ ++ m₂)
    (hl₁ : ∀ b ∈ l₁, q b = true) (hm₁ : ∀ b ∈ m₁, q b = true) (hl₂ : ∀ b ∈ l₂, ¬ q b = true)
    (hm₂ : ∀ b ∈ m₂, ¬ q b = true) : l₁ = m₁ ∧ l₂ = m₂ := by
  have hfirst := congrArg (List.filter q) h
  rw [List.filter_append, List.filter_append, List.filter_eq_self.2 hl₁, List.filter_eq_self.2 hm₁,
    List.filter_eq_nil_iff.2 hl₂, List.filter_eq_nil_iff.2 hm₂, List.append_nil, List.append_nil] at hfirst
  subst hfirst
  exact ⟨rfl, List.append_cancel_left h⟩

/-- Rows that are sorted and then selected are those that are selected and then sorted. -/
theorem filter_mergeSort {ρ : Type} {le : ρ → ρ → Bool}
    (htrans : ∀ a b c, le a b = true → le b c = true → le a c = true)
    (htotal : ∀ a b, (le a b || le b a) = true) (p : ρ → Bool) :
    ∀ rows : List ρ, (rows.mergeSort le).filter p = (rows.filter p).mergeSort le
  | [] => by simp
  | r :: rows => by
    have ih := filter_mergeSort htrans htotal p rows
    -- sorting puts `r` between the rows before it and those after it
    have hinsert : ∀ rest : List ρ, ∃ l₁ l₂, (r :: rest).mergeSort le = l₁ ++ r :: l₂ ∧
        rest.mergeSort le = l₁ ++ l₂ ∧ (∀ b ∈ l₁, (!le r b) = true) ∧ ∀ b ∈ l₂, ¬ (!le r b) = true := by
      intro rest
      obtain ⟨l₁, l₂, hsort, hrest, hl₁⟩ := List.mergeSort_cons htrans htotal r rest
      have hsorted := List.pairwise_mergeSort htrans htotal (r :: rest)
      rw [hsort] at hsorted
      have hl₂ := (List.pairwise_cons.1 (List.pairwise_append.1 hsorted).2.1).1
      exact ⟨l₁, l₂, hsort, hrest, hl₁, fun b hb => by simp [hl₂ b hb]⟩
    obtain ⟨l₁, l₂, hsort, hrest, hl₁, hl₂⟩ := hinsert rows
    rw [hsort, List.filter_append, List.filter_cons]
    by_cases hp : p r = true
    · obtain ⟨m₁, m₂, hsort', hrest', hm₁, hm₂⟩ := hinsert (rows.filter p)
      have hparts : l₁.filter p ++ l₂.filter p = m₁ ++ m₂ := by
        rw [← List.filter_append, ← hrest, ih, hrest']
      obtain ⟨hfirst, hsecond⟩ := split_unique (fun b => !le r b) hparts
        (fun b hb => hl₁ b (List.mem_filter.1 hb).1) hm₁
        (fun b hb => hl₂ b (List.mem_filter.1 hb).1) hm₂
      rw [if_pos hp, List.filter_cons, if_pos hp, hfirst, hsecond, hsort']
    · rw [if_neg hp, List.filter_cons, if_neg hp, ← List.filter_append, ← hrest, ih]

namespace Store

/-- The latest snapshot of an account before a logical time. -/
def stateBefore (s : Store) (address : Address) (beforeLt : UInt64) : Option AccountState :=
  (s.statesBefore address beforeLt).head?

variable {s : Store} {address : Address} {beforeLt loadedBefore : UInt64}

theorem newer_trans (a b c : AccountState) (hab : decide (b.lastTxLt ≤ a.lastTxLt) = true)
    (hbc : decide (c.lastTxLt ≤ b.lastTxLt) = true) : decide (c.lastTxLt ≤ a.lastTxLt) = true := by
  rw [decide_eq_true_eq] at hab hbc ⊢
  exact UInt64.le_trans hbc hab

theorem newer_total (a b : AccountState) :
    (decide (b.lastTxLt ≤ a.lastTxLt) || decide (a.lastTxLt ≤ b.lastTxLt)) = true := by
  rw [Bool.or_eq_true, decide_eq_true_eq, decide_eq_true_eq]
  exact UInt64.le_total _ _

/-- The snapshots of an account, newest first. Those of one logical time are in the order of their rows. -/
def newestFirst (s : Store) (address : Address) : List AccountState :=
  (s.accounts.filter (·.address == address)).mergeSort fun a b => decide (b.lastTxLt ≤ a.lastTxLt)

/-- Listing the snapshots before a time is listing all of them and leaving the others out. -/
theorem statesBefore_eq_filter (s : Store) (address : Address) (beforeLt : UInt64) :
    s.statesBefore address beforeLt =
      (s.newestFirst address).filter fun a => decide (a.lastTxLt < beforeLt) := by
  rw [newestFirst, filter_mergeSort newer_trans newer_total, List.filter_filter, statesBefore]
  congr 2
  funext a
  exact Bool.and_comm _ _

theorem statesBefore_of_le (h : beforeLt ≤ loadedBefore) :
    s.statesBefore address beforeLt =
      (s.statesBefore address loadedBefore).filter fun a => decide (a.lastTxLt < beforeLt) := by
  rw [statesBefore_eq_filter, statesBefore_eq_filter, List.filter_filter]
  congr 1
  funext a
  by_cases hlt : a.lastTxLt < beforeLt
  · have hlt' : a.lastTxLt < loadedBefore := UInt64.lt_of_lt_of_le hlt h
    simp [hlt, hlt']
  · simp [hlt]

/-- The answer for an earlier time is found among the snapshots before a later one. -/
theorem stateBefore_of_le (h : beforeLt ≤ loadedBefore) :
    s.stateBefore address beforeLt =
      (s.statesBefore address loadedBefore).find? fun a => decide (a.lastTxLt < beforeLt) := by
  rw [stateBefore, statesBefore_of_le h, List.head?_filter]

end Store

namespace History

/-- The window answers as the store does, wherever it holds the answer. -/
def Faithful (h : History) (s : Store) (address : Address) : Prop :=
  ∀ beforeLt, h.covers beforeLt = true → h.find beforeLt = s.stateBefore address beforeLt

variable {s : Store} {depth : Nat} {address : Address} {beforeLt loadedBefore : UInt64}

theorem find_load (s : Store) (depth : Nat) (address : Address) (beforeLt loadedBefore : UInt64) :
    (load s depth address loadedBefore).find beforeLt =
      ((s.statesBefore address loadedBefore).take depth).find?
        fun a => decide (a.lastTxLt < beforeLt) := by
  simp only [find, load, List.reverse_reverse]

/-- A window that was loaded holds no wrong answers. -/
theorem faithful_load (s : Store) (depth : Nat) (address : Address) (loadedBefore : UInt64) :
    (load s depth address loadedBefore).Faithful s address := by
  intro beforeLt hcovers
  rw [covers, Bool.and_eq_true, decide_eq_true_eq] at hcovers
  obtain ⟨hle, hrest⟩ : beforeLt ≤ loadedBefore ∧ _ := hcovers
  rw [find_load, Store.stateBefore_of_le hle]
  rcases (Bool.or_eq_true _ _).mp hrest with hexhaustive | holdest
  · have hlen : ((s.statesBefore address loadedBefore).take depth).length < depth := by
      simpa [load] using hexhaustive
    rw [List.length_take] at hlen
    rw [List.take_of_length_le (by omega)]
  · -- the oldest snapshot of the window is an answer already
    rw [load, List.head?_reverse] at holdest
    obtain ⟨oldest, hlast, hlt⟩ := (Option.any_eq_true _ _).mp holdest
    have hmem := List.mem_of_getLast? hlast
    rw [← List.take_append_drop depth (s.statesBefore address loadedBefore), List.find?_append,
      List.take_append_drop]
    have hsome : (((s.statesBefore address loadedBefore).take depth).find?
        fun a => decide (a.lastTxLt < beforeLt)).isSome :=
      List.find?_isSome.2 ⟨oldest, hmem, hlt⟩
    rw [Option.or_of_isSome hsome]

/-- A window holds the answer that it was loaded for. -/
theorem find_load_self (hdepth : 1 ≤ depth) (s : Store) (address : Address) (beforeLt : UInt64) :
    (load s depth address beforeLt).find beforeLt = s.stateBefore address beforeLt := by
  rw [find_load, Store.stateBefore_of_le (UInt64.le_refl _)]
  have hall : ∀ a ∈ s.statesBefore address beforeLt, decide (a.lastTxLt < beforeLt) = true := by
    intro a ha
    rw [Store.statesBefore, List.mem_mergeSort, List.mem_filter, Bool.and_eq_true] at ha
    exact ha.2.2
  cases h : s.statesBefore address beforeLt with
  | nil => simp
  | cons a rest =>
    obtain ⟨n, rfl⟩ : ∃ n, depth = n + 1 := ⟨depth - 1, by omega⟩
    have ha := hall a (by simp [h])
    simp only [List.take_succ_cons, List.find?_cons, ha]

end History

namespace Table

variable {K V : Type} [DecidableEq K]

theorem get?_filter_key (keep : K → Bool) (k : K) : ∀ t : Table K V,
    get? (t.filter fun e => keep e.1) k = if keep k then get? t k else none
  | [] => by simp [get?]
  | (a, v) :: t => by
    have ih := get?_filter_key keep k t
    by_cases hak : a = k
    · subst hak
      by_cases hkeep : keep a = true
      · simp [hkeep, get?]
      · simp [hkeep, ih]
    · by_cases hkeep : keep a = true
      · simp [hkeep, get?, hak, ih]
      · simp [hkeep, get?, hak, ih]

end Table

namespace Snapshots

/-- What is left of windows when some of them got lost. -/
structure RestOf (c' c : Snapshots) : Prop where
  depth : c'.depth = c.depth
  windows : ∀ address h, c'.histories.get? address = some h → c.histories.get? address = some h

theorem windows_invalidate (c : Snapshots) (address a : Address) :
    (c.invalidate address).histories.get? a = if a = address then none else c.histories.get? a :=
  Table.get?_erase _ _ _

namespace RestOf

variable {c c' c'' : Snapshots}

theorem trans (h : c''.RestOf c') (h' : c'.RestOf c) : c''.RestOf c :=
  ⟨h.depth.trans h'.depth, fun address window hw => h'.windows address window (h.windows address window hw)⟩

theorem clear (c : Snapshots) : c.clear.RestOf c :=
  ⟨rfl, fun _ _ hw => by cases hw⟩

theorem forget (c : Snapshots) (address : Address) : (c.invalidate address).RestOf c := by
  refine ⟨rfl, fun a h hh => ?_⟩
  rw [windows_invalidate] at hh
  split at hh
  · cases hh
  · exact hh

theorem invalidate (rows : List AccountState) : ∀ c : Snapshots,
    (rows.foldl (fun c r => c.invalidate r.address) c).RestOf c ∧
      ∀ address h, (rows.foldl (fun c r => c.invalidate r.address) c).histories.get? address = some h →
        ∀ r ∈ rows, r.address ≠ address := by
  induction rows with
  | nil => exact fun c => ⟨⟨rfl, fun _ _ hw => hw⟩, by simp⟩
  | cons r rows ih =>
    intro c
    obtain ⟨hrest, hrows⟩ := ih (c.invalidate r.address)
    refine ⟨hrest.trans (forget c r.address), fun address h hh => ?_⟩
    have hfirst : r.address ≠ address := by
      rintro rfl
      have hwindow := hrest.windows r.address h hh
      rw [windows_invalidate, if_pos rfl] at hwindow
      cases hwindow
    exact List.forall_mem_cons.2 ⟨hfirst, hrows address h hh⟩

end RestOf

/-- A question is answered from a window that covers it, or a window is loaded for it. -/
theorem stateBefore_cases (c : Snapshots) (s : Store) (address : Address) (beforeLt : UInt64) :
    (∃ h, c.histories.get? address = some h ∧ h.covers beforeLt = true ∧
      c.stateBefore s address beforeLt = (h.find beforeLt, c)) ∨
    c.stateBefore s address beforeLt = ((History.load s c.depth address beforeLt).find beforeLt,
      { c with histories := c.histories.set address (History.load s c.depth address beforeLt) }) := by
  unfold stateBefore
  split
  · rename_i h hh
    obtain ⟨hget, hcovers⟩ := Option.filter_eq_some_iff.1 hh
    exact .inl ⟨h, hget, hcovers, rfl⟩
  · exact .inr rfl

/-- A window that was loaded to answer a question is about the account and the time that were asked for. -/
theorem windows_stateBefore (c : Snapshots) (s : Store) (address : Address) (beforeLt : UInt64) :
    (c.stateBefore s address beforeLt).2.depth = c.depth ∧
      ∀ a h, (c.stateBefore s address beforeLt).2.histories.get? a = some h →
        c.histories.get? a = some h ∨ a = address ∧ h = History.load s c.depth address beforeLt := by
  rcases c.stateBefore_cases s address beforeLt with ⟨_, -, -, heq⟩ | heq <;> rw [heq]
  · exact ⟨rfl, fun a h hh => .inl hh⟩
  · refine ⟨rfl, fun a h hh => ?_⟩
    dsimp only at hh
    rw [Table.get?_set] at hh
    split at hh
    · rename_i ha
      exact .inr ⟨ha, (Option.some.inj hh).symm⟩
    · exact .inl hh

/-- The answer is the one of the store as long as the account's window, if there is one, is faithful. -/
theorem stateBefore_of_faithful {c : Snapshots} {s : Store} {address : Address} (hdepth : 1 ≤ c.depth)
    (h : ∀ h, c.histories.get? address = some h → h.Faithful s address) (beforeLt : UInt64) :
    (c.stateBefore s address beforeLt).1 = s.stateBefore address beforeLt := by
  rcases c.stateBefore_cases s address beforeLt with ⟨w, hget, hcovers, heq⟩ | heq <;> rw [heq]
  · exact h w hget beforeLt hcovers
  · exact History.find_load_self hdepth s address beforeLt

/-- Every window is faithful, and windows that are loaded hold an answer at least. -/
structure Coherent (c : Snapshots) (s : Store) : Prop where
  depth : 1 ≤ c.depth
  faithful : ∀ address h, c.histories.get? address = some h → h.Faithful s address

namespace Coherent

variable {c : Snapshots} {s s' : Store}

theorem empty (depth : Nat) (s : Store) : (Snapshots.empty depth).Coherent s where
  depth := Nat.le_max_right _ _
  faithful address h hh := by cases hh

/-- Windows are about snapshots only. -/
theorem congr (hc : c.Coherent s) (hs : s'.accounts = s.accounts) : c.Coherent s' := by
  refine ⟨hc.depth, fun address history hh beforeLt hcovers => ?_⟩
  rw [hc.faithful address history hh beforeLt hcovers]
  simp only [Store.stateBefore, Store.statesBefore, hs]

/-- Windows may get lost. -/
theorem lose {c' : Snapshots} (hc : c.Coherent s) (hdepth : 1 ≤ c'.depth)
    (hsub : ∀ address h, c'.histories.get? address = some h → c.histories.get? address = some h) :
    c'.Coherent s where
  depth := hdepth
  faithful address h hh := hc.faithful address h (hsub address h hh)

theorem rest {c' : Snapshots} (hc : c.Coherent s) (h : c'.RestOf c) : c'.Coherent s :=
  hc.lose (h.depth ▸ hc.depth) h.windows

/-- Coherent windows answer as the store does, and stay coherent. -/
theorem stateBefore (hc : c.Coherent s) (address : Address) (beforeLt : UInt64) :
    (c.stateBefore s address beforeLt).1 = s.stateBefore address beforeLt ∧
      (c.stateBefore s address beforeLt).2.Coherent s := by
  obtain ⟨hdepth, hwindows⟩ := c.windows_stateBefore s address beforeLt
  refine ⟨stateBefore_of_faithful hc.depth (hc.faithful address) beforeLt, hdepth ▸ hc.depth, fun a h hh => ?_⟩
  rcases hwindows a h hh with hh | ⟨rfl, rfl⟩
  · exact hc.faithful a h hh
  · exact History.faithful_load s c.depth a beforeLt

/-- The windows of accounts whose snapshots were written are forgotten, so the others stay
coherent. -/
theorem write (hc : c.Coherent s) (rows : List AccountState)
    (hsame : ∀ address beforeLt, (∀ r ∈ rows, r.address ≠ address) →
      s'.stateBefore address beforeLt = s.stateBefore address beforeLt) :
    (rows.foldl (fun c r => c.invalidate r.address) c).Coherent s' := by
  obtain ⟨hrest, hrows⟩ := RestOf.invalidate rows c
  have hcoherent := hc.rest hrest
  refine ⟨hcoherent.depth, fun address h hh beforeLt hcovers => ?_⟩
  rw [hsame address beforeLt (hrows address h hh)]
  exact hcoherent.faithful address h hh beforeLt hcovers

end Coherent

end Snapshots

end ShardIndex
