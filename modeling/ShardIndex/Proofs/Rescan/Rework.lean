import ShardIndex.Proofs.Rescan.Answers
import ShardIndex.Proofs.Rescan.Commits
/-!
# Tables that a task is rewriting

A table has been rewritten up to a height if each row of a lower master block that the task bears on is an
image of what it was, and every other row is as it was (`Reworked`). Committing the changed rows of the
next window takes the height further (`Reworked.extend`), because rows keep their master blocks and are
read before they are rewritten. What a committed window does to the tables is said once for snapshots
(`accounts_committed`) and once for messages (`messages_committed`).
-/
namespace ShardIndex.Rescan

/-! ## Rewritten up to a height -/

section

variable {ρ : Type}

/-- The row belongs to a master block from `first` on, before `stop`. -/
def Between (height : ρ → Option UInt32) (first stop : Nat) (r : ρ) : Prop :=
  ∃ n, height r = some n ∧ first ≤ n.toNat ∧ n.toNat < stop

/-- What became of the row `a` once the master blocks before `stop` are rewritten. -/
structure Rewritten (height : ρ → Option UInt32) (selects : ρ → Prop) (image : ρ → ρ → Prop)
    (first stop : Nat) (a b : ρ) : Prop where
  covered : Between height first stop a → selects a → image a b
  other : ¬ (Between height first stop a ∧ selects a) → b = a

/-- The table once the master blocks before `stop` are rewritten. -/
def Reworked (height : ρ → Option UInt32) (selects : ρ → Prop) (image : ρ → ρ → Prop)
    (first stop : Nat) (original table : List ρ) : Prop :=
  ∃ g : ρ → ρ, table = original.map g ∧
    ∀ r ∈ original, Rewritten height selects image first stop r (g r)

namespace Reworked

variable {height : ρ → Option UInt32} {selects : ρ → Prop} {image : ρ → ρ → Prop}
  {first goal stop : Nat} {original table : List ρ}

theorem not_between_self (height : ρ → Option UInt32) (first : Nat) (r : ρ) :
    ¬ Between height first first r := by
  rintro ⟨n, -, hge, hlt⟩
  omega

theorem start (height : ρ → Option UInt32) (selects : ρ → Prop) (image : ρ → ρ → Prop) (first : Nat)
    (original : List ρ) : Reworked height selects image first first original original :=
  ⟨id, (List.map_id _).symm, fun r _ =>
    ⟨fun h => absurd h (not_between_self height first r), fun _ => rfl⟩⟩

theorem eq_of_empty (h : Reworked height selects image first first original table) :
    table = original := by
  obtain ⟨g, rfl, hg⟩ := h
  refine (List.map_congr_left fun r hr => ?_).trans (List.map_id _)
  exact (hg r hr).other fun h => not_between_self height first r h.1

/-- What images keep, the table keeps. -/
theorem map_eq (h : Reworked height selects image first stop original table) {κ : Type} {f : ρ → κ}
    (hf : ∀ a b, image a b → f b = f a) : table.map f = original.map f := by
  obtain ⟨g, rfl, hg⟩ := h
  rw [List.map_map]
  refine List.map_congr_left fun r hr => ?_
  by_cases hr' : Between height first stop r ∧ selects r
  · exact hf _ _ ((hg r hr).covered hr'.1 hr'.2)
  · exact congrArg f ((hg r hr).other hr')

/-- Two ways of rewriting the same rows compare row by row. -/
theorem forall₂ {other : List ρ} (h : Reworked height selects image first stop original table)
    (h' : Reworked height selects image first stop original other) {R : ρ → ρ → Prop}
    (hsame : ∀ r, R r r) (himage : ∀ r b b', Between height first stop r → image r b → image r b' → R b b') :
    List.Forall₂ R table other := by
  obtain ⟨g, rfl, hg⟩ := h
  obtain ⟨g', rfl, hg'⟩ := h'
  rw [List.forall₂_map_left_iff, List.forall₂_map_right_iff]
  refine List.forall₂_same.2 fun r hr => ?_
  by_cases hcovered : Between height first stop r ∧ selects r
  · exact himage r _ _ hcovered.1 ((hg r hr).covered hcovered.1 hcovered.2)
      ((hg' r hr).covered hcovered.1 hcovered.2)
  · rw [(hg r hr).other hcovered, (hg' r hr).other hcovered]
    exact hsame r

/-- Rewriting the rows of a window takes the height to the end of the window. -/
theorem extend (h : Reworked height selects image first stop original table)
    (hheight : ∀ a b, image a b → height b = height a) (hfirst : first ≤ stop) (hstop : stop ≤ goal)
    {p : ρ → Bool} (hp : ∀ r, p r = true ↔ Between height stop goal r ∧ selects r) {g : ρ → ρ}
    (hg : ∀ r ∈ table, p r = true → image r (g r)) :
    Reworked height selects image first goal original
      (table.map fun r => if p r then g r else r) := by
  obtain ⟨done, rfl, hdone⟩ := h
  refine ⟨fun r => if p (done r) then g (done r) else done r, by rw [List.map_map]; rfl, ?_⟩
  intro r hr
  dsimp only
  by_cases hbefore : Between height first stop r ∧ selects r
  · -- the row was rewritten before, and the window has gone past it
    have himage := (hdone r hr).covered hbefore.1 hbefore.2
    have hnot : ¬ p (done r) = true := by
      intro hpr
      obtain ⟨n, hn, hge, -⟩ := ((hp _).1 hpr).1
      obtain ⟨n', hn', -, hlt⟩ := hbefore.1
      rw [hheight _ _ himage, hn'] at hn
      obtain rfl := Option.some.inj hn
      omega
    rw [if_neg hnot]
    refine ⟨fun _ _ => himage, fun hno => absurd ?_ hno⟩
    obtain ⟨n, hn, hge, hlt⟩ := hbefore.1
    exact ⟨⟨n, hn, hge, by omega⟩, hbefore.2⟩
  · have hsame : done r = r := (hdone r hr).other hbefore
    rw [hsame]
    by_cases hnow : Between height stop goal r ∧ selects r
    · have hpr := (hp r).2 hnow
      have hmem : r ∈ original.map done := List.mem_map.2 ⟨r, hr, hsame⟩
      rw [if_pos hpr]
      refine ⟨fun _ _ => hg r hmem hpr, fun hno => absurd ?_ hno⟩
      obtain ⟨n, hn, hge, hlt⟩ := hnow.1
      exact ⟨⟨n, hn, by omega, hlt⟩, hnow.2⟩
    · rw [if_neg fun hpr => hnow ((hp r).1 hpr)]
      refine ⟨fun hb hs => absurd ?_ hbefore, fun _ => rfl⟩
      obtain ⟨n, hn, hge, hlt⟩ := hb
      have hbelow : n.toNat < stop := by
        by_contra hge'
        exact hnow ⟨⟨n, hn, by omega, hlt⟩, hs⟩
      exact ⟨⟨n, hn, hge, hbelow⟩, hs⟩

end Reworked

end

/-! ## Windows -/

variable {answers : Answers} {s : Store} {t : RescanTask} {start stop : UInt32}

/-- The snapshots that a window reads. -/
def picksAccount (f : AccountFilter) (start stop : UInt32) (a : AccountState) : Bool :=
  decide (start ≤ a.masterSeqno) && decide (a.masterSeqno ≤ stop) && f.selects a

/-- The messages that a window reads. -/
def picksMessage (f : MessageFilter) (start stop : UInt32) (m : Message) : Bool :=
  m.masterSeqno?.any (fun n => decide (start ≤ n) && decide (n ≤ stop)) && f.selects m

/-- The height of a snapshot. -/
def accountHeight (a : AccountState) : Option UInt32 :=
  some a.masterSeqno

/-- The master blocks of a window. -/
theorem between_iff {ρ : Type} {height : ρ → Option UInt32} {r : ρ} :
    Between height start.toNat (stop.toNat + 1) r ↔ ∃ n, height r = some n ∧ start ≤ n ∧ n ≤ stop := by
  refine exists_congr fun n => and_congr_right fun _ => ?_
  rw [UInt32.le_iff_toNat_le, UInt32.le_iff_toNat_le, Nat.lt_succ_iff]

theorem picksAccount_iff (f : AccountFilter) (start stop : UInt32) (a : AccountState) :
    picksAccount f start stop a = true ↔
      Between accountHeight start.toNat (stop.toNat + 1) a ∧ f.selects a = true := by
  simp only [picksAccount, Bool.and_eq_true, decide_eq_true_eq, between_iff, accountHeight,
    Option.some.injEq, exists_eq_left']

theorem picksMessage_iff (f : MessageFilter) (start stop : UInt32) (m : Message) :
    picksMessage f start stop m = true ↔
      Between Message.masterSeqno? start.toNat (stop.toNat + 1) m ∧ f.selects m = true := by
  simp only [picksMessage, Bool.and_eq_true, between_iff, Option.any_eq_true, decide_eq_true_eq]

/-- The snapshots after a window was committed. -/
theorem accounts_committed (hkeys : (s.accounts.map Store.accountKey).Nodup) {rows : List AccountState}
    (h : accountsImage answers s t start stop = .ok rows) :
    ∃ (i : Option ContractInterface) (g : AccountState → AccountState), interfaceOf s t = .ok i ∧
      (∀ r ∈ s.accounts, picksAccount (accountFilter t i) start stop r = true →
        accountImage answers s.labels t i r = .ok (g r)) ∧
      rows.foldl Store.putAccount s.accounts =
        s.accounts.map (fun r => if picksAccount (accountFilter t i) start stop r then g r else r) ∧
      ∀ r ∈ s.accounts, picksAccount (accountFilter t i) start stop r = true → g r ≠ r → g r ∈ rows := by
  obtain ⟨i, hi, h⟩ := exists_of_bind_eq_ok h
  obtain ⟨himage, rfl⟩ := changedRows_eq_ok h
  have hperm : (s.statesInRange (accountFilter t i) start stop).Perm
      (s.accounts.filter (picksAccount (accountFilter t i) start stop)) :=
    List.mergeSort_perm _ _
  have hread : ∀ r ∈ s.accounts, picksAccount (accountFilter t i) start stop r = true →
      r ∈ s.statesInRange (accountFilter t i) start stop :=
    fun r hr hp => hperm.mem_iff.2 (List.mem_filter.2 ⟨hr, hp⟩)
  refine ⟨i, imageOr (accountImage answers s.labels t i), hi, fun r hr hp => himage r (hread r hr hp),
    ?_, fun r hr hp hne => ?_⟩
  · refine Rows.foldl_changed (by simp [AccountState.sameKey, Store.accountKey, and_assoc]) _ _ hkeys
      hperm fun r hr hp => ?_
    have hchain := chain_of_accountImage (himage r (hread r hr hp))
    exact (congrArg Store.accountKey hchain :)
  · exact List.mem_map_of_mem (List.mem_filter.2 ⟨hread r hr hp, by simpa using hne⟩)

/-- The messages after the changed ones of a window were committed, whatever became of them. -/
theorem putMessages_changed {image : Message → Except Fault Message}
    (hchain : ∀ a b, image a = .ok b → b.chain = a.chain) (hkeys : (s.messages.map (·.hash)).Nodup)
    {f : MessageFilter} {rows : List Message}
    (h : changedRows image (s.messagesInRange f start stop) = .ok rows) :
    ∃ g : Message → Message,
      (∀ r ∈ s.messages, picksMessage f start stop r = true → image r = .ok (g r)) ∧
      rows.foldl Store.putMessage s.messages =
        s.messages.map (fun r => if picksMessage f start stop r then g r else r) := by
  obtain ⟨himage, rfl⟩ := changedRows_eq_ok h
  have hperm : (s.messagesInRange f start stop).Perm
      (s.messages.filter (picksMessage f start stop)) := List.mergeSort_perm _ _
  have hread : ∀ r ∈ s.messages, picksMessage f start stop r = true →
      r ∈ s.messagesInRange f start stop :=
    fun r hr hp => hperm.mem_iff.2 (List.mem_filter.2 ⟨hr, hp⟩)
  refine ⟨imageOr image, fun r hr hp => himage r (hread r hr hp), ?_⟩
  refine Rows.foldl_changed (by simp) _ _ hkeys hperm fun r hr hp => ?_
  exact (congrArg Message.hash (hchain _ _ (himage r (hread r hr hp))) :)

/-- The messages after a window was committed. -/
theorem messages_committed (hkeys : (s.messages.map (·.hash)).Nodup) {rows : List Message}
    (h : messagesImage answers s t start stop = .ok rows) :
    ∃ (f : MessageFilter) (g : Message → Message), messageFilter s t = .ok f ∧
      (∀ r ∈ s.messages, picksMessage f start stop r = true →
        messageImage answers s.labels t r = .ok (g r)) ∧
      rows.foldl Store.putMessage s.messages =
        s.messages.map (fun r => if picksMessage f start stop r then g r else r) := by
  obtain ⟨f, hf, h⟩ := exists_of_bind_eq_ok h
  obtain ⟨g, himage, htable⟩ := putMessages_changed (fun _ _ => chain_of_messageImage) hkeys h
  exact ⟨f, g, hf, himage, htable⟩

end ShardIndex.Rescan
