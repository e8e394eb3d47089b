import ShardIndex.Proofs.Forward.Sink
import ShardIndex.Proofs.Forward.Tables
/-!
# Batches that arrive

As the rest of the program sees it, the forward path commits batches for master blocks later than the last
committed one, with rows that are not stored yet (`Store.Arrival`). Such a batch appends rows to the tables,
all of later master blocks, and changes nothing that is there (`Store.Extends`).
-/
namespace ShardIndex

/-! ## Tables that grow -/

/-- Rows that satisfy `p` were appended to the table. -/
def Appended {ρ : Type} (p : ρ → Prop) (table table' : List ρ) : Prop :=
  ∃ new, table' = table ++ new ∧ ∀ r ∈ new, p r

namespace Appended

variable {ρ κ : Type} {p q : ρ → Prop} {table table' table'' : List ρ}

theorem refl (p : ρ → Prop) (table : List ρ) : Appended p table table :=
  ⟨[], (List.append_nil _).symm, by simp⟩

theorem trans (h : Appended p table table') (h' : Appended q table' table'')
    (hqp : ∀ r, q r → p r) : Appended p table table'' := by
  obtain ⟨new, rfl, hnew⟩ := h
  obtain ⟨new', rfl, hnew'⟩ := h'
  refine ⟨new ++ new', List.append_assoc _ _ _, fun r hr => ?_⟩
  exact (List.mem_append.1 hr).elim (hnew r) fun hr => hqp r (hnew' r hr)

theorem subset (h : Appended p table table') : table ⊆ table' := by
  obtain ⟨new, rfl, -⟩ := h
  exact List.subset_append_left _ _

theorem mem_or (h : Appended p table table') {r : ρ} (hr : r ∈ table') : r ∈ table ∨ p r := by
  obtain ⟨new, rfl, hnew⟩ := h
  exact (List.mem_append.1 hr).imp_right (hnew r)

end Appended

namespace Rows

variable {ρ κ : Type}

/-- Writing a row with `put` under a key that the first rows of a table do not have leaves these rows alone. -/
structure Appends (key : ρ → κ) (put : List ρ → ρ → List ρ) : Prop where
  append : ∀ table new row, (∀ r ∈ table, key r ≠ key row) → put (table ++ new) row = table ++ put new row
  mem : ∀ new row, ∀ r ∈ put new row, r = row ∨ r ∈ new

/-- Writing rows under keys that the table does not have appends them. -/
theorem Appends.appended {key : ρ → κ} {put : List ρ → ρ → List ρ} (h : Appends key put) {p : ρ → Prop}
    {table : List ρ} : ∀ {rows mid : List ρ}, Appended p table mid →
      (∀ row ∈ rows, (∀ r ∈ table, key r ≠ key row) ∧ p row) → Appended p table (rows.foldl put mid)
  | [], _, hmid, _ => hmid
  | row :: rows, _, ⟨new, rfl, hnew⟩, hrows => by
    obtain ⟨⟨hfresh, hrow⟩, hrest⟩ := List.forall_mem_cons.1 hrows
    rw [List.foldl_cons, h.append table new row hfresh]
    refine h.appended ⟨put new row, rfl, fun r hr => ?_⟩ hrest
    rcases h.mem new row r hr with rfl | hr
    · exact hrow
    · exact hnew r hr

variable {key : ρ → κ} {same : ρ → ρ → Bool} (hsame : ∀ row r, same row r = true ↔ key r = key row)

include hsame

theorem appends_replaceOrAppend : Appends key fun rows row => replaceOrAppend (same row) row rows where
  append table new row h := by
    induction table with
    | nil => rfl
    | cons r table ih =>
      obtain ⟨hr, htable⟩ := List.forall_mem_cons.1 h
      have hne : same row r ≠ true := fun e => hr ((hsame row r).1 e)
      simp only [List.cons_append, replaceOrAppend, if_neg hne]
      rw [ih htable]
  mem _ _ _ h := mem_of_mem_replaceOrAppend h

theorem appends_moveToEnd : Appends key fun rows row => moveToEnd (same row) row rows where
  append table new row h := by
    have hkept : table.filter (fun r => !same row r) = table := by
      refine List.filter_eq_self.2 fun r hr => ?_
      rw [Bool.not_eq_true', ← Bool.not_eq_true, hsame]
      exact h r hr
    rw [moveToEnd, moveToEnd, List.filter_append, hkept, List.append_assoc]
  mem new row r h := by
    rw [moveToEnd, List.mem_append, List.mem_singleton] at h
    exact h.symm.imp_right fun h => (List.mem_filter.1 h).1

end Rows

/-! ## Stores that grow -/

namespace Store

variable {s s' s'' : Store}

/-- The master block is later than the last committed one. -/
def Before (s : Store) (n : UInt32) : Prop :=
  ∀ b, s.lastMaster = some b → b.id.seqno < n

instance (s : Store) (n : UInt32) : Decidable (s.Before n) :=
  decidable_of_iff (s.lastMaster.all fun b => decide (b.id.seqno < n)) (by
    cases h : s.lastMaster <;> simp [Before, h])

/-- The committed history has not lost its end. -/
def LastGrows (s s' : Store) : Prop :=
  ∀ b, s.lastMaster = some b → ∃ b', s'.lastMaster = some b' ∧ b.id.seqno ≤ b'.id.seqno

theorem LastGrows.trans (h : s.LastGrows s') (h' : s'.LastGrows s'') : s.LastGrows s'' := by
  intro b hb
  obtain ⟨b', hb', hle⟩ := h b hb
  obtain ⟨b'', hb'', hle'⟩ := h' b' hb'
  exact ⟨b'', hb'', UInt32.le_trans hle hle'⟩

/-- What is later than the last block is later than it was. -/
theorem LastGrows.before (h : s.LastGrows s') {n : UInt32} (hn : s'.Before n) : s.Before n := by
  intro b hb
  obtain ⟨b', hb', hle⟩ := h b hb
  exact UInt32.lt_of_le_of_lt hle (hn b' hb')

theorem lastGrows_of_subset (h : s.blocks ⊆ s'.blocks) : s.LastGrows s' := by
  intro b hb
  have hmem := (lastGreatest_spec (fun _ _ => UInt32.lt_iff_toNat_lt) hb).1
  have hmem' : b ∈ s'.blocks.filter (·.isMasterchain) := by
    obtain ⟨hb, hmaster⟩ := List.mem_filter.1 hmem
    exact List.mem_filter.2 ⟨h hb, hmaster⟩
  cases hlast : s'.lastMaster with
  | none =>
    rw [lastMaster, lastGreatest_eq_none] at hlast
    rw [hlast] at hmem'
    cases hmem'
  | some b' =>
    refine ⟨b', rfl, UInt32.le_iff_toNat_le.2 ?_⟩
    exact (lastGreatest_spec (fun _ _ => UInt32.lt_iff_toNat_lt) hlast).2 b hmem'

/-- Rows of later master blocks were appended, and nothing else has happened to the tables. -/
structure Extends (s s' : Store) : Prop where
  blocks : Appended (fun b : Block => s.Before b.masterSeqno) s.blocks s'.blocks
  transactions : Appended (fun t : Transaction => s.Before t.masterSeqno) s.transactions s'.transactions
  accounts : Appended (fun a : AccountState => s.Before a.masterSeqno) s.accounts s'.accounts
  messages : Appended (fun m : Message => ∀ n, m.masterSeqno? = some n → s.Before n)
    s.messages s'.messages
  tasks : s'.tasks = s.tasks

namespace Extends

theorem of_same (hblocks : s'.blocks = s.blocks) (htransactions : s'.transactions = s.transactions)
    (haccounts : s'.accounts = s.accounts) (hmessages : s'.messages = s.messages)
    (htasks : s'.tasks = s.tasks) : s.Extends s' := by
  refine ⟨?_, ?_, ?_, ?_, htasks⟩
  · rw [hblocks]
    exact .refl _ _
  · rw [htransactions]
    exact .refl _ _
  · rw [haccounts]
    exact .refl _ _
  · rw [hmessages]
    exact .refl _ _

theorem refl (s : Store) : s.Extends s :=
  .of_same rfl rfl rfl rfl rfl

theorem lastGrows (h : s.Extends s') : s.LastGrows s' :=
  lastGrows_of_subset h.blocks.subset

theorem trans (h : s.Extends s') (h' : s'.Extends s'') : s.Extends s'' where
  blocks := h.blocks.trans h'.blocks fun _ hb => h.lastGrows.before hb
  transactions := h.transactions.trans h'.transactions fun _ ht => h.lastGrows.before ht
  accounts := h.accounts.trans h'.accounts fun _ ha => h.lastGrows.before ha
  messages := h.messages.trans h'.messages fun _ hm n hn => h.lastGrows.before (hm n hn)
  tasks := h'.tasks.trans h.tasks

end Extends

end Store

/-! ## Batches -/

/-- The rows of the write are of later master blocks, and under keys that the store does not have. -/
def Write.New (s : Store) : Write → Prop
  | .blocks rows => ∀ b ∈ rows, (∀ old ∈ s.blocks, old.id ≠ b.id) ∧ s.Before b.masterSeqno
  | .accounts rows => ∀ a ∈ rows,
      (∀ old ∈ s.accounts, Store.accountKey old ≠ Store.accountKey a) ∧ s.Before a.masterSeqno
  | .messages rows => ∀ m ∈ rows,
      (∀ old ∈ s.messages, old.hash ≠ m.hash) ∧ ∀ n, m.masterSeqno? = some n → s.Before n
  | .transactions rows => ∀ t ∈ rows, (∀ old ∈ s.transactions, old.hash ≠ t.hash) ∧ s.Before t.masterSeqno
  | .task _ => False

instance (s : Store) : ∀ w : Write, Decidable (w.New s)
  | .blocks _ | .accounts _ | .transactions _ => inferInstanceAs (Decidable (∀ _ ∈ _, _ ∧ _))
  | .messages rows => decidable_of_iff (∀ m ∈ rows, (∀ old ∈ s.messages, old.hash ≠ m.hash) ∧
      m.masterSeqno?.all (fun n => decide (s.Before n)) = true) (by simp [Write.New, Option.all_eq_true])
  | .task _ => inferInstanceAs (Decidable False)

namespace Store

/-- The writes of a batch of the forward path for later master blocks, whose rows are not stored yet. -/
def Arrival (s : Store) (ws : List Write) : Prop :=
  ∀ w ∈ ws, w.New s

instance (s : Store) (ws : List Write) : Decidable (s.Arrival ws) :=
  inferInstanceAs (Decidable (∀ _ ∈ _, _))

variable {s : Store}

theorem appends_putBlock : Rows.Appends (fun b : Block => b.id) putBlock :=
  Rows.appends_moveToEnd fun _ _ => beq_iff_eq

theorem appends_putTransaction : Rows.Appends (fun t : Transaction => t.hash) putTransaction :=
  Rows.appends_moveToEnd fun _ _ => beq_iff_eq

theorem appends_putMessage : Rows.Appends (fun m : Message => m.hash) putMessage :=
  Rows.appends_replaceOrAppend fun _ _ => beq_iff_eq

theorem appends_putAccount : Rows.Appends accountKey putAccount :=
  Rows.appends_replaceOrAppend fun _ _ => by simp [AccountState.sameKey, accountKey, and_assoc]

/-- Each write of the batch goes by what was stored before the batch. -/
theorem Extends.write {mid : Store} (h : s.Extends mid) {w : Write} (hw : w.New s) :
    s.Extends (mid.write w) := by
  cases w with
  | blocks rows =>
    exact ⟨appends_putBlock.appended h.blocks hw, h.transactions, h.accounts, h.messages, h.tasks⟩
  | accounts rows =>
    exact ⟨h.blocks, h.transactions, appends_putAccount.appended h.accounts hw, h.messages, h.tasks⟩
  | messages rows =>
    exact ⟨h.blocks, h.transactions, h.accounts, appends_putMessage.appended h.messages hw, h.tasks⟩
  | transactions rows =>
    exact ⟨h.blocks, appends_putTransaction.appended h.transactions hw, h.accounts, h.messages, h.tasks⟩
  | task row => exact hw.elim

theorem Extends.writes : ∀ {ws : List Write} {mid : Store}, s.Extends mid → (∀ w ∈ ws, w.New s) →
    s.Extends (ws.foldl Store.write mid)
  | [], _, h, _ => h
  | _ :: _, _, h, hws => (h.write (List.forall_mem_cons.1 hws).1).writes (List.forall_mem_cons.1 hws).2

/-- A batch that arrives is committed without touching what is stored, or refused. -/
theorem Arrival.extended {ws : List Write} (h : s.Arrival ws) : s.Extends (s.commit ws).2 := by
  unfold commit
  cases s.refusals with
  | succ n => exact .of_same rfl rfl rfl rfl rfl
  | zero =>
    have hwritten := (Extends.refl s).writes h
    unfold logCommit
    dsimp only
    split
    · exact hwritten
    · exact ⟨hwritten.blocks, hwritten.transactions, hwritten.accounts, hwritten.messages, hwritten.tasks⟩

end Store

end ShardIndex
