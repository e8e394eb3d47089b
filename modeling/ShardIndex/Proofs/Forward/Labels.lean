import Mathlib.Data.List.Pairwise
import ShardIndex.Proofs.Forward.Holdings
/-!
# Labels of committed senders

A message carries the first label of its sender's account. Once the outbound record is gone, the label
has to be found again among the committed snapshots: the store takes the earliest snapshot of the
account that is not before the sending transaction. `SnapshotHistory` says how the snapshots of a
history come about, and `labelOf_eq` that the store then finds the snapshot of the transaction's own
block, whatever was committed after it. So nothing of a record is lost as long as no account is gone after
a block (`LabelledHistory.recovers_id`).
-/
namespace ShardIndex

open Message Bundles

namespace Bundles

/-- The blocks of all bundles with the snapshots taken of them. -/
def blockRecords (P : List MasterBundle) : List BlockRecord :=
  P.flatMap (·.records)

theorem transactions_eq (P : List MasterBundle) :
    transactions P = (blockRecords P).flatMap (·.block.transactions) := by
  simp [transactions, blockRecords, MasterBundle.transactions, List.flatMap_assoc]

theorem accounts_eq (P : List MasterBundle) :
    accounts P = (blockRecords P).flatMap (·.accounts) := by
  simp [accounts, blockRecords, MasterBundle.accounts, List.flatMap_assoc]

theorem accounts_sublist {P Q : List MasterBundle} (h : P.Sublist Q) :
    (accounts P).Sublist (accounts Q) :=
  h.flatMap _

end Bundles

/-- The last transaction of an account in a block. -/
def BlockRecord.lastOf (r : BlockRecord) (address : Address) : Option Transaction :=
  (r.block.transactions.filter fun t => t.address == address).getLast?

/-- The snapshot was taken after the last transaction of the account in the block. -/
def BlockRecord.Shows (r : BlockRecord) (a : AccountState) : Prop :=
  (r.lastOf a.address).map (·.lt) = some a.lastTxLt

/-- How snapshots and labels of a history come about. -/
structure LabelledHistory (H : List MasterBundle) : Prop where
  /-- The logical times of an account increase. -/
  increasing : (transactions H).Pairwise fun t u => t.address = u.address → t.lt < u.lt
  /-- A block has a snapshot of every account with a transaction in it. -/
  snapshot : ∀ r ∈ blockRecords H, ∀ t ∈ r.block.transactions, ∃ a ∈ r.accounts, a.address = t.address
  /-- It has one snapshot of an account. -/
  nodup : ∀ r ∈ blockRecords H, (r.accounts.map (·.address)).Nodup
  /-- A snapshot is taken after the last transaction of the account in the block. -/
  last : ∀ r ∈ blockRecords H, ∀ a ∈ r.accounts, (r.lastOf a.address).map (·.lt) = some a.lastTxLt
  /-- The messages of a transaction carry the first label of the snapshot. -/
  labelled : ∀ r ∈ blockRecords H, ∀ t ∈ r.block.transactions, ∀ a ∈ r.accounts,
    a.address = t.address → t.labelMessages a.types.head? = t

/-- The same where accounts may be gone after a block. The snapshot of such an account may show any time
before its transactions. -/
structure SnapshotHistory (H : List MasterBundle) : Prop where
  increasing : (transactions H).Pairwise fun t u => t.address = u.address → t.lt < u.lt
  snapshot : ∀ r ∈ blockRecords H, ∀ t ∈ r.block.transactions, ∃ a ∈ r.accounts, a.address = t.address
  nodup : ∀ r ∈ blockRecords H, (r.accounts.map (·.address)).Nodup
  last : ∀ r ∈ blockRecords H, ∀ a ∈ r.accounts, r.Shows a ∨
    a.status = .nonexistent ∧ ∀ t ∈ transactions H, t.address = a.address → a.lastTxLt < t.lt
  labelled : ∀ r ∈ blockRecords H, ∀ t ∈ r.block.transactions, ∀ a ∈ r.accounts,
    a.address = t.address → t.labelMessages a.types.head? = t

theorem LabelledHistory.snapshots {H : List MasterBundle} (hL : LabelledHistory H) : SnapshotHistory H :=
  ⟨hL.increasing, hL.snapshot, hL.nodup, fun r hr a ha => .inl (hL.last r hr a ha), hL.labelled⟩

/-- Two members of a list whose order shows are equal or ordered. -/
theorem eq_or_rel_of_pairwise {α : Type} {R : α → α → Prop} {l : List α} (h : l.Pairwise R) {a b : α}
    (ha : a ∈ l) (hb : b ∈ l) : a = b ∨ R a b ∨ R b a := by
  induction h with
  | nil => cases ha
  | cons hx _ ih =>
    rcases List.mem_cons.1 ha with ea | ha'
    · rcases List.mem_cons.1 hb with eb | hb'
      · exact .inl (ea.trans eb.symm)
      · exact .inr (.inl (ea ▸ hx b hb'))
    · rcases List.mem_cons.1 hb with eb | hb'
      · exact .inr (.inr (eb ▸ hx a ha'))
      · exact ih ha' hb'

namespace SnapshotHistory

variable {H P : List MasterBundle} (hS : SnapshotHistory H)

include hS

theorem blocks_increase : (blockRecords H).Pairwise fun r r' =>
    ∀ t ∈ r.block.transactions, ∀ u ∈ r'.block.transactions, t.address = u.address → t.lt < u.lt := by
  have h := hS.increasing
  rw [transactions_eq, List.pairwise_flatMap] at h
  exact h.2

theorem shows_of_exists {r : BlockRecord} (hr : r ∈ blockRecords H) {a : AccountState}
    (ha : a ∈ r.accounts) (hexists : a.status ≠ .nonexistent) : r.Shows a :=
  (hS.last r hr a ha).resolve_right fun h => hexists h.1

/-- A transaction is in one block only. -/
theorem block_unique {r r' : BlockRecord} (hr : r ∈ blockRecords H) (hr' : r' ∈ blockRecords H)
    {t : Transaction} (ht : t ∈ r.block.transactions) (ht' : t ∈ r'.block.transactions) : r = r' := by
  rcases eq_or_rel_of_pairwise hS.blocks_increase hr hr' with h | h | h
  · exact h
  · exact absurd (h t ht t ht' rfl) (UInt64.lt_irrefl _)
  · exact absurd (h t ht' t ht rfl) (UInt64.lt_irrefl _)

/-- A snapshot shows the time of a transaction of its block, and no transaction of the account in the
block is later. -/
theorem exists_last {r : BlockRecord} (hr : r ∈ blockRecords H) {a : AccountState} (hshows : r.Shows a) :
    ∃ u ∈ r.block.transactions, u.address = a.address ∧ u.lt = a.lastTxLt ∧
      ∀ t ∈ r.block.transactions, t.address = a.address → t.lt ≤ a.lastTxLt := by
  obtain ⟨u, hu, hlt⟩ := Option.map_eq_some_iff.1 hshows
  have hmem := List.mem_filter.1 (List.mem_of_getLast? hu)
  have hua : u.address = a.address := by simpa using hmem.2
  refine ⟨u, hmem.1, hua, hlt, ?_⟩
  intro t ht haddr
  have hincr := hS.increasing
  rw [transactions_eq, List.pairwise_flatMap] at hincr
  have hfilter := (hincr.1 r hr).filter fun t => t.address == a.address
  obtain ⟨front, hfront⟩ := List.getLast?_eq_some_iff.1 hu
  have htf : t ∈ front ++ [u] := by
    rw [← hfront]
    exact List.mem_filter.2 ⟨ht, by simpa using haddr⟩
  rw [hfront, List.pairwise_append] at hfilter
  rcases List.mem_append.1 htf with htf | htf
  · have := hfilter.2.2 t htf u (List.mem_singleton.2 rfl) (haddr.trans hua.symm)
    rw [← hlt]
    exact UInt64.le_of_lt this
  · rw [List.mem_singleton.1 htf, hlt]
    exact UInt64.le_refl _

/-- A snapshot that is not before a transaction of its account shows a transaction itself. -/
theorem shows_of_le {r : BlockRecord} (hr : r ∈ blockRecords H) {x : AccountState} (hx : x ∈ r.accounts)
    {t : Transaction} (ht : t ∈ transactions H) (hxt : x.address = t.address) (hle : t.lt ≤ x.lastTxLt) :
    r.Shows x :=
  (hS.last r hr x hx).resolve_right fun h => UInt64.not_lt.2 hle (h.2 t ht hxt.symm)

/-- Among the snapshots of an account, none comes between a transaction and the snapshot of its block. -/
theorem eq_or_later {r : BlockRecord} (hr : r ∈ blockRecords H) {t : Transaction}
    (ht : t ∈ r.block.transactions) {a x : AccountState} (ha : a ∈ r.accounts) (hshows : r.Shows a)
    (hat : a.address = t.address) (hx : x ∈ accounts H) (hxt : x.address = t.address)
    (hle : t.lt ≤ x.lastTxLt) : x = a ∨ a.lastTxLt < x.lastTxLt := by
  rw [accounts_eq] at hx
  obtain ⟨r', hr', hx⟩ := List.mem_flatMap.1 hx
  have htH : t ∈ transactions H := by
    rw [transactions_eq]
    exact List.mem_flatMap.2 ⟨r, hr, ht⟩
  obtain ⟨u', hu', hua', hlt', -⟩ := hS.exists_last hr' (hS.shows_of_le hr' hx htH hxt hle)
  obtain ⟨u, hu, hua, hlt, -⟩ := hS.exists_last hr hshows
  rcases eq_or_rel_of_pairwise hS.blocks_increase hr hr' with rfl | hbefore | hafter
  · exact .inl (List.inj_on_of_nodup_map (hS.nodup r hr) hx ha (hxt.trans hat.symm))
  · right
    rw [← hlt, ← hlt']
    exact hbefore u hu u' hu' (by rw [hua, hua', hat, hxt])
  · have hlt := hafter u' hu' t ht (hua'.trans hxt)
    rw [hlt'] at hlt
    exact absurd hlt (UInt64.not_lt.2 hle)

/-- A snapshot of an account that is not after a transaction is the one of the transaction's block, or
before every transaction of the account in that block. -/
theorem eq_or_older {r : BlockRecord} (hr : r ∈ blockRecords H) {t : Transaction}
    (ht : t ∈ r.block.transactions) {a x : AccountState} (ha : a ∈ r.accounts)
    (hat : a.address = t.address) (hx : x ∈ accounts H) (hxt : x.address = t.address)
    (hle : x.lastTxLt ≤ t.lt) :
    x = a ∨ ∀ u ∈ r.block.transactions, u.address = t.address → x.lastTxLt < u.lt := by
  rw [accounts_eq] at hx
  obtain ⟨r', hr', hx⟩ := List.mem_flatMap.1 hx
  rcases hS.last r' hr' x hx with hshows | ⟨-, hbefore⟩
  · obtain ⟨u', hu', hua', hlt', -⟩ := hS.exists_last hr' hshows
    rcases eq_or_rel_of_pairwise hS.blocks_increase hr hr' with rfl | hafter | hbefore
    · exact .inl (List.inj_on_of_nodup_map (hS.nodup r hr) hx ha (hxt.trans hat.symm))
    · have hlt := hafter t ht u' hu' (hxt.symm.trans hua'.symm)
      rw [hlt'] at hlt
      exact absurd hlt (UInt64.not_lt.2 hle)
    · right
      intro u hu hut
      rw [← hlt']
      exact hbefore u' hu' u hu (by rw [hua', hxt, hut])
  · right
    intro u hu hut
    refine hbefore u ?_ (hut.trans hxt.symm)
    rw [transactions_eq]
    exact List.mem_flatMap.2 ⟨r, hr, hu⟩

/-- A snapshot that shows a transaction is the only one with its account and its time. -/
theorem snapshot_inj {r : BlockRecord} (hr : r ∈ blockRecords H) {a x : AccountState} (ha : a ∈ r.accounts)
    (hshows : r.Shows a) (hx : x ∈ accounts H) (haddr : x.address = a.address)
    (hlt : x.lastTxLt = a.lastTxLt) : x = a := by
  obtain ⟨u, hu, hua, hult, -⟩ := hS.exists_last hr hshows
  have hle : u.lt ≤ x.lastTxLt := by
    rw [hult, hlt]
    exact UInt64.le_refl _
  rcases hS.eq_or_later hr hu ha hshows hua.symm hx (haddr.trans hua.symm) hle with h | h
  · exact h
  · rw [hlt] at h
    exact absurd h (UInt64.lt_irrefl _)

/-- The store has the snapshots of its bundles that show a transaction. -/
theorem mem_store (hP : P.Sublist H) {s : Store} (hs : s.Tables P) {r : BlockRecord}
    (hr : r ∈ blockRecords P) {a : AccountState} (ha : a ∈ r.accounts) (hshows : r.Shows a) :
    a ∈ s.accounts := by
  have haP : a ∈ accounts P := by
    rw [accounts_eq]
    exact List.mem_flatMap.2 ⟨r, hr, ha⟩
  rw [hs.accounts]
  refine (Store.keeps_putAccount.mem_foldl ?_).2 haP
  intro x hx hkey
  simp only [Store.accountKey, Prod.mk.injEq] at hkey
  exact hS.snapshot_inj ((hP.flatMap _).subset hr) ha hshows ((accounts_sublist hP).subset hx) hkey.1
    hkey.2.1

/-- The store finds the snapshot of the block that a transaction is in. -/
theorem labelOf_eq (hP : P.Sublist H) {s : Store} (hs : s.Tables P) {r : BlockRecord}
    (hr : r ∈ blockRecords P) {t : Transaction} (ht : t ∈ r.block.transactions) {a : AccountState}
    (ha : a ∈ r.accounts) (haddr : a.address = t.address) (hshows : r.Shows a) :
    s.labelOf t = a.types.head? := by
  have hrH : r ∈ blockRecords H := (hP.flatMap _).subset hr
  have hstored := hS.mem_store hP hs hr ha hshows
  obtain ⟨-, -, -, -, hlast⟩ := hS.exists_last hrH hshows
  have hlater : a ∈ s.accounts.filter fun x =>
      x.address == t.address && decide (t.lt ≤ x.lastTxLt) := by
    refine List.mem_filter.2 ⟨hstored, ?_⟩
    simp [haddr, hlast t ht haddr.symm]
  unfold Store.labelOf
  cases hf : firstLeast (·.lastTxLt) (s.accounts.filter fun x =>
      x.address == t.address && decide (t.lt ≤ x.lastTxLt)) with
  | none =>
    rw [firstLeast_eq_none.1 hf] at hlater
    cases hlater
  | some b =>
    obtain ⟨hb, hleast⟩ := firstLeast_spec (fun _ _ => UInt64.lt_iff_toNat_lt) hf
    obtain ⟨hbs, hbt⟩ := List.mem_filter.1 hb
    have hbH : b ∈ accounts H := by
      rw [hs.accounts] at hbs
      exact (accounts_sublist hP).subset (Store.keeps_putAccount.mem_of_mem_foldl hbs)
    simp only [Bool.and_eq_true, beq_iff_eq, decide_eq_true_eq] at hbt
    rcases hS.eq_or_later hrH ht ha hshows haddr hbH hbt.1 hbt.2 with rfl | hlt
    · rfl
    · have := hleast a hlater
      have := UInt64.lt_iff_toNat_lt.1 hlt
      omega

/-- The messages of a transaction carry the first label of its account's snapshot. -/
theorem label_of_outMessage {r : BlockRecord} (hr : r ∈ blockRecords H) {t : Transaction}
    (ht : t ∈ r.block.transactions) {a : AccountState} (ha : a ∈ r.accounts) (haddr : a.address = t.address)
    {o : Message} (ho : o ∈ t.outMessages) : o.source.contract = a.types.head? := by
  have hsame := congrArg Transaction.outMessages (hS.labelled r hr t ht a ha haddr)
  have ho' := List.map_inj_left.1 (hsame.trans (List.map_id _).symm) o ho
  exact (congrArg (fun m => m.source.contract) ho').symm

end SnapshotHistory

/-- What history knows of a source is the record, but for the label that the store finds. -/
theorem recover_eq_relabel {H : List MasterBundle} (hH : BundleHistory H) {c : Nat} {s : Store}
    {i o : Message} (hs : s.Tables (H.take c)) (hi : i ∈ inbound H) (ho : o ∈ outbound (H.take c))
    (he : o.hash = i.hash) :
    ∃ t ∈ transactions (H.take c), o ∈ t.outMessages ∧ (complete H i).source.tx = some t.ref ∧
      (complete H i).source.contract = o.source.contract ∧
      Linker.recover s.findSource i = (complete H i).relabel .outgoing (s.labelOf t) := by
  have hP := List.take_sublist c H
  obtain ⟨t, ht, hot, hsrc⟩ := hs.findSource_eq_some hH ho
  obtain ⟨htx, -, hcontract⟩ := (hH.mapped ((transactions_sublist hP).subset ht)).outgoing o hot
  obtain ⟨u, hu, hiu, -⟩ := (hH.mem_inbound (.refl H)).1 hi
  obtain ⟨hnone, hnolabel, hdst⟩ := (hH.mapped hu).incoming i hiu
  rw [he] at hsrc
  rw [hH.complete_of_mem ((outbound_sublist hP).subset ho) he]
  have hside : i.destination.fillFrom o.destination = i.destination := by
    have heta : (⟨i.destination.address, some u.ref, i.destination.contract⟩ : Side) = i.destination := by
      rw [← hdst]
    simp [Side.fillFrom, hdst, hcontract, heta]
  refine ⟨t, ht, hot, ?_, ?_, ?_⟩
  · simp [fillFrom, Side.fillFrom, hnone, htx]
  · simp [fillFrom, Side.fillFrom, hnolabel]
  · simp only [Linker.recover, hsrc, Option.elim, Linker.withSource, fillFrom, hside, Message.relabel]
    simp [Side.fillFrom, hnone, hnolabel, htx]

/-- Nothing of a record is lost by committing it. -/
theorem LabelledHistory.recovers_id {H : List MasterBundle} (hL : LabelledHistory H)
    (hH : BundleHistory H) : Recovers id H where
  hash _ := rfl
  recovered := by
    intro c s i o hs hi ho he
    have hP := List.take_sublist c H
    have hS := hL.snapshots
    obtain ⟨t, ht, hot, -, hcontract, hrecover⟩ := recover_eq_relabel hH hs hi ho he
    rw [transactions_eq] at ht
    obtain ⟨r, hr, htr⟩ := List.mem_flatMap.1 ht
    have hrH : r ∈ blockRecords H := (hP.flatMap _).subset hr
    obtain ⟨a, ha, haddr⟩ := hL.snapshot r hrH t htr
    rw [hrecover, hS.labelOf_eq hP hs hr htr ha haddr (hL.last r hrH a ha),
      ← hS.label_of_outMessage hrH htr ha haddr hot, ← hcontract]
    rfl

theorem labelledHistory_sample : LabelledHistory Sample.history where
  increasing := by decide
  snapshot := by decide +kernel
  nodup := by decide +kernel
  last := by decide +kernel
  labelled := by decide +kernel

end ShardIndex
