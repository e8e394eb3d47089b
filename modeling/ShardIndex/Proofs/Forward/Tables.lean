import ShardIndex.Proofs.Forward.History
import ShardIndex.Proofs.Store.Rows
/-!
# What the store knows of committed bundles

`Store.Tables s P` says that the blocks, snapshots and transactions of the store are those of the
bundles `P`, written in order. How the commits split `P` does not show.

The forward path asks the store three things, and all three answers follow from `P`:

* `firstMaster` and `lastMaster` are the ends of `P` (`startLt_firstMaster`, `seqno_lastMaster`);
* `findSource` finds the sender of a message exactly if `P` has an outbound record of it
  (`findSource_eq_none`, `findSource_eq_some`).
-/
namespace ShardIndex

open Message Bundles

/-! ## Least and greatest rows -/

section extremes

/-- Folding a choice between two rows arrives at a row that comes before all others. -/
theorem foldl_choice_spec {ρ : Type} {R : ρ → ρ → Prop} {choose : ρ → ρ → ρ}
    (hrefl : ∀ a, R a a) (htrans : ∀ {a b c}, R a b → R b c → R a c)
    (hchoose : ∀ a b, (choose a b = a ∨ choose a b = b) ∧
      R (choose a b) a ∧ R (choose a b) b) :
    ∀ (rows : List ρ) (r : ρ),
      rows.foldl choose r ∈ r :: rows ∧ ∀ x ∈ r :: rows, R (rows.foldl choose r) x
  | [], r => by
    refine ⟨List.mem_cons_self, ?_⟩
    intro x hx
    rw [List.mem_singleton.1 hx]
    exact hrefl r
  | y :: rows, r => by
    obtain ⟨hmem, hbound⟩ := foldl_choice_spec hrefl htrans hchoose rows (choose r y)
    obtain ⟨hone, hr, hy⟩ := hchoose r y
    have hfirst := hbound _ List.mem_cons_self
    rw [List.foldl_cons]
    refine ⟨?_, ?_⟩
    · rcases List.mem_cons.1 hmem with e | hmem
      · rw [e]
        rcases hone with h | h <;> simp [h]
      · exact List.mem_cons_of_mem _ (List.mem_cons_of_mem _ hmem)
    · intro x hx
      rcases List.mem_cons.1 hx with rfl | hx
      · exact htrans hfirst hr
      · rcases List.mem_cons.1 hx with rfl | hx
        · exact htrans hfirst hy
        · exact hbound x (List.mem_cons_of_mem _ hx)

variable {ρ κ : Type} [LT κ] [DecidableRel (α := κ) (· < ·)] {key : ρ → κ} {val : κ → Nat}

theorem firstLeast_spec (hval : ∀ a b, a < b ↔ val a < val b) {rows : List ρ} {r : ρ}
    (h : firstLeast key rows = some r) : r ∈ rows ∧ ∀ x ∈ rows, val (key r) ≤ val (key x) := by
  cases rows with
  | nil => simp [firstLeast] at h
  | cons x rows =>
    obtain rfl := Option.some.inj h
    refine foldl_choice_spec (R := fun a b => val (key a) ≤ val (key b)) (fun a => Nat.le_refl _)
      Nat.le_trans ?_ rows x
    intro a b
    by_cases hab : key b < key a
    · have := (hval _ _).1 hab
      rw [if_pos hab]
      exact ⟨.inr rfl, by omega, Nat.le_refl _⟩
    · have := mt (hval _ _).2 hab
      rw [if_neg hab]
      exact ⟨.inl rfl, Nat.le_refl _, by omega⟩

theorem lastGreatest_spec (hval : ∀ a b, a < b ↔ val a < val b) {rows : List ρ} {r : ρ}
    (h : lastGreatest key rows = some r) : r ∈ rows ∧ ∀ x ∈ rows, val (key x) ≤ val (key r) := by
  cases rows with
  | nil => simp [lastGreatest] at h
  | cons x rows =>
    obtain rfl := Option.some.inj h
    refine foldl_choice_spec (R := fun a b => val (key b) ≤ val (key a)) (fun a => Nat.le_refl _)
      (fun hab hbc => Nat.le_trans hbc hab) ?_ rows x
    intro a b
    by_cases hab : key b < key a
    · have := (hval _ _).1 hab
      rw [if_pos hab]
      exact ⟨.inl rfl, Nat.le_refl _, by omega⟩
    · have := mt (hval _ _).2 hab
      rw [if_neg hab]
      exact ⟨.inr rfl, by omega, Nat.le_refl _⟩

theorem firstLeast_eq_none {rows : List ρ} : firstLeast key rows = none ↔ rows = [] := by
  cases rows <;> simp [firstLeast]

theorem lastGreatest_eq_none {rows : List ρ} : lastGreatest key rows = none ↔ rows = [] := by
  cases rows <;> simp [lastGreatest]

end extremes

/-! ## Tables written from bundles -/

namespace Bundles

/-- The blocks of all bundles as they are committed. -/
def blocks (P : List MasterBundle) : List Block :=
  P.flatMap fun b => b.records.map (·.block.headerOnly)

/-- The snapshots of all bundles. -/
def accounts (P : List MasterBundle) : List AccountState :=
  P.flatMap (·.accounts)

@[simp] theorem blocks_append (P Q : List MasterBundle) : blocks (P ++ Q) = blocks P ++ blocks Q := by
  simp [blocks]

@[simp] theorem accounts_append (P Q : List MasterBundle) :
    accounts (P ++ Q) = accounts P ++ accounts Q := by simp [accounts]

end Bundles

/-- The tables that hold what the chain says are those of the bundles. -/
structure Store.Tables (s : Store) (P : List MasterBundle) : Prop where
  blocks : s.blocks = (Bundles.blocks P).foldl putBlock []
  accounts : s.accounts = (Bundles.accounts P).foldl putAccount []
  transactions : s.transactions =
    ((Bundles.transactions P).map (·.withoutMessages)).foldl putTransaction []

/-- The label that a transaction finds for its account in the snapshots. -/
def Store.labelOf (s : Store) (t : Transaction) : Option ContractName :=
  (firstLeast (·.lastTxLt)
    (s.accounts.filter fun a => a.address == t.address && decide (t.lt ≤ a.lastTxLt))).bind
      (·.types.head?)

namespace BundleHistory

variable {H : List MasterBundle} (hH : BundleHistory H)

include hH

theorem seqno_inj {b c : MasterBundle} (hb : b ∈ H) (hc : c ∈ H) (h : b.seqno = c.seqno) : b = c := by
  obtain ⟨first, hfirst⟩ := hH.consecutive
  obtain ⟨m, hm⟩ := List.mem_iff_getElem?.1 hb
  obtain ⟨n, hn⟩ := List.mem_iff_getElem?.1 hc
  have hm' := hfirst m b hm
  have hn' := hfirst n c hn
  have : m = n := by
    rw [h] at hm'
    omega
  subst this
  exact Option.some.inj (hm.symm.trans hn)

/-- The first bundle of a prefix has the least number. -/
theorem head_le {c : Nat} {b x : MasterBundle} (hb : (H.take c).head? = some b) (hx : x ∈ H.take c) :
    b.seqno.toNat ≤ x.seqno.toNat := by
  obtain ⟨first, hfirst⟩ := hH.consecutive
  obtain ⟨n, hn⟩ := List.mem_iff_getElem?.1 ((List.take_sublist c H).subset hx)
  have h0 : H[0]? = some b := by
    cases c with
    | zero => simp at hb
    | succ c => rw [← hb, List.head?_take, if_neg (Nat.succ_ne_zero c), List.head?_eq_getElem?]
  have := hfirst n x hn
  have := hfirst 0 b h0
  omega

/-- The last bundle of a prefix has the greatest number. -/
theorem le_getLast {c : Nat} {b x : MasterBundle} (hb : (H.take c).getLast? = some b)
    (hx : x ∈ H.take c) : x.seqno.toNat ≤ b.seqno.toNat := by
  obtain ⟨first, hfirst⟩ := hH.consecutive
  obtain ⟨n, hn⟩ := List.mem_iff_getElem?.1 hx
  have hlt : n < (H.take c).length := (List.getElem?_eq_some_iff.1 hn).1
  have hget : ∀ (k : Nat) (y : MasterBundle), (H.take c)[k]? = some y → H[k]? = some y := by
    intro k y hk
    rw [List.getElem?_take] at hk
    split at hk
    · exact hk
    · simp at hk
  rw [List.getLast?_eq_getElem?] at hb
  have := hfirst n x (hget _ _ hn)
  have := hfirst _ b (hget _ _ hb)
  omega

end BundleHistory

namespace Store.Tables

variable {H : List MasterBundle} {s : Store} {c : Nat} (hH : BundleHistory H)
  (hs : s.Tables (H.take c))

/-! ## The ends of the committed history -/

include hH hs

/-- The committed master blocks, one a bundle. -/
theorem mem_masters {r : Block} :
    r ∈ s.blocks.filter (·.isMasterchain) ↔ ∃ b ∈ H.take c, b.master.block.headerOnly = r := by
  have hsub := (List.take_sublist c H).subset
  have hrecord : ∀ a ∈ Bundles.blocks (H.take c), a.isMasterchain →
      ∃ b ∈ H.take c, b.master.block.headerOnly = a := by
    intro a ha hmaster
    obtain ⟨b, hb, ha⟩ := List.mem_flatMap.1 ha
    obtain ⟨x, hx, rfl⟩ := List.mem_map.1 ha
    rcases List.mem_cons.1 hx with rfl | hx
    · exact ⟨b, hb, rfl⟩
    · have hshard : x.block.isMasterchain = false := (hH.wellMade b (hsub hb)).shards x hx
      have : x.block.isMasterchain := hmaster
      rw [hshard] at this
      cases this
  have hmaster : ∀ b ∈ H.take c, b.master.block.headerOnly.isMasterchain := by
    intro b hb
    exact (hH.wellMade b (hsub hb)).master
  rw [List.mem_filter, hs.blocks]
  constructor
  · rintro ⟨hr, hm⟩
    exact hrecord r (keeps_putBlock.mem_of_mem_foldl hr) hm
  · rintro ⟨b, hb, rfl⟩
    refine ⟨(keeps_putBlock.mem_foldl ?_).2 ?_, hmaster b hb⟩
    · intro a ha hid
      have hid : a.id = b.master.block.id := hid
      have ham : a.isMasterchain := by
        have := hmaster b hb
        simp only [Block.isMasterchain, Block.headerOnly] at this ⊢
        rw [hid]
        exact this
      obtain ⟨b', hb', rfl⟩ := hrecord a ha ham
      have hseq : b'.seqno = b.seqno := by
        rw [← (hH.wellMade b' (hsub hb')).seqno, ← (hH.wellMade b (hsub hb)).seqno, ← hid]
        rfl
      rw [hH.seqno_inj (hsub hb') (hsub hb) hseq]
    · exact List.mem_flatMap.2 ⟨b, hb, by simp [MasterBundle.records]⟩

/-- The last committed master block is the one of the last bundle. -/
theorem seqno_lastMaster :
    s.lastMaster.map (·.id.seqno) = (H.take c).getLast?.map (·.seqno) := by
  have hsub := (List.take_sublist c H).subset
  cases hl : s.lastMaster with
  | none =>
    have hempty := lastGreatest_eq_none.1 hl
    cases hg : (H.take c).getLast? with
    | none => rfl
    | some b =>
      have := (hs.mem_masters hH).2 ⟨b, List.mem_of_getLast? hg, rfl⟩
      rw [hempty] at this
      cases this
  | some r =>
    obtain ⟨hr, hle⟩ := lastGreatest_spec (fun _ _ => UInt32.lt_iff_toNat_lt) hl
    obtain ⟨b, hb, rfl⟩ := (hs.mem_masters hH).1 hr
    obtain ⟨last, hlast⟩ := Option.isSome_iff_exists.1
      (List.getLast?_isSome.2 (List.ne_nil_of_mem hb))
    have hlastm := List.mem_of_getLast? hlast
    have hge := hle _ ((hs.mem_masters hH).2 ⟨last, hlastm, rfl⟩)
    rw [hH.seqno_master (hsub hlastm), hH.seqno_master (hsub hb)] at hge
    rw [hlast, Option.map_some, Option.map_some, hH.seqno_master (hsub hb)]
    exact congrArg some (UInt32.toNat_inj.1 (Nat.le_antisymm (hH.le_getLast hlast hb) hge))

/-- The first committed master block is the one of the first bundle. -/
theorem startLt_firstMaster :
    s.firstMaster.map (·.startLt) = (H.take c).head?.map (·.master.block.startLt) := by
  have hsub := (List.take_sublist c H).subset
  cases hl : s.firstMaster with
  | none =>
    have hempty := firstLeast_eq_none.1 hl
    cases hg : (H.take c).head? with
    | none => rfl
    | some b =>
      have := (hs.mem_masters hH).2 ⟨b, List.mem_of_head? hg, rfl⟩
      rw [hempty] at this
      cases this
  | some r =>
    obtain ⟨hr, hle⟩ := firstLeast_spec (fun _ _ => UInt32.lt_iff_toNat_lt) hl
    obtain ⟨b, hb, rfl⟩ := (hs.mem_masters hH).1 hr
    obtain ⟨head, hhead⟩ := Option.isSome_iff_exists.1
      (List.isSome_head?.2 (List.ne_nil_of_mem hb))
    have hheadm := List.mem_of_head? hhead
    have hge := hle _ ((hs.mem_masters hH).2 ⟨head, hheadm, rfl⟩)
    rw [hH.seqno_master (hsub hheadm), hH.seqno_master (hsub hb)] at hge
    have : b = head := hH.seqno_inj (hsub hb) (hsub hheadm)
      (UInt32.toNat_inj.1 (Nat.le_antisymm hge (hH.head_le hhead hb)))
    rw [hhead, this]
    rfl

/-! ## Sources of messages -/

theorem mem_transactions {t : Transaction} :
    t ∈ s.transactions ↔ ∃ u ∈ Bundles.transactions (H.take c), u.withoutMessages = t := by
  rw [hs.transactions]
  constructor
  · intro ht
    exact List.mem_map.1 (keeps_putTransaction.mem_of_mem_foldl ht)
  · rintro ⟨u, hu, rfl⟩
    refine (keeps_putTransaction.mem_foldl ?_).2 (List.mem_map_of_mem hu)
    intro a ha hhash
    obtain ⟨v, hv, rfl⟩ := List.mem_map.1 ha
    have hsub := (transactions_sublist (List.take_sublist c H)).subset
    rw [hH.transaction_of_hash v (hsub hv) u (hsub hu) hhash]

/-- A committed transaction that names an internal message among those it sent has its outbound
record. -/
theorem exists_outbound {t : Transaction} {h : Hash} (ht : t ∈ s.transactions)
    (hh : ∀ m ∈ records H, m.hash = h → m.isInternal) (hout : h ∈ t.outMessageHashes) :
    ∃ o ∈ outbound (H.take c), o.hash = h ∧ o.source.tx = some t.ref := by
  have hP := List.take_sublist c H
  obtain ⟨u, hu, rfl⟩ := (hs.mem_transactions hH).1 ht
  have hmap := hH.mapped ((transactions_sublist hP).subset hu)
  have hout : h ∈ u.outMessageHashes := hout
  rw [hmap.outMessageHashes] at hout
  obtain ⟨o, ho, rfl⟩ := List.mem_map.1 hout
  have hrec : o ∈ records (H.take c) := mem_records.2 ⟨u, hu, by simp [Transaction.messages, ho]⟩
  have hint := hh o ((records_sublist hP).subset hrec) rfl
  exact ⟨o, (hH.mem_outbound hP).2 ⟨u, hu, ho, hint⟩, rfl, (hmap.outgoing o ho).1⟩

/-- A committed transaction that names an internal message as the one it received has its inbound
record. -/
theorem exists_inbound {t : Transaction} {h : Hash} (ht : t ∈ s.transactions)
    (hh : ∀ m ∈ records H, m.hash = h → m.isInternal) (hin : t.inMessageHash = some h) :
    ∃ i ∈ inbound (H.take c), i.hash = h ∧ i.destination.tx = some t.ref := by
  have hP := List.take_sublist c H
  obtain ⟨u, hu, rfl⟩ := (hs.mem_transactions hH).1 ht
  have hmap := hH.mapped ((transactions_sublist hP).subset hu)
  have hin : u.inMessageHash = some h := hin
  rw [hmap.inMessageHash, Option.map_eq_some_iff] at hin
  obtain ⟨i, hi, rfl⟩ := hin
  have hrec : i ∈ records (H.take c) := mem_records.2 ⟨u, hu, by simp [Transaction.messages, hi]⟩
  have hint := hh i ((records_sublist hP).subset hrec) rfl
  exact ⟨i, (hH.mem_inbound hP).2 ⟨u, hu, hi, hint⟩, rfl, (hmap.incoming i hi).2.2⟩

/-- The transaction of an outbound record is committed and names it. -/
theorem exists_sender {o : Message} (ho : o ∈ outbound (H.take c)) :
    ∃ t ∈ Bundles.transactions (H.take c), o ∈ t.outMessages ∧ t.withoutMessages ∈ s.transactions ∧
      o.hash ∈ t.withoutMessages.outMessageHashes := by
  have hP := List.take_sublist c H
  obtain ⟨t, ht, hot, -⟩ := (hH.mem_outbound hP).1 ho
  have hmap : t.withoutMessages.outMessageHashes = t.outMessages.map (·.hash) :=
    (hH.mapped ((transactions_sublist hP).subset ht)).outMessageHashes
  refine ⟨t, ht, hot, (hs.mem_transactions hH).2 ⟨t, ht, rfl⟩, ?_⟩
  rw [hmap]
  exact List.mem_map_of_mem hot

/-- The transaction of an inbound record is committed and names it. -/
theorem exists_receiver {i : Message} (hi : i ∈ inbound (H.take c)) :
    ∃ t ∈ s.transactions, t.inMessageHash = some i.hash := by
  have hP := List.take_sublist c H
  obtain ⟨t, ht, hti, -⟩ := (hH.mem_inbound hP).1 hi
  have hmap : t.withoutMessages.inMessageHash = t.inMessage.map (·.hash) :=
    (hH.mapped ((transactions_sublist hP).subset ht)).inMessageHash
  refine ⟨t.withoutMessages, (hs.mem_transactions hH).2 ⟨t, ht, rfl⟩, ?_⟩
  rw [hmap, hti]
  rfl

/-- A message that no committed transaction sent has no source. -/
theorem findSource_eq_none {h : Hash} (hh : ∀ m ∈ records H, m.hash = h → m.isInternal)
    (hno : ∀ o ∈ outbound (H.take c), o.hash ≠ h) : s.findSource h = none := by
  have hfind : s.transactions.find? (fun t => t.outMessageHashes.contains h) = none := by
    refine List.find?_eq_none.2 ?_
    intro t ht hc
    obtain ⟨o, ho, e, -⟩ := hs.exists_outbound hH ht hh (by simpa using hc)
    exact hno o ho e
  rw [findSource, hfind]
  rfl

theorem findSource_of_inbound {i : Message} (hi : i ∈ inbound H)
    (hno : ∀ o ∈ outbound H, o.hash ≠ i.hash) : s.findSource i.hash = none := by
  refine hs.findSource_eq_none hH ?_ ?_
  · intro m hm e
    exact hH.isInternal_of_inbound hi hm e
  · intro o ho
    exact hno o ((outbound_sublist (List.take_sublist c H)).subset ho)

/-- The source of a message is the committed transaction that sent it. -/
theorem findSource_eq_some {o : Message} (ho : o ∈ outbound (H.take c)) :
    ∃ t ∈ Bundles.transactions (H.take c), o ∈ t.outMessages ∧
      s.findSource o.hash = some { tx := t.ref, contract := s.labelOf t } := by
  have hP := List.take_sublist c H
  have hoH := (outbound_sublist hP).subset ho
  have hrecH := (List.mem_filter.1 hoH).1
  obtain ⟨t, ht, hot, hsent, hnames⟩ := hs.exists_sender hH ho
  have hoi := isInternal_of_isOutbound (List.mem_filter.1 hoH).2
  have htH := (transactions_sublist hP).subset ht
  have hmap := hH.mapped htH
  have hfound : (s.transactions.find? fun t => t.outMessageHashes.contains o.hash).isSome :=
    List.find?_isSome.2 ⟨_, hsent, List.contains_iff_mem.2 hnames⟩
  obtain ⟨u, hu⟩ := Option.isSome_iff_exists.1 hfound
  have hum := List.mem_of_find?_eq_some hu
  have huh := List.find?_some hu
  have hint : ∀ m ∈ records H, m.hash = o.hash → m.isInternal := by
    intro m hm e
    rw [hH.isInternal_of_hash hm hrecH e, hoi]
  obtain ⟨o', ho', e, htx⟩ := hs.exists_outbound hH hum hint (by simpa using huh)
  have hoo : o' = o :=
    List.inj_on_of_nodup_map hH.nodup_outbound ((outbound_sublist hP).subset ho') hoH e
  have href : u.ref = t.ref := by
    rw [hoo, (hmap.outgoing o hot).1] at htx
    exact (Option.some.inj htx).symm
  have hut : u = t.withoutMessages := by
    obtain ⟨v, hv, rfl⟩ := (hs.mem_transactions hH).1 hum
    have hhash : v.hash = t.hash := congrArg TransactionRef.hash href
    rw [hH.transaction_of_hash v ((transactions_sublist hP).subset hv) t htH hhash]
  subst hut
  refine ⟨t, ht, hot, ?_⟩
  simp only [findSource, hu]
  rfl

end Store.Tables

end ShardIndex
