import ShardIndex.Proofs.Forward.Labels
import ShardIndex.Proofs.Forward.Run
import ShardIndex.Proofs.Rescan.Answers
/-!
# Labels of messages, fetched and derived

A fetched message carries the first label of its account's snapshot at the end of the transaction's block
(`Fetcher.fetch_block`). A rescan derives the label again (`RescanScheduler.side_label`), from the latest
snapshot that is not after the transaction. The two go by the same snapshot exactly if the transaction is the
last one of the account in its block (`Rescan.side_labels`): the snapshot shows the time of the last
transaction, so for an earlier one the rescan falls back to a snapshot from before the block, or finds none
(`Rescan.side_labels_differ`).

What is committed still carries the label of the fetch, also where the sender was found among the committed
snapshots, provided that the account is there after the block (`shown`).
-/
namespace ShardIndex

open Message Bundles

variable {H : List MasterBundle} {σ : Type}

/-- Transactions are those of the accounts that their messages name, and the records of one message name the
same sender. -/
structure Addressed (H : List MasterBundle) : Prop where
  incoming : ∀ t ∈ transactions H, ∀ m ∈ t.inMessage, m.destination.address = some t.address
  outgoing : ∀ t ∈ transactions H, ∀ m ∈ t.outMessages, m.source.address = some t.address
  sender : ∀ m ∈ records H, ∀ n ∈ records H, m.hash = n.hash → m.source.address = n.source.address

/-! ## What is committed of a label -/

/-- The account that sent the message is there after the block of its transaction. -/
def SenderStays (H : List MasterBundle) (m : Message) : Prop :=
  ∃ r ∈ blockRecords H, ∃ t ∈ r.block.transactions, ∃ a ∈ r.accounts,
    m.source.tx = some t.ref ∧ a.address = t.address ∧ a.status ≠ .nonexistent

open Classical in
/-- The message, without its sender's label if the sender is gone. -/
noncomputable def shown (H : List MasterBundle) (m : Message) : Message :=
  if SenderStays H m then m else m.relabel .outgoing none

theorem shown_eq {m : Message} : ∃ label, shown H m = m.relabel .outgoing label := by
  unfold shown
  split
  · exact ⟨m.source.contract, rfl⟩
  · exact ⟨none, rfl⟩

theorem recovers_shown (hH : BundleHistory H) (hS : SnapshotHistory H) : Recovers (shown H) H where
  hash m := by
    obtain ⟨label, h⟩ := shown_eq (H := H) (m := m)
    rw [h]
    rfl
  recovered := by
    intro c s i o hs hi ho he
    have hP := List.take_sublist c H
    obtain ⟨t, ht, hot, htx, hcontract, hrecover⟩ := recover_eq_relabel hH hs hi ho he
    have hstays : SenderStays H (Linker.recover s.findSource i) ↔ SenderStays H (complete H i) := by
      rw [hrecover]
      rfl
    by_cases h : SenderStays H (complete H i)
    · rw [shown, shown, if_pos h, if_pos (hstays.2 h)]
      obtain ⟨r, hr, t', ht', a, ha, htx', haddr, hexists⟩ := h
      have htH := (transactions_sublist hP).subset ht
      have ht'H : t' ∈ transactions H := by
        rw [transactions_eq]
        exact List.mem_flatMap.2 ⟨r, hr, ht'⟩
      obtain rfl : t' = t := by
        rw [htx] at htx'
        exact hH.transaction_of_hash t' ht'H t htH (congrArg TransactionRef.hash (Option.some.inj htx')).symm
      rw [transactions_eq] at ht
      obtain ⟨r', hr', htr'⟩ := List.mem_flatMap.1 ht
      obtain rfl := hS.block_unique hr ((hP.flatMap _).subset hr') ht' htr'
      rw [hrecover, hS.labelOf_eq hP hs hr' ht' ha haddr (hS.shows_of_exists hr ha hexists),
        ← hS.label_of_outMessage hr ht' ha haddr hot, ← hcontract]
      rfl
    · rw [shown, shown, if_neg h, if_neg (fun h' => h (hstays.1 h')), hrecover]
      rfl

/-! ## Sides of committed messages -/

/-- The side is that of a transaction of the bundles, labelled by the snapshot of its block. -/
def SideOf (P : List MasterBundle) (side : Side) (ref : TransactionRef) : Prop :=
  ∃ r ∈ blockRecords P, ∃ t ∈ r.block.transactions, t.ref = ref ∧ side.address = some t.address ∧
    ∀ a ∈ r.accounts, a.address = t.address → side.contract = a.types.head?

section

variable (hH : BundleHistory H) (hS : SnapshotHistory H) (hA : Addressed H) {c : Nat} {ref : TransactionRef}

include hH hS hA

theorem sideOf_record {m : Message} (hm : m ∈ records (H.take c)) {d : Direction}
    (href : (m.side d).tx = some ref) : SideOf (H.take c) (m.side d) ref := by
  have hP := List.take_sublist c H
  obtain ⟨t, ht, hm⟩ := mem_records.1 hm
  have htH := (transactions_sublist hP).subset ht
  rw [transactions_eq] at ht
  obtain ⟨r, hr, htr⟩ := List.mem_flatMap.1 ht
  have hrH : r ∈ blockRecords H := (hP.flatMap _).subset hr
  rcases List.mem_append.1 hm with hm | hm
  · have hm := Option.mem_toList.1 hm
    obtain ⟨hnone, -, htx⟩ := (hH.mapped htH).incoming m hm
    cases d with
    | outgoing =>
      rw [side, hnone] at href
      cases href
    | incoming =>
      refine ⟨r, hr, t, htr, Option.some.inj (htx.symm.trans href), hA.incoming t htH m hm, ?_⟩
      intro a ha haddr
      have hsame := congrArg Transaction.inMessage (hS.labelled r hrH t htr a ha haddr)
      rw [Transaction.labelMessages, Option.mem_def.1 hm] at hsame
      exact (congrArg (fun m => m.destination.contract) (Option.some.inj hsame)).symm
  · obtain ⟨htx, hnone, -⟩ := (hH.mapped htH).outgoing m hm
    cases d with
    | outgoing =>
      exact ⟨r, hr, t, htr, Option.some.inj (htx.symm.trans href), hA.outgoing t htH m hm,
        fun a ha haddr => hS.label_of_outMessage hrH htr ha haddr hm⟩
    | incoming =>
      rw [side, hnone] at href
      cases href

theorem sideOf_complete {i : Message} (hi : i ∈ inbound (H.take c)) {d : Direction}
    (href : ((complete H i).side d).tx = some ref) :
    SideOf (H.take c) ((complete H i).side d) ref := by
  have hP := List.take_sublist c H
  have hiH := (inbound_sublist hP).subset hi
  have hirec := (List.mem_filter.1 hi).1
  obtain ⟨u, hu, hiu, -⟩ := (hH.mem_inbound (.refl H)).1 hiH
  obtain ⟨hnone, hnolabel, hdst⟩ := (hH.mapped hu).incoming i hiu
  by_cases hsent : ∃ o ∈ outbound H, o.hash = i.hash
  · obtain ⟨o, ho, he⟩ := hsent
    -- a message is not received before it is sent, so the sender is among the bundles as well
    have hoP : o ∈ outbound (H.take c) := by
      rw [← List.take_append_drop c H, outbound_append, List.mem_append] at ho
      exact ho.resolve_right fun ho => hH.sender_first c i hi o ho he.symm
    obtain ⟨t, ht, hot, -⟩ := (hH.mem_outbound hP).1 hoP
    obtain ⟨-, hdtx, hdcontract⟩ := (hH.mapped ((transactions_sublist hP).subset ht)).outgoing o hot
    have horec := (List.mem_filter.1 hoP).1
    rw [hH.complete_of_mem ho he] at href ⊢
    cases d with
    | outgoing =>
      have hside : (i.fillFrom o).side .outgoing = o.side .outgoing := by
        have haddress := hA.sender i ((records_sublist hP).subset hirec) o
          ((records_sublist hP).subset horec) he.symm
        simp [side, fillFrom, Side.fillFrom, hnone, hnolabel, haddress]
      rw [hside] at href ⊢
      exact sideOf_record hH hS hA horec href
    | incoming =>
      have hside : (i.fillFrom o).side .incoming = i.side .incoming := by
        have heta : (⟨i.destination.address, i.destination.tx, i.destination.contract⟩ : Side) =
            i.destination := rfl
        simp [side, fillFrom, Side.fillFrom, hdtx, hdcontract, heta]
      rw [hside] at href ⊢
      exact sideOf_record hH hS hA hirec href
  · rw [complete_of_forall_ne fun o ho he => hsent ⟨o, ho, he⟩] at href ⊢
    exact sideOf_record hH hS hA hirec href

end

/-- Reading a payload leaves the sides as they are. -/
theorem Sink.Yields.side {read : PayloadReader σ} {e m : Message} (h : Sink.Yields read e m)
    (d : Direction) : m.side d = e.side d := by
  obtain ⟨p, hy⟩ := h
  unfold absorb at hy
  split at hy <;> cases hy <;> cases d <;> rfl

/-- A side of a committed message is that of a committed transaction. It carries the label of the snapshot,
if the account is there after the block. -/
theorem Store.Holds.sideOf (hH : BundleHistory H) (hS : SnapshotHistory H) (hA : Addressed H)
    {read : PayloadReader σ} {s : Store} {c : Nat} (hs : s.Holds read (shown H) H (H.take c)) {m : Message}
    (hm : m ∈ s.messages) {d : Direction} {ref : TransactionRef} (href : (m.side d).tx = some ref) :
    ∃ r ∈ blockRecords (H.take c), ∃ t ∈ r.block.transactions, t.ref = ref ∧
      (m.side d).address = some t.address ∧ ∀ a ∈ r.accounts, a.address = t.address →
        a.status ≠ .nonexistent → (m.side d).contract = a.types.head? := by
  obtain ⟨rows, ⟨recs, hlists, hrows⟩, hmsgs⟩ := hs.messages
  rw [hmsgs] at hm
  obtain ⟨e, he, e', hview, hyields⟩ : ∃ e ∈ recs, Stored read (shown H) e m :=
    exists_of_forall₂ hrows.flip (keeps_putMessage.mem_of_mem_foldl hm)
  have hside : ∀ ref, (e.side d).tx = some ref → SideOf (H.take c) (e.side d) ref := by
    intro ref href
    cases hint : e.isInternal with
    | true =>
      have hmem := hlists.internals.mem_iff.1 (List.mem_filter.2 ⟨he, hint⟩)
      obtain ⟨i, hi, rfl⟩ := List.mem_map.1 hmem
      exact sideOf_complete hH hS hA hi href
    | false =>
      have hext : e ∈ externals (H.take c) := by
        rw [← hlists.externals]
        exact List.mem_filter.2 ⟨he, by simp [hint]⟩
      exact sideOf_record hH hS hA (List.mem_filter.1 hext).1 href
  rw [hyields.side d] at href ⊢
  obtain ⟨label, hshown⟩ := shown_eq (H := H) (m := e)
  obtain ⟨label', hshown'⟩ := shown_eq (H := H) (m := e')
  have hrelabel := hshown'.symm.trans (hview.trans hshown)
  have htx : (e'.side d).tx = (e.side d).tx := by
    cases d with
    | outgoing => exact congrArg (fun m => m.source.tx) hrelabel
    | incoming => exact congrArg (fun m => m.destination.tx) hrelabel
  have haddress : (e'.side d).address = (e.side d).address := by
    cases d with
    | outgoing => exact congrArg (fun m => m.source.address) hrelabel
    | incoming => exact congrArg (fun m => m.destination.address) hrelabel
  obtain ⟨r, hr, t, ht, rfl, haddr, hlabel⟩ := hside ref (htx ▸ href)
  refine ⟨r, hr, t, ht, rfl, haddress.trans haddr, fun a ha hat hexists => ?_⟩
  rw [← hlabel a ha hat]
  cases d with
  | incoming => exact congrArg (fun m => m.destination.contract) hrelabel
  | outgoing =>
    have hrH : r ∈ blockRecords H := ((List.take_sublist c H).flatMap _).subset hr
    have hstays : ∀ m : Message, m.source.tx = some t.ref → SenderStays H m :=
      fun m hm => ⟨r, hrH, t, ht, a, ha, hm, hat, hexists⟩
    rw [shown, shown, if_pos (hstays e' href), if_pos (hstays e (htx ▸ href))] at hview
    exact congrArg (fun m => m.source.contract) hview

namespace Rescan

/-! ## What a rescan derives -/

section

variable {side : Side} {t : Transaction} (htx : side.tx = some t.ref) (haddress : side.address = some t.address)

include htx haddress

/-- The snapshots before a side's moment are those that are not after its transaction. -/
theorem exists_sideMoment : ∃ beforeLt, sideMoment side = some (t.address, beforeLt) ∧
    (∀ lt, lt < beforeLt → lt ≤ t.lt) ∧
      (t.lt < beforeLt ↔ t.lt ≠ UInt64.ofNat (UInt64.size - 1)) := by
  refine ⟨_, by rw [sideMoment, haddress, htx]; rfl, ?_⟩
  have href : t.ref.lt = t.lt := rfl
  rw [href]
  split
  · rename_i hmax
    exact ⟨fun lt hlt => UInt64.le_of_lt hlt, by simp [hmax]⟩
  · rename_i hmax
    have hlt : t.lt.toNat + 1 < UInt64.size := by
      have hle := t.lt.toNat_lt
      have hne : t.lt.toNat ≠ UInt64.size - 1 := fun h => hmax (by rw [← h, UInt64.ofNat_toNat])
      have hsize : UInt64.size = 2 ^ 64 := rfl
      omega
    have hsucc : (t.lt + 1).toNat = t.lt.toNat + 1 := by
      rw [UInt64.toNat_add]
      exact Nat.mod_eq_of_lt hlt
    refine ⟨fun lt hle => ?_, fun _ => hmax, fun _ => UInt64.lt_iff_toNat_lt.2 (by omega)⟩
    rw [UInt64.lt_iff_toNat_lt, hsucc] at hle
    exact UInt64.le_iff_toNat_le.2 (Nat.lt_succ_iff.1 hle)

variable {H P : List MasterBundle} (hS : SnapshotHistory H) (hP : P.Sublist H) {s : Store}
  (hs : s.Tables P) {r : BlockRecord} (hr : r ∈ blockRecords P) (ht : t ∈ r.block.transactions)
  {a : AccountState} (ha : a ∈ r.accounts) (hat : a.address = t.address)

include hS hP hs hr ht ha hat

/-- For the last transaction of an account in a block the snapshot of the block is found, and for an earlier
one nothing but a snapshot from before the block. -/
theorem exists_stateBefore (hshows : r.Shows a) : ∃ beforeLt, sideMoment side = some (t.address, beforeLt) ∧
    (s.stateBefore t.address beforeLt = some a ↔
      t.lt = a.lastTxLt ∧ t.lt ≠ UInt64.ofNat (UInt64.size - 1)) ∧
    ∀ x, s.stateBefore t.address beforeLt = some x → x ≠ a →
      ∀ u ∈ r.block.transactions, u.address = t.address → x.lastTxLt < u.lt := by
  obtain ⟨beforeLt, hmoment, hbefore, hmax⟩ := exists_sideMoment htx haddress
  have hrH : r ∈ blockRecords H := (hP.flatMap _).subset hr
  have hsub : ∀ x ∈ s.accounts, x ∈ Bundles.accounts H := by
    intro x hx
    rw [hs.accounts] at hx
    exact (accounts_sublist hP).subset (Store.keeps_putAccount.mem_of_mem_foldl hx)
  obtain ⟨-, -, -, -, hlast⟩ := hS.exists_last hrH hshows
  have hle : t.lt ≤ a.lastTxLt := hlast t ht hat.symm
  have hlatest := s.latestBefore_stateBefore t.address beforeLt
  refine ⟨beforeLt, hmoment, ⟨fun hfound => ?_, fun ⟨hlt, hne⟩ => ?_⟩, fun x hx hne => ?_⟩
  · rw [hfound] at hlatest
    obtain ⟨-, -, hlt, -⟩ := hlatest
    have hsame : t.lt = a.lastTxLt := UInt64.le_antisymm hle (hbefore _ hlt)
    exact ⟨hsame, hmax.1 (hsame ▸ hlt)⟩
  · have hstored := hS.mem_store hP hs hr ha hshows
    have halt : a.lastTxLt < beforeLt := hlt ▸ hmax.2 hne
    cases hfound : s.stateBefore t.address beforeLt with
    | none =>
      rw [hfound] at hlatest
      exact absurd halt (hlatest a hstored hat)
    | some x =>
      rw [hfound] at hlatest
      obtain ⟨hx, hxt, hxlt, hgreatest⟩ := hlatest
      have hsame : x.lastTxLt = a.lastTxLt :=
        UInt64.le_antisymm (hlt ▸ hbefore _ hxlt) (hgreatest a hstored hat halt)
      rw [hS.snapshot_inj hrH ha hshows (hsub x hx) (hxt.trans hat.symm) hsame]
  · rw [hx] at hlatest
    obtain ⟨hxs, hxt, hxlt, -⟩ := hlatest
    exact (hS.eq_or_older hrH ht ha hat (hsub x hxs) hxt (hbefore _ hxlt)).resolve_left hne

end

/-- Through coherent windows the store answers. -/
theorem exec_sideState {w : Context σ} (hwindows : w.snapshots.Coherent w.store) {side : Side}
    {address : Address} {beforeLt : UInt64} (hmoment : sideMoment side = some (address, beforeLt)) :
    (exec (sideState (M := RescanM σ) Snapshots.lookup side).run w).1 =
        .ok (w.store.stateBefore address beforeLt) ∧
      ∀ contract, (exec (sideHasInterface (M := RescanM σ) Snapshots.lookup side contract).run w).1 =
        .ok (match w.store.stateBefore address beforeLt with
          | some state => state.hasInterface contract
          | none => side.contract == some contract) := by
  have hlookup : ∀ v : Context σ, v.snapshots.Coherent v.store →
      ∃ v', exec (Snapshots.lookup address beforeLt : ExceptT Fault (RescanM σ) _).run v =
        (.ok (v.store.stateBefore address beforeLt), v') := fun v hv =>
    ⟨_, Prod.ext (congrArg Except.ok ((Context.coherent_evict hv).stateBefore address beforeLt).1) rfl⟩
  obtain ⟨v', hv'⟩ := hlookup w hwindows
  constructor
  · rw [sideState, hmoment]
    exact congrArg Prod.fst hv'
  · intro contract
    rw [sideHasInterface, hmoment, exec_run_bind, hv']
    cases w.store.stateBefore address beforeLt <;> rfl

/-- Whatever was committed by a run of the forward path, each side of a message whose transaction is known is
that of a transaction in a block of the history. If the account is there after the block, the side carries the
first label of its snapshot; and a rescan that derives the label goes by the same snapshot exactly if the
snapshot shows this very transaction. For an earlier transaction it goes by a snapshot from before the block,
if it finds one. -/
theorem side_labels {τ : Type} (read : PayloadReader σ) (hH : BundleHistory H) (hS : SnapshotHistory H)
    (hA : Addressed H) (p : σ) (events : List ForwardEvent) {w : Context τ}
    (haccounts : w.store.accounts = (ForwardState.run read H p events).store.accounts)
    (hwindows : w.snapshots.Coherent w.store) {m : Message}
    (hm : m ∈ (ForwardState.run read H p events).store.messages) {d : Direction} {ref : TransactionRef}
    (href : (m.side d).tx = some ref) :
    ∃ r ∈ blockRecords H, ∃ t ∈ r.block.transactions, t.ref = ref ∧ ∃ a ∈ r.accounts,
      a.address = t.address ∧ (a.status ≠ .nonexistent →
        (m.side d).contract = a.types.head? ∧
        ∃ found, (exec (sideState (M := RescanM τ) Snapshots.lookup (m.side d)).run w).1 = .ok found ∧
          (∀ contract,
            (exec (sideHasInterface (M := RescanM τ) Snapshots.lookup (m.side d) contract).run w).1 =
              .ok (match found with
                | some state => state.hasInterface contract
                | none => (m.side d).contract == some contract)) ∧
          (found = some a ↔ t.lt = a.lastTxLt ∧ t.lt ≠ UInt64.ofNat (UInt64.size - 1)) ∧
          ∀ x, found = some x → x ≠ a →
            ∀ u ∈ r.block.transactions, u.address = t.address → x.lastTxLt < u.lt) := by
  obtain ⟨c, hgood⟩ := ForwardState.good_run read hH (recovers_shown hH hS) p events
  have hP := List.take_sublist c H
  obtain ⟨r, hr, t, ht, rfl, haddress, hlabel⟩ := hgood.store.sideOf hH hS hA hm href
  have hrH : r ∈ blockRecords H := (hP.flatMap _).subset hr
  obtain ⟨a, ha, hat⟩ := hS.snapshot r hrH t ht
  refine ⟨r, hrH, t, ht, rfl, a, ha, hat, fun hexists => ⟨hlabel a ha hat hexists, ?_⟩⟩
  obtain ⟨beforeLt, hmoment, hfound, holder⟩ := exists_stateBefore href haddress hS hP hgood.store.tables hr
    ht ha hat (hS.shows_of_exists hrH ha hexists)
  obtain ⟨hstate, hinterface⟩ := exec_sideState hwindows hmoment
  have hsame : w.store.stateBefore t.address beforeLt =
      (ForwardState.run read H p events).store.stateBefore t.address beforeLt := by
    simp only [Store.stateBefore, Store.statesBefore, haccounts]
  exact ⟨_, hstate, hinterface, hsame ▸ hfound, hsame ▸ holder⟩

/-! ## Two transactions in one block -/

namespace Sample

def letter (hash : Hash) : WireMessage where
  hash := hash
  envelope := .externalIn Sample.receiver 0

/-- A wallet receives two messages in one block. -/
def doubled : List MasterBundle :=
  let id : BlockId := ⟨.masterchain, 1, 0, 0⟩
  [{ seqno := 1
     master := {
      block := {
        id := id
        masterRef := none
        genTime := 0
        startLt := 10
        endLt := 20
        transactions := [Sample.transaction 1 10 Sample.receiver (some (letter 7)) [],
          Sample.transaction 2 20 Sample.receiver (some (letter 8)) []].map fun t =>
            (t.toTransaction id 1).labelMessages (some "wallet") }
      accounts := [{ (WireAccount.absent Sample.receiver).toState id 1 0 with
        status := .active
        lastTxLt := 20
        types := ["wallet"] }] } }]

theorem bundleHistory_doubled : BundleHistory doubled where
  consecutive := by
    refine ⟨1, ?_⟩
    rintro (_ | n) b hb
    · obtain rfl := Option.some.inj hb
      rfl
    · cases hb
  wellMade := by
    intro b hb
    obtain rfl := List.mem_singleton.1 hb
    refine ⟨rfl, rfl, by simp, ?_⟩
    intro t ht
    rw [MasterBundle.transactions, MasterBundle.records, List.flatMap_singleton] at ht
    obtain ⟨u, -, rfl⟩ := List.mem_map.1 ht
    exact u.mapped _ _ _
  transaction_of_hash := by decide
  kind_of_hash := by decide
  nodup_outbound := by decide
  nodup_inbound := by decide
  sender_first := by
    intro p i hi o ho
    have hnone : outbound (doubled.drop p) = [] := by
      have h : outbound doubled = [] := by decide
      exact List.eq_nil_of_subset_nil (h ▸ (outbound_sublist (List.drop_sublist p doubled)).subset)
    rw [hnone] at ho
    cases ho

theorem labelledHistory_doubled : LabelledHistory doubled where
  increasing := by decide
  snapshot := by decide +kernel
  nodup := by decide +kernel
  last := by decide +kernel
  labelled := by decide +kernel

theorem addressed_doubled : Addressed doubled where
  incoming := by decide +kernel
  outgoing := by decide +kernel
  sender := by decide +kernel

def doubledRun : ForwardState Unit :=
  ForwardState.run (fun _ => pure (.error .notAvailable)) doubled () [.restart ⟨1, 0, 0⟩ 0, .feed]

def doubledContext : Context Unit where
  store := doubledRun.store
  snapshots := .empty 4
  parser := ()
  evictions := fun _ _ => false

end Sample

/-- The side of the second message is derived from the snapshot that labelled it. -/
theorem side_labels_sample :
    BundleHistory Sample.doubled ∧ SnapshotHistory Sample.doubled ∧ Addressed Sample.doubled ∧
      ∃ m ∈ Sample.doubledRun.store.messages, m.hash = 8 ∧
        ∃ a, (m.side .incoming).contract = a.types.head? ∧
          (exec (sideState (M := RescanM Unit) Snapshots.lookup (m.side .incoming)).run
            Sample.doubledContext).1 = .ok (some a) := by
  have hS := Sample.labelledHistory_doubled.snapshots
  obtain ⟨m, hm, hhash, htx⟩ : ∃ m ∈ Sample.doubledRun.store.messages, m.hash = 8 ∧
      (m.side .incoming).tx = some ⟨2, 20, ⟨.masterchain, 1⟩, 1⟩ := by decide +kernel
  obtain ⟨r, hr, t, ht, href, a, ha, -, hside⟩ := side_labels _ Sample.bundleHistory_doubled hS
    Sample.addressed_doubled () [.restart ⟨1, 0, 0⟩ 0, .feed] (w := Sample.doubledContext) rfl (.empty 4 _)
    hm htx
  have hsnapshots : ∀ r ∈ blockRecords Sample.doubled, ∀ a ∈ r.accounts,
      a.status ≠ .nonexistent ∧ a.lastTxLt = 20 := by decide +kernel
  obtain ⟨hexists, hlast⟩ := hsnapshots r hr a ha
  obtain ⟨hlabel, found, hfound, -, hsame, -⟩ := hside hexists
  have hlt : t.lt = 20 := congrArg TransactionRef.lt href
  refine ⟨Sample.bundleHistory_doubled, hS, Sample.addressed_doubled, m, hm, hhash, a, hlabel, ?_⟩
  rw [hfound, hsame.2 ⟨hlt.trans hlast.symm, by rw [hlt]; decide⟩]

/-- Every snapshot shows the last transaction of its account in the block, and the first message was labelled
by it; but a rescan finds no state for its side. -/
theorem side_labels_differ :
    BundleHistory Sample.doubled ∧ LabelledHistory Sample.doubled ∧
      ∃ m ∈ Sample.doubledRun.store.messages, ∃ r ∈ blockRecords Sample.doubled,
        ∃ t ∈ r.block.transactions, ∃ a ∈ r.accounts, (m.side .incoming).tx = some t.ref ∧
          a.address = t.address ∧ a.status = .active ∧ (m.side .incoming).contract = some "wallet" ∧
          a.types.head? = some "wallet" ∧
          (exec (sideState (M := RescanM Unit) Snapshots.lookup (m.side .incoming)).run
            Sample.doubledContext).1 = .ok none := by
  obtain ⟨m, hm, hhash, hcontract, r, hr, t, ht, a, ha, htx, haddress, hstatus, htypes⟩ :
      ∃ m ∈ Sample.doubledRun.store.messages, m.hash = 7 ∧ (m.side .incoming).contract = some "wallet" ∧
        ∃ r ∈ blockRecords Sample.doubled, ∃ t ∈ r.block.transactions, ∃ a ∈ r.accounts,
          (m.side .incoming).tx = some t.ref ∧ a.address = t.address ∧ a.status = .active ∧
            a.types.head? = some "wallet" := by decide +kernel
  have hmoment : sideMoment (m.side .incoming) = some (Sample.receiver, 11) := by
    have hall : ∀ m ∈ Sample.doubledRun.store.messages, m.hash = 7 →
        sideMoment (m.side .incoming) = some (Sample.receiver, 11) := by decide +kernel
    exact hall m hm hhash
  have hnone : Sample.doubledContext.store.stateBefore Sample.receiver 11 = none := by decide +kernel
  refine ⟨Sample.bundleHistory_doubled, Sample.labelledHistory_doubled, m, hm, r, hr, t, ht, a, ha, htx,
    haddress, hstatus, hcontract, htypes, ?_⟩
  rw [(exec_sideState (w := Sample.doubledContext) (.empty 4 _) hmoment).1, hnone]

end Rescan

end ShardIndex
