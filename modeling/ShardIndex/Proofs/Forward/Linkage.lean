import ShardIndex.Proofs.Forward.MessageRows
import ShardIndex.Proofs.Forward.Run
/-!
# The message table links senders and receivers

After any run of the forward path, the rows of internal messages are those of the committed receivers,
and each names the receiver's transaction and the sender's, if the sender is indexed
(`ForwardState.message_rows`). Labels are not compared here: `unlabelled` is the view of a record
without them, so what history knows of a source is enough (`recovers_unlabelled`), whatever it says
about labels.
-/
namespace ShardIndex

open Message Bundles

variable {σ : Type} {read : PayloadReader σ} {H : List MasterBundle} {k : Hash}

/-! ## The view without labels -/

/-- A message without the labels of its two sides. -/
def Message.unlabelled (m : Message) : Message :=
  (m.relabel .outgoing none).relabel .incoming none

theorem unlabelled_recover {H : List MasterBundle} (hH : BundleHistory H) {i o : Message}
    (hi : i ∈ inbound H) (ho : o ∈ outbound H) (h : o.hash = i.hash) {src : MessageSource}
    {history : Hash → Option MessageSource} (hsrc : history i.hash = some src)
    (htx : o.source.tx = some src.tx) :
    (Linker.recover history i).unlabelled = (complete H i).unlabelled := by
  obtain ⟨t, ht, hti, -⟩ := (hH.mem_inbound (.refl H)).1 hi
  obtain ⟨hnone, -, hdst⟩ := (hH.mapped ht).incoming i hti
  rw [hH.complete_of_mem ho h]
  simp [Linker.recover, hsrc, Linker.withSource, Message.unlabelled, Message.relabel, fillFrom,
    Side.fillFrom, hnone, hdst, htx]

theorem recovers_unlabelled (hH : BundleHistory H) : Recovers Message.unlabelled H where
  hash _ := rfl
  recovered := by
    intro c s i o hs hi ho he
    obtain ⟨t, ht, hot, hsrc⟩ := hs.findSource_eq_some hH ho
    have hP := List.take_sublist c H
    have htx := ((hH.mapped ((transactions_sublist hP).subset ht)).outgoing o hot).1
    rw [he] at hsrc
    exact unlabelled_recover hH hi ((outbound_sublist hP).subset ho) he hsrc htx

/-- A row shows what the record says, but for labels and the payload. -/
theorem Stored.unlabelled_eq {e m : Message} (h : Stored read Message.unlabelled e m) :
    m.unlabelled.clearPayload = e.unlabelled.clearPayload := by
  obtain ⟨e', hview, p, hy⟩ := h
  rw [← hview]
  unfold absorb at hy
  split at hy <;> cases hy <;> rfl

/-! ## The rows of internal messages -/

section rows

variable {s : Store} {c : Nat} (hs : s.Holds read Message.unlabelled H (H.take c)) (hH : BundleHistory H)

include hs hH

/-- An internal message has a row exactly if a committed transaction received it. -/
theorem Store.Holds.message?_iff (hk : ∀ m ∈ records H, m.hash = k → m.isInternal) :
    (∃ m, s.message? k = some m) ↔ ∃ t ∈ s.transactions, t.inMessageHash = some k := by
  have hv := recovers_unlabelled hH
  constructor
  · rintro ⟨m, hm⟩
    obtain ⟨i, hi, rfl⟩ := hs.inbound_of_message? hv hk hm
    exact hs.tables.exists_receiver hH hi
  · rintro ⟨t, ht, hin⟩
    obtain ⟨i, hi, rfl, -⟩ := hs.tables.exists_inbound hH ht hk hin
    obtain ⟨m, hm, -⟩ := hs.message?_of_inbound hH hv hi
    exact ⟨m, hm⟩

variable {i m : Message} (hi : i ∈ inbound H) (hm : Stored read Message.unlabelled (complete H i) m)

include hi hm

/-- The row names the transaction that received the message. -/
theorem Store.Holds.destination_tx (hk : ∀ m ∈ records H, m.hash = i.hash → m.isInternal)
    {t : Transaction} (ht : t ∈ s.transactions) (hin : t.inMessageHash = some i.hash) :
    m.destination.tx = some t.ref := by
  obtain ⟨j, hj, hji, hjt⟩ := hs.tables.exists_inbound hH ht hk hin
  have hsub := (inbound_sublist (List.take_sublist c H)).subset
  obtain rfl : j = i := List.inj_on_of_nodup_map hH.nodup_inbound (hsub hj) hi hji
  have hdst : m.destination.tx = (complete H j).destination.tx :=
    congrArg (fun x => x.destination.tx) hm.unlabelled_eq
  rw [hdst, ← hjt]
  unfold complete
  cases Linker.findMessage j.hash (outbound H) with
  | none => rfl
  | some o => simp [fillFrom, Side.fillFrom, hjt]

/-- The row names the transaction that sent the message. -/
theorem Store.Holds.source_tx (hk : ∀ m ∈ records H, m.hash = i.hash → m.isInternal)
    {t : Transaction} (ht : t ∈ s.transactions) (hout : i.hash ∈ t.outMessageHashes) :
    m.source.tx = some t.ref := by
  obtain ⟨o, ho, ho', htx⟩ := hs.tables.exists_outbound hH ht hk hout
  have hoH := (outbound_sublist (List.take_sublist c H)).subset ho
  obtain ⟨u, hu, hui, -⟩ := (hH.mem_inbound (.refl H)).1 hi
  have hnone := ((hH.mapped hu).incoming i hui).1
  have hsrc : m.source.tx = (complete H i).source.tx :=
    congrArg (fun x => x.source.tx) hm.unlabelled_eq
  rw [hsrc, hH.complete_of_mem hoH ho', ← htx]
  simp [fillFrom, Side.fillFrom, hnone]

/-- A row without a source is of a kind that may stay so. -/
theorem Store.Holds.source_none (hic : i ∈ inbound (H.take c))
    (hno : ∀ t ∈ s.transactions, i.hash ∉ t.outMessageHashes) :
    m.source.tx = none ∧ Linker.exempt (firstLt H) m := by
  have hnone : ∀ o ∈ outbound H, o.hash ≠ i.hash := by
    intro o ho e
    rw [← List.take_append_drop c H, outbound_append, List.mem_append] at ho
    rcases ho with ho | ho
    · obtain ⟨t, -, -, ht, hot⟩ := hs.tables.exists_sender hH ho
      exact hno _ ht (e ▸ hot)
    · exact hH.sender_first c i hic o ho e.symm
  obtain ⟨u, hu, hui, -⟩ := (hH.mem_inbound (.refl H)).1 hi
  have hsrc := ((hH.mapped hu).incoming i hui).1
  have hexempt := hs.accepted i hic hnone
  have heq := hm.unlabelled_eq
  rw [complete_of_forall_ne hnone] at heq
  have htx : m.source.tx = i.source.tx := congrArg (fun x => x.source.tx) heq
  have haddr : m.source.address = i.source.address := congrArg (fun x => x.source.address) heq
  have hlt : m.createdLt = i.createdLt := congrArg (fun x => x.createdLt) heq
  refine ⟨htx.trans hsrc, ?_⟩
  rw [Linker.exempt, haddr, hlt]
  exact hexempt

end rows

namespace ForwardState

/-- In every reachable store an internal message has a row exactly if a committed transaction
received it. The row names that transaction, and the transaction that sent the message, if it is
committed too; if none is, the message is of a kind that may stay without a source. -/
theorem message_rows (hH : BundleHistory H) (p : σ) (events : List ForwardEvent)
    (hk : ∀ m ∈ records H, m.hash = k → m.isInternal) :
    let s := (run read H p events).store
    ((∃ m, s.message? k = some m) ↔ ∃ t ∈ s.transactions, t.inMessageHash = some k) ∧
    ∀ m, s.message? k = some m →
      (∀ t ∈ s.transactions, t.inMessageHash = some k → m.destination.tx = some t.ref) ∧
      (∀ t ∈ s.transactions, k ∈ t.outMessageHashes → m.source.tx = some t.ref) ∧
      ((∀ t ∈ s.transactions, k ∉ t.outMessageHashes) →
        m.source.tx = none ∧ Linker.exempt (firstLt H) m) := by
  intro s
  have hv := recovers_unlabelled hH
  obtain ⟨c, hgood⟩ := good_run read hH hv p events
  have hs : s.Holds read Message.unlabelled H (H.take c) := hgood.store
  refine ⟨hs.message?_iff hH hk, ?_⟩
  intro m hm
  obtain ⟨i, hi, rfl⟩ := hs.inbound_of_message? hv hk hm
  have hiH := (inbound_sublist (List.take_sublist c H)).subset hi
  obtain ⟨m', hm', hstored⟩ := hs.message?_of_inbound hH hv hi
  obtain rfl := Option.some.inj (hm.symm.trans hm')
  refine ⟨?_, ?_, ?_⟩
  · intro t ht hin
    exact hs.destination_tx hH hiH hstored hk ht hin
  · intro t ht hout
    exact hs.source_tx hH hiH hstored hk ht hout
  · intro hno
    exact hs.source_none hH hiH hstored hi hno

/-- The sample message, committed in two batches with nothing retained in between. -/
theorem message_rows_sample :
    let read : PayloadReader Unit := fun _ => pure (.error .notAvailable)
    let s := (run read Sample.history () [.restart ⟨1, 0, 0⟩ 0, .feed, .feed]).store
    ∃ m, s.message? 7 = some m ∧
      m.source.tx = some { hash := 1, lt := 10, block := ⟨.masterchain, 1⟩, masterSeqno := 1 } ∧
      m.destination.tx = some { hash := 2, lt := 20, block := ⟨.masterchain, 2⟩, masterSeqno := 2 } := by
  intro read s
  obtain ⟨hrow, hsides⟩ := @message_rows Unit read Sample.history 7 bundleHistory_sample ()
    [.restart ⟨1, 0, 0⟩ 0, .feed, .feed] (by decide)
  have hreceived : ∃ t ∈ s.transactions, t.inMessageHash = some 7 ∧
      t.ref = { hash := 2, lt := 20, block := ⟨.masterchain, 2⟩, masterSeqno := 2 } := by
    decide +kernel
  have hsent : ∃ t ∈ s.transactions, 7 ∈ t.outMessageHashes ∧
      t.ref = { hash := 1, lt := 10, block := ⟨.masterchain, 1⟩, masterSeqno := 1 } := by
    decide +kernel
  obtain ⟨t, ht, hin, href⟩ := hreceived
  obtain ⟨u, hu, hout, huref⟩ := hsent
  obtain ⟨m, hm⟩ := hrow.2 ⟨t, ht, hin⟩
  obtain ⟨hdst, hsrc, -⟩ := hsides m hm
  exact ⟨m, hm, huref ▸ hsrc u hu hout, href ▸ hdst t ht hin⟩

end ForwardState

end ShardIndex
