import Mathlib.Data.List.Flatten
import ShardIndex.Entity.Mapping
import ShardIndex.Proofs.Linkage.Linking
/-!
# What is known of a history

A history is a list of master bundles as they are fed to the forward path, one master block after
the other. `BundleHistory` collects what the chain and the mapping promise about it:

* a digest names one transaction, and messages with the same digest have the same kind;
* an internal message is sent once, received once, and not received before it is sent;
* every message record knows the side of its own transaction (`Transaction.Mapped`).

The record of an internal message that a history accounts for is `complete H i`: the inbound record
`i`, filled from the outbound record of the same message, if the history has one.
-/
namespace ShardIndex

open Message

/-! ## Bundles -/

/-- The message records of a transaction know the side of that transaction and nothing of the
other transaction. -/
structure Transaction.Mapped (t : Transaction) : Prop where
  inMessageHash : t.inMessageHash = t.inMessage.map (·.hash)
  outMessageHashes : t.outMessageHashes = t.outMessages.map (·.hash)
  incoming : ∀ m ∈ t.inMessage,
    m.source.tx = none ∧ m.source.contract = none ∧ m.destination.tx = some t.ref
  outgoing : ∀ m ∈ t.outMessages,
    m.source.tx = some t.ref ∧ m.destination.tx = none ∧ m.destination.contract = none

/-- Transactions as they are read from a block, with any label. -/
theorem WireTransaction.mapped (t : WireTransaction) (block : BlockId) (master : UInt32)
    (contract : Option ContractName) :
    ((t.toTransaction block master).labelMessages contract).Mapped where
  inMessageHash := by
    cases h : t.inMessage <;> simp [toTransaction, Transaction.labelMessages, Message.relabel, h]
  outMessageHashes := by
    simp [toTransaction, Transaction.labelMessages, Message.relabel, Function.comp_def]
  incoming := by
    intro m hm
    cases h : t.inMessage with
    | none => simp [toTransaction, Transaction.labelMessages, h] at hm
    | some w =>
      simp only [toTransaction, Transaction.labelMessages, h, Option.map_some, Option.mem_some_iff] at hm
      subst hm
      cases he : w.envelope <;>
      simp [WireMessage.toMessage, he, Message.relabel, Transaction.ref, toTransaction,
        Transaction.labelMessages]
  outgoing := by
    intro m hm
    simp only [toTransaction, Transaction.labelMessages, List.map_map, List.mem_map,
      Function.comp_apply] at hm
    obtain ⟨w, -, rfl⟩ := hm
    cases he : w.envelope <;>
      simp [WireMessage.toMessage, he, Message.relabel, Transaction.ref, toTransaction,
        Transaction.labelMessages]

/-- One masterchain block with the bundle's number, and shard blocks. -/
structure MasterBundle.WellMade (b : MasterBundle) : Prop where
  master : b.master.block.isMasterchain
  seqno : b.master.block.id.seqno = b.seqno
  shards : ∀ r ∈ b.shards, r.block.isMasterchain = false
  mapped : ∀ t ∈ b.transactions, t.Mapped

namespace Bundles

/-- The transactions of all bundles, in order. -/
def transactions (H : List MasterBundle) : List Transaction :=
  H.flatMap (·.transactions)

/-- The message records of all bundles, in order. -/
def records (H : List MasterBundle) : List Message :=
  H.flatMap (·.messages)

def outbound (H : List MasterBundle) : List Message :=
  (records H).filter isOutbound

def inbound (H : List MasterBundle) : List Message :=
  (records H).filter isInbound

def externals (H : List MasterBundle) : List Message :=
  (records H).filter fun m => !m.isInternal

theorem take_append_drop_take {c p : Nat} (h : c ≤ p) (H : List MasterBundle) :
    H.take c ++ (H.take p).drop c = H.take p := by
  have := List.take_append_drop c (H.take p)
  rwa [List.take_take, Nat.min_eq_left h] at this

/-- The logical time at which the bundles start. -/
def firstLt (H : List MasterBundle) : Option UInt64 :=
  H.head?.map (·.master.block.startLt)

section lists

variable (P Q : List MasterBundle) (b : MasterBundle)

@[simp] theorem transactions_append :
    transactions (P ++ Q) = transactions P ++ transactions Q := by simp [transactions]

@[simp] theorem records_append : records (P ++ Q) = records P ++ records Q := by simp [records]

@[simp] theorem outbound_append : outbound (P ++ Q) = outbound P ++ outbound Q := by simp [outbound]

@[simp] theorem inbound_append : inbound (P ++ Q) = inbound P ++ inbound Q := by simp [inbound]

@[simp] theorem externals_append : externals (P ++ Q) = externals P ++ externals Q := by
  simp [externals]

@[simp] theorem outbound_nil : outbound [] = [] := rfl

@[simp] theorem inbound_nil : inbound [] = [] := rfl

@[simp] theorem outbound_singleton : outbound [b] = b.messages.filter isOutbound := by
  simp [outbound, records]

@[simp] theorem inbound_singleton : inbound [b] = b.messages.filter isInbound := by
  simp [inbound, records]

@[simp] theorem externals_singleton :
    externals [b] = b.messages.filter fun m => !m.isInternal := by
  simp [externals, records]

variable {P Q}

theorem transactions_sublist (h : P.Sublist Q) : (transactions P).Sublist (transactions Q) :=
  h.flatMap _

theorem records_sublist (h : P.Sublist Q) : (records P).Sublist (records Q) :=
  h.flatMap _

theorem outbound_sublist (h : P.Sublist Q) : (outbound P).Sublist (outbound Q) :=
  (records_sublist h).filter _

theorem inbound_sublist (h : P.Sublist Q) : (inbound P).Sublist (inbound Q) :=
  (records_sublist h).filter _

theorem mem_records {m : Message} : m ∈ records P ↔ ∃ t ∈ transactions P, m ∈ t.messages := by
  simp only [records, transactions, MasterBundle.messages, List.mem_flatMap]
  constructor
  · rintro ⟨b, hb, t, ht, hm⟩
    exact ⟨t, ⟨b, hb, ht⟩, hm⟩
  · rintro ⟨t, ⟨b, hb, ht⟩, hm⟩
    exact ⟨b, hb, t, ht, hm⟩

end lists

end Bundles

open Bundles

/-! ## Histories -/

/-- What the chain and the mapping promise about consecutive master bundles. -/
structure BundleHistory (H : List MasterBundle) : Prop where
  consecutive : ∃ first : Nat, ∀ n b, H[n]? = some b → b.seqno.toNat = first + n
  wellMade : ∀ b ∈ H, b.WellMade
  transaction_of_hash : ∀ t ∈ transactions H, ∀ u ∈ transactions H, t.hash = u.hash → t = u
  kind_of_hash : ∀ m ∈ records H, ∀ n ∈ records H, m.hash = n.hash → m.kind = n.kind
  nodup_outbound : ((outbound H).map (·.hash)).Nodup
  nodup_inbound : ((inbound H).map (·.hash)).Nodup
  sender_first : ∀ p, ∀ i ∈ inbound (H.take p), ∀ o ∈ outbound (H.drop p), i.hash ≠ o.hash

/-- The inbound record of a message with everything that the history knows about its source. -/
def complete (H : List MasterBundle) (i : Message) : Message :=
  (Linker.findMessage i.hash (outbound H)).elim i i.fillFrom

@[simp] theorem complete_hash (H : List MasterBundle) (i : Message) : (complete H i).hash = i.hash := by
  unfold complete
  cases Linker.findMessage i.hash (outbound H) <;> rfl

@[simp] theorem complete_isInternal (H : List MasterBundle) (i : Message) :
    (complete H i).isInternal = i.isInternal := by
  unfold complete
  cases Linker.findMessage i.hash (outbound H) <;> rfl

theorem complete_of_forall_ne {H : List MasterBundle} {i : Message}
    (h : ∀ o ∈ outbound H, o.hash ≠ i.hash) : complete H i = i := by
  simp [complete, Linker.findMessage_eq_none.2 h]

namespace BundleHistory

variable {H : List MasterBundle} (hH : BundleHistory H)

include hH

theorem complete_of_mem {i o : Message} (ho : o ∈ outbound H) (h : o.hash = i.hash) :
    complete H i = i.fillFrom o := by
  have : Linker.findMessage i.hash (outbound H) = some o :=
    h ▸ Linker.findMessage_of_mem hH.nodup_outbound ho
  simp [complete, this]

theorem isInternal_of_hash {m n : Message} (hm : m ∈ records H) (hn : n ∈ records H)
    (h : m.hash = n.hash) : m.isInternal = n.isInternal := by
  rw [isInternal, isInternal, hH.kind_of_hash m hm n hn h]

/-- The digest of an inbound record is the digest of internal messages only. -/
theorem isInternal_of_inbound {i m : Message} (hi : i ∈ inbound H) (hm : m ∈ records H)
    (h : m.hash = i.hash) : m.isInternal := by
  obtain ⟨hrec, hin⟩ := List.mem_filter.1 hi
  rw [hH.isInternal_of_hash hm hrec h, isInternal_of_isInbound hin]

theorem seqno_master {b : MasterBundle} (hb : b ∈ H) : b.master.block.headerOnly.id.seqno = b.seqno :=
  (hH.wellMade b hb).seqno

theorem mapped {t : Transaction} (ht : t ∈ transactions H) : t.Mapped := by
  obtain ⟨b, hb, ht⟩ := List.mem_flatMap.1 ht
  exact (hH.wellMade b hb).mapped t ht

/-- Inbound records are those of the inbound messages of transactions. -/
theorem mem_inbound {P : List MasterBundle} (hP : P.Sublist H) {m : Message} :
    m ∈ inbound P ↔ ∃ t ∈ transactions P, t.inMessage = some m ∧ m.isInternal := by
  rw [inbound, List.mem_filter, mem_records]
  constructor
  · rintro ⟨⟨t, ht, hm⟩, hin⟩
    rcases List.mem_append.1 hm with hm | hm
    · exact ⟨t, ht, Option.mem_toList.1 hm, isInternal_of_isInbound hin⟩
    · have ht' : t ∈ transactions H := (transactions_sublist hP).subset ht
      simp [isInbound, ((hH.mapped ht').outgoing m hm).1] at hin
  · rintro ⟨t, ht, hm, hi⟩
    have ht' : t ∈ transactions H := (transactions_sublist hP).subset ht
    refine ⟨⟨t, ht, by simp [Transaction.messages, hm]⟩, ?_⟩
    simp [isInbound, hi, ((hH.mapped ht').incoming m hm).1]

/-- Outbound records are those of the outbound messages of transactions. -/
theorem mem_outbound {P : List MasterBundle} (hP : P.Sublist H) {m : Message} :
    m ∈ outbound P ↔ ∃ t ∈ transactions P, m ∈ t.outMessages ∧ m.isInternal := by
  rw [outbound, List.mem_filter, mem_records]
  constructor
  · rintro ⟨⟨t, ht, hm⟩, hout⟩
    rcases List.mem_append.1 hm with hm | hm
    · have ht' : t ∈ transactions H := (transactions_sublist hP).subset ht
      simp [isOutbound, ((hH.mapped ht').incoming m (Option.mem_toList.1 hm)).1] at hout
    · exact ⟨t, ht, hm, isInternal_of_isOutbound hout⟩
  · rintro ⟨t, ht, hm, hi⟩
    have ht' : t ∈ transactions H := (transactions_sublist hP).subset ht
    refine ⟨⟨t, ht, by simp [Transaction.messages, hm]⟩, ?_⟩
    simp [isOutbound, hi, ((hH.mapped ht').outgoing m hm).1]

end BundleHistory

/-! ## A history of two bundles -/

namespace Sample

def sender : Address := ⟨0, 1⟩

def receiver : Address := ⟨0, 2⟩

/-- A message from `sender` to `receiver`. -/
def message : WireMessage where
  hash := 7
  envelope := .internal sender receiver 0 0 0 false false 10 0

/-- A transaction of an account with these messages. -/
def transaction (hash : Hash) (lt : UInt64) (account : Address) (inMessage : Option WireMessage)
    (outMessages : List WireMessage) : WireTransaction where
  hash := hash
  lt := lt
  account := account
  prevHash := 0
  prevLt := 0
  now := 0
  totalFees := 0
  statusBefore := .active
  statusAfter := .active
  aborted := false
  exitCode := none
  inMessage := inMessage
  outMessages := outMessages

/-- A master block with one transaction, whose account is labelled as a wallet. -/
def bundle (seqno : UInt32) (t : WireTransaction) : MasterBundle :=
  let id : BlockId := ⟨.masterchain, seqno, 0, 0⟩
  { seqno := seqno
    master := {
      block := {
        id := id
        masterRef := none
        genTime := 0
        startLt := t.lt
        endLt := t.lt
        transactions := [(t.toTransaction id seqno).labelMessages (some "wallet")] }
      accounts := [{ (WireAccount.absent t.account).toState id seqno 0 with
        lastTxLt := t.lt
        types := ["wallet"] }] } }

/-- The message is sent in one bundle and received in the next one. -/
def history : List MasterBundle :=
  [bundle 1 (transaction 1 10 sender none [message]),
    bundle 2 (transaction 2 20 receiver (some message) [])]

end Sample

theorem bundleHistory_sample : BundleHistory Sample.history where
  consecutive := by
    refine ⟨1, ?_⟩
    rintro (_ | _ | n) b hb
    · obtain rfl := Option.some.inj hb
      rfl
    · obtain rfl := Option.some.inj hb
      rfl
    · cases hb
  wellMade := by
    have hmade : ∀ n t, (Sample.bundle n t).WellMade := by
      intro n t
      refine ⟨rfl, rfl, ?_, ?_⟩
      · intro r hr
        cases hr
      · intro u hu
        simp only [MasterBundle.transactions, MasterBundle.records, Sample.bundle, List.flatMap_cons,
          List.flatMap_nil, List.append_nil, List.mem_singleton] at hu
        rw [hu]
        exact t.mapped _ _ _
    intro b hb
    simp only [Sample.history, List.mem_cons, List.not_mem_nil, or_false] at hb
    rcases hb with rfl | rfl
    · exact hmade _ _
    · exact hmade _ _
  transaction_of_hash := by decide
  kind_of_hash := by decide
  nodup_outbound := by decide
  nodup_inbound := by decide
  sender_first := by
    rintro (_ | _ | p)
    · decide
    · decide
    · intro i _ o ho
      have hnil : Sample.history.drop (p + 2) = [] := List.drop_eq_nil_of_le (by simp [Sample.history])
      rw [hnil] at ho
      cases ho

end ShardIndex
