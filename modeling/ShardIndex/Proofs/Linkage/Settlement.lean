import ShardIndex.Proofs.Linkage.Linking
/-!
# What becomes of a master block, whatever the linker has seen before

`Linking` says what the records of one block come to. Here the linker is in any state that accepted
blocks and prunings can leave it in (`Reachable`): nothing is unresolved then, and all that it
retains are outbound records (`Reachable.idle`), because one record can add an outbound one only
(`link_retains`).

`Reachable.settlement` is the contract of `handle`, with no word on the order of the records:

* a block is accepted iff each of its inbound records is `Sourced`;
* the rows are its external messages as they are and, once each, its inbound records settled as
  `Settles` has it;
* a refused block names one inbound record without a source;
* either way no inbound record stays, and of the outbound ones those that no inbound one met.
-/
namespace ShardIndex

namespace Linker

open Message

/-- The states that accepted blocks and prunings lead to. -/
inductive Reachable : Linker → Prop where
  | fresh (capacity : Nat) (start : Option UInt64) :
      Reachable { capacity := capacity, historyStart := start }
  | accept {l l' : Linker} {history : Hash → Option MessageSource} {b : MasterBundle}
      {rows : List Message} (h : Reachable l) (e : l.handle history b = (.ok rows, l')) : Reachable l'
  | prune {l : Linker} (h : Reachable l) (committed : UInt32) : Reachable (l.prune committed)

/-- Whether a message may stay without a source, when the indexed history starts at `start`. -/
def Exempt (start : UInt64) (m : Message) : Prop :=
  (∃ a, m.source.address = some a ∧ a.isSystem) ∨ m.createdLt < start

/-- Whether an inbound record can be completed, or may stay as it is. -/
def Sourced (history : Hash → Option MessageSource) (start : UInt64) (outs : List Message)
    (i : Message) : Prop :=
  (∃ o ∈ outs, o.hash = i.hash) ∨ (history i.hash).isSome ∨ Exempt start i

/-- `Settles history start outs i row` says that `row` is the inbound record `i` as it is to be
committed. Its outbound record comes first, then history, and only then may it stay as it is. -/
inductive Settles (history : Hash → Option MessageSource) (start : UInt64) (outs : List Message)
    (i : Message) : Message → Prop where
  | linked {o : Message} (mem : o ∈ outs) (hash : o.hash = i.hash) : Settles history start outs i
      { i with
        source := { i.source with
          tx := o.source.tx
          contract := i.source.contract <|> o.source.contract }
        destination := { i.destination with
          tx := i.destination.tx <|> o.destination.tx
          contract := i.destination.contract <|> o.destination.contract } }
  | found {s : MessageSource} (alone : ∀ o ∈ outs, o.hash ≠ i.hash) (known : history i.hash = some s) :
      Settles history start outs i
        { i with source := { i.source with
            tx := some s.tx
            contract := i.source.contract <|> s.contract } }
  | exempted (alone : ∀ o ∈ outs, o.hash ≠ i.hash) (unknown : history i.hash = none)
      (exempt : Exempt start i) : Settles history start outs i i

/-! ## The states between blocks -/

/-- A linker between blocks. -/
structure Idle (l : Linker) : Prop where
  unresolved : l.unresolved = []
  retained : ∀ m ∈ l.retained, m.isOutbound

section retained

variable {l : Linker}

theorem link_retains (h : ∀ x ∈ l.retained, x.isOutbound) (m : Message) :
    ∀ x ∈ (l.link m).2.retained, x.isOutbound := by
  intro x hx
  rcases record_cases m with hm | hm | hm
  · rw [link_external hm] at hx
    exact h x hx
  · rw [link_outbound hm] at hx
    split at hx
    · exact h x hx
    · rcases List.mem_append.1 hx with hx | hx
      · exact h x (mem_dropMessage.1 hx).1
      · exact List.mem_singleton.1 hx ▸ hm
  · rw [link_inbound hm] at hx
    split at hx
    · exact h x (mem_dropMessage.1 hx).1
    · exact h x hx

theorem linkAll_retains (ms : List Message) (h : ∀ x ∈ l.retained, x.isOutbound) :
    ∀ x ∈ (linkAll l ms).2.retained, x.isOutbound := by
  induction ms generalizing l with
  | nil => exact h
  | cons m ms ih =>
    rw [linkAll_cons]
    exact ih (link_retains h m)

/-- Even a refused block leaves the linker idle. -/
theorem Idle.handle (h : l.Idle) (history : Hash → Option MessageSource) (b : MasterBundle) :
    (l.handle history b).2.Idle where
  unresolved := rfl
  retained := linkAll_retains b.messages h.retained

theorem Idle.prune (h : l.Idle) (committed : UInt32) : (l.prune committed).Idle where
  unresolved := h.unresolved
  retained m hm := h.retained m (List.mem_filter.1 hm).1

theorem Reachable.idle (h : l.Reachable) : l.Idle := by
  induction h with
  | fresh capacity start => exact ⟨rfl, by simp⟩
  | @accept l l' history b rows _ e ih =>
    have hl' : l' = (l.handle history b).2 := by rw [e]
    exact hl' ▸ ih.handle history b
  | prune _ committed ih => exact ih.prune committed

end retained

/-! ## One inbound record -/

section record

variable {history : Hash → Option MessageSource} {start : UInt64} {outs ins : List Message}
  {i m : Message}

theorem exempt_iff : exempt (some start) m ↔ Exempt start m := by
  cases h : m.source.address with
  | none => simp [exempt, Exempt, h]
  | some a => simp [exempt, Exempt, h]

theorem mem_unmatched : i ∈ unmatched ins outs ↔ i ∈ ins ∧ ∀ o ∈ outs, o.hash ≠ i.hash := by
  simp [unmatched, findMessage_eq_none]

theorem not_sourced_of_unmatched (hi : i ∈ unmatched ins outs)
    (hn : ¬ Excused history (some start) i) : ¬ Sourced history start outs i := by
  rintro (⟨o, ho, e⟩ | h)
  · exact (mem_unmatched.1 hi).2 o ho e
  · exact hn (h.imp_right exempt_iff.2)

/-- Only records without an outbound one are looked up. -/
theorem excused_iff_sourced :
    (∀ i ∈ unmatched ins outs, Excused history (some start) i) ↔
      ∀ i ∈ ins, Sourced history start outs i := by
  constructor
  · intro h i hi
    by_cases ho : ∃ o ∈ outs, o.hash = i.hash
    · exact Or.inl ho
    · push Not at ho
      exact Or.inr ((h i (mem_unmatched.2 ⟨hi, ho⟩)).imp_right exempt_iff.1)
  · intro h i hi
    by_contra hn
    exact not_sourced_of_unmatched hi hn (h i (mem_unmatched.1 hi).1)

theorem settles_settle (hi : i.isInbound) (h : Sourced history start outs i) :
    Settles history start outs i (settle outs history i) := by
  have htx : i.source.tx = none := by simpa using (isInbound_iff.1 hi).2
  cases hf : findMessage i.hash outs with
  | some o =>
    obtain ⟨hmo, ho⟩ := mem_of_findMessage hf
    have e : settle outs history i = i.fillFrom o := by simp [settle, hf]
    have hsource : i.source.fillFrom o.source = { i.source with
        tx := o.source.tx
        contract := i.source.contract <|> o.source.contract } := by simp [Side.fillFrom, htx]
    rw [e, fillFrom, hsource]
    exact .linked hmo ho
  | none =>
    have halone := findMessage_eq_none.1 hf
    have e : settle outs history i = recover history i := by simp [settle, hf]
    rw [e]
    cases hs : history i.hash with
    | some s =>
      rw [recover, hs]
      exact .found halone hs
    | none =>
      rw [recover, hs]
      refine .exempted halone hs ?_
      rcases h with ⟨o, hmo, ho⟩ | h | h
      · exact absurd ho (halone o hmo)
      · rw [hs] at h
        cases h
      · exact h

end record

/-! ## A whole block -/

/-- What handling a block has to come to, for given inbound and outbound records. -/
structure Settlement (l : Linker) (history : Hash → Option MessageSource) (start : UInt64)
    (b : MasterBundle) (ins outs : List Message) (r : Except Fault (List Message) × Linker) :
    Prop where
  accepted_iff : (∃ rows, r.1 = .ok rows) ↔ ∀ i ∈ ins, Sourced history start outs i
  rows : ∀ rows, r.1 = .ok rows → ∃ settled,
    List.Forall₂ (Settles history start outs) ins settled ∧
      Lists rows (b.messages.filter fun m => !m.isInternal) settled
  refusal : ∀ fault, r.1 = .error fault → ∃ i ∈ ins, ¬ Sourced history start outs i ∧
    fault = .unknownSource b.seqno i.hash i.destination.address
  after : r.2 = {
    capacity := l.capacity
    historyStart := some start
    unresolved := []
    retained := outs.filter fun o => ins.all fun i => i.hash != o.hash }

section block

variable {l : Linker} {history : Hash → Option MessageSource} {b : MasterBundle}

theorem history_start (l : Linker) (b : MasterBundle) :
    (l.historyStart <|> some b.master.block.startLt) =
      some (l.historyStart.getD b.master.block.startLt) := by
  cases l.historyStart <;> rfl

theorem unmatched_eq_filter (outs ins : List Message) :
    unmatched outs ins = outs.filter fun o => ins.all fun i => i.hash != o.hash := by
  refine List.filter_congr fun o _ => ?_
  rw [Bool.eq_iff_iff, Option.isNone_iff_eq_none, findMessage_eq_none]
  simp

theorem afterBlock_eq (l : Linker) (b : MasterBundle) : l.afterBlock b = {
    capacity := l.capacity
    historyStart := some (l.historyStart.getD b.master.block.startLt)
    unresolved := []
    retained := (l.retained ++ b.messages.filter isOutbound).filter fun o =>
      (b.messages.filter isInbound).all fun i => i.hash != o.hash } := by
  rw [afterBlock, history_start, unmatched_eq_filter]

theorem Idle.linkable (h : l.Idle)
    (hin : ((b.messages.filter isInbound).map (·.hash)).Nodup)
    (hout : ((l.retained ++ b.messages.filter isOutbound).map (·.hash)).Nodup) :
    Linkable l b.messages where
  unresolved := by simp [h.unresolved]
  retained := h.retained
  apart := by simp [h.unresolved]
  nodup_inbound := by simpa [h.unresolved] using hin
  nodup_outbound := hout

/-- What the linker makes of a block in any state that it can be in, when no message has two inbound
or two outbound records. -/
theorem Reachable.settlement (hl : l.Reachable) (history : Hash → Option MessageSource)
    (hin : ((b.messages.filter isInbound).map (·.hash)).Nodup)
    (hout : ((l.retained ++ b.messages.filter isOutbound).map (·.hash)).Nodup) :
    l.Settlement history (l.historyStart.getD b.master.block.startLt) b
      (b.messages.filter isInbound) (l.retained ++ b.messages.filter isOutbound)
      (l.handle history b) := by
  have hlink := hl.idle.linkable hin hout
  by_cases hex : ∀ i ∈ unmatched (b.messages.filter isInbound)
      (l.retained ++ b.messages.filter isOutbound),
      Excused history (l.historyStart <|> some b.master.block.startLt) i
  · obtain ⟨rows, e, hrows⟩ := handle_eq_ok hl.idle.unresolved hlink hex
    rw [history_start, excused_iff_sourced] at hex
    rw [e]
    constructor
    case accepted_iff => exact iff_of_true ⟨rows, rfl⟩ hex
    case rows =>
      rintro _ ⟨⟩
      refine ⟨_, List.forall₂_map_right_iff.2 (List.forall₂_same.2 fun i hi => ?_), hrows⟩
      exact settles_settle (List.mem_filter.1 hi).2 (hex i hi)
    case refusal => simp
    case after => exact afterBlock_eq l b
  · have hne := hex
    push Not at hne
    obtain ⟨i, hi, hn, e⟩ := handle_eq_error hl.idle.unresolved hlink hne
    rw [history_start] at hex hn
    rw [e]
    constructor
    case accepted_iff => exact iff_of_false (by simp) (mt excused_iff_sourced.2 hex)
    case rows => simp
    case refusal =>
      rintro _ ⟨⟩
      exact ⟨i, (List.mem_filter.1 hi).1, not_sourced_of_unmatched hi hn, rfl⟩
    case after => exact afterBlock_eq l b

end block

/-! Two master blocks with a pruning between them. Of the three messages sent in the first, `1` is
retained, `9` is given up, and `4` is received in the first already. -/

namespace RelaySample

def tx (seqno : UInt32) (lt : UInt64) : TransactionRef where
  hash := BitVec.ofNat 256 lt.toNat
  lt := lt
  block := ⟨.basechain, seqno⟩
  masterSeqno := seqno

def sent (n : Nat) (seqno : UInt32) (lt : UInt64) : Message where
  hash := BitVec.ofNat 256 n
  kind := .internal
  source := { tx := some (tx seqno lt), contract := some "wallet" }
  createdLt := lt

def received (n : Nat) (seqno : UInt32) (created lt : UInt64) : Message where
  hash := BitVec.ofNat 256 n
  kind := .internal
  destination := { tx := some (tx seqno lt) }
  createdLt := created

def external (n : Nat) : Message where
  hash := BitVec.ofNat 256 n
  kind := .externalIn

def bundle (seqno : UInt32) (startLt : UInt64) (messages : List Message) : MasterBundle where
  seqno := seqno
  master := { block := {
    id := ⟨.masterchain, seqno, 0, 0⟩
    masterRef := none
    genTime := 0
    startLt := startLt
    endLt := startLt
    transactions := [{ (default : Transaction) with outMessages := messages }] } }

def history (h : Hash) : Option MessageSource :=
  if h = 2 then some { tx := tx 7 700, contract := some "minter" } else none

def first : MasterBundle :=
  bundle 10 1000 [received 4 10 1003 1005, sent 9 10 1001, sent 1 10 1002, sent 4 10 1003]

/-- Finds the message `7` received before it is sent; `3` is older than the history. -/
def second : MasterBundle :=
  bundle 11 1100 [received 7 11 1101 1102, external 5, sent 7 11 1101, received 1 11 1002 1103,
    received 2 11 1050 1104, received 3 11 999 1105, sent 8 11 1106]

/-- Receives the message that was given up. -/
def third : MasterBundle :=
  bundle 11 1100 [received 1 11 1002 1103, received 9 11 1001 1104]

def narrow : Linker where
  capacity := 1

def waiting : Linker :=
  (narrow.handle history first).2.prune 10

theorem waiting_eq : waiting = ⟨1, some 1000, [], [sent 1 10 1002]⟩ := by
  have hfirst : (narrow.handle history first).2 =
      ⟨1, some 1000, [], [sent 9 10 1001, sent 1 10 1002]⟩ := rfl
  rw [waiting, hfirst, prune, evicted, List.mergeSort_of_pairwise (by decide)]
  rfl

end RelaySample

open RelaySample in
/-- The second block is accepted and the third is not. -/
theorem Reachable.settlement_sample :
    waiting.Reachable ∧
      ((second.messages.filter isInbound).map (·.hash)).Nodup ∧
      ((waiting.retained ++ second.messages.filter isOutbound).map (·.hash)).Nodup ∧
      waiting.Settlement history 1000 second (second.messages.filter isInbound)
        (waiting.retained ++ second.messages.filter isOutbound) (waiting.handle history second) ∧
      (waiting.handle history second).1.toOption.map (·.map fun m => (m.hash, m.source.contract)) =
        some [(5, none), (7, some "wallet"), (1, some "wallet"), (2, some "minter"), (3, none)] ∧
      ((third.messages.filter isInbound).map (·.hash)).Nodup ∧
      ((waiting.retained ++ third.messages.filter isOutbound).map (·.hash)).Nodup ∧
      waiting.Settlement history 1000 third (third.messages.filter isInbound)
        (waiting.retained ++ third.messages.filter isOutbound) (waiting.handle history third) ∧
      (waiting.handle history third).1.toOption = none := by
  have hreach : waiting.Reachable := by
    have e : narrow.handle history first =
        (.ok [(received 4 10 1003 1005).fillFrom (sent 4 10 1003)],
          (narrow.handle history first).2) := by rfl
    exact .prune (.accept (.fresh 1 none) e) 10
  have hin : ((second.messages.filter isInbound).map (·.hash)).Nodup ∧
      ((third.messages.filter isInbound).map (·.hash)).Nodup := by decide
  have hsecond := @hreach.settlement _ second history hin.1
  have hthird := @hreach.settlement _ third history hin.2
  rw [waiting_eq] at hreach hsecond hthird ⊢
  exact ⟨hreach, hin.1, by decide, hsecond (by decide), rfl, hin.2, by decide, hthird (by decide),
    rfl⟩

end Linker

end ShardIndex
