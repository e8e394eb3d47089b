import ShardIndex.Proofs.Forward.Conservation
import ShardIndex.Proofs.Forward.History
import ShardIndex.Proofs.Linkage.Eviction
/-!
# How many records a sink retains

A sink whose commits are refused in any pattern is asked anything (`Sink.Call`). Its bundles are
numbered: every transaction names the master block that the bundle is of (`MasterBundle.Numbered`).

After a step that committed a batch, and so had its linker pruned (`MessageLinker.prune`), the records of
all taken master blocks are within the capacity.
What is retained beyond it was sent by a bundle that was turned away: linking it, or reading its
payloads, failed after the linker had taken its records in (`Serving.retention`). Such a bundle
exceeds any capacity, since its master block is above the committed ones (`turned_away_retained`).

The invariant is `Sink.Retains`: a retained record was sent by a master block up to the last one that
was taken in, or by a bundle turned away. The batch ends with the last one taken in, so that pruning
after a commit reaches every record of the first kind.
-/
namespace ShardIndex

variable {σ : Type} {refuses : Nat → Bool}

/-! ## The records of a bundle -/

/-- Every transaction carries the number of the bundle, and its messages carry the transaction. -/
structure MasterBundle.Numbered (b : MasterBundle) : Prop where
  mapped : ∀ t ∈ b.transactions, t.Mapped
  seqno : ∀ t ∈ b.transactions, t.masterSeqno = b.seqno

theorem MasterBundle.Numbered.outbound {b : MasterBundle} (h : b.Numbered) {m : Message}
    (hm : m ∈ b.messages) (hout : m.isOutbound) :
    m.sourceMaster? = some b.seqno ∧ m.destination.tx = none := by
  obtain ⟨t, ht, hmt⟩ := List.mem_flatMap.1 hm
  have hmapped := h.mapped t ht
  rcases List.mem_append.1 hmt with hin | ho
  · have hnone := (hmapped.incoming m (Option.mem_toList.1 hin)).1
    have hsome := (Linker.isOutbound_iff.1 hout).2
    rw [hnone] at hsome
    cases hsome
  · obtain ⟨hsource, hdestination, -⟩ := hmapped.outgoing m ho
    refine ⟨?_, hdestination⟩
    rw [Message.sourceMaster?, hsource, Option.map_some, Transaction.ref, h.seqno t ht]

namespace Linker

open Message

variable {l : Linker} {m x : Message}

theorem link_buffer (h : Buffer l.retained) (hm : m.isOutbound → m.destination.tx = none) :
    Buffer (l.link m).2.retained := by
  rcases record_cases m with hk | hk | hk
  · rw [link_external hk]
    exact h
  · rw [link_outbound hk]
    split
    · exact h
    · refine Buffer.concat (h.sublist List.filter_sublist) ?_ (isOutbound_iff.1 hk).2 (hm hk)
      exact fun x hx => (mem_dropMessage.1 hx).2
  · rw [link_inbound hk]
    split
    · exact h.sublist List.filter_sublist
    · exact h

/-- One record adds itself at most. -/
theorem mem_link (hx : x ∈ (l.link m).2.retained) : x ∈ l.retained ∨ x = m ∧ m.isOutbound := by
  rcases record_cases m with hk | hk | hk
  · rw [link_external hk] at hx
    exact .inl hx
  · rw [link_outbound hk] at hx
    split at hx
    · exact .inl hx
    · rcases List.mem_append.1 hx with hx | hx
      · exact .inl (mem_dropMessage.1 hx).1
      · exact .inr ⟨List.mem_singleton.1 hx, hk⟩
  · rw [link_inbound hk] at hx
    split at hx
    · exact .inl (mem_dropMessage.1 hx).1
    · exact .inl hx

theorem linkAll_buffer (ms : List Message) (h : Buffer l.retained)
    (hms : ∀ m ∈ ms, m.isOutbound → m.destination.tx = none) :
    Buffer (linkAll l ms).2.retained := by
  induction ms generalizing l with
  | nil => exact h
  | cons m ms ih =>
    rw [linkAll_cons]
    exact ih (link_buffer h (hms m List.mem_cons_self)) fun x hx => hms x (List.mem_cons_of_mem _ hx)

theorem mem_linkAll (ms : List Message) (hx : x ∈ (linkAll l ms).2.retained) :
    x ∈ l.retained ∨ x ∈ ms ∧ x.isOutbound := by
  induction ms generalizing l with
  | nil => exact .inl hx
  | cons m ms ih =>
    rw [linkAll_cons] at hx
    rcases ih hx with hx | ⟨hx, hout⟩
    · rcases mem_link hx with hx | ⟨rfl, hout⟩
      · exact .inl hx
      · exact .inr ⟨List.mem_cons_self, hout⟩
    · exact .inr ⟨List.mem_cons_of_mem _ hx, hout⟩

theorem handle_buffer (history : Hash → Option MessageSource) {b : MasterBundle} (hb : b.Numbered)
    (h : Buffer l.retained) : Buffer (l.handle history b).2.retained :=
  linkAll_buffer b.messages h fun _ hm hout => (hb.outbound hm hout).2

/-- A bundle adds records that it sends, whether it is refused or not. -/
theorem mem_handle (history : Hash → Option MessageSource) {b : MasterBundle} (hb : b.Numbered)
    (hx : x ∈ (l.handle history b).2.retained) :
    x ∈ l.retained ∨ x ∈ b.messages ∧ x.sourceMaster? = some b.seqno := by
  rcases mem_linkAll b.messages hx with hx | ⟨hx, hout⟩
  · exact .inl hx
  · exact .inr ⟨hx, (hb.outbound hx hout).1⟩

end Linker

/-! ## One call -/

namespace Sink

theorem le_successor (n : UInt32) : n ≤ successor n := by
  unfold successor
  split
  · exact UInt32.le_refl _
  · next h =>
    rw [UInt32.le_iff_toNat_le, UInt32.toNat_add]
    have hne : n.toNat ≠ 4294967295 := fun e => h (UInt32.toNat_inj.1 e)
    have hlt := n.toNat_lt
    simp only [UInt32.toNat_one]
    omega

/-- What a sink retains between calls, when the bundles turned away have left the records `left`. -/
structure Retains (s : Sink) (left : Message → Prop) : Prop where
  buffer : Linker.Buffer s.linker.retained
  origin : ∀ m ∈ s.linker.retained, (∃ n, s.lastSeqno = some n ∧ m.sentBy n) ∨ left m
  last : ∀ n, s.batch.masters.getLast? = some n → s.lastSeqno = some n

/-- After a commit, the sink retains no more than it may, but for records of later master blocks. -/
structure WithinCapacity (s : Sink) : Prop where
  flushed : s.batch.masters = []
  size : ∃ last, s.lastSeqno = some last ∧ s.linker.retained.length ≤
    max s.linker.capacity (s.linker.retained.countP fun m => !m.sentBy last)

section call

variable {read : PayloadReader σ} {s : Sink} {b : MasterBundle} {w : Contested σ refuses}
  {r : (Except Fault Unit × Sink) × Contested σ refuses} {left : Message → Prop}

theorem Retains.mono {left' : Message → Prop} (h : s.Retains left) (hl : ∀ m, left m → left' m) :
    s.Retains left' where
  buffer := h.buffer
  origin m hm := (h.origin m hm).imp_right (hl m)
  last := h.last

theorem Retains.flushes (h : s.Retains left) (hf : Flushes s w r) : r.1.2.Retains left := by
  cases hf with
  | nothing => exact h
  | @committed w' last n hlast =>
    have hsub := Linker.Buffer.prune_sublist s.linker last
    exact ⟨h.buffer.sublist hsub, fun m hm => h.origin m (hsub.subset hm), by simp⟩
  | refused => exact h

/-- An attempt that is not refused is followed by the pruning of all that is committed. -/
theorem Retains.within (h : s.Retains left) (hf : Flushes s w r)
    (hmade : ∃ made, r.2.attempts = w.attempts ++ made ∧ ∃ a ∈ made, a.refused = false) :
    r.1.2.WithinCapacity := by
  obtain ⟨made, hattempts, a, ha, hok⟩ := hmade
  cases hf with
  | nothing =>
    rw [List.self_eq_append_right.1 hattempts] at ha
    cases ha
  | @committed w' last n hlast hn hstore hdone =>
    have hprune := h.buffer.prunes last
    refine ⟨rfl, last, h.last last hlast, ?_⟩
    change (s.linker.prune last).retained.length ≤ max s.linker.capacity _
    rcases Nat.le_total s.linker.capacity s.linker.retained.length with hc | hc
    · rw [hprune.later]
      exact Nat.le_of_eq (hprune.size hc)
    · rw [hprune.within hc]
      exact Nat.le_trans hc (Nat.le_max_left ..)
  | @refused w' last hlast hstore hdone =>
    rw [hdone, List.append_cancel_left_eq] at hattempts
    rw [← hattempts] at ha
    rw [List.eq_of_mem_replicate ha] at hok
    cases hok

/-- Taking a bundle in makes it the last one. -/
theorem Retains.taken (h : s.Retains left) (hb : b.Numbered)
    (hnext : ∀ n, s.expected = some n → b.seqno = n) (history : Hash → Option MessageSource)
    (rows : List Message) : (s.taken b (s.linker.handle history b).2 rows).Retains left where
  buffer := Linker.handle_buffer history hb h.buffer
  origin m hm := by
    rcases Linker.mem_handle history hb hm with hm | ⟨-, hsource⟩
    · refine (h.origin m hm).imp_left ?_
      rintro ⟨n, hn, hsent⟩
      have he : b.seqno = successor n := hnext _ (by rw [expected, hn, Option.map_some])
      exact ⟨b.seqno, rfl, Message.sentBy_mono (he ▸ le_successor n) hsent⟩
    · exact .inl ⟨b.seqno, rfl, Message.sentBy_iff.2 ⟨_, hsource, UInt32.le_refl _⟩⟩
  last n hn := by
    simp only [Sink.taken, Batch.add, List.getLast?_concat, Option.some.injEq] at hn
    exact congrArg some hn

/-- The bundle is turned away: it is answered with a fault, and nothing was tried with the store. -/
def TurnsAway (w : Contested σ refuses)
    (r : (Except Fault Unit × Sink) × Contested σ refuses) : Prop :=
  (∃ fault, r.1.1 = .error fault) ∧ r.2.attempts = w.attempts

theorem Retains.turnedAway (h : s.Retains left) (hb : b.Numbered)
    (history : Hash → Option MessageSource) :
    ({ s with linker := (s.linker.handle history b).2 } : Sink).Retains fun m =>
      left m ∨ m ∈ b.messages ∧ m.sourceMaster? = some b.seqno where
  buffer := Linker.handle_buffer history hb h.buffer
  origin m hm := by
    rcases Linker.mem_handle history hb hm with hm | hm
    · exact (h.origin m hm).imp_right .inl
    · exact .inr (.inr hm)
  last := h.last

theorem Retains.receives (h : s.Retains left) (hb : b.Numbered) (hr : Receives read s b w r) :
    r.1.2.Retains fun m =>
      left m ∨ TurnsAway w r ∧ m ∈ b.messages ∧ m.sourceMaster? = some b.seqno := by
  cases hr with
  | outOfOrder => exact h.mono fun _ => .inl
  | @unlinked fault linker hlink =>
    have hl : linker = (s.linker.handle w.store.findSource b).2 := by rw [hlink]
    subst hl
    exact (h.turnedAway hb _).mono fun m => Or.imp_right fun hm => ⟨⟨⟨fault, rfl⟩, rfl⟩, hm⟩
  | @unread ms linker fault p hlink =>
    have hl : linker = (s.linker.handle w.store.findSource b).2 := by rw [hlink]
    subst hl
    exact (h.turnedAway hb _).mono fun m => Or.imp_right fun hm => ⟨⟨⟨fault, rfl⟩, rfl⟩, hm⟩
  | @waiting ms rows linker p hnext hlink =>
    have hl : linker = (s.linker.handle w.store.findSource b).2 := by rw [hlink]
    subst hl
    exact (h.taken hb hnext _ rows).mono fun _ => .inl
  | @flushed ms rows linker p r hnext hlink hread hflush =>
    have hl : linker = (s.linker.handle w.store.findSource b).2 := by rw [hlink]
    subst hl
    exact ((h.taken hb hnext _ rows).flushes hflush).mono fun _ => .inl

theorem Retains.within_of_receives (h : s.Retains left) (hb : b.Numbered)
    (hr : Receives read s b w r)
    (hmade : ∃ made, r.2.attempts = w.attempts ++ made ∧ ∃ a ∈ made, a.refused = false) :
    r.1.2.WithinCapacity := by
  have hno : ∀ p, ¬ ∃ made, ({ w with reader := p } : Contested σ refuses).attempts =
      w.attempts ++ made ∧ ∃ a ∈ made, a.refused = false := by
    rintro p ⟨made, hnone, a, ha, -⟩
    rw [List.self_eq_append_right.1 hnone] at ha
    cases ha
  cases hr with
  | outOfOrder => exact absurd hmade (hno w.reader)
  | unlinked => exact absurd hmade (hno w.reader)
  | @unread ms linker fault p => exact absurd hmade (hno p)
  | @waiting ms rows linker p => exact absurd hmade (hno p)
  | @flushed ms rows linker p r hnext hlink hread hflush =>
    have hl : linker = (s.linker.handle w.store.findSource b).2 := by rw [hlink]
    subst hl
    exact (h.taken hb hnext _ rows).within hflush hmade

end call

end Sink

/-! ## Runs -/

namespace Step

/-- The step commits a batch: one of its attempts is not refused. -/
def Commits (t : Step σ refuses) : Prop :=
  ∃ made, t.after.world.attempts = t.before.world.attempts ++ made ∧ ∃ a ∈ made, a.refused = false

/-- The step turns the bundle away with a fault, before any attempt to commit. -/
structure TurnsAway (t : Step σ refuses) (b : MasterBundle) : Prop where
  call : t.call = .receive b
  answer : ∃ fault, t.answer = .error fault
  untried : t.after.world.attempts = t.before.world.attempts

end Step

/-- The message was sent by a bundle that one of the steps turned away. -/
def LeftBy (ts : List (Step σ refuses)) (m : Message) : Prop :=
  ∃ t ∈ ts, ∃ b, t.TurnsAway b ∧ m ∈ b.messages ∧ m.sourceMaster? = some b.seqno

/-- What a sink retains after the steps `ts`, the last of which committed a batch. -/
structure Retention (s : Sink) (ts : List (Step σ refuses)) : Prop where
  /-- All that waited was committed. -/
  flushed : s.batch.masters = []
  /-- What is retained of later master blocks was sent by bundles turned away. -/
  bound : ∃ last, s.lastSeqno = some last ∧
    s.linker.retained.length ≤
      max s.linker.capacity (s.linker.retained.countP fun m => !m.sentBy last) ∧
    ∀ m ∈ s.linker.retained, m.sentBy last = false → LeftBy ts m
  within : (∀ t ∈ ts, ∀ b, ¬ t.TurnsAway b) → s.linker.retained.length ≤ s.linker.capacity

namespace Serving

section

variable {read : PayloadReader σ} {start v : Serving σ refuses}

theorem retains_step (read : PayloadReader σ) {ts : List (Step σ refuses)} (h : v.sink.Retains (LeftBy ts)) {c : Sink.Call}
    (hc : ∀ b, c = .receive b → b.Numbered) :
    (v.step read c).after.sink.Retains (LeftBy (ts ++ [v.step read c])) := by
  have hmono : ∀ m, LeftBy ts m → LeftBy (ts ++ [v.step read c]) m := by
    rintro m ⟨t, ht, hm⟩
    exact ⟨t, List.mem_append_left _ ht, hm⟩
  cases c with
  | flush => exact (h.flushes (Sink.flushes_flush v.sink v.world)).mono hmono
  | receive b =>
    refine (h.receives (hc b rfl) (Sink.receives_handle read v.sink b v.world)).mono ?_
    rintro m (hm | ⟨⟨hanswer, hattempts⟩, hm⟩)
    · exact hmono m hm
    · exact ⟨_, List.mem_append_right _ List.mem_cons_self, b, ⟨rfl, hanswer, hattempts⟩, hm⟩

theorem within_step {left : Message → Prop} (h : v.sink.Retains left) {c : Sink.Call}
    (hc : ∀ b, c = .receive b → b.Numbered) (hcommits : (v.step read c).Commits) :
    (v.step read c).after.sink.WithinCapacity := by
  cases c with
  | flush => exact h.within (Sink.flushes_flush v.sink v.world) hcommits
  | receive b =>
    exact h.within_of_receives (hc b rfl) (Sink.receives_handle read v.sink b v.world) hcommits

theorem retains_after (read : PayloadReader σ) (hstart : start.Fresh) (hempty : start.sink.linker.retained = [])
    (cs : List Sink.Call) (hcs : ∀ b, .receive b ∈ cs → b.Numbered) :
    (start.after read cs).sink.Retains (LeftBy (start.steps read cs)) := by
  induction cs using List.reverseRecOn with
  | nil =>
    constructor
    case buffer => exact hempty ▸ .nil
    case origin => simp [after, hempty]
    case last => simp [after, hstart.batch]
  | append_singleton cs c ih =>
    rw [steps_concat, after_concat]
    refine retains_step read (ih fun b hb => hcs b (List.mem_append_left _ hb)) ?_
    rintro b rfl
    exact hcs b (by simp)

/-- The step that commits a batch turns nothing away itself. -/
theorem leftBy_of_commits {ts : List (Step σ refuses)} {t : Step σ refuses} {m : Message}
    (ht : t.Commits) (h : LeftBy (ts ++ [t]) m) : LeftBy ts m := by
  obtain ⟨u, hu, b, hb, hm⟩ := h
  rcases List.mem_append.1 hu with hu | hu
  · exact ⟨u, hu, b, hb, hm⟩
  · obtain rfl := List.mem_singleton.1 hu
    obtain ⟨made, hattempts, a, ha, -⟩ := ht
    rw [hb.untried] at hattempts
    rw [List.self_eq_append_right.1 hattempts] at ha
    cases ha

theorem retention_of_within {s : Sink} {ts : List (Step σ refuses)}
    (horigin : ∀ m ∈ s.linker.retained, (∃ n, s.lastSeqno = some n ∧ m.sentBy n) ∨ LeftBy ts m)
    (hw : s.WithinCapacity) : Retention s ts := by
  obtain ⟨last, hlast, hsize⟩ := hw.size
  have hlater : ∀ m ∈ s.linker.retained, m.sentBy last = false → LeftBy ts m := by
    intro m hm hn
    rcases horigin m hm with ⟨n, hn', hsent⟩ | hleft
    · rw [hlast] at hn'
      cases hn'
      rw [hn] at hsent
      cases hsent
    · exact hleft
  refine ⟨hw.flushed, ⟨last, hlast, hsize, hlater⟩, fun hnone => ?_⟩
  have hcount : (s.linker.retained.countP fun m => !m.sentBy last) = 0 := by
    refine List.countP_eq_zero.2 fun m hm hn => ?_
    obtain ⟨t, ht, b, hb, -⟩ := hlater m hm (by simpa using hn)
    exact hnone t ht b hb
  rwa [hcount, Nat.max_zero] at hsize

/-- What pruning does to any buffer, and what a sink retains after any calls of which the last one
committed a batch. -/
theorem retention (read : PayloadReader σ) (hstart : start.Fresh) (hempty : start.sink.linker.retained = [])
    (cs : List Sink.Call) (c : Sink.Call) (hcs : ∀ b, .receive b ∈ cs ++ [c] → b.Numbered) :
    (∀ (l : Linker) (committed : UInt32), Linker.Buffer l.retained →
      Linker.Buffer.Prunes l committed (l.prune committed)) ∧
    (((start.after read cs).step read c).Commits →
      Retention ((start.after read cs).step read c).after.sink (start.steps read cs)) := by
  refine ⟨fun l committed h => h.prunes committed, fun hcommits => ?_⟩
  have hbefore := retains_after read hstart hempty cs
    fun b hb => hcs b (List.mem_append_left _ hb)
  have hc : ∀ b, c = .receive b → b.Numbered := by
    rintro b rfl
    exact hcs b (by simp)
  have hafter := retains_step read hbefore hc
  refine retention_of_within (fun m hm => ?_) (within_step hbefore hc hcommits)
  exact (hafter.origin m hm).imp_right (leftBy_of_commits hcommits)

end

/-! Nothing may be retained. The first bundle sends `7`, which is pruned with the commit. The second
one sends `8` and receives `9` from nowhere, which turns it away. -/

namespace RetentionSample

def reader : PayloadReader Unit :=
  fun _ => pure (.ok {})

theorem steady_empty : ({} : Store).refusals = 0 := rfl

theorem honest_nil (refuses : Nat → Bool) :
    ([] : List Attempt).map (·.refused) = (List.range ([] : List Attempt).length).map refuses := rfl

/-- An empty store, and no attempt yet. -/
def world (refuses : Nat → Bool) : Contested Unit refuses where
  store := {}
  steady := steady_empty
  reader := ()
  honest := honest_nil refuses

def start : Serving Unit fun _ => false where
  sink := {
    config := { masters := 2, retries := 0, retryDelay := 0 }
    linker := { capacity := 0 } }
  world := world _

theorem fresh_start : start.Fresh := ⟨rfl, rfl⟩

def first : MasterBundle :=
  Sample.bundle 1 (Sample.transaction 1 10 Sample.sender none [Sample.message])

def second : MasterBundle :=
  Sample.bundle 2 (Sample.transaction 2 20 Sample.sender (some { Sample.message with hash := 9 })
    [{ Sample.message with hash := 8 }])

def calls : List Sink.Call :=
  [.receive first, .receive second]

theorem numbered (n : UInt32) (t : WireTransaction) : (Sample.bundle n t).Numbered := by
  have htransactions : (Sample.bundle n t).transactions =
      [(t.toTransaction ⟨.masterchain, n, 0, 0⟩ n).labelMessages (some "wallet")] := rfl
  constructor
  case mapped =>
    intro u hu
    rw [htransactions, List.mem_singleton] at hu
    exact hu ▸ t.mapped _ _ _
  case seqno =>
    intro u hu
    rw [htransactions, List.mem_singleton] at hu
    exact hu ▸ rfl

theorem numbered_calls : ∀ b, .receive b ∈ calls ++ [.flush] → b.Numbered := by
  intro b hb
  simp only [calls, List.cons_append, List.nil_append, List.mem_cons, Sink.Call.receive.injEq,
    reduceCtorEq, List.not_mem_nil, or_false] at hb
  rcases hb with rfl | rfl
  · exact numbered 1 _
  · exact numbered 2 _

/-- Before the flush. -/
def waiting : Serving Unit fun _ => false :=
  start.after reader calls

def flushed : Step Unit fun _ => false :=
  waiting.step reader .flush

theorem buffer_waiting : Linker.Buffer waiting.sink.linker.retained := by
  have hm := retains_after reader fresh_start rfl calls
    fun b hb => numbered_calls b (List.mem_append_left _ hb)
  exact hm.buffer

theorem flushed_commits : flushed.Commits := by
  refine ⟨[.success waiting.world.store waiting.sink.batch.writes], rfl, _, List.mem_cons_self, rfl⟩

/-- Only the record of the committed master block goes. -/
theorem flushed_retained : flushed.after.sink.linker.retained.map (·.hash) = [8] := by
  have hprune : flushed.after.sink.linker = waiting.sink.linker.prune 1 := rfl
  rw [hprune, Linker.prune, Linker.evicted, List.mergeSort_of_pairwise]
  · rfl
  · have hone : (waiting.sink.linker.retained.filter fun m =>
        m.masterSeqno?.any fun n => decide (n ≤ 1)).length = 1 := rfl
    obtain ⟨m, e⟩ := List.length_eq_one_iff.1 hone
    rw [e]
    exact List.pairwise_singleton _ _

end RetentionSample

open RetentionSample in
theorem retention_sample :
    start.Fresh ∧ start.sink.linker.retained = [] ∧
      (∀ b, .receive b ∈ calls ++ [.flush] → b.Numbered) ∧
      Linker.Buffer waiting.sink.linker.retained ∧ flushed.Commits ∧
      waiting.sink.linker.retained.map (·.hash) = [7, 8] ∧
      Linker.Buffer.Prunes waiting.sink.linker 1 (waiting.sink.linker.prune 1) ∧
      Retention flushed.after.sink (start.steps reader calls) := by
  have hboth := retention reader fresh_start rfl calls .flush numbered_calls
  exact ⟨fresh_start, rfl, numbered_calls, buffer_waiting, flushed_commits, rfl,
    hboth.1 _ 1 buffer_waiting, hboth.2 flushed_commits⟩

open RetentionSample in
/-- A record above the capacity is retained after a commit: its bundle was turned away. -/
theorem turned_away_retained :
    start.Fresh ∧ start.sink.linker.retained = [] ∧
      (∀ b, .receive b ∈ calls ++ [.flush] → b.Numbered) ∧
      waiting.sink.batch.masters = [1] ∧ flushed.answer = .ok () ∧ flushed.Commits ∧
      flushed.after.sink.linker.capacity = 0 ∧
      flushed.after.sink.linker.retained.map (·.hash) = [8] ∧
      ¬ flushed.after.sink.linker.retained.length ≤ flushed.after.sink.linker.capacity := by
  have hlength : flushed.after.sink.linker.retained.length = 1 := by
    rw [← List.length_map (f := (·.hash)), flushed_retained]
    rfl
  refine ⟨fresh_start, rfl, numbered_calls, rfl, rfl, flushed_commits, rfl, flushed_retained, ?_⟩
  rw [hlength]
  exact Nat.not_succ_le_zero 0

end Serving

end ShardIndex
