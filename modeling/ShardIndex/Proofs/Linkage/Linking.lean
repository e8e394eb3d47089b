import Mathlib.Data.List.Nodup
import Mathlib.Data.List.Perm.Lattice
import ShardIndex.Linkage
/-!
# What the linker makes of a master block

The linker takes records one by one, and the two records of a message come in either order. The
result does not show the order. Let `ins` be the inbound records that are there before or come, and
`outs` the outbound ones.

* `completed ins outs` are the inbound records whose message has an outbound one, each filled from it.
  They come out, beside the external messages, which pass in their order.
* `unmatched ins outs` is left unresolved, `unmatched outs ins` is left retained.

`linkAll_eq` says so for any linker in which no message waits twice (`Linkable`). The step is
`completed_pair`: a record that meets its counterpart takes one pair out of both lists.
`handle_eq` adds the look-ups in history, which decide alone whether the block is accepted.
-/
namespace ShardIndex

namespace Message

def isInternal (m : Message) : Bool := m.kind == .internal

/-- The record of an internal message that its sender's transaction made. -/
def isOutbound (m : Message) : Bool := m.isInternal && m.source.tx.isSome

/-- The record of an internal message that its receiver's transaction made. -/
def isInbound (m : Message) : Bool := m.isInternal && m.source.tx.isNone

@[simp] theorem fillFrom_hash (m o : Message) : (m.fillFrom o).hash = m.hash := rfl
@[simp] theorem fillFrom_isInternal (m o : Message) : (m.fillFrom o).isInternal = m.isInternal := rfl

theorem isInternal_of_isInbound {m : Message} (h : m.isInbound) : m.isInternal := by
  simp only [isInbound, Bool.and_eq_true] at h
  exact h.1

theorem isInternal_of_isOutbound {m : Message} (h : m.isOutbound) : m.isInternal := by
  simp only [isOutbound, Bool.and_eq_true] at h
  exact h.1

end Message

namespace Linker

open Message

/-- The inbound records that find an outbound one, filled from it. -/
def completed (ins outs : List Message) : List Message :=
  ins.filterMap fun i => (findMessage i.hash outs).map i.fillFrom

/-- The records that find no counterpart. -/
def unmatched (own other : List Message) : List Message :=
  own.filter fun m => (findMessage m.hash other).isNone

/-! ## Looking records up -/

theorem mem_of_findMessage {h : Hash} {ms : List Message} {m : Message}
    (e : findMessage h ms = some m) : m ∈ ms ∧ m.hash = h :=
  ⟨List.mem_of_find?_eq_some e, by simpa using List.find?_some e⟩

theorem findMessage_eq_none {h : Hash} {ms : List Message} :
    findMessage h ms = none ↔ ∀ m ∈ ms, m.hash ≠ h := by
  simp [findMessage]

theorem findMessage_of_mem {m : Message} {ms : List Message} (hn : (ms.map (·.hash)).Nodup)
    (hm : m ∈ ms) : findMessage m.hash ms = some m := by
  cases e : findMessage m.hash ms with
  | none => exact absurd rfl (findMessage_eq_none.1 e m hm)
  | some x =>
    obtain ⟨hx, hh⟩ := mem_of_findMessage e
    rw [List.inj_on_of_nodup_map hn hx hm hh]

theorem findMessage_dropMessage_ne {h k : Hash} (hk : k ≠ h) (ms : List Message) :
    findMessage k (dropMessage h ms) = findMessage k ms := by
  simp only [findMessage, dropMessage, List.find?_filter]
  congr 1
  funext m
  by_cases e : m.hash = k
  · simp [e, hk]
  · simp [e]

theorem dropMessage_append (h : Hash) (xs ys : List Message) :
    dropMessage h (xs ++ ys) = dropMessage h xs ++ dropMessage h ys :=
  List.filter_append ..

theorem dropMessage_of_forall_ne {h : Hash} {ms : List Message} (hms : ∀ m ∈ ms, m.hash ≠ h) :
    dropMessage h ms = ms :=
  List.filter_eq_self.2 fun m hm => by simpa using hms m hm

theorem dropMessage_cons_self (m : Message) (ms : List Message) :
    dropMessage m.hash (m :: ms) = dropMessage m.hash ms := by
  simp [dropMessage]

theorem mem_dropMessage {h : Hash} {ms : List Message} {m : Message} :
    m ∈ dropMessage h ms ↔ m ∈ ms ∧ m.hash ≠ h := by
  simp [dropMessage]

theorem perm_cons_dropMessage {m : Message} {ms : List Message} (hn : (ms.map (·.hash)).Nodup)
    (hm : m ∈ ms) : ms.Perm (m :: dropMessage m.hash ms) := by
  have hd : (m :: dropMessage m.hash ms).Nodup :=
    List.nodup_cons.2 ⟨fun h => (mem_dropMessage.1 h).2 rfl, hn.of_map.filter _⟩
  refine (List.perm_ext_iff_of_nodup hn.of_map hd).2 fun x => ?_
  simp only [List.mem_cons, mem_dropMessage]
  constructor
  · intro hx
    by_cases e : x.hash = m.hash
    · exact Or.inl (List.inj_on_of_nodup_map hn hx hm e)
    · exact Or.inr ⟨hx, e⟩
  · rintro (rfl | ⟨hx, -⟩)
    · exact hm
    · exact hx

/-! ## A pair that meets -/

theorem completed_pair {i o : Message} {ins outs : List Message} (hins : (ins.map (·.hash)).Nodup)
    (houts : (outs.map (·.hash)).Nodup) (hi : i ∈ ins) (ho : o ∈ outs) (h : i.hash = o.hash) :
    (completed ins outs).Perm
      (i.fillFrom o :: completed (dropMessage i.hash ins) (dropMessage i.hash outs)) := by
  have hfind : findMessage i.hash outs = some o := h ▸ findMessage_of_mem houts ho
  have hrest : completed (dropMessage i.hash ins) outs =
      completed (dropMessage i.hash ins) (dropMessage i.hash outs) := by
    refine List.filterMap_congr fun j hj => ?_
    rw [findMessage_dropMessage_ne (mem_dropMessage.1 hj).2]
  have hp : (completed ins outs).Perm (completed (i :: dropMessage i.hash ins) outs) :=
    (perm_cons_dropMessage hins hi).filterMap _
  have hcons : completed (i :: dropMessage i.hash ins) outs =
      i.fillFrom o :: completed (dropMessage i.hash ins) outs := by
    simp [completed, hfind]
  rw [hcons, hrest] at hp
  exact hp

theorem unmatched_pair {h : Hash} {o : Message} {own other : List Message} (ho : o ∈ other)
    (e : o.hash = h) :
    unmatched own other = unmatched (dropMessage h own) (dropMessage h other) := by
  rw [unmatched, unmatched, dropMessage.eq_def h own, List.filter_filter]
  refine List.filter_congr fun j _ => ?_
  by_cases hj : j.hash = h
  · have hsome : (findMessage j.hash other).isNone = false := by
      rw [Bool.eq_false_iff]
      intro hn
      exact findMessage_eq_none.1 (Option.isNone_iff_eq_none.1 hn) o ho (e.trans hj.symm)
    simp [hsome, ← hj]
  · simp [findMessage_dropMessage_ne hj, hj]

/-! ## Records one by one -/

/-- A linker in which no message waits twice, nor with the records to come. -/
structure Linkable (l : Linker) (ms : List Message) : Prop where
  unresolved : ∀ m ∈ l.unresolved, m.isInbound
  retained : ∀ m ∈ l.retained, m.isOutbound
  apart : ∀ i ∈ l.unresolved, ∀ o ∈ l.retained, i.hash ≠ o.hash
  nodup_inbound : ((l.unresolved ++ ms.filter isInbound).map (·.hash)).Nodup
  nodup_outbound : ((l.retained ++ ms.filter isOutbound).map (·.hash)).Nodup

variable {l : Linker} {m : Message} {ms : List Message}

theorem link_external (hm : m.isInternal = false) : l.link m = (some m, l) := by
  have : m.kind ≠ .internal := by simpa [isInternal] using hm
  simp [link, this]

theorem isOutbound_iff : m.isOutbound ↔ m.kind = .internal ∧ m.source.tx.isSome := by
  simp [isOutbound, isInternal]

theorem isInbound_iff : m.isInbound ↔ m.kind = .internal ∧ m.source.tx.isSome = false := by
  simp [isInbound, isInternal]

theorem link_outbound (hm : m.isOutbound) : l.link m =
    match findMessage m.hash l.unresolved with
    | some i => (some (i.fillFrom m), { l with unresolved := dropMessage m.hash l.unresolved })
    | none => (none, { l with retained := dropMessage m.hash l.retained ++ [m] }) := by
  obtain ⟨hk, hs⟩ := isOutbound_iff.1 hm
  cases h : findMessage m.hash l.unresolved with
  | none => simp [link, hk, hs, h]
  | some i => simp [link, hk, hs, h]

theorem link_inbound (hm : m.isInbound) : l.link m =
    match findMessage m.hash l.retained with
    | some o => (some (m.fillFrom o), { l with retained := dropMessage m.hash l.retained })
    | none => (none, { l with unresolved := dropMessage m.hash l.unresolved ++ [m] }) := by
  obtain ⟨hk, hs⟩ := isInbound_iff.1 hm
  cases h : findMessage m.hash l.retained with
  | none => simp [link, hk, hs, h]
  | some o => simp [link, hk, hs, h]

theorem isOutbound_eq_false_of_isInbound (h : m.isInbound) : m.isOutbound = false := by
  obtain ⟨-, hs⟩ := isInbound_iff.1 h
  simp [isOutbound, hs]

theorem isInbound_eq_false_of_isOutbound (h : m.isOutbound) : m.isInbound = false := by
  rw [← Bool.not_eq_true]
  intro hi
  rw [isOutbound_eq_false_of_isInbound hi] at h
  cases h

theorem record_cases (m : Message) :
    m.isInternal = false ∨ m.isOutbound = true ∨ m.isInbound = true := by
  cases h : m.isInternal <;> cases hs : m.source.tx <;> simp [isOutbound, isInbound, h, hs]

/-- What `linkAll` returns, for given lists of inbound and outbound records. -/
structure Links (l : Linker) (ms ins outs : List Message) (r : List Message × Linker) : Prop where
  externals : (r.1.filter fun m => !m.isInternal) = ms.filter fun m => !m.isInternal
  internals : (r.1.filter isInternal).Perm (completed ins outs)
  linker : r.2 = { l with unresolved := unmatched ins outs, retained := unmatched outs ins }

section step

variable {ins outs : List Message} {r : List Message × Linker}

/-- An external message in front. -/
theorem Links.cons_external (h : Links l ms ins outs r) (hm : m.isInternal = false) :
    Links l (m :: ms) ins outs (m :: r.1, r.2) where
  externals := by simp [hm, h.externals]
  internals := by simpa [hm] using h.internals
  linker := h.linker

/-- A record in front that is kept. -/
theorem Links.cons_kept {l' : Linker} (h : Links l' ms ins outs r) (hm : m.isInternal)
    (hl : { l' with unresolved := l.unresolved, retained := l.retained } = l) :
    Links l (m :: ms) ins outs r where
  externals := by simp [hm, h.externals]
  internals := h.internals
  linker := by rw [h.linker, ← hl]

/-- A record in front that meets its counterpart. -/
theorem Links.cons_pair {l' : Linker} {i o : Message}
    (h : Links l' ms (dropMessage i.hash ins) (dropMessage i.hash outs) r) (hm : m.isInternal)
    (hl : { l' with unresolved := l.unresolved, retained := l.retained } = l)
    (hins : (ins.map (·.hash)).Nodup) (houts : (outs.map (·.hash)).Nodup) (hi : i ∈ ins)
    (ho : o ∈ outs) (he : i.hash = o.hash) (hk : i.isInternal) :
    Links l (m :: ms) ins outs (i.fillFrom o :: r.1, r.2) where
  externals := by simp [hm, hk, h.externals]
  internals := by
    refine List.Perm.trans ?_ (completed_pair hins houts hi ho he).symm
    simpa [hk] using h.internals
  linker := by
    rw [h.linker, ← unmatched_pair ho he.symm, ← unmatched_pair hi rfl, ← hl]

end step

/-- Dropping the one record of a message from the end of a list. -/
theorem dropMessage_append_cons {x : Message} {xs ys : List Message}
    (hn : ((xs ++ x :: ys).map (·.hash)).Nodup) :
    dropMessage x.hash (xs ++ x :: ys) = xs ++ ys := by
  simp only [List.map_append, List.map_cons, List.nodup_append, List.nodup_cons] at hn
  obtain ⟨-, ⟨hy, -⟩, hx⟩ := hn
  rw [dropMessage_append, dropMessage_cons_self]
  congr 1
  · exact dropMessage_of_forall_ne fun m hm =>
      hx _ (List.mem_map_of_mem hm) _ List.mem_cons_self
  · exact dropMessage_of_forall_ne fun m hm e => hy (e ▸ List.mem_map_of_mem hm)

/-- Dropping a record that waits leaves the records to come. -/
theorem dropMessage_append_of_mem {x : Message} {xs ys : List Message}
    (hn : ((xs ++ ys).map (·.hash)).Nodup) (hx : x ∈ xs) :
    dropMessage x.hash (xs ++ ys) = dropMessage x.hash xs ++ ys := by
  rw [List.map_append] at hn
  rw [dropMessage_append]
  congr 1
  exact dropMessage_of_forall_ne fun m hm e =>
    (List.nodup_append.1 hn).2.2 _ (List.mem_map_of_mem hx) _ (List.mem_map_of_mem hm) e.symm

/-! ## All records of a block -/

theorem linkAll_cons (l : Linker) (m : Message) (ms : List Message) :
    linkAll l (m :: ms) =
      ((l.link m).1.toList ++ (linkAll (l.link m).2 ms).1, (linkAll (l.link m).2 ms).2) := rfl

/-- With nothing to come, all that waits goes on waiting. -/
theorem Links.nil (h : Linkable l []) : Links l [] l.unresolved l.retained ([], l) := by
  have hu : completed l.unresolved l.retained = [] := by
    refine List.filterMap_eq_nil_iff.2 ?_
    intro i hi
    rw [findMessage_eq_none.2 fun o ho => (h.apart i hi o ho).symm]
    rfl
  have hins : unmatched l.unresolved l.retained = l.unresolved := by
    refine List.filter_eq_self.2 ?_
    intro i hi
    rw [findMessage_eq_none.2 fun o ho => (h.apart i hi o ho).symm]
    rfl
  have houts : unmatched l.retained l.unresolved = l.retained := by
    refine List.filter_eq_self.2 ?_
    intro o ho
    rw [findMessage_eq_none.2 fun i hi => h.apart i hi o ho]
    rfl
  constructor <;> simp [hu, hins, houts]

namespace Linkable

theorem filter_outbound (hm : m.isOutbound) (ms : List Message) :
    (m :: ms).filter isInbound = ms.filter isInbound ∧
      (m :: ms).filter isOutbound = m :: ms.filter isOutbound := by
  simp [hm, isInbound_eq_false_of_isOutbound hm]

theorem filter_inbound (hm : m.isInbound) (ms : List Message) :
    (m :: ms).filter isInbound = m :: ms.filter isInbound ∧
      (m :: ms).filter isOutbound = ms.filter isOutbound := by
  simp [hm, isOutbound_eq_false_of_isInbound hm]

theorem filter_external (hm : m.isInternal = false) (ms : List Message) :
    (m :: ms).filter isInbound = ms.filter isInbound ∧
      (m :: ms).filter isOutbound = ms.filter isOutbound := by
  simp [isInbound, isOutbound, hm]

theorem nodup_of_outbound (h : Linkable l (m :: ms)) (hm : m.isOutbound) :
    ((l.unresolved ++ ms.filter isInbound).map (·.hash)).Nodup ∧
      ((l.retained ++ m :: ms.filter isOutbound).map (·.hash)).Nodup := by
  obtain ⟨hin, hout⟩ := filter_outbound hm ms
  exact ⟨hin ▸ h.nodup_inbound, hout ▸ h.nodup_outbound⟩

theorem nodup_of_inbound (h : Linkable l (m :: ms)) (hm : m.isInbound) :
    ((l.unresolved ++ m :: ms.filter isInbound).map (·.hash)).Nodup ∧
      ((l.retained ++ ms.filter isOutbound).map (·.hash)).Nodup := by
  obtain ⟨hin, hout⟩ := filter_inbound hm ms
  exact ⟨hin ▸ h.nodup_inbound, hout ▸ h.nodup_outbound⟩

/-- No record of the list has the digest of the one that comes after it. -/
theorem ne_of_nodup {xs ys : List Message} (hn : ((xs ++ m :: ys).map (·.hash)).Nodup) :
    ∀ x ∈ xs, x.hash ≠ m.hash := by
  intro x hx e
  rw [List.map_append, List.map_cons, List.nodup_append] at hn
  exact hn.2.2 _ (List.mem_map_of_mem hx) _ List.mem_cons_self e

theorem external (h : Linkable l (m :: ms)) (hm : m.isInternal = false) : Linkable l ms := by
  obtain ⟨hin, hout⟩ := filter_external hm ms
  exact ⟨h.unresolved, h.retained, h.apart, hin ▸ h.nodup_inbound, hout ▸ h.nodup_outbound⟩

/-- An outbound record settles the inbound one that waits for it. -/
theorem settle (h : Linkable l (m :: ms)) (hm : m.isOutbound) :
    Linkable { l with unresolved := dropMessage m.hash l.unresolved } ms := by
  obtain ⟨hni, hno⟩ := h.nodup_of_outbound hm
  refine ⟨fun x hx => h.unresolved x (mem_dropMessage.1 hx).1, h.retained,
    fun x hx => h.apart x (mem_dropMessage.1 hx).1, hni.sublist ?_, hno.sublist ?_⟩
  · exact (List.filter_sublist.append_right _).map _
  · exact ((List.sublist_cons_self m _).append_left _).map _

/-- An outbound record that nobody waits for is retained. -/
theorem retain (h : Linkable l (m :: ms)) (hm : m.isOutbound)
    (hnone : ∀ i ∈ l.unresolved, i.hash ≠ m.hash) :
    Linkable { l with retained := l.retained ++ [m] } ms := by
  obtain ⟨hni, hno⟩ := h.nodup_of_outbound hm
  refine ⟨h.unresolved, ?_, ?_, hni, by simpa using hno⟩
  · intro x hx
    rcases List.mem_append.1 hx with hx | hx
    · exact h.retained x hx
    · exact List.mem_singleton.1 hx ▸ hm
  · intro i hi o ho
    rcases List.mem_append.1 ho with ho | ho
    · exact h.apart i hi o ho
    · exact List.mem_singleton.1 ho ▸ hnone i hi

/-- An inbound record uses the outbound one that is retained for it. -/
theorem use (h : Linkable l (m :: ms)) (hm : m.isInbound) :
    Linkable { l with retained := dropMessage m.hash l.retained } ms := by
  obtain ⟨hni, hno⟩ := h.nodup_of_inbound hm
  refine ⟨h.unresolved, fun x hx => h.retained x (mem_dropMessage.1 hx).1,
    fun i hi x hx => h.apart i hi x (mem_dropMessage.1 hx).1, hni.sublist ?_, hno.sublist ?_⟩
  · exact ((List.sublist_cons_self m _).append_left _).map _
  · exact (List.filter_sublist.append_right _).map _

/-- An inbound record without an outbound one waits. -/
theorem await (h : Linkable l (m :: ms)) (hm : m.isInbound)
    (hnone : ∀ o ∈ l.retained, o.hash ≠ m.hash) :
    Linkable { l with unresolved := l.unresolved ++ [m] } ms := by
  obtain ⟨hni, hno⟩ := h.nodup_of_inbound hm
  refine ⟨?_, h.retained, ?_, by simpa using hni, hno⟩
  · intro x hx
    rcases List.mem_append.1 hx with hx | hx
    · exact h.unresolved x hx
    · exact List.mem_singleton.1 hx ▸ hm
  · intro i hi o ho
    rcases List.mem_append.1 hi with hi | hi
    · exact h.apart i hi o ho
    · exact List.mem_singleton.1 hi ▸ (hnone o ho).symm

end Linkable

/-- What taking in all records of a block comes to. -/
def LinksAll (l : Linker) (ms : List Message) : Prop :=
  Links l ms (l.unresolved ++ ms.filter isInbound) (l.retained ++ ms.filter isOutbound) (linkAll l ms)

section step

variable (h : Linkable l (m :: ms)) (ih : ∀ l, Linkable l ms → LinksAll l ms)

include h ih

theorem linksAll_external (hm : m.isInternal = false) : LinksAll l (m :: ms) := by
  obtain ⟨hin, hout⟩ := Linkable.filter_external hm ms
  rw [LinksAll, hin, hout, linkAll_cons, link_external hm]
  exact (ih l (h.external hm)).cons_external hm

theorem linksAll_outbound (hm : m.isOutbound) : LinksAll l (m :: ms) := by
  obtain ⟨hni, hno⟩ := h.nodup_of_outbound hm
  obtain ⟨hin, hout⟩ := Linkable.filter_outbound hm ms
  rw [LinksAll, hin, hout, linkAll_cons, link_outbound hm]
  cases hf : findMessage m.hash l.unresolved with
  | some i =>
    obtain ⟨hiU, hih⟩ := mem_of_findMessage hf
    have hrec := ih _ (h.settle hm)
    unfold LinksAll at hrec
    rw [← hih, ← dropMessage_append_of_mem hni hiU, ← dropMessage_append_cons hno, ← hih] at hrec
    rw [← hih]
    exact hrec.cons_pair (isInternal_of_isOutbound hm) rfl hni hno
      (List.mem_append_left _ hiU) (by simp) hih (isInternal_of_isInbound (h.unresolved i hiU))
  | none =>
    have hrec := ih _ (h.retain hm (findMessage_eq_none.1 hf))
    unfold LinksAll at hrec
    rw [List.append_assoc, List.singleton_append] at hrec
    rw [dropMessage_of_forall_ne (Linkable.ne_of_nodup hno)]
    exact hrec.cons_kept (isInternal_of_isOutbound hm) rfl

theorem linksAll_inbound (hm : m.isInbound) : LinksAll l (m :: ms) := by
  obtain ⟨hni, hno⟩ := h.nodup_of_inbound hm
  obtain ⟨hin, hout⟩ := Linkable.filter_inbound hm ms
  rw [LinksAll, hin, hout, linkAll_cons, link_inbound hm]
  cases hf : findMessage m.hash l.retained with
  | some o =>
    obtain ⟨hoR, hoh⟩ := mem_of_findMessage hf
    have hrec := ih _ (h.use hm)
    unfold LinksAll at hrec
    rw [← hoh, ← dropMessage_append_of_mem hno hoR, ← dropMessage_append_cons hni, hoh] at hrec
    exact hrec.cons_pair (isInternal_of_isInbound hm) rfl hni hno (by simp)
      (List.mem_append_left _ hoR) hoh.symm (isInternal_of_isInbound hm)
  | none =>
    have hrec := ih _ (h.await hm (findMessage_eq_none.1 hf))
    unfold LinksAll at hrec
    rw [List.append_assoc, List.singleton_append] at hrec
    rw [dropMessage_of_forall_ne (Linkable.ne_of_nodup hni)]
    exact hrec.cons_kept (isInternal_of_isInbound hm) rfl

end step

/-- The records of a block, taken one by one. -/
theorem linkAll_eq (ms : List Message) (l : Linker) (h : Linkable l ms) : LinksAll l ms := by
  induction ms generalizing l with
  | nil =>
    rw [LinksAll, List.filter_nil, List.filter_nil, List.append_nil, List.append_nil]
    exact Links.nil h
  | cons m ms ih =>
    rcases record_cases m with hm | hm | hm
    · exact linksAll_external h ih hm
    · exact linksAll_outbound h ih hm
    · exact linksAll_inbound h ih hm

/-! ## What history adds -/

/-- An inbound record with what history knows of its source, if it knows any. -/
def recover (history : Hash → Option MessageSource) (m : Message) : Message :=
  (history m.hash).elim m (withSource m)

/-- Whether an inbound record can be committed without an outbound one. -/
def Excused (history : Hash → Option MessageSource) (start : Option UInt64) (m : Message) : Prop :=
  (history m.hash).isSome ∨ exempt start m

instance (history : Hash → Option MessageSource) (start : Option UInt64) (m : Message) :
    Decidable (Excused history start m) := by
  unfold Excused; infer_instance

section history

variable {history : Hash → Option MessageSource} {start : Option UInt64} {master : UInt32}

theorem resolve_eq_ok {ms : List Message} (h : ∀ m ∈ ms, Excused history start m) :
    resolve history start master ms = .ok (ms.map (recover history)) := by
  induction ms with
  | nil => rfl
  | cons m ms ih =>
    have ih := ih fun x hx => h x (List.mem_cons_of_mem _ hx)
    have hm := h m List.mem_cons_self
    cases hs : history m.hash with
    | some s =>
      simp only [resolve, hs, ih, List.map_cons, recover, Option.elim]
      rfl
    | none =>
      have he : exempt start m = true := by simpa [Excused, hs] using hm
      simp only [resolve, hs, he, ih, List.map_cons, recover, Option.elim, if_true]
      rfl

/-- The first record that is not excused stops the block. -/
theorem resolve_eq_error {ms : List Message} (h : ∃ m ∈ ms, ¬ Excused history start m) :
    ∃ m ∈ ms, ¬ Excused history start m ∧
      resolve history start master ms =
        .error (.unknownSource master m.hash m.destination.address) := by
  induction ms with
  | nil => simp at h
  | cons m ms ih =>
    by_cases hm : Excused history start m
    · have hms : ∃ x ∈ ms, ¬ Excused history start x := by
        obtain ⟨x, hx, hn⟩ := h
        rcases List.mem_cons.1 hx with rfl | hx
        · exact absurd hm hn
        · exact ⟨x, hx, hn⟩
      obtain ⟨x, hx, hn, e⟩ := ih hms
      refine ⟨x, List.mem_cons_of_mem _ hx, hn, ?_⟩
      cases hs : history m.hash with
      | some s =>
        simp only [resolve, hs, e]
        rfl
      | none =>
        have he : exempt start m = true := by simpa [Excused, hs] using hm
        simp only [resolve, hs, he, e, if_true]
        rfl
    · refine ⟨m, List.mem_cons_self, hm, ?_⟩
      have hs : history m.hash = none := by
        rw [← Option.not_isSome_iff_eq_none]
        exact fun hs => hm (Or.inl hs)
      have he : exempt start m = false := by
        rw [← Bool.not_eq_true]
        exact fun he => hm (Or.inr he)
      simp [resolve, hs, he]

end history

/-- An inbound record as it is committed: filled from its outbound record, or else from history. -/
def settle (outs : List Message) (history : Hash → Option MessageSource) (i : Message) : Message :=
  (findMessage i.hash outs).elim (recover history i) i.fillFrom

/-- The completed and the recovered records together are the inbound records, settled. -/
theorem completed_append_recovered (history : Hash → Option MessageSource) (outs : List Message) :
    ∀ ins : List Message, (completed ins outs ++ (unmatched ins outs).map (recover history)).Perm
      (ins.map (settle outs history))
  | [] => .refl _
  | i :: ins => by
    have ih := completed_append_recovered history outs ins
    cases hf : findMessage i.hash outs with
    | some o =>
      have hc : completed (i :: ins) outs = i.fillFrom o :: completed ins outs := by
        simp [completed, hf]
      have hu : unmatched (i :: ins) outs = unmatched ins outs := by simp [unmatched, hf]
      rw [hc, hu, List.cons_append, List.map_cons]
      simpa [settle, hf] using ih.cons (i.fillFrom o)
    | none =>
      have hc : completed (i :: ins) outs = completed ins outs := by simp [completed, hf]
      have hu : unmatched (i :: ins) outs = i :: unmatched ins outs := by simp [unmatched, hf]
      rw [hc, hu, List.map_cons, List.map_cons]
      refine List.perm_middle.trans ?_
      simpa [settle, hf] using ih.cons (recover history i)

theorem recover_hash (history : Hash → Option MessageSource) (m : Message) :
    (recover history m).hash = m.hash := by
  unfold recover
  cases history m.hash <;> rfl

theorem recover_isInternal (history : Hash → Option MessageSource) (m : Message) :
    (recover history m).isInternal = m.isInternal := by
  unfold recover
  cases history m.hash <;> rfl

theorem settle_hash (outs : List Message) (history : Hash → Option MessageSource) (i : Message) :
    (settle outs history i).hash = i.hash := by
  unfold settle
  cases findMessage i.hash outs
  · exact recover_hash history i
  · rfl

theorem settle_isInternal (outs : List Message) (history : Hash → Option MessageSource) (i : Message) :
    (settle outs history i).isInternal = i.isInternal := by
  unfold settle
  cases findMessage i.hash outs
  · exact recover_isInternal history i
  · rfl

/-! ## A whole block -/

/-- Rows that are these external messages in this order and these internal ones in any order. -/
structure Lists (rows externals internals : List Message) : Prop where
  externals : (rows.filter fun m => !m.isInternal) = externals
  internals : (rows.filter isInternal).Perm internals

/-- Rewriting the internal rows and keeping the external ones. -/
theorem Lists.map {rows externals internals : List Message} (h : Lists rows externals internals)
    {f : Message → Message} (hf : ∀ m, (f m).isInternal = m.isInternal)
    (hex : ∀ m ∈ externals, f m = m) : Lists (rows.map f) externals (internals.map f) where
  externals := by
    have hcomp : ((fun m => !isInternal m) ∘ f) = fun m => !isInternal m := by
      funext m
      simp [hf]
    rw [List.filter_map, hcomp, h.externals]
    exact (List.map_congr_left hex).trans (List.map_id _)
  internals := by
    have hcomp : (isInternal ∘ f) = isInternal := by
      funext m
      exact hf m
    rw [List.filter_map, hcomp]
    exact h.internals.map f

section handle

variable {history : Hash → Option MessageSource} {b : MasterBundle}

/-- The linker after a block, accepted or not. -/
def afterBlock (l : Linker) (b : MasterBundle) : Linker where
  capacity := l.capacity
  historyStart := l.historyStart <|> some b.master.block.startLt
  unresolved := []
  retained := unmatched (l.retained ++ b.messages.filter isOutbound) (b.messages.filter isInbound)

theorem handle_eq (hl : l.unresolved = []) (h : Linkable l b.messages) :
    ∃ linked, Lists linked (b.messages.filter fun m => !m.isInternal)
        (completed (b.messages.filter isInbound) (l.retained ++ b.messages.filter isOutbound)) ∧
      l.handle history b =
        ((resolve history (l.historyStart <|> some b.master.block.startLt) b.seqno
          (unmatched (b.messages.filter isInbound)
            (l.retained ++ b.messages.filter isOutbound))).map (linked ++ ·), l.afterBlock b) := by
  have h' : Linkable { l with historyStart := l.historyStart <|> some b.master.block.startLt }
      b.messages := ⟨h.unresolved, h.retained, h.apart, h.nodup_inbound, h.nodup_outbound⟩
  have hlinks := linkAll_eq b.messages _ h'
  simp only [LinksAll, hl, List.nil_append] at hlinks
  refine ⟨_, ⟨hlinks.externals, hlinks.internals⟩, ?_⟩
  simp only [handle, hl, hlinks.linker]
  rfl

/-- A block whose inbound records all find a source, or are excused, is accepted. -/
theorem handle_eq_ok (hl : l.unresolved = []) (h : Linkable l b.messages)
    (hex : ∀ i ∈ unmatched (b.messages.filter isInbound) (l.retained ++ b.messages.filter isOutbound),
      Excused history (l.historyStart <|> some b.master.block.startLt) i) :
    ∃ rows, l.handle history b = (.ok rows, l.afterBlock b) ∧
      Lists rows (b.messages.filter fun m => !m.isInternal) ((b.messages.filter isInbound).map
        (settle (l.retained ++ b.messages.filter isOutbound) history)) := by
  obtain ⟨linked, hc, e⟩ := handle_eq hl h
  let rest := unmatched (b.messages.filter isInbound) (l.retained ++ b.messages.filter isOutbound)
  refine ⟨linked ++ rest.map (recover history), by rw [e, resolve_eq_ok hex]; rfl, ?_, ?_⟩
  · have hrest : ((rest.map (recover history)).filter fun m => !m.isInternal) = [] := by
      refine List.filter_eq_nil_iff.2 fun m hm => ?_
      obtain ⟨i, hi, rfl⟩ := List.mem_map.1 hm
      have hin := (List.mem_filter.1 (List.mem_filter.1 hi).1).2
      simp [recover_isInternal, isInternal_of_isInbound hin]
    rw [List.filter_append, hrest, List.append_nil, hc.externals]
  · have hrest : (rest.map (recover history)).filter isInternal = rest.map (recover history) := by
      refine List.filter_eq_self.2 fun m hm => ?_
      obtain ⟨i, hi, rfl⟩ := List.mem_map.1 hm
      have hin := (List.mem_filter.1 (List.mem_filter.1 hi).1).2
      rw [recover_isInternal, isInternal_of_isInbound hin]
    rw [List.filter_append, hrest]
    exact (hc.internals.append_right _).trans (completed_append_recovered history _ _)

/-- Otherwise one of its inbound records without a source stops the block. -/
theorem handle_eq_error (hl : l.unresolved = []) (h : Linkable l b.messages)
    (hex : ∃ i ∈ unmatched (b.messages.filter isInbound)
      (l.retained ++ b.messages.filter isOutbound),
      ¬ Excused history (l.historyStart <|> some b.master.block.startLt) i) :
    ∃ i ∈ unmatched (b.messages.filter isInbound) (l.retained ++ b.messages.filter isOutbound),
      ¬ Excused history (l.historyStart <|> some b.master.block.startLt) i ∧
      l.handle history b =
        (.error (.unknownSource b.seqno i.hash i.destination.address), l.afterBlock b) := by
  obtain ⟨linked, -, e⟩ := handle_eq hl h
  obtain ⟨i, hi, hn, he⟩ := resolve_eq_error hex
  exact ⟨i, hi, hn, by rw [e, he]; rfl⟩

end handle

end Linker

end ShardIndex
