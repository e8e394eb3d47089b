import ShardIndex.Proofs.Linkage.Linking
/-!
# Which retained records are given up

A buffer of retained records is a set: no digest is in it twice (`Buffer`), and the order of the
list means nothing. `Buffer.prunes` is the contract of `prune`: above the capacity, the oldest
records that were sent by a committed master block go, as many as are too many or as there are, and
records of later master blocks stay, even above the capacity.

The list of what goes is `evicted`, the front of a sorted list. It is the same list for every order
of the buffer (`Buffer.evicted_congr`), because `oldestFirst` decides between any two records whose
digests differ.
-/
namespace ShardIndex

namespace Message

/-- The number of the master block that the message was sent in. -/
def sourceMaster? (m : Message) : Option UInt32 :=
  m.source.tx.map (·.masterSeqno)

/-- Whether the message was sent in a master block up to `committed`. -/
def sentBy (committed : UInt32) (m : Message) : Bool :=
  m.sourceMaster?.any fun n => decide (n ≤ committed)

/-- The first message goes before the second one. -/
def Older (a b : Message) : Prop :=
  a.createdLt < b.createdLt ∨ a.createdLt = b.createdLt ∧ a.hash < b.hash

theorem sentBy_iff {committed : UInt32} {m : Message} :
    m.sentBy committed ↔ ∃ n, m.sourceMaster? = some n ∧ n ≤ committed := by
  simp [sentBy, Option.any_eq_true]

theorem sentBy_mono {c d : UInt32} {m : Message} (hcd : c ≤ d) (h : m.sentBy c) : m.sentBy d := by
  obtain ⟨n, hn, hle⟩ := sentBy_iff.1 h
  exact sentBy_iff.2 ⟨n, hn, UInt32.le_trans hle hcd⟩

end Message

namespace Linker

open Message

/-! ## The order in which records go -/

theorem oldestFirst_iff {a b : Message} :
    oldestFirst a b ↔ a.createdLt < b.createdLt ∨ a.createdLt = b.createdLt ∧ a.hash ≤ b.hash := by
  simp [oldestFirst]

theorem oldestFirst_trans (a b c : Message) (hab : oldestFirst a b) (hbc : oldestFirst b c) :
    oldestFirst a c := by
  rw [oldestFirst_iff] at *
  grind

theorem oldestFirst_total (a b : Message) : (oldestFirst a b || oldestFirst b a) = true := by
  rw [Bool.or_eq_true, oldestFirst_iff, oldestFirst_iff]
  grind

theorem hash_eq_of_oldestFirst {a b : Message} (hab : oldestFirst a b) (hba : oldestFirst b a) :
    a.hash = b.hash := by
  rw [oldestFirst_iff] at *
  grind

theorem older_of_oldestFirst {a b : Message} (h : oldestFirst a b) (hne : a.hash ≠ b.hash) :
    a.Older b := by
  rw [oldestFirst_iff] at h
  unfold Older
  grind

/-! ## Buffers -/

/-- Retained records: of each message one at most, with its source and without its destination. -/
structure Buffer (ms : List Message) : Prop where
  nodup : (ms.map (·.hash)).Nodup
  source : ∀ m ∈ ms, m.source.tx.isSome
  destination : ∀ m ∈ ms, m.destination.tx = none

namespace Buffer

variable {ms ns : List Message} {m : Message} {l : Linker} {committed : UInt32}

theorem nil : Buffer [] := ⟨List.nodup_nil, by simp, by simp⟩

theorem sublist (h : Buffer ms) (hs : ns.Sublist ms) : Buffer ns where
  nodup := h.nodup.sublist (hs.map _)
  source m hm := h.source m (hs.subset hm)
  destination m hm := h.destination m (hs.subset hm)

theorem of_perm (h : Buffer ms) (hp : ns.Perm ms) : Buffer ns where
  nodup := (hp.map _).nodup_iff.2 h.nodup
  source m hm := h.source m (hp.subset hm)
  destination m hm := h.destination m (hp.subset hm)

theorem concat (h : Buffer ms) (hnew : ∀ x ∈ ms, x.hash ≠ m.hash) (hsource : m.source.tx.isSome)
    (hdestination : m.destination.tx = none) : Buffer (ms ++ [m]) where
  nodup := by
    rw [List.map_append, List.nodup_append]
    refine ⟨h.nodup, List.nodup_singleton _, ?_⟩
    simpa using hnew
  source := by
    intro x hx
    rcases List.mem_append.1 hx with hx | hx
    · exact h.source x hx
    · exact List.mem_singleton.1 hx ▸ hsource
  destination := by
    intro x hx
    rcases List.mem_append.1 hx with hx | hx
    · exact h.destination x hx
    · exact List.mem_singleton.1 hx ▸ hdestination

theorem hash_inj (h : Buffer ms) {x y : Message} (hx : x ∈ ms) (hy : y ∈ ms)
    (e : x.hash = y.hash) : x = y :=
  List.inj_on_of_nodup_map h.nodup hx hy e

/-- Of a record that waits for its destination, the master block is that of its source. -/
theorem masterSeqno?_eq (h : Buffer ms) (hm : m ∈ ms) : m.masterSeqno? = m.sourceMaster? := by
  simp [masterSeqno?, sourceMaster?, h.destination m hm]

/-! ## What goes and what stays -/

/-- The records sent by a committed master block, the oldest first. -/
def committedFirst (committed : UInt32) (ms : List Message) : List Message :=
  (ms.filter (·.sentBy committed)).mergeSort oldestFirst

theorem evicted_eq (h : Buffer l.retained) (committed : UInt32) : l.evicted committed =
    (committedFirst committed l.retained).take (l.retained.length - l.capacity) := by
  have hfilter : (l.retained.filter fun m => m.masterSeqno?.any fun n => decide (n ≤ committed)) =
      l.retained.filter (·.sentBy committed) :=
    List.filter_congr fun m hm => by rw [h.masterSeqno?_eq hm, sentBy]
  rw [evicted, hfilter, committedFirst]

theorem committedFirst_perm (committed : UInt32) (ms : List Message) :
    (committedFirst committed ms).Perm (ms.filter (·.sentBy committed)) :=
  List.mergeSort_perm _ _

theorem committedFirst_sorted (committed : UInt32) (ms : List Message) :
    (committedFirst committed ms).Pairwise fun a b => oldestFirst a b :=
  List.pairwise_mergeSort oldestFirst_trans oldestFirst_total _

/-- The order of the buffer does not show. -/
theorem committedFirst_congr (h : Buffer ms) (hp : ns.Perm ms) :
    committedFirst committed ns = committedFirst committed ms := by
  have hperm : (committedFirst committed ns).Perm (committedFirst committed ms) :=
    (committedFirst_perm committed ns).trans
      ((hp.filter _).trans (committedFirst_perm committed ms).symm)
  refine hperm.eq_of_pairwise ?_ (committedFirst_sorted committed ns)
    (committedFirst_sorted committed ms)
  intro a b ha hb hab hba
  have ha' := (List.mem_filter.1 ((committedFirst_perm committed ns).subset ha)).1
  have hb' := (List.mem_filter.1 ((committedFirst_perm committed ms).subset hb)).1
  exact h.hash_inj (hp.subset ha') hb' (hash_eq_of_oldestFirst hab hba)

theorem evicted_congr (h : Buffer l.retained) (hp : ns.Perm l.retained) :
    ({ l with retained := ns } : Linker).evicted committed = l.evicted committed := by
  have hn : Buffer ({ l with retained := ns } : Linker).retained := h.of_perm hp
  rw [hn.evicted_eq, h.evicted_eq, h.committedFirst_congr hp, hp.length_eq]

theorem evicted_subset (h : Buffer l.retained) : l.evicted committed ⊆ l.retained := by
  rw [h.evicted_eq]
  intro m hm
  have hc := (committedFirst_perm committed _).subset (List.mem_of_mem_take hm)
  exact (List.mem_filter.1 hc).1

theorem sentBy_of_evicted (h : Buffer l.retained) (hm : m ∈ l.evicted committed) :
    m.sentBy committed := by
  rw [h.evicted_eq] at hm
  have hc := (committedFirst_perm committed _).subset (List.mem_of_mem_take hm)
  exact (List.mem_filter.1 hc).2

theorem length_evicted (h : Buffer l.retained) : (l.evicted committed).length =
    min (l.retained.length - l.capacity) (l.retained.countP (·.sentBy committed)) := by
  rw [h.evicted_eq, List.length_take, (committedFirst_perm committed _).length_eq,
    List.countP_eq_length_filter]

theorem nodup_evicted (h : Buffer l.retained) : ((l.evicted committed).map (·.hash)).Nodup := by
  rw [h.evicted_eq]
  have hfilter : ((l.retained.filter (·.sentBy committed)).map (·.hash)).Nodup :=
    h.nodup.sublist (List.filter_sublist.map _)
  have hsorted := (((committedFirst_perm committed l.retained).map (·.hash)).nodup_iff).2 hfilter
  exact hsorted.sublist ((List.take_sublist ..).map _)

theorem mem_prune (h : Buffer l.retained) :
    m ∈ (l.prune committed).retained ↔ m ∈ l.retained ∧ m ∉ l.evicted committed := by
  simp only [prune, List.mem_filter, Bool.not_eq_true', List.contains_eq_mem, decide_eq_false_iff_not,
    List.mem_map, and_congr_right_iff]
  intro hm
  constructor
  · intro hn he
    exact hn ⟨m, he, rfl⟩
  · rintro hn ⟨x, hx, e⟩
    exact hn (h.hash_inj (h.evicted_subset hx) hm e ▸ hx)

theorem prune_sublist (l : Linker) (committed : UInt32) :
    (l.prune committed).retained.Sublist l.retained :=
  List.filter_sublist

/-- Every record is given up or kept. -/
theorem perm_evicted_append (h : Buffer l.retained) (committed : UInt32) :
    l.retained.Perm (l.evicted committed ++ (l.prune committed).retained) := by
  have hnodup : (l.evicted committed ++ (l.prune committed).retained).Nodup := by
    refine List.nodup_append.2 ⟨h.nodup_evicted.of_map, ?_, ?_⟩
    · exact (h.nodup.of_map).sublist (prune_sublist l committed)
    · rintro x hx _ hy rfl
      exact (h.mem_prune.1 hy).2 hx
  refine (List.perm_ext_iff_of_nodup h.nodup.of_map hnodup).2 fun x => ?_
  rw [List.mem_append, h.mem_prune]
  constructor
  · intro hx
    by_cases he : x ∈ l.evicted committed
    · exact .inl he
    · exact .inr ⟨hx, he⟩
  · rintro (he | ⟨hx, -⟩)
    · exact h.evicted_subset he
    · exact hx

/-- What goes is older than what stays of the committed records. -/
theorem older_of_evicted (h : Buffer l.retained) {g k : Message} (hg : g ∈ l.evicted committed)
    (hk : k ∈ (l.prune committed).retained) (hc : k.sentBy committed) : g.Older k := by
  obtain ⟨hkr, hke⟩ := h.mem_prune.1 hk
  have hkc : k ∈ committedFirst committed l.retained :=
    (committedFirst_perm committed _).symm.subset (List.mem_filter.2 ⟨hkr, hc⟩)
  have hsorted := committedFirst_sorted committed l.retained
  rw [← List.take_append_drop (l.retained.length - l.capacity) (committedFirst ..)] at hsorted hkc
  rw [← h.evicted_eq] at hsorted hkc
  have hdrop := (List.mem_append.1 hkc).resolve_left hke
  refine older_of_oldestFirst ((List.pairwise_append.1 hsorted).2.2 g hg k hdrop) fun e => ?_
  exact hke (h.hash_inj (h.evicted_subset hg) hkr e ▸ hg)

/-! ## The contract -/

/-- What pruning makes of a linker. -/
structure Prunes (l : Linker) (committed : UInt32) (l' : Linker) : Prop where
  /-- Nothing else changes. -/
  frame : l' = { l with retained := l'.retained }
  within : l.retained.length ≤ l.capacity → l' = l
  /-- The oldest of the committed records go, and no others. -/
  split : ∃ gone, l.retained.Perm (gone ++ l'.retained) ∧
    gone.length =
      min (l.retained.length - l.capacity) (l.retained.countP (·.sentBy committed)) ∧
    (∀ g ∈ gone, g.sentBy committed) ∧
    ∀ g ∈ gone, ∀ k ∈ l'.retained, k.sentBy committed → g.Older k
  /-- What is too much after pruning was sent by later master blocks. -/
  size : l.capacity ≤ l.retained.length → l'.retained.length =
    max l.capacity (l.retained.countP fun m => !m.sentBy committed)
  later : (l'.retained.countP fun m => !m.sentBy committed) =
    l.retained.countP fun m => !m.sentBy committed
  /-- The order of the buffer does not decide which records stay. -/
  unordered : ∀ ms : List Message, ms.Perm l.retained →
    (({ l with retained := ms } : Linker).prune committed).retained.Perm l'.retained

theorem prune_of_le (l : Linker) (committed : UInt32) (h : l.retained.length ≤ l.capacity) :
    l.prune committed = l := by
  have hnone : l.evicted committed = [] := by
    rw [evicted, Nat.sub_eq_zero_of_le h, List.take_zero]
  simp [prune, hnone]

theorem countP_later (h : Buffer l.retained) (committed : UInt32) :
    ((l.prune committed).retained.countP fun m => !m.sentBy committed) =
      l.retained.countP fun m => !m.sentBy committed := by
  have hgone : ((l.evicted committed).countP fun m => !m.sentBy committed) = 0 :=
    List.countP_eq_zero.2 fun m hm => by simp [h.sentBy_of_evicted hm]
  rw [(h.perm_evicted_append committed).countP_eq, List.countP_append, hgone, Nat.zero_add]

theorem length_prune (h : Buffer l.retained) (hover : l.capacity ≤ l.retained.length) :
    (l.prune committed).retained.length =
      max l.capacity (l.retained.countP fun m => !m.sentBy committed) := by
  have hsplit := (h.perm_evicted_append committed).length_eq
  rw [List.length_append, h.length_evicted] at hsplit
  have hcount := List.length_eq_countP_add_countP (p := (·.sentBy committed)) (l := l.retained)
  simp only [Bool.not_eq_true, Bool.decide_eq_false] at hcount
  omega

theorem prunes (h : Buffer l.retained) (committed : UInt32) :
    Prunes l committed (l.prune committed) where
  frame := rfl
  within := prune_of_le l committed
  split := ⟨l.evicted committed, h.perm_evicted_append committed, h.length_evicted,
    fun _ hg => h.sentBy_of_evicted hg, fun _ hg _ hk hc => h.older_of_evicted hg hk hc⟩
  size := h.length_prune
  later := h.countP_later committed
  unordered ms hp := by
    simp only [prune, h.evicted_congr hp]
    exact hp.filter _

end Buffer

end Linker

end ShardIndex
