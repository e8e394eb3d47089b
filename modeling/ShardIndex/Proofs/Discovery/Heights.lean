import Mathlib
import ShardIndex.Proofs.Discovery.Walk
/-!
# Every shard block is discovered once

The chain as a node shows it (`ChainView`): master blocks with their top shard blocks `tops h`, and the
parents of blocks. `Reaches tops` are the blocks behind a list of top blocks. From one height to the next
the chain `Continues`: it only grows, and it grows from the top blocks of the height before.

The walk tells covered blocks by the number that their shard had in the list before, although splits and
merges change shards. This is enough (`covered_iff`): a block that the walk meets is covered exactly if
it was reached before. So a height yields what it reaches and the height before did not (`unseen_iff`),
and over a run of heights these differences add up (`discovered_once`).
-/
namespace ShardIndex

open Discovery

/-! ## What a chain shows -/

/-- The answers of a node, when they are fixed. -/
structure ChainView where
  masterBlock : UInt32 → Except Fault BlockId
  topShards : BlockId → Except Fault (List BlockId)
  header : BlockId → Except Fault Header

namespace ChainView

variable (v : ChainView)

/-- The top shard blocks of a master height. -/
def tops (height : Nat) : List BlockId :=
  match v.masterBlock (UInt32.ofNat height) with
  | .ok id =>
    match v.topShards id with
    | .ok tops => tops
    | .error _ => []
  | .error _ => []

/-- The top shard blocks of the height before; there are none before the first. -/
def topsBefore : Nat → List BlockId
  | 0 => []
  | height + 1 => v.tops height

/-- The blocks behind top blocks, not going past first blocks. -/
inductive Reaches (tops : List BlockId) : BlockId → Prop
  | top {b : BlockId} (hb : b ∈ tops) (h0 : b.seqno ≠ 0) : Reaches tops b
  | parent {b c : BlockId} (h : Reaches tops c) (hb : b ∈ parentsOf v.header c) (h0 : b.seqno ≠ 0) :
      Reaches tops b

/-- What two consecutive heights have to do with each other. -/
structure Continues (before now : List BlockId) : Prop where
  /-- A shard has one top block. -/
  one : ∀ s ∈ before, ∀ t ∈ before, s.shard = t.shard → s = t
  grows : ∀ b, v.Reaches before b → v.Reaches now b
  /-- A block not above the top block of its shard was there before. -/
  below : ∀ b, v.Reaches now b → ∀ t ∈ before, t.shard = b.shard → b.seqno ≤ t.seqno →
    v.Reaches before b
  /-- Only top blocks are built on. -/
  cut : ∀ b, v.Reaches before b →
    (b ∈ now ∨ ∃ c, v.Reaches now c ∧ ¬ v.Reaches before c ∧ b ∈ parentsOf v.header c) → b ∈ before

variable {v}

theorem not_reaches_nil (b : BlockId) : ¬ v.Reaches [] b := by
  intro h
  induction h with
  | top hb => cases hb
  | parent _ _ _ ih => exact ih

end ChainView

/-! ## Covered blocks -/

namespace Discovery

theorem exists_of_frontier {tops : List BlockId} {s : Shard} {n : UInt32}
    (h : (frontier tops).get? s = some n) : ∃ t ∈ tops, t.shard = s ∧ t.seqno = n := by
  rw [frontier, Table.get?_ofEntries, Option.map_eq_some_iff] at h
  obtain ⟨e, he, rfl⟩ := h
  obtain ⟨hmem, hs⟩ := List.mem_filter.1 (List.mem_of_getLast? he)
  obtain ⟨t, ht, rfl⟩ := List.mem_map.1 hmem
  exact ⟨t, ht, by simpa using hs, rfl⟩

theorem frontier_isSome {tops : List BlockId} {t : BlockId} (ht : t ∈ tops) :
    ∃ n, (frontier tops).get? t.shard = some n := by
  rw [frontier, Table.get?_ofEntries]
  have hmem : (t.shard, t.seqno) ∈ (tops.map fun b => (b.shard, b.seqno)).filter
      fun e => decide (e.1 = t.shard) := by
    refine List.mem_filter.2 ⟨List.mem_map.2 ⟨t, ht, rfl⟩, by simp⟩
  obtain ⟨e, he⟩ := Option.isSome_iff_exists.1 (List.getLast?_isSome.2 (List.ne_nil_of_mem hmem))
  exact ⟨e.2, by rw [he]; rfl⟩

variable {v : ChainView} {before now : List BlockId}

/-- A block that the walk meets is covered exactly if it is a first block or was reached before. -/
theorem covered_iff (h : v.Continues before now) {b : BlockId}
    (hb : b ∈ now ∨ ∃ c, v.Reaches now c ∧ ¬ v.Reaches before c ∧ b ∈ parentsOf v.header c) :
    covered (frontier before) b ↔ b.seqno = 0 ∨ v.Reaches before b := by
  constructor
  · intro hc
    by_cases h0 : b.seqno = 0
    · exact .inl h0
    · cases hn : (frontier before).get? b.shard with
      | none => simp [covered, h0, hn] at hc
      | some n =>
        have hle : b.seqno ≤ n := by simpa [covered, h0, hn] using hc
        obtain ⟨t, ht, hts, rfl⟩ := exists_of_frontier hn
        have hnow : v.Reaches now b := by
          rcases hb with hb | ⟨c, hc, -, hp⟩
          · exact .top hb h0
          · exact .parent hc hp h0
        exact .inr (h.below b hnow t ht hts hle)
  · rintro (h0 | hr)
    · simp [covered, h0]
    · have htop := h.cut b hr hb
      obtain ⟨n, hn⟩ := frontier_isSome htop
      obtain ⟨t, ht, hts, rfl⟩ := exists_of_frontier hn
      obtain rfl := h.one t ht b htop hts
      simp [covered, hn]

/-- The blocks that a height has to yield are those that it reaches and the height before did not. -/
theorem unseen_iff (h : v.Continues before now) (b : BlockId) :
    Unseen (frontier before) (parentsOf v.header) now b ↔ v.Reaches now b ∧ ¬ v.Reaches before b := by
  have hnew : ∀ {x : BlockId},
      (x ∈ now ∨ ∃ c, v.Reaches now c ∧ ¬ v.Reaches before c ∧ x ∈ parentsOf v.header c) →
      (covered (frontier before) x = false ↔ x.seqno ≠ 0 ∧ ¬ v.Reaches before x) := by
    intro x hx
    rw [← Bool.not_eq_true, covered_iff h hx, not_or]
  constructor
  · intro hu
    induction hu with
    | top hb hc =>
      obtain ⟨h0, hno⟩ := (hnew (.inl hb)).1 hc
      exact ⟨.top hb h0, hno⟩
    | parent _ hp hc ih =>
      obtain ⟨h0, hno⟩ := (hnew (.inr ⟨_, ih.1, ih.2, hp⟩)).1 hc
      exact ⟨.parent ih.1 hp h0, hno⟩
  · rintro ⟨hr, hno⟩
    induction hr with
    | top hb h0 => exact .top hb ((hnew (.inl hb)).2 ⟨h0, hno⟩)
    | parent hc hp h0 ih =>
      have hnoc : ¬ v.Reaches before _ := fun hrc => hno (.parent hrc hp h0)
      exact .parent (ih hnoc) hp ((hnew (.inr ⟨_, hc, hnoc, hp⟩)).2 ⟨h0, hno⟩)

end Discovery

/-! ## A reader and its cache -/

/-- The node of the reader answers as the chain shows, and a master block carries its number. -/
structure Reader.Answers (r : Reader (StateM ReadCache)) (v : ChainView) : Prop where
  masterBlock : ∀ n, r.node.masterBlock n = ExceptT.mk (pure (v.masterBlock n))
  topShards : ∀ id, r.node.topShards id = ExceptT.mk (pure (v.topShards id))
  header : ∀ id, r.node.header id = ExceptT.mk (pure (v.header id))
  masterBlock_seqno : ∀ n id, v.masterBlock n = .ok id → id.seqno = n
  header_id : ∀ id h, v.header id = .ok h → h.id = id

/-- What the cache remembers of master blocks is what the node would answer. -/
structure ReadCache.Truthful (c : ReadCache) (v : ChainView) : Prop where
  masters : ∀ n id, c.masters.get? n = some id → v.masterBlock n = .ok id
  topShards : ∀ id tops, c.topShards.get? id = some tops → v.topShards id = .ok tops

/-- A program that succeeds is made of steps that succeed. -/
theorem run_bind_eq_ok {σ α β : Type} {x : ExceptT Fault (StateM σ) α}
    {f : α → ExceptT Fault (StateM σ) β} {s s' : σ} {b : β} :
    (x >>= f).run.run s = (.ok b, s') ↔
      ∃ a s₁, x.run.run s = (.ok a, s₁) ∧ (f a).run.run s₁ = (.ok b, s') := by
  rw [ExceptT.run_bind, StateT.run_bind]
  rcases hx : x.run.run s with ⟨fault | a, s₁⟩
  · constructor
    · intro h
      cases h
    · rintro ⟨a, s₁, h, -⟩
      cases h
  · constructor
    · intro h
      exact ⟨a, s₁, rfl, h⟩
    · rintro ⟨a, s₁, h, h'⟩
      cases h
      exact h'

namespace Reader

variable {r : Reader (StateM ReadCache)} {v : ChainView} {c c' : ReadCache}

/-- A fixed answer leaves the cache alone. -/
theorem eq_of_run_pure {α : Type} {x : Except Fault α} {a : α}
    (h : (ExceptT.mk (pure x) : ExceptT Fault (StateM ReadCache) α).run.run c = (.ok a, c')) :
    x = .ok a ∧ c' = c :=
  ⟨(Prod.mk.inj h).1, (Prod.mk.inj h).2.symm⟩

/-- Another true answer can be remembered. -/
theorem answered_set {K V : Type} [DecidableEq K] {t : Table K V} {f : K → Except Fault V}
    (ht : ∀ k a, t.get? k = some a → f k = .ok a) {k : K} {a : V} (ha : f k = .ok a) :
    ∀ j b, (t.set k a).get? j = some b → f j = .ok b := by
  intro j b hj
  rw [Table.get?_set] at hj
  split at hj
  · rename_i e
    rw [e, ← Option.some.inj hj]
    exact ha
  · exact ht j b hj

theorem masterBlock_spec (hr : r.Answers v) (hc : c.Truthful v) {n : UInt32} {id : BlockId}
    (h : (r.masterBlock n).run.run c = (.ok id, c')) :
    v.masterBlock n = .ok id ∧ c'.Truthful v := by
  rw [masterBlock, run_bind_eq_ok] at h
  obtain ⟨cache, c₁, hget, h⟩ := h
  cases hget
  cases hm : Table.get? c.masters n with
  | some known =>
    simp only [hm] at h
    cases h
    exact ⟨hc.masters n _ hm, hc⟩
  | none =>
    simp only [hm, hr.masterBlock, run_bind_eq_ok] at h
    obtain ⟨id', c₁, hask, _, c₂, hset, h⟩ := h
    obtain ⟨hv, rfl⟩ := eq_of_run_pure hask
    cases hset
    cases h
    refine ⟨hv, answered_set hc.masters ?_, hc.topShards⟩
    rw [hr.masterBlock_seqno n id hv]
    exact hv

theorem topShards_spec (hr : r.Answers v) (hc : c.Truthful v) {id : BlockId} {tops : List BlockId}
    (h : (r.topShards id).run.run c = (.ok tops, c')) :
    v.topShards id = .ok tops ∧ c'.Truthful v := by
  rw [topShards, run_bind_eq_ok] at h
  obtain ⟨cache, c₁, hget, h⟩ := h
  cases hget
  cases hm : Table.get? c.topShards id with
  | some known =>
    simp only [hm] at h
    cases h
    exact ⟨hc.topShards id _ hm, hc⟩
  | none =>
    simp only [hm, hr.topShards, run_bind_eq_ok] at h
    obtain ⟨tops', c₁, hask, _, c₂, hset, h⟩ := h
    obtain ⟨hv, rfl⟩ := eq_of_run_pure hask
    cases hset
    cases h
    exact ⟨hv, hc.masters, answered_set hc.topShards hv⟩

/-- What a height is told to be covered are the top blocks of the height before. -/
theorem coveredBefore_spec (hr : r.Answers v) (hc : c.Truthful v) {height : Nat} (hh : height < UInt32.size)
    {seen : Table Shard UInt32}
    (h : (r.coveredBefore (UInt32.ofNat height)).run.run c = (.ok seen, c')) :
    seen = frontier (v.topsBefore height) ∧ c'.Truthful v := by
  cases height with
  | zero =>
    cases h
    exact ⟨rfl, hc⟩
  | succ height =>
    have hne : UInt32.ofNat (height + 1) ≠ 0 := by
      intro e
      have := congrArg UInt32.toNat e
      rw [UInt32.toNat_ofNat_of_lt' hh] at this
      cases this
    have hpred : UInt32.ofNat (height + 1) - 1 = UInt32.ofNat height := by
      rw [UInt32.ofNat_add]
      simp
    simp only [coveredBefore, if_neg hne, hpred, run_bind_eq_ok] at h
    obtain ⟨id, c₁, hm, tops, c₂, ht, h⟩ := h
    obtain ⟨hid, hc₁⟩ := masterBlock_spec hr hc hm
    obtain ⟨htops, hc₂⟩ := topShards_spec hr hc₁ ht
    cases h
    refine ⟨?_, hc₂⟩
    simp only [ChainView.topsBefore, ChainView.tops, hid, htops]

/-- The shard blocks of a height are what a finished walk has found. -/
theorem unseenBlocks_spec (hr : r.Answers v) (hc : c.Truthful v) {height : Nat}
    (hh : height < UInt32.size) {u : UnseenBlocks}
    (h : (r.unseenBlocks (UInt32.ofNat height)).run.run c = (.ok u, c')) :
    c'.Truthful v ∧ ∃ found visited,
      WalkInv v.header (frontier (v.topsBefore height)) (v.tops height) [] visited found ∧
        u.shards.Perm found := by
  simp only [unseenBlocks, run_bind_eq_ok] at h
  obtain ⟨masterId, c₁, hm, master, c₂, hask, tops, c₃, ht, seen, c₄, hseen, found, c₅, hwalk, h⟩ := h
  obtain ⟨hid, hc₁⟩ := masterBlock_spec hr hc hm
  rw [hr.header] at hask
  obtain ⟨-, rfl⟩ := eq_of_run_pure hask
  obtain ⟨htops, hc₃⟩ := topShards_spec hr hc₁ ht
  obtain ⟨rfl, hc₄⟩ := coveredBefore_spec hr hc₃ hh hseen
  have hnow : v.tops height = tops := by
    simp only [ChainView.tops, hid, htops]
  obtain ⟨rfl, visited, hinv⟩ := walk_spec hr.header hr.header_id _ _ _ hwalk
  cases h
  refine ⟨hc₄, found, visited, hnow ▸ hinv, ?_⟩
  exact (List.mergeSort_perm _ _).trans (List.reverse_perm found)

end Reader

/-! ## A run of heights -/

/-- The names of the shard blocks. -/
def UnseenBlocks.ids (u : UnseenBlocks) : List BlockId :=
  u.shards.map (·.id)

/-- A cache that remembers no more of master blocks than the other one. -/
structure ReadCache.Forgets (c c' : ReadCache) : Prop where
  masters : ∀ n id, c'.masters.get? n = some id → c.masters.get? n = some id
  topShards : ∀ id tops, c'.topShards.get? id = some tops → c.topShards.get? id = some tops

/-- The heights from `first` on were walked one after the other with these results. The cache was
empty at first, and may forget between two heights. -/
inductive Discovered (r : Reader (StateM ReadCache)) (first : Nat) : List UnseenBlocks → ReadCache → Prop
  | start : Discovered r first [] {}
  | forget {us : List UnseenBlocks} {c c' : ReadCache} (h : Discovered r first us c) (hc : c.Forgets c') :
      Discovered r first us c'
  | next {us : List UnseenBlocks} {u : UnseenBlocks} {c c' : ReadCache} (h : Discovered r first us c)
      (hlt : first + us.length < UInt32.size)
      (hu : (r.unseenBlocks (UInt32.ofNat (first + us.length))).run.run c = (.ok u, c')) :
      Discovered r first (us ++ [u]) c'

namespace Discovered

variable {r : Reader (StateM ReadCache)} {v : ChainView} {first : Nat} {us : List UnseenBlocks}
  {c : ReadCache}

/-- What was reached at a height is reached at every later one. -/
theorem reaches_mono {n : Nat}
    (hc : ∀ height, first ≤ height → height < first + n →
      v.Continues (v.topsBefore height) (v.tops height)) {b : BlockId}
    (h : v.Reaches (v.topsBefore first) b) : v.Reaches (v.topsBefore (first + n)) b := by
  induction n with
  | zero => exact h
  | succ n ih =>
    have hlast := hc (first + n) (Nat.le_add_right _ _) (Nat.lt_succ_self _)
    refine hlast.grows b (ih ?_)
    intro height hle hlt
    exact hc height hle (Nat.lt_succ_of_lt hlt)

/-- One height yields exactly the blocks that are new, each once. -/
theorem ids_spec (hr : r.Answers v) {height : Nat} {u : UnseenBlocks} {c c' : ReadCache}
    (hc : c.Truthful v) (hlt : height < UInt32.size)
    (hv : v.Continues (v.topsBefore height) (v.tops height))
    (hu : (r.unseenBlocks (UInt32.ofNat height)).run.run c = (.ok u, c')) :
    c'.Truthful v ∧ u.ids.Nodup ∧
      ∀ b, b ∈ u.ids ↔ v.Reaches (v.tops height) b ∧ ¬ v.Reaches (v.topsBefore height) b := by
  obtain ⟨hc', found, visited, hinv, hperm⟩ := Reader.unseenBlocks_spec hr hc hlt hu
  have hids : u.ids.Perm (found.map (·.id)) := hperm.map _
  refine ⟨hc', hids.nodup_iff.2 hinv.nodup, ?_⟩
  intro b
  rw [hids.mem_iff, hinv.mem_iff, unseen_iff hv]

/-- What the results of a run of heights add up to, and what the cache knows then. -/
structure AddsUp (v : ChainView) (first : Nat) (us : List UnseenBlocks) (c : ReadCache) : Prop where
  truthful : c.Truthful v
  heights : ∀ n u, us[n]? = some u → ∀ b, b ∈ u.ids ↔
    v.Reaches (v.tops (first + n)) b ∧ ¬ v.Reaches (v.topsBefore (first + n)) b
  nodup : (us.flatMap (·.ids)).Nodup
  total : ∀ b, b ∈ us.flatMap (·.ids) ↔
    v.Reaches (v.topsBefore (first + us.length)) b ∧ ¬ v.Reaches (v.topsBefore first) b

namespace AddsUp

theorem start (v : ChainView) (first : Nat) : AddsUp v first [] {} where
  truthful := by
    constructor
    · intro n id h
      cases h
    · intro id tops h
      cases h
  heights := by
    intro n u hu
    cases n <;> cases hu
  nodup := by simp
  total := by
    intro b
    simp

theorem forget {c' : ReadCache} (h : AddsUp v first us c) (hc : c.Forgets c') : AddsUp v first us c' where
  truthful := by
    constructor
    · intro n id hn
      exact h.truthful.masters n id (hc.masters n id hn)
    · intro id tops ht
      exact h.truthful.topShards id tops (hc.topShards id tops ht)
  heights := h.heights
  nodup := h.nodup
  total := h.total

/-- The blocks that the next height adds were not there before, and nothing is lost. -/
theorem next {u : UnseenBlocks} {c' : ReadCache} (h : AddsUp v first us c)
    (hv : ∀ height, first ≤ height → height < first + us.length + 1 →
      v.Continues (v.topsBefore height) (v.tops height))
    (hc' : c'.Truthful v) (hnodup : u.ids.Nodup)
    (hids : ∀ b, b ∈ u.ids ↔
      v.Reaches (v.tops (first + us.length)) b ∧ ¬ v.Reaches (v.topsBefore (first + us.length)) b) :
    AddsUp v first (us ++ [u]) c' where
  truthful := hc'
  heights := by
    intro n w hw
    rcases Nat.lt_or_ge n us.length with hn | hn
    · rw [List.getElem?_append_left hn] at hw
      exact h.heights n w hw
    · rw [List.getElem?_append_right hn, List.getElem?_singleton] at hw
      split at hw
      · obtain rfl := Option.some.inj hw
        obtain rfl : n = us.length := by omega
        exact hids
      · cases hw
  nodup := by
    rw [List.flatMap_append, List.flatMap_singleton, List.nodup_append]
    refine ⟨h.nodup, hnodup, ?_⟩
    rintro b hb _ hb' rfl
    exact ((hids b).1 hb').2 ((h.total b).1 hb).1
  total := by
    intro b
    have hmono : v.Reaches (v.topsBefore first) b → v.Reaches (v.topsBefore (first + us.length)) b :=
      reaches_mono fun height hle hlt => hv height hle (Nat.lt_succ_of_lt hlt)
    have hgrow := (hv (first + us.length) (Nat.le_add_right _ _) (Nat.lt_succ_self _)).grows b
    have hsucc : v.topsBefore (first + (us ++ [u]).length) = v.tops (first + us.length) := by
      rw [List.length_append, List.length_singleton, ← Nat.add_assoc]
      rfl
    rw [List.flatMap_append, List.flatMap_singleton, List.mem_append, h.total, hids, hsucc]
    constructor
    · rintro (⟨hb, ha⟩ | ⟨ht, hb⟩)
      · exact ⟨hgrow hb, ha⟩
      · exact ⟨ht, fun ha => hb (hmono ha)⟩
    · rintro ⟨ht, ha⟩
      by_cases hb : v.Reaches (v.topsBefore (first + us.length)) b
      · exact .inl ⟨hb, ha⟩
      · exact .inr ⟨ht, hb⟩

end AddsUp

theorem addsUp (hr : r.Answers v) (hd : Discovered r first us c)
    (hv : ∀ height, first ≤ height → height < first + us.length →
      v.Continues (v.topsBefore height) (v.tops height)) : AddsUp v first us c := by
  induction hd with
  | start => exact .start v first
  | forget _ hf ih => exact (ih hv).forget hf
  | @next us u c c' _ hlt hu ih =>
    rw [List.length_append, List.length_singleton] at hv
    have h := ih fun height hle hlt => hv height hle (by omega)
    have hlast := hv (first + us.length) (by omega) (by omega)
    obtain ⟨hc', hnodup, hids⟩ := ids_spec hr h.truthful hlt hlast hu
    exact h.next hv hc' hnodup hids

/-- Over a run of heights every shard block is discovered once: at each height those that it reaches
and the height before did not, over the whole run those that the last height reaches and the one before
the first did not. -/
theorem discovered_once (hr : r.Answers v) (hd : Discovered r first us c)
    (hv : ∀ height, first ≤ height → height < first + us.length →
      v.Continues (v.topsBefore height) (v.tops height)) :
    (∀ n u, us[n]? = some u → ∀ b, b ∈ u.ids ↔
      v.Reaches (v.tops (first + n)) b ∧ ¬ v.Reaches (v.topsBefore (first + n)) b) ∧
    (us.flatMap (·.ids)).Nodup ∧
    ∀ b, b ∈ us.flatMap (·.ids) ↔
      v.Reaches (v.topsBefore (first + us.length)) b ∧ ¬ v.Reaches (v.topsBefore first) b := by
  have h := addsUp hr hd hv
  exact ⟨h.heights, h.nodup, h.total⟩

end Discovered

/-! ## A chain that splits -/

namespace SplitSample

def left : Shard := ⟨0, 0x4000000000000000, by decide⟩

def right : Shard := ⟨0, 0xC000000000000000, by decide⟩

def block (shard : Shard) (seqno : UInt32) : BlockId :=
  ⟨shard, seqno, 0, 0⟩

/-- The one block of height 1 is the parent of both blocks of height 2. -/
def view : ChainView where
  masterBlock n := .ok (block .masterchain n)
  topShards id := .ok (match id.seqno with
    | 1 => [block .basechain 1]
    | 2 => [block left 2, block right 2]
    | _ => [])
  header id := .ok {
    id := id
    genTime := 0
    startLt := 0
    endLt := 0
    parents := if id.seqno = 2 then [block .basechain 1] else []
    afterSplit := false
    afterMerge := false }

def reader : Reader (StateM ReadCache) where
  node := {
    lastMaster := pure 2
    masterBlock := fun n => ExceptT.mk (pure (view.masterBlock n))
    topShards := fun id => ExceptT.mk (pure (view.topShards id))
    header := fun id => ExceptT.mk (pure (view.header id))
    transactionPage := fun _ _ => pure ([], false)
    transaction := fun _ _ _ => throw .unknownCursor
    account := fun _ a => pure (.absent a)
    libraries := fun _ => pure [] }
  parser := {
    interfacesOf := fun _ => pure []
    readAccount := fun _ _ _ => throw .notAvailable
    callMethod := fun _ _ _ _ => throw .notAvailable
    readPayload := fun _ => throw .notAvailable }
  pageLimit := 1

theorem answers : reader.Answers view where
  masterBlock _ := rfl
  topShards _ := rfl
  header _ := rfl
  masterBlock_seqno := by
    intro n id h
    cases h
    rfl
  header_id := by
    intro id h e
    cases e
    rfl

theorem reaches_one {b : BlockId} (h : view.Reaches (view.tops 1) b) : b = block .basechain 1 := by
  induction h with
  | top hb => exact List.mem_singleton.1 hb
  | parent _ hp _ ih =>
    subst ih
    cases hp

theorem reaches_two {b : BlockId} (h : view.Reaches (view.tops 2) b) :
    b = block left 2 ∨ b = block right 2 ∨ b = block .basechain 1 := by
  induction h with
  | @top b hb =>
    have hb : b ∈ [block left 2, block right 2] := hb
    simp only [List.mem_cons, List.not_mem_nil, or_false] at hb
    rcases hb with rfl | rfl
    · exact .inl rfl
    · exact .inr (.inl rfl)
  | @parent b c _ hp _ ih =>
    have hsub : parentsOf view.header c ⊆ [block .basechain 1] := by
      rcases ih with rfl | rfl | rfl <;> decide
    exact .inr (.inr (List.mem_singleton.1 (hsub hp)))

theorem continues : ∀ height, height < 3 → view.Continues (view.topsBefore height) (view.tops height) := by
  have hone : view.Reaches (view.tops 1) (block .basechain 1) := .top (by decide) (by decide)
  have hnil : ∀ now, view.Continues [] now := by
    intro now
    refine ⟨?_, ?_, ?_, ?_⟩
    · intro s hs
      cases hs
    · intro b hb
      exact absurd hb (ChainView.not_reaches_nil b)
    · intro b _ t ht
      cases ht
    · intro b hb
      exact absurd hb (ChainView.not_reaches_nil b)
  rintro (_ | _ | _ | height) hlt
  · exact hnil _
  · exact hnil _
  · refine ⟨?_, ?_, ?_, ?_⟩
    · decide
    · intro b hb
      obtain rfl := reaches_one hb
      have hleft : view.Reaches (view.tops 2) (block left 2) := .top (by decide) (by decide)
      exact .parent hleft (by decide) (by decide)
    · intro b hb t ht hs hle
      obtain rfl : t = block .basechain 1 := List.mem_singleton.1 ht
      rcases reaches_two hb with rfl | rfl | rfl
      · exact absurd hs (by decide)
      · exact absurd hs (by decide)
      · exact hone
    · intro b hb _
      obtain rfl := reaches_one hb
      decide
  · omega

end SplitSample

/-- Three heights of the splitting chain, with a cache that forgets everything in between. -/
theorem Discovered.discovered_once_sample :
    ∃ us c, Discovered SplitSample.reader 0 us c ∧ us.length = 3 ∧ (us.flatMap (·.ids)).Nodup ∧
      ∀ b, b ∈ us.flatMap (·.ids) ↔ SplitSample.view.Reaches (SplitSample.view.tops 2) b := by
  have hwalk : ∀ us, us.length < 3 → Discovered SplitSample.reader 0 us {} →
      ∃ u, Discovered SplitSample.reader 0 (us ++ [u]) {} := by
    intro us hlen hd
    have hok : ∀ n < 3,
        ((SplitSample.reader.unseenBlocks (UInt32.ofNat n)).run.run {}).1.toBool = true := by
      rintro (_ | _ | _ | n) hn
      · cbv
      · cbv
      · cbv
      · omega
    rcases hr : (SplitSample.reader.unseenBlocks (UInt32.ofNat (0 + us.length))).run.run {} with
      ⟨fault | u, c⟩
    · have := hok (0 + us.length) (by omega)
      rw [hr] at this
      cases this
    · have hsize : 0 + us.length < UInt32.size := Nat.lt_of_lt_of_le (by omega) (by decide : 3 ≤ UInt32.size)
      refine ⟨u, .forget (.next hd hsize hr) ⟨?_, ?_⟩⟩
      · intro n id h
        cases h
      · intro id tops h
        cases h
  obtain ⟨u₀, h₀⟩ := hwalk [] (by decide) .start
  obtain ⟨u₁, h₁⟩ := hwalk _ (by simp) h₀
  obtain ⟨u₂, h₂⟩ := hwalk _ (by simp) h₁
  obtain ⟨-, hnodup, hmem⟩ := discovered_once SplitSample.answers h₂ fun height _ hlt =>
    SplitSample.continues height (by simpa using hlt)
  refine ⟨_, _, h₂, rfl, hnodup, ?_⟩
  intro b
  rw [hmem]
  have hnot : ¬ SplitSample.view.Reaches (SplitSample.view.topsBefore 0) b :=
    ChainView.not_reaches_nil b
  exact and_iff_left hnot

end ShardIndex
