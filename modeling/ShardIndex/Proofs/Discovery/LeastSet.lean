import Mathlib
import ShardIndex.Proofs.Discovery.Heights
/-!
# The unseen blocks are the least closed set

What a height has to yield can be said without the walk of `Fetcher.unseen_blocks`. A block is `Fresh` if it is
no first block and the previous height listed its shard, if at all, with a smaller number at last. A set is
`Closed` if it has the fresh top blocks and, of each of its blocks, the fresh parents. The least closed set is
`Unseen` (`isLeast_unseen`).

Parents may be shared, lie on a cycle or go on for ever. The walk ends all the same: with the headers of the least
closed set if there are at most 1024 and all are served, with a fault otherwise
(`Reader.unseenBlocks_exact`). A shard that the previous height lists twice counts with its last entry only
(`Reader.unseenBlocks_listed_twice`).
-/
namespace ShardIndex

open Discovery

namespace Discovery

/-! ## Closed sets -/

/-- No first block, and above the last entry of its shard in the list of the previous height. -/
def Fresh (before : List BlockId) (b : BlockId) : Prop :=
  b.seqno ≠ 0 ∧ ∀ t, (before.filter (·.shard = b.shard)).getLast? = some t → t.seqno < b.seqno

/-- A set with the fresh top blocks and, of each of its blocks, the fresh parents. -/
structure Closed (fresh : BlockId → Prop) (parents : BlockId → List BlockId) (tops : List BlockId)
    (S : Set BlockId) : Prop where
  top : ∀ b ∈ tops, fresh b → b ∈ S
  parent : ∀ c ∈ S, ∀ b ∈ parents c, fresh b → b ∈ S

theorem covered_frontier_eq_false {before : List BlockId} {b : BlockId} :
    covered (frontier before) b = false ↔ Fresh before b := by
  have hentries : ((before.map fun t => (t.shard, t.seqno)).filter fun e => decide (e.1 = b.shard)) =
      (before.filter (·.shard = b.shard)).map fun t => (t.shard, t.seqno) := by
    rw [List.filter_map]
    rfl
  rw [covered, frontier, Table.get?_ofEntries, hentries, List.getLast?_map, Fresh]
  cases (before.filter (·.shard = b.shard)).getLast? with
  | none => simp
  | some t => simp

/-- The unseen blocks are the least closed set. -/
theorem isLeast_unseen (before tops : List BlockId) (parents : BlockId → List BlockId) :
    IsLeast {S | Closed (Fresh before) parents tops S} {b | Unseen (frontier before) parents tops b} := by
  constructor
  · constructor
    · intro b hb hfresh
      exact .top hb (covered_frontier_eq_false.2 hfresh)
    · intro c hc b hb hfresh
      exact .parent hc hb (covered_frontier_eq_false.2 hfresh)
  · intro S hS b hb
    induction hb with
    | top hb hc => exact hS.top _ hb (covered_frontier_eq_false.1 hc)
    | parent _ hb hc ih => exact hS.parent _ ih _ hb (covered_frontier_eq_false.1 hc)

/-! ## Headers and their number -/

/-- These are the headers of the blocks of a set, each once. -/
structure HeadersOf (header : BlockId → Except Fault Header) (S : Set BlockId) (hs : List Header) : Prop where
  served : ∀ h ∈ hs, header h.id = .ok h
  nodup : (hs.map (·.id)).Nodup
  mem_iff : ∀ b, b ∈ hs.map (·.id) ↔ b ∈ S

theorem HeadersOf.of_perm {header : BlockId → Except Fault Header} {S : Set BlockId} {hs hs' : List Header}
    (h : HeadersOf header S hs) (hp : hs'.Perm hs) : HeadersOf header S hs' := by
  have hids : (hs'.map (·.id)).Perm (hs.map (·.id)) := hp.map _
  refine ⟨?_, hids.nodup_iff.2 h.nodup, ?_⟩
  · intro x hx
    exact h.served x (hp.subset hx)
  · intro b
    rw [hids.mem_iff, h.mem_iff]

section

variable {header : BlockId → Except Fault Header} {seen : Table Shard UInt32} {master : UInt32}
  {tops : List BlockId} {S : Set BlockId} {ids : List BlockId}

theorem length_le_encard (hn : ids.Nodup) (hS : ∀ b ∈ ids, b ∈ S) : (ids.length : ℕ∞) ≤ S.encard := by
  have hsub : (ids.toFinset : Set BlockId) ⊆ S := by
    intro b hb
    exact hS b (List.mem_toFinset.1 hb)
  have hle := Set.encard_le_encard hsub
  rwa [Set.encard_coe_eq_coe_finsetCard, List.toFinset_card_of_nodup hn] at hle

theorem encard_le_length (hS : ∀ b ∈ S, b ∈ ids) : S.encard ≤ ids.length := by
  have hsub : S ⊆ (ids.toFinset : Set BlockId) := by
    intro b hb
    exact List.mem_toFinset.2 (hS b hb)
  refine (Set.encard_le_encard hsub).trans ?_
  rw [Set.encard_coe_eq_coe_finsetCard]
  exact_mod_cast List.toFinset_card_le ids

/-- A walk succeeds only on a small set whose headers are all served, and has found them. -/
theorem WalkEnds.found_of_ok {found : List Header} (h : WalkEnds header seen master tops (.ok found))
    (hS : ∀ b, b ∈ S ↔ Unseen seen (parentsOf header) tops b) :
    HeadersOf header S found ∧ S.encard ≤ maxUnseen ∧ ∀ b ∈ S, ∃ hd, header b = .ok hd := by
  cases h with
  | found hinv hlen =>
    have hmem : ∀ b, b ∈ found.map (·.id) ↔ b ∈ S := by
      intro b
      rw [hinv.mem_iff, hS]
    refine ⟨⟨hinv.served, hinv.nodup, hmem⟩, ?_, ?_⟩
    · have hle := encard_le_length fun b hb => (hmem b).2 hb
      rw [List.length_map] at hle
      exact hle.trans (by exact_mod_cast hlen)
    · intro b hb
      obtain ⟨hd, hhd, rfl⟩ := List.mem_map.1 ((hmem b).2 hb)
      exact ⟨hd, hinv.served hd hhd⟩

/-- A walk fails only on a set that is too large, or on a header that is not served. -/
theorem WalkEnds.cause_of_error {fault : Fault} (h : WalkEnds header seen master tops (.error fault))
    (hS : ∀ b, b ∈ S ↔ Unseen seen (parentsOf header) tops b) :
    (fault = .tooManyUnseen master ∧ maxUnseen < S.encard) ∨ ∃ b ∈ S, header b = .error fault := by
  cases h with
  | @full b rest visited found hinv hnew hb hlen =>
    refine .inl ⟨rfl, ?_⟩
    have hnodup : (b :: found.map (·.id)).Nodup := by
      refine List.nodup_cons.2 ⟨?_, hinv.nodup⟩
      intro hmem
      obtain ⟨hd, hhd, rfl⟩ := List.mem_map.1 hmem
      exact hnew (hinv.found_visited hd hhd)
    have hsub : ∀ x ∈ b :: found.map (·.id), x ∈ S := by
      intro x hx
      rw [hS]
      rcases List.mem_cons.1 hx with rfl | hx
      · exact hinv.unseen_of_stack hb
      · obtain ⟨hd, hhd, rfl⟩ := List.mem_map.1 hx
        exact hinv.sound hd hhd
    have hle := length_le_encard hnodup hsub
    rw [List.length_cons, List.length_map] at hle
    refine lt_of_lt_of_le ?_ hle
    exact_mod_cast Nat.lt_succ_of_le hlen
  | unserved hb hfault => exact .inr ⟨_, (hS _).2 hb, hfault⟩

end

end Discovery

/-! ## The order of blocks -/

namespace BlockId

/-- The order looks at numbers, workchains and paths, one after the other. -/
theorem le_iff {a b : BlockId} : a.le b ↔ a.seqno.toNat < b.seqno.toNat ∨ (a.seqno.toNat = b.seqno.toNat ∧
    (a.shard.workchain.toInt < b.shard.workchain.toInt ∨ (a.shard.workchain.toInt = b.shard.workchain.toInt ∧
      a.shard.path.toNat ≤ b.shard.path.toNat))) := by
  simp [le, UInt32.lt_iff_toNat_lt, Int32.lt_iff_toInt_lt, UInt64.le_iff_toNat_le, UInt32.toNat_inj,
    Int32.toInt_inj]

theorem le_trans {a b c : BlockId} (hab : a.le b) (hbc : b.le c) : a.le c := by
  rw [le_iff] at *
  omega

theorem le_total (a b : BlockId) : a.le b || b.le a := by
  rw [Bool.or_eq_true, le_iff, le_iff]
  omega

/-- Blocks of one place in the order differ in their digests at most. -/
theorem ref_eq_of_le {a b : BlockId} (hab : a.le b) (hba : b.le a) : a.ref = b.ref := by
  rw [le_iff] at hab hba
  have hseqno : a.seqno = b.seqno := UInt32.toNat_inj.1 (by omega)
  have hworkchain : a.shard.workchain = b.shard.workchain := Int32.toInt_inj.1 (by omega)
  have hpath : a.shard.path = b.shard.path := UInt64.toNat_inj.1 (by omega)
  obtain ⟨⟨workchain, path, _⟩, seqno, root, file⟩ := a
  subst hseqno hworkchain hpath
  rfl

/-- The order of the short names of different blocks is given by their set. -/
theorem map_ref_eq_of_perm {xs ys : List BlockId} (h : xs.Perm ys) (hx : xs.Pairwise (·.le ·))
    (hy : ys.Pairwise (·.le ·)) : xs.map ref = ys.map ref := by
  let unhashed (r : BlockRef) : BlockId := ⟨r.shard, r.seqno, 0, 0⟩
  have hantisymm : ∀ x y : BlockRef, x ∈ xs.map ref → y ∈ ys.map ref → (unhashed x).le (unhashed y) →
      (unhashed y).le (unhashed x) → x = y := by
    intro x y _ _ hxy hyx
    exact ref_eq_of_le hxy hyx
  exact List.Perm.eq_of_pairwise hantisymm (List.pairwise_map.2 hx) (List.pairwise_map.2 hy) (h.map ref)

end BlockId

/-- The found headers are put in the order of their blocks. -/
theorem mergeSort_found (found : List Header) :
    (found.reverse.mergeSort fun a b => a.id.le b.id).Perm found ∧
      (found.reverse.mergeSort fun a b => a.id.le b.id).Pairwise fun a b => a.id.le b.id := by
  constructor
  · exact (List.mergeSort_perm _ _).trans (List.reverse_perm found)
  · exact List.pairwise_mergeSort (fun a b c => @BlockId.le_trans a.id b.id c.id)
      (fun a b => BlockId.le_total a.id b.id) _

/-- The order leaves no choice of the short names. -/
theorem Discovery.HeadersOf.map_ref_eq {header : BlockId → Except Fault Header} {S : Set BlockId}
    {shards : List Header} (h : HeadersOf header S shards)
    (hsorted : shards.Pairwise fun a b => a.id.le b.id) {ids : List BlockId} (hnodup : ids.Nodup)
    (hmem : ∀ b, b ∈ ids ↔ b ∈ S) (hids : ids.Pairwise fun a b => a.le b) :
    shards.map (·.id.ref) = ids.map BlockId.ref := by
  have hsame : (shards.map (·.id)).Perm ids :=
    (List.perm_ext_iff_of_nodup h.nodup hnodup).2 fun b => (h.mem_iff b).trans (hmem b).symm
  have hrefs := BlockId.map_ref_eq_of_perm hsame (List.pairwise_map.2 hsorted) hids
  rwa [List.map_map] at hrefs

/-! ## What a height yields -/

/-- What the chain shows of a height: its master block, the top shard blocks and those of the height before, of
which the first height has none. -/
structure ChainView.Shows (v : ChainView) (n : UInt32) (master : Header) (tops before : List BlockId) : Prop where
  now : ∃ id, v.masterBlock n = .ok id ∧ v.header id = .ok master ∧ v.topShards id = .ok tops
  first : n = 0 → before = []
  before : n ≠ 0 → ∃ id, v.masterBlock (n - 1) = .ok id ∧ v.topShards id = .ok before

namespace Reader

variable {r : Reader (StateM ReadCache)} {v : ChainView} {c : ReadCache} {n : UInt32}

theorem masterBlock_of_ok (hr : r.Answers v) (hc : c.Truthful v) {id : BlockId}
    (hid : v.masterBlock n = .ok id) :
    ∃ c', (r.masterBlock n).run.run c = (.ok id, c') ∧ c'.Truthful v := by
  simp only [masterBlock, run_bind_eq_ok]
  cases hm : Table.get? c.masters n with
  | some known =>
    obtain rfl : known = id := by simpa [hc.masters n known hm] using hid
    exact ⟨c, ⟨c, c, rfl, by simp only [hm]; rfl⟩, hc⟩
  | none =>
    have hset := answered_set hc.masters (k := id.seqno) (a := id)
      (by rw [hr.masterBlock_seqno n id hid]; exact hid)
    refine ⟨{ c with masters := c.masters.set id.seqno id }, ⟨c, c, rfl, ?_⟩, hset, hc.topShards⟩
    simp only [hm, hr.masterBlock, hid]
    rfl

theorem topShards_of_ok (hr : r.Answers v) (hc : c.Truthful v) {id : BlockId} {tops : List BlockId}
    (htops : v.topShards id = .ok tops) :
    ∃ c', (r.topShards id).run.run c = (.ok tops, c') ∧ c'.Truthful v := by
  simp only [topShards, run_bind_eq_ok]
  cases hm : Table.get? c.topShards id with
  | some known =>
    obtain rfl : known = tops := by simpa [hc.topShards id known hm] using htops
    exact ⟨c, ⟨c, c, rfl, by simp only [hm]; rfl⟩, hc⟩
  | none =>
    have hset := answered_set hc.topShards (k := id) (a := tops) htops
    refine ⟨{ c with topShards := c.topShards.set id tops }, ⟨c, c, rfl, ?_⟩, hc.masters, hset⟩
    simp only [hm, hr.topShards, htops]
    rfl

theorem coveredBefore_of_shows (hr : r.Answers v) (hc : c.Truthful v) {master : Header}
    {tops before : List BlockId} (hs : v.Shows n master tops before) :
    ∃ c', (r.coveredBefore n).run.run c = (.ok (frontier before), c') ∧ c'.Truthful v := by
  unfold coveredBefore
  split
  · rename_i h0
    rw [hs.first h0]
    exact ⟨c, rfl, hc⟩
  · rename_i h0
    obtain ⟨id, hid, htops⟩ := hs.before h0
    obtain ⟨c₁, hmaster, hc₁⟩ := masterBlock_of_ok hr hc hid
    obtain ⟨c₂, hshards, hc₂⟩ := topShards_of_ok hr hc₁ htops
    refine ⟨c₂, ?_, hc₂⟩
    exact run_bind_eq_ok.2 ⟨id, c₁, hmaster, run_bind_eq_ok.2 ⟨before, c₂, hshards, rfl⟩⟩

theorem run_bind_of_ok {σ α β : Type} {x : ExceptT Fault (StateM σ) α} {f : α → ExceptT Fault (StateM σ) β}
    {s s' : σ} {a : α} (h : x.run.run s = (.ok a, s')) : (x >>= f).run.run s = (f a).run.run s' := by
  rw [ExceptT.run_bind, StateT.run_bind, h]
  rfl

/-- Once the lists of top blocks are there, a height ends as its walk does. -/
theorem unseenBlocks_run (hr : r.Answers v) (hc : c.Truthful v) {master : Header} {tops before : List BlockId}
    (hs : v.Shows n master tops before) :
    ∃ c' result, WalkEnds v.header (frontier before) n tops result ∧
      (r.unseenBlocks n).run.run c = (result.map fun found =>
        ⟨master, found.reverse.mergeSort fun a b => a.id.le b.id⟩, c') := by
  obtain ⟨id, hid, hmaster, htops⟩ := hs.now
  obtain ⟨c₁, hrun₁, hc₁⟩ := masterBlock_of_ok hr hc hid
  obtain ⟨c₂, hrun₂, hc₂⟩ := topShards_of_ok hr hc₁ htops
  obtain ⟨c₃, hrun₃, hc₃⟩ := coveredBefore_of_shows hr hc₂ hs
  obtain ⟨result, hwalk, hends⟩ := walk_ends hr.header hr.header_id (frontier before) n tops tops [] [] .start
    (Nat.zero_le _) c₃
  have hmasterRun : (r.node.header id).run.run c₁ = (.ok master, c₁) := by
    rw [hr.header, hmaster]
    rfl
  refine ⟨c₃, result, hends, ?_⟩
  rw [unseenBlocks, run_bind_of_ok hrun₁, run_bind_of_ok hmasterRun, run_bind_of_ok hrun₂,
    run_bind_of_ok hrun₃, ExceptT.run_bind, StateT.run_bind, hwalk]
  cases result with
  | ok found => rfl
  | error fault => rfl

/-- What a height yields, exactly. The walk always ends. If the least closed set has at most 1024 blocks and all
their headers are served, it yields these headers, each once and in order; as sets have no order, the lists of top
blocks and parents have no influence on the short names in the result. Otherwise it ends with a fault, which is
about the number of blocks or the one that the node gave for a block of the set. -/
theorem unseenBlocks_exact (hr : r.Answers v) (hc : c.Truthful v) {master : Header} {tops before : List BlockId}
    (hs : v.Shows n master tops before) {S : Set BlockId}
    (hS : IsLeast {S | Closed (Fresh before) (parentsOf v.header) tops S} S) :
    (S.encard ≤ 1024 → (∀ b ∈ S, ∃ h, v.header b = .ok h) →
      ∃ shards c', (r.unseenBlocks n).run.run c = (.ok ⟨master, shards⟩, c') ∧ HeadersOf v.header S shards ∧
        (shards.Pairwise fun a b => a.id.le b.id) ∧
        ∀ ids : List BlockId, ids.Nodup → (∀ b, b ∈ ids ↔ b ∈ S) → (ids.Pairwise fun a b => a.le b) →
          shards.map (·.id.ref) = ids.map BlockId.ref) ∧
    (1024 < S.encard ∨ (∃ b ∈ S, ∃ fault, v.header b = .error fault) →
      ∃ fault c', (r.unseenBlocks n).run.run c = (.error fault, c') ∧
        ((fault = .tooManyUnseen n ∧ 1024 < S.encard) ∨ ∃ b ∈ S, v.header b = .error fault)) := by
  obtain ⟨c', result, hends, hrun⟩ := unseenBlocks_run hr hc hs
  obtain rfl := hS.unique (isLeast_unseen before tops (parentsOf v.header))
  constructor
  · intro hsmall hserved
    cases result with
    | error fault =>
      rcases hends.cause_of_error fun b => Iff.rfl with ⟨-, hlarge⟩ | ⟨b, hb, hfault⟩
      · exact absurd hsmall (not_le.2 hlarge)
      · obtain ⟨h, hh⟩ := hserved b hb
        rw [hh] at hfault
        cases hfault
    | ok found =>
      obtain ⟨hfound, -, -⟩ := hends.found_of_ok fun b => Iff.rfl
      obtain ⟨hperm, hsorted⟩ := mergeSort_found found
      have hheaders := hfound.of_perm hperm
      exact ⟨_, c', hrun, hheaders, hsorted, fun ids => hheaders.map_ref_eq hsorted⟩
  · intro hbad
    cases result with
    | error fault => exact ⟨fault, c', hrun, hends.cause_of_error fun b => Iff.rfl⟩
    | ok found =>
      obtain ⟨-, hsmall, hserved⟩ := hends.found_of_ok fun b => Iff.rfl
      rcases hbad with hlarge | ⟨b, hb, fault, hfault⟩
      · exact absurd hsmall (not_le.2 hlarge)
      · obtain ⟨h, hh⟩ := hserved b hb
        rw [hh] at hfault
        cases hfault

end Reader

/-! ## Chains that no one would build -/

namespace TangledSample

open SplitSample

def headerOf (parents : BlockId → List BlockId) (id : BlockId) : Header where
  id := id
  genTime := 0
  startLt := 0
  endLt := 0
  parents := parents id
  afterSplit := false
  afterMerge := false

/-- A chain that serves every header. -/
def view (tops : UInt32 → List BlockId) (parents : BlockId → List BlockId) : ChainView where
  masterBlock n := .ok (block .masterchain n)
  topShards id := .ok (tops id.seqno)
  header id := .ok (headerOf parents id)

/-- A reader of a chain. -/
def readerOf (v : ChainView) : Reader (StateM ReadCache) :=
  { SplitSample.reader with
    node := {
      SplitSample.reader.node with
      masterBlock := fun n => ExceptT.mk (pure (v.masterBlock n))
      topShards := fun id => ExceptT.mk (pure (v.topShards id))
      header := fun id => ExceptT.mk (pure (v.header id)) } }

theorem answers (tops : UInt32 → List BlockId) (parents : BlockId → List BlockId) :
    (readerOf (view tops parents)).Answers (view tops parents) where
  masterBlock _ := rfl
  topShards _ := rfl
  header _ := rfl
  masterBlock_seqno := by
    intro n id h
    cases h
    rfl
  header_id := by
    intro id h e
    cases e
    rfl

theorem truthful (v : ChainView) : ReadCache.Truthful {} v where
  masters := by
    intro n id h
    cases h
  topShards := by
    intro id tops h
    cases h

theorem shows (tops : UInt32 → List BlockId) (parents : BlockId → List BlockId) {n : UInt32} (hn : n ≠ 0) :
    (view tops parents).Shows n (headerOf parents (block .masterchain n)) (tops n) (tops (n - 1)) where
  now := ⟨_, rfl, rfl, rfl⟩
  first h := absurd h hn
  before _ := ⟨_, rfl, rfl⟩

/-- One top block is listed twice. -/
def tops (n : UInt32) : List BlockId :=
  if n = 2 then [block right 2, block left 2, block right 2] else []

/-- Both top blocks have one parent, which has one of them for a parent. -/
def parents (id : BlockId) : List BlockId :=
  if id.seqno = 2 then [block .basechain 1] else [block left 2, block left 0]

def ids : List BlockId := [block .basechain 1, block left 2, block right 2]

theorem mem_ids_iff (b : BlockId) :
    b ∈ ids ↔ Unseen (frontier []) (parentsOf (view tops parents).header) (tops 2) b := by
  constructor
  · have hleft : Unseen (frontier []) (parentsOf (view tops parents).header) (tops 2) (block left 2) :=
      .top (by decide) (by decide)
    intro hb
    simp only [ids, List.mem_cons, List.not_mem_nil, or_false] at hb
    rcases hb with rfl | rfl | rfl
    · exact .parent hleft (by decide) (by decide)
    · exact hleft
    · exact .top (by decide) (by decide)
  · intro hb
    induction hb with
    | @top b hb hc =>
      have hsub : tops 2 ⊆ ids := by decide
      exact hsub hb
    | @parent b c _ hp hc ih =>
      have hparents : ∀ c ∈ ids, ∀ b ∈ parents c, covered (frontier []) b = false → b ∈ ids := by decide
      exact hparents c ih b hp hc

end TangledSample

namespace Reader

open SplitSample TangledSample

/-- The blocks of the tangled chain are found, each once and in order. -/
theorem unseenBlocks_exact_sample :
    ∃ shards c', ((readerOf (view tops parents)).unseenBlocks 2).run.run {} =
        (.ok ⟨headerOf parents (block .masterchain 2), shards⟩, c') ∧
      shards.map (·.id.ref) = ids.map BlockId.ref := by
  have hsmall : {b | Unseen (frontier []) (parentsOf (view tops parents).header) (tops 2) b}.encard ≤ 1024 := by
    have hle := encard_le_length fun b hb => (mem_ids_iff b).2 hb
    exact hle.trans (by exact_mod_cast (by decide : ids.length ≤ 1024))
  have hshows : (view tops parents).Shows 2 _ (tops 2) [] := shows tops parents (by decide)
  obtain ⟨hok, -⟩ := unseenBlocks_exact (answers tops parents) (truthful _) hshows (isLeast_unseen [] (tops 2) _)
  obtain ⟨shards, c', hrun, -, -, horder⟩ := hok hsmall fun b _ => ⟨_, rfl⟩
  exact ⟨shards, c', hrun, horder ids (by decide) mem_ids_iff (by decide)⟩

/-- Where the previous height lists a shard twice, the last entry counts: its number 5 does not cover block 7,
although the first entry has the number 10. Were both to count, no block would be unseen. -/
theorem unseenBlocks_listed_twice :
    let lists (n : UInt32) : List BlockId :=
      if n = 1 then [block .basechain 10, block .basechain 5] else [block .basechain 7]
    let v := view lists fun _ => []
    v.Shows 2 (headerOf (fun _ => []) (block .masterchain 2)) (lists 2) (lists 1) ∧
      IsLeast {S | Closed (fun b => b.seqno ≠ 0 ∧ ∀ t ∈ lists 1, t.shard = b.shard → t.seqno < b.seqno)
        (parentsOf v.header) (lists 2) S} ∅ ∧
      (((readerOf v).unseenBlocks 2).run.run {}).1 = .ok ⟨headerOf (fun _ => []) (block .masterchain 2),
        [headerOf (fun _ => []) (block .basechain 7)]⟩ := by
  refine ⟨shows _ _ (by decide), ⟨⟨?_, ?_⟩, ?_⟩, ?_⟩
  · intro b hb hfresh
    obtain rfl := List.mem_singleton.1 hb
    have hlt := hfresh.2 (block .basechain 10) (by decide) rfl
    exact absurd hlt (by decide)
  · intro c hc
    cases hc
  · intro S _
    exact Set.empty_subset S
  · cbv

end Reader

end ShardIndex
