import ShardIndex.Proofs.Fetch.Mirrors
import ShardIndex.Proofs.Snapshot.Coherence
/-!
# Faithful caches

A reader without a cache says what a cache has to remember: a cache is `Faithful` if every answer in it is the
one that asking again would give. For the accounts this takes more than a node that answers by a function. They
are kept by the short name of a block, but carry the number of the master block on whose behalf they were read.
`Reader.Consistent` is what makes the one a function of the other (`Reader.Consistent.covers_unique`).
-/
namespace ShardIndex

/-! ## Reads without a cache -/

namespace Reader

variable {p : Reader Id}

theorem masterBlock_direct (n : UInt32) :
    p.masterBlock n = p.node.masterBlock n >>= fun id => pure id := rfl

theorem topShards_direct (master : BlockId) :
    p.topShards master = p.node.topShards master >>= fun shards => pure shards := rfl

theorem libraryCode_direct (hash : Hash) :
    p.libraryCode hash = (do
      let answer ← p.node.libraries [hash]
      match (Table.ofEntries answer).get? hash with
      | some code => return code
      | none => throw (.libraryNotFound hash)) := rfl

theorem account_direct (header : Header) (masterSeqno : UInt32) (address : Address) :
    p.account header masterSeqno address = (do
      let raw ← p.node.account header.id address
      let raw ← p.resolveCode raw
      let state := raw.toState header.id masterSeqno header.genTime
      let types ← if state.isActive then p.parser.interfacesOf state else pure []
      return { state with types := types }) := rfl

end Reader

/-- A step of a function that ends well ends well. -/
theorem exists_of_bind_eq_pure {ε α β : Type} {x : ExceptT ε Id α} {f : α → ExceptT ε Id β} {b : β}
    (h : x >>= f = pure b) : ∃ a, x = pure a ∧ f a = pure b := by
  rcases hx : x.run with e | a
  · obtain rfl : x = ExceptT.mk (pure (.error e)) := hx
    cases h
  · obtain rfl : x = pure a := hx
    exact ⟨a, rfl, h⟩

theorem pure_inj {ε α : Type} {a b : α} (h : (pure a : ExceptT ε Id α) = pure b) : a = b :=
  Except.ok.inj h

theorem Reader.address_of_resolveCode {p : Reader Id} {a b : WireAccount} (h : p.resolveCode a = pure b) :
    b.address = a.address := by
  unfold Reader.resolveCode at h
  split at h
  · exact (pure_inj h) ▸ rfl
  · obtain ⟨code, -, h⟩ := exists_of_bind_eq_pure h
    exact (pure_inj h) ▸ rfl

/-- A snapshot has its labels, and nothing that contracts said. -/
theorem Reader.bare_of_account {p : Reader Id} {header : Header} {n : UInt32} {address : Address}
    {s : AccountState} (h : p.account header n address = pure s) : s = { s.chain with types := s.types } := by
  rw [account_direct] at h
  obtain ⟨raw, -, h⟩ := exists_of_bind_eq_pure h
  obtain ⟨resolved, -, h⟩ := exists_of_bind_eq_pure h
  dsimp only at h
  split at h
  · obtain ⟨types, -, h⟩ := exists_of_bind_eq_pure h
    exact (pure_inj h) ▸ rfl
  · exact (pure_inj h) ▸ rfl

namespace Discovery

/-- The walk finds nothing but what it was told. -/
theorem mem_of_walk {header : BlockId → ExceptT Fault Id Header} {seen : Table Shard UInt32} {master : UInt32}
    (stack visited : List BlockId) (found : List Header) : ∀ result,
      walk header seen master stack visited found = pure result →
        ∀ h ∈ result, h ∈ found ∨ ∃ b, header b = pure h := by
  induction stack, visited, found using walk.induct seen with
  | case1 visited found =>
    intro result hr h hh
    rw [walk] at hr
    exact .inl (pure_inj hr ▸ hh)
  | case2 visited found b rest hb ih =>
    intro result hr
    rw [walk, if_pos hb] at hr
    exact ih result hr
  | case3 visited found b rest hb hc ih =>
    intro result hr
    rw [walk, if_neg hb, if_pos hc] at hr
    exact ih result hr
  | case4 visited found b rest hb hc hlt ih =>
    intro result hr h hh
    rw [walk, if_neg hb, if_neg hc, if_pos hlt] at hr
    obtain ⟨hd, hhd, hr⟩ := exists_of_bind_eq_pure hr
    rcases ih hd result hr h hh with hmem | htold
    · rcases List.mem_cons.1 hmem with rfl | hmem
      · exact .inr ⟨b, hhd⟩
      · exact .inl hmem
    · exact .inr htold
  | case5 visited found b rest hb hc hlt =>
    intro result hr
    rw [walk, if_neg hb, if_neg hc, if_neg hlt] at hr
    cases hr

end Discovery

/-! ## What a reader is about -/

namespace Reader

/-- The block with the header is read on behalf of the master block with the number: it is that block itself,
or one that it newly finalises. -/
inductive Covers (p : Reader Id) (seqno : UInt32) (header : Header) : Prop
  | master {id : BlockId} (hid : p.node.masterBlock seqno = pure id) (hheader : p.node.header id = pure header)
  | shard {u : UnseenBlocks} (hu : p.unseenBlocks seqno = pure u) (hheader : header ∈ u.shards)

end Reader

/-- A node answers for what it was asked. -/
structure ChainNode.Truthful (node : ChainNode Id) : Prop where
  masterBlock_seqno : ∀ n id, node.masterBlock n = pure id → id.seqno = n
  header_id : ∀ id h, node.header id = pure h → h.id = id
  account_address : ∀ id address a, node.account id address = pure a → a.address = address

namespace Reader

/-- A master block with unseen blocks is read on its own behalf. -/
theorem covers_master {p : Reader Id} (hp : p.node.Truthful) {n : UInt32} {u : UnseenBlocks}
    (hu : p.unseenBlocks n = pure u) : p.Covers n u.master ∧ u.master.id.seqno = n := by
  obtain ⟨id, hid, hu⟩ := exists_of_bind_eq_pure hu
  obtain ⟨master, hmaster, hu⟩ := exists_of_bind_eq_pure hu
  obtain ⟨tops, -, hu⟩ := exists_of_bind_eq_pure hu
  obtain ⟨seen, -, hu⟩ := exists_of_bind_eq_pure hu
  obtain ⟨found, -, hu⟩ := exists_of_bind_eq_pure hu
  obtain rfl := pure_inj hu
  obtain rfl := hp.header_id id master hmaster
  rw [masterBlock_direct, bind_pure] at hid
  exact ⟨.master hid hmaster, hp.masterBlock_seqno n _ hid⟩

/-- A node answers for what it was asked, and no shard block is unseen under two master blocks. -/
structure Consistent (p : Reader Id) : Prop where
  masterBlock_seqno : ∀ n id, p.node.masterBlock n = pure id → id.seqno = n
  masterBlock_shard : ∀ n id, p.node.masterBlock n = pure id → id.isMasterchain = true
  header_id : ∀ id h, p.node.header id = pure h → h.id = id
  account_address : ∀ id address a, p.node.account id address = pure a → a.address = address
  /-- There is one block of a short name. -/
  one_block : ∀ id id' h h', p.node.header id = pure h → p.node.header id' = pure h' → id.ref = id'.ref →
    id = id'
  /-- The code of a library goes by its digest: what any answer tells of it, asking for it tells. -/
  one_code : ∀ asked answer hash code, p.node.libraries [asked] = pure answer → (hash, code) ∈ answer →
    ∃ told, p.node.libraries [hash] = pure told ∧ (Table.ofEntries told).get? hash = some code
  shards_apart : ∀ n u, p.unseenBlocks n = pure u → ∀ h ∈ u.shards, h.id.isMasterchain = false
  one_master : ∀ m n u v, p.unseenBlocks m = pure u → p.unseenBlocks n = pure v →
    ∀ h ∈ u.shards, h ∈ v.shards → m = n

namespace Consistent

variable {p : Reader Id} (hp : p.Consistent)

include hp

theorem header_of_covers {n : UInt32} {h : Header} (hc : p.Covers n h) : p.node.header h.id = pure h := by
  cases hc with
  | master hid hheader => rwa [hp.header_id _ _ hheader]
  | shard hu hheader =>
    obtain ⟨id, -, hu⟩ := exists_of_bind_eq_pure hu
    obtain ⟨master, -, hu⟩ := exists_of_bind_eq_pure hu
    obtain ⟨tops, -, hu⟩ := exists_of_bind_eq_pure hu
    obtain ⟨seen, -, hu⟩ := exists_of_bind_eq_pure hu
    obtain ⟨found, hwalk, hu⟩ := exists_of_bind_eq_pure hu
    obtain rfl := pure_inj hu
    have hmem : h ∈ found := List.mem_reverse.1 ((List.mergeSort_perm _ _).mem_iff.1 hheader)
    rcases Discovery.mem_of_walk _ _ _ _ hwalk h hmem with hnone | ⟨b, hb⟩
    · cases hnone
    · rwa [hp.header_id b h hb]

/-- The short name of a block tells its header and the master block on whose behalf it is read. -/
theorem covers_unique {m n : UInt32} {h k : Header} (hm : p.Covers m h) (hn : p.Covers n k)
    (href : h.id.ref = k.id.ref) : h = k ∧ m = n := by
  have hh := hp.header_of_covers hm
  have hk := hp.header_of_covers hn
  have hid := hp.one_block _ _ _ _ hh hk href
  have hhk : h = k := pure_inj (hh.symm.trans (hid ▸ hk))
  refine ⟨hhk, ?_⟩
  subst hhk
  cases hm with
  | master hid hheader =>
    obtain rfl := hp.header_id _ _ hheader
    cases hn with
    | master hid' hheader' =>
      obtain rfl := hp.header_id _ _ hheader'
      exact (hp.masterBlock_seqno _ _ hid).symm.trans (hp.masterBlock_seqno _ _ hid')
    | shard hu hheader' =>
      have hshard := hp.shards_apart _ _ hu _ hheader'
      rw [hp.masterBlock_shard _ _ hid] at hshard
      cases hshard
  | shard hu hheader =>
    cases hn with
    | master hid hheader' =>
      obtain rfl := hp.header_id _ _ hheader'
      have hshard := hp.shards_apart _ _ hu _ hheader
      rw [hp.masterBlock_shard _ _ hid] at hshard
      cases hshard
    | shard hv hheader' => exact hp.one_master _ _ _ _ hu hv _ hheader hheader'

theorem truthful : p.node.Truthful :=
  ⟨hp.masterBlock_seqno, hp.header_id, hp.account_address⟩

theorem covers_master {n : UInt32} {u : UnseenBlocks} (hu : p.unseenBlocks n = pure u) :
    p.Covers n u.master ∧ u.master.id.seqno = n :=
  Reader.covers_master hp.truthful hu

/-- The code of a library that any answer tells is the code of that library. -/
theorem libraryCode_of_mem {asked : Hash} {answer : List (Hash × Bytes)} {e : Hash × Bytes}
    (hanswer : p.node.libraries [asked] = pure answer) (he : e ∈ answer) : p.libraryCode e.1 = pure e.2 := by
  obtain ⟨told, htold, hcode⟩ := hp.one_code asked answer e.1 e.2 hanswer he
  simp only [libraryCode_direct, htold, pure_bind, hcode]

end Consistent

end Reader

/-! ## What a cache remembers -/

namespace Table

variable {K V : Type} [DecidableEq K]

theorem get?_of_filter (keep : K → Bool) {t : Table K V} {k : K} {a : V}
    (h : Table.get? (t.filter fun e => keep e.1) k = some a) : t.get? k = some a := by
  rw [get?_filter_key] at h
  split at h
  · exact h
  · cases h

/-- What is true of every entry stays so with another one that it is true of. -/
theorem forall_set {t : Table K V} {Q : K → V → Prop} (ht : ∀ k a, t.get? k = some a → Q k a) {k : K} {a : V}
    (ha : Q k a) : ∀ j b, (t.set k a).get? j = some b → Q j b := by
  intro j b hj
  rw [get?_set] at hj
  split at hj
  · rename_i hjk
    rw [hjk, ← Option.some.inj hj]
    exact ha
  · exact ht j b hj

end Table

/-- Every answer in the cache is the one that asking again would give. -/
structure ReadCache.Faithful (p : Reader Id) (c : ReadCache) : Prop where
  masters : ∀ n id, c.masters.get? n = some id → p.node.masterBlock n = pure id
  topShards : ∀ master shards, c.topShards.get? master = some shards → p.node.topShards master = pure shards
  accounts : ∀ key s, c.accounts.get? key = some s → ∃ n header, p.Covers n header ∧ header.id.ref = key.1 ∧
    p.account header n key.2 = pure s
  libraries : ∀ hash code, c.libraries.get? hash = some code → p.libraryCode hash = pure code

namespace ReadCache.Faithful

variable {p : Reader Id} {c : ReadCache}

theorem empty (p : Reader Id) : ReadCache.Faithful p {} :=
  ⟨by simp, by simp, by simp, by simp⟩

theorem evict (h : c.Faithful p) (lost : CacheKey → Bool) : (c.evict lost).Faithful p where
  masters n id hn := h.masters n id (Table.get?_of_filter (fun k => !lost (.master k)) hn)
  topShards m s hm := h.topShards m s (Table.get?_of_filter (fun k => !lost (.topShards k)) hm)
  accounts key s hs :=
    h.accounts key s (Table.get?_of_filter (fun k : BlockRef × Address => !lost (.account k.1 k.2)) hs)
  libraries hash code hc := h.libraries hash code (Table.get?_of_filter (fun k => !lost (.library k)) hc)

theorem setMaster (h : c.Faithful p) {n : UInt32} {id : BlockId} (hid : p.node.masterBlock n = pure id) :
    ReadCache.Faithful p { c with masters := c.masters.set n id } :=
  { h with masters := Table.forall_set h.masters hid }

theorem setTopShards (h : c.Faithful p) {master : BlockId} {shards : List BlockId}
    (hshards : p.node.topShards master = pure shards) :
    ReadCache.Faithful p { c with topShards := c.topShards.set master shards } :=
  { h with topShards := Table.forall_set h.topShards hshards }

theorem setAccount (h : c.Faithful p) {n : UInt32} {header : Header} {address : Address} {s : AccountState}
    (hc : p.Covers n header) (hs : p.account header n address = pure s) :
    ReadCache.Faithful p { c with accounts := c.accounts.set (header.id.ref, address) s } :=
  { h with accounts := Table.forall_set h.accounts ⟨n, header, hc, rfl, hs⟩ }

theorem setLibraries (h : c.Faithful p) {answer : List (Hash × Bytes)}
    (hanswer : ∀ e ∈ answer, p.libraryCode e.1 = pure e.2) :
    ReadCache.Faithful p { c with libraries := answer.foldl (fun t e => t.set e.1 e.2) c.libraries } := by
  refine { h with libraries := ?_ }
  induction answer generalizing c with
  | nil => exact h.libraries
  | cons e answer ih =>
    obtain ⟨he, hanswer⟩ := List.forall_mem_cons.1 hanswer
    exact ih (c := { c with libraries := c.libraries.set e.1 e.2 })
      { h with libraries := Table.forall_set h.libraries he } hanswer

end ReadCache.Faithful

end ShardIndex
