import Mathlib
import ShardIndex.Proofs.Fetch.Faithful
/-!
# Caches are transparent

The node and the parser of a reader answer each request by a function (`Fixed`), so the reader without a cache is
a function, too. With a cache it ends as that function does, read by read, and leaves the cache faithful; by
induction so does any sequence of fetches (`Fixed.fetchMasters_ends`). In particular a cache that was filled by
other fetches, finished or not, does not show (`Fixed.caches_transparent`).
-/
namespace ShardIndex.Rescan

variable {σ α : Type}

/-! ## Readers with fixed answers -/

/-- As long as the own state of a reader satisfies `P`, its node and its parser answer each request by a function.
What the parser looks up is part of the request. -/
structure Fixed (P : σ → Prop) (r : Reader (RescanM (σ × LossyCache))) (p : Reader Id) : Prop where
  pageLimit : r.pageLimit = p.pageLimit
  masterBlock : ∀ I : Context (σ × LossyCache) → Prop, Indifferent I → ∀ n,
    Mirrors (Within I P) (r.node.masterBlock n) (p.node.masterBlock n)
  topShards : ∀ I : Context (σ × LossyCache) → Prop, Indifferent I → ∀ master,
    Mirrors (Within I P) (r.node.topShards master) (p.node.topShards master)
  header : ∀ I : Context (σ × LossyCache) → Prop, Indifferent I → ∀ block,
    Mirrors (Within I P) (r.node.header block) (p.node.header block)
  transactionPage : ∀ I : Context (σ × LossyCache) → Prop, Indifferent I → ∀ block after,
    Mirrors (Within I P) (r.node.transactionPage block after) (p.node.transactionPage block after)
  transaction : ∀ I : Context (σ × LossyCache) → Prop, Indifferent I → ∀ block address lt,
    Mirrors (Within I P) (r.node.transaction block address lt) (p.node.transaction block address lt)
  account : ∀ I : Context (σ × LossyCache) → Prop, Indifferent I → ∀ block address,
    Mirrors (Within I P) (r.node.account block address) (p.node.account block address)
  libraries : ∀ I : Context (σ × LossyCache) → Prop, Indifferent I → ∀ hashes,
    Mirrors (Within I P) (r.node.libraries hashes) (p.node.libraries hashes)
  interfacesOf : ∀ I : Context (σ × LossyCache) → Prop, Indifferent I → ∀ s,
    Mirrors (Within I P) (r.parser.interfacesOf s) (p.parser.interfacesOf s)
  readAccount : ∀ (I : Context (σ × LossyCache) → Prop) (lookup : Lookup (RescanM (σ × LossyCache)))
    (found : Lookup Id), Indifferent I →
      (∀ address beforeLt, Mirrors (Within I P) (lookup address beforeLt) (found address beforeLt)) → ∀ s types,
        Mirrors (Within I P) (r.parser.readAccount s types lookup) (p.parser.readAccount s types found)

/-- The cache of the context remembers the truth. -/
def Remembers (p : Reader Id) (w : Context (σ × LossyCache)) : Prop :=
  w.parser.2.answers.Faithful p

/-- Besides, the own state of the reader is one in which it answers by functions. -/
abbrev Recalls (P : σ → Prop) (p : Reader Id) : Context (σ × LossyCache) → Prop :=
  Within (Remembers p) P

theorem remembers_indifferent (p : Reader Id) : Indifferent (Remembers (σ := σ) p) :=
  fun _ _ h => h

variable {P : σ → Prop} {r : Reader (RescanM (σ × LossyCache))} {p : Reader Id}

/-- A look at the cache finds nothing but the truth. -/
theorem getCache_mirrors {f : ReadCache → ExceptT Fault (RescanM (σ × LossyCache)) α} {y : ExceptT Fault Id α}
    (hf : ∀ c : ReadCache, c.Faithful p → Mirrors (Recalls P p) (f c) y) :
    Mirrors (Recalls P p) (getThe ReadCache >>= f) y := by
  have hget : Ends (Recalls P p)
      (getThe ReadCache : ExceptT Fault (RescanM (σ × LossyCache)) ReadCache).run
      (fun c => ∃ known, c = .ok known ∧ known.Faithful p) :=
    fun _ hw => ⟨⟨_, rfl, hw.1.evict _⟩, hw.1.evict _, hw.2⟩
  refine hget.run_bind (fun c hc => ?_) (by simp)
  obtain ⟨_, hc, hfaithful⟩ := hc
  obtain rfl := Except.ok.inj hc
  exact hf c hfaithful

/-- The truth may be remembered. -/
theorem modifyCache_mirrors {f : ReadCache → ReadCache} (hf : ∀ c : ReadCache, c.Faithful p → (f c).Faithful p)
    {x : ExceptT Fault (RescanM (σ × LossyCache)) α} {y : ExceptT Fault Id α} (hx : Mirrors (Recalls P p) x y) :
    Mirrors (Recalls P p) (modifyThe ReadCache f >>= fun _ => x) y :=
  .then_of_keeps (fun _ hw => ⟨rfl, hf _ (hw.1.evict _), hw.2⟩) hx

theorem keepAccount_mirrors {n : UInt32} {header : Header} (hc : p.Covers n header) {s : AccountState}
    (hs : p.account header n s.address = pure s) :
    Mirrors (Recalls P p) (do
      modifyThe ReadCache fun c => { c with accounts := c.accounts.set (header.id.ref, s.address) s }
      return s : ExceptT Fault (RescanM (σ × LossyCache)) AccountState) (pure s) :=
  modifyCache_mirrors (fun _ hfaithful => hfaithful.setAccount hc hs) (.pure s)

namespace Fixed

variable (hr : Fixed P r p)

include hr

theorem topShards_mirrors (master : BlockId) :
    Mirrors (Recalls P p) (r.topShards master) (p.topShards master) := by
  rw [Reader.topShards_direct, Reader.topShards]
  refine getCache_mirrors fun c hc => ?_
  split
  · rename_i shards hknown
    rw [hc.topShards master shards hknown]
    exact .pure _
  · refine (hr.topShards _ (remembers_indifferent p) master).bind fun shards hshards => ?_
    exact modifyCache_mirrors (fun c hc => hc.setTopShards hshards) (.pure _)

theorem fillAccount_mirrors {lookup : Lookup (RescanM (σ × LossyCache))} {found : Lookup Id}
    (hl : ∀ address beforeLt, Mirrors (Recalls P p) (lookup address beforeLt) (found address beforeLt))
    (s : AccountState) :
    Mirrors (Recalls P p) (r.parser.fillAccount lookup s) (p.parser.fillAccount found s) := by
  unfold Parser.fillAccount
  split
  · exact .pure _
  · exact (hr.readAccount _ lookup found (remembers_indifferent p) hl s s.types).lift.bind fun _ _ => .mk _

theorem listTransactions_mirrors (block : BlockId) : ∀ (pages : Nat) (after : Option TransactionKey),
    Mirrors (Recalls P p) (r.listTransactions block pages after) (p.listTransactions block pages after)
  | 0, _ => .mk _
  | pages + 1, after => by
    rw [Reader.listTransactions, Reader.listTransactions]
    refine (hr.transactionPage _ (remembers_indifferent p) block after).bind fun ⟨page, more⟩ _ => ?_
    dsimp only
    split
    · exact .pure _
    · split
      · exact (listTransactions_mirrors block pages _).bind fun _ _ => .pure _
      · exact .pure _

theorem walk_mirrors (seen : Table Shard UInt32) (master : UInt32) (stack visited : List BlockId)
    (found : List Header) :
    Mirrors (Recalls P p) (Discovery.walk r.node.header seen master stack visited found)
      (Discovery.walk p.node.header seen master stack visited found) := by
  induction stack, visited, found using Discovery.walk.induct seen with
  | case1 visited found =>
    rw [Discovery.walk, Discovery.walk]
    exact .pure _
  | case2 visited found b rest hb ih =>
    rw [Discovery.walk, Discovery.walk, if_pos hb, if_pos hb]
    exact ih
  | case3 visited found b rest hb hc ih =>
    rw [Discovery.walk, Discovery.walk, if_neg hb, if_neg hb, if_pos hc, if_pos hc]
    exact ih
  | case4 visited found b rest hb hc hlt ih =>
    rw [Discovery.walk, Discovery.walk, if_neg hb, if_neg hb, if_neg hc, if_neg hc, if_pos hlt, if_pos hlt]
    exact (hr.header _ (remembers_indifferent p) b).bind fun h _ => ih h
  | case5 visited found b rest hb hc hlt =>
    rw [Discovery.walk, Discovery.walk, if_neg hb, if_neg hb, if_neg hc, if_neg hc, if_neg hlt, if_neg hlt]
    exact .mk _

variable (hp : p.Consistent)

include hp

theorem masterBlock_mirrors (n : UInt32) :
    Mirrors (Recalls P p) (r.masterBlock n) (p.masterBlock n) := by
  rw [Reader.masterBlock_direct, Reader.masterBlock]
  refine getCache_mirrors fun c hc => ?_
  split
  · rename_i id hknown
    rw [hc.masters n id hknown]
    exact .pure _
  · refine (hr.masterBlock _ (remembers_indifferent p) n).bind fun id hid => ?_
    obtain rfl := hp.masterBlock_seqno n id hid
    exact modifyCache_mirrors (fun c hc => hc.setMaster hid) (.pure _)

theorem libraryCode_mirrors (hash : Hash) :
    Mirrors (Recalls P p) (r.libraryCode hash) (p.libraryCode hash) := by
  rw [Reader.libraryCode]
  refine getCache_mirrors fun c hc => ?_
  split
  · rename_i code hknown
    rw [hc.libraries hash code hknown]
    exact .pure _
  · rw [Reader.libraryCode_direct]
    refine (hr.libraries _ (remembers_indifferent p) [hash]).bind fun answer hanswer => ?_
    refine modifyCache_mirrors (fun c hc => hc.setLibraries fun e he => ?_) ?_
    · exact hp.libraryCode_of_mem hanswer he
    · cases (Table.ofEntries answer).get? hash with
      | none => exact .mk _
      | some code => exact .pure code

theorem resolveCode_mirrors (raw : WireAccount) :
    Mirrors (Recalls P p) (r.resolveCode raw) (p.resolveCode raw) := by
  unfold Reader.resolveCode
  split
  · exact .pure _
  · exact (hr.libraryCode_mirrors hp _).bind fun _ _ => .pure _

theorem account_mirrors {n : UInt32} {header : Header} (hc : p.Covers n header) (address : Address) :
    Mirrors (Recalls P p) (r.account header n address) (p.account header n address) := by
  rw [Reader.account]
  refine getCache_mirrors fun c hfaithful => ?_
  split
  · rename_i s hknown
    obtain ⟨n', header', hc', href, hs⟩ := hfaithful.accounts _ s hknown
    obtain ⟨rfl, rfl⟩ := hp.covers_unique hc' hc href
    rw [hs]
    exact .pure _
  · rw [Reader.account_direct]
    refine (hr.account _ (remembers_indifferent p) header.id address).bind fun raw hraw => ?_
    refine (hr.resolveCode_mirrors hp raw).bind fun resolved hresolved => ?_
    have haddress : (resolved.toState header.id n header.genTime).address = address :=
      (Reader.address_of_resolveCode hresolved).trans (hp.account_address _ _ _ hraw)
    dsimp only
    split
    · rename_i hactive
      refine (hr.interfacesOf _ (remembers_indifferent p) _).bind fun types htypes => keepAccount_mirrors hc ?_
      simp only [haddress, Reader.account_direct, hraw, hresolved, pure_bind, if_pos hactive, htypes]
    · rename_i hactive
      refine keepAccount_mirrors hc ?_
      simp only [haddress, Reader.account_direct, hraw, hresolved, pure_bind, if_neg hactive]

theorem lookupAt_mirrors {n : UInt32} {master : Header} (hc : p.Covers n master) (hn : master.id.seqno = n)
    (address : Address) (beforeLt : UInt64) :
    Mirrors (Recalls P p) (r.lookupAt master address beforeLt) (p.lookupAt master address beforeLt) := by
  subst hn
  exact (hr.account_mirrors hp hc address).bind fun _ _ => .pure _

theorem fetchBlock_mirrors {n : UInt32} {header master : Header} (hheader : p.Covers n header)
    (hmaster : p.Covers n master) (hn : master.id.seqno = n) (masterRef : Option BlockRef) :
    Mirrors (Recalls P p) (r.fetchBlock header masterRef master) (p.fetchBlock header masterRef master) := by
  unfold Reader.fetchBlock Reader.fetchBlockBy oneByOne
  rw [hr.pageLimit]
  refine (hr.listTransactions_mirrors header.id _ none).bind fun keys _ => ?_
  refine Mirrors.bind (.mapM fun key _ => hr.transaction _ (remembers_indifferent p) _ _ _) fun raws _ => ?_
  refine Mirrors.bind (.mapM fun address _ => ?_) fun accounts _ => .pure _
  subst hn
  exact (hr.account_mirrors hp hheader address).bind fun s _ =>
    hr.fillAccount_mirrors (hr.lookupAt_mirrors hp hmaster rfl) s

theorem coveredBefore_mirrors (n : UInt32) :
    Mirrors (Recalls P p) (r.coveredBefore n) (p.coveredBefore n) := by
  unfold Reader.coveredBefore
  split
  · exact .pure _
  · exact (hr.masterBlock_mirrors hp _).bind fun before _ => (hr.topShards_mirrors before).bind fun _ _ => .pure _

theorem unseenBlocks_mirrors (n : UInt32) : Mirrors (Recalls P p) (r.unseenBlocks n) (p.unseenBlocks n) := by
  unfold Reader.unseenBlocks
  refine (hr.masterBlock_mirrors hp n).bind fun id _ => ?_
  refine (hr.header _ (remembers_indifferent p) id).bind fun master _ => ?_
  refine (hr.topShards_mirrors id).bind fun tops _ => ?_
  refine (hr.coveredBefore_mirrors hp n).bind fun seen _ => ?_
  exact (hr.walk_mirrors seen n tops [] []).bind fun _ _ => .pure _

theorem fetchMaster_mirrors (n : UInt32) : Mirrors (Recalls P p) (r.fetchMaster n) (p.fetchMaster n) := by
  unfold Reader.fetchMaster Reader.fetchMasterBy
  refine (hr.unseenBlocks_mirrors hp n).bind fun u hu => ?_
  obtain ⟨hmaster, hn⟩ := hp.covers_master hu
  refine (hr.fetchBlock_mirrors hp hmaster hmaster hn none).bind fun master _ => ?_
  refine Mirrors.bind (.mapM fun header hheader => ?_) fun shards _ => .pure _
  exact hr.fetchBlock_mirrors hp (.shard hu hheader) hmaster hn _

/-- Any sequence of fetches ends as the functions say, one by one. -/
theorem fetchMasters_ends : ∀ ns : List UInt32,
    Ends (Recalls P p) (ns.mapM fun n => (r.fetchMaster n).run) (· = ns.map fun n => (p.fetchMaster n).run)
  | [] => fun _ hw => ⟨rfl, hw⟩
  | n :: ns => by
    intro w hw
    obtain ⟨hn, hv⟩ := hr.fetchMaster_mirrors hp n w hw
    obtain ⟨hns, hv'⟩ := fetchMasters_ends ns _ hv
    rw [List.mapM_cons, List.map_cons, exec_bind, exec_bind, hn, hns]
    exact ⟨rfl, hv'⟩

/-- Caches do not show. Whatever master blocks are fetched one after the other, with any answers lost on the
way, each fetch ends as it does with an empty cache, be it with a result or with a fault. Later reads of an
account as of a fetched block end as they do with an empty cache, too, and what they return has its labels and
nothing that contracts said. -/
theorem caches_transparent {w : Context (σ × LossyCache)} (hw : P w.parser.1) (hempty : w.parser.2.answers = {})
    (ns : List UInt32) {v : Context (σ × LossyCache)} (hv : P v.parser.1) (hfresh : v.parser.2.answers = {}) :
    (exec (ns.mapM fun n => (r.fetchMaster n).run) w).1 = ns.map (fun n => (exec (r.fetchMaster n).run v).1) ∧
    ∀ n header, p.Covers n header → ∀ address,
      (exec (r.account header n address).run (exec (ns.mapM fun n => (r.fetchMaster n).run) w).2).1 =
        (exec (r.account header n address).run v).1 ∧
      ∀ s, (exec (r.account header n address).run v).1 = .ok s → s = { s.chain with types := s.types } := by
  have hstart : ∀ {u : Context (σ × LossyCache)}, P u.parser.1 → u.parser.2.answers = {} →
      Recalls P p u := by
    intro u hu hanswers
    refine ⟨?_, hu⟩
    rw [Remembers, hanswers]
    exact .empty p
  obtain ⟨hresults, hafter⟩ := hr.fetchMasters_ends hp ns w (hstart hw hempty)
  refine ⟨hresults.trans (List.map_congr_left fun n _ => ?_), fun n header hc address => ?_⟩
  · exact (hr.fetchMaster_mirrors hp n v (hstart hv hfresh)).1.symm
  · have haccount := (hr.account_mirrors hp hc address v (hstart hv hfresh)).1
    refine ⟨(hr.account_mirrors hp hc address _ hafter).1.trans haccount.symm, fun s hs => ?_⟩
    exact Reader.bare_of_account (haccount.symm.trans hs)

end Fixed

/-! ## A sample -/

namespace LossySample

def block (shard : Shard) (seqno : UInt32) : BlockId := ⟨shard, seqno, 0, 0⟩

def headerOf (id : BlockId) : Header where
  id := id
  genTime := id.seqno
  startLt := 0
  endLt := 0
  parents := [block id.shard (id.seqno - 1)]
  afterSplit := false
  afterMerge := false

/-- A chain of three master blocks with a shard block each but for the first one. The accounts share the code of a
library, and each has an owner that is looked up; as of the last master block it cannot be read. -/
def reader (M : Type → Type) [Monad M] : Reader M where
  node := {
    lastMaster := return 2
    masterBlock := fun n => if n ≤ 2 then return block .masterchain n else throw .blockNotFound
    topShards := fun id => return if id.seqno = 0 then [] else [block .basechain id.seqno]
    header := fun id => if id = block id.shard id.seqno then return headerOf id else throw .blockNotFound
    transactionPage := fun id _ => return (if id.isMasterchain then [] else [⟨5, 10, 0⟩], false)
    transaction := fun _ address lt => return {
      hash := 0, lt := lt, account := address, prevHash := 0, prevLt := 0, now := 0, totalFees := 0
      statusBefore := .active, statusAfter := .active, aborted := false, exitCode := none, inMessage := none
      outMessages := [] }
    account := fun _ address => return {
      WireAccount.absent address with status := .active, lastTxLt := 10, library := some 7 }
    libraries := fun hashes => return hashes.map (·, [1]) ++ [(8, [1])] }
  parser := {
    interfacesOf := fun _ => return ["item"]
    readAccount := fun s _ lookup => do
      match ← ExceptT.lift (lookup ⟨0, 6⟩ s.lastTxLt).run with
      | .error fault => throw (.other fault)
      | .ok found =>
        if s.masterSeqno = 2 then throw (.other (.external "timeout"))
        return { executed := [("item", [{ method := "get_nft_data" }])], owner := found.map (·.address) }
    callMethod := fun _ _ _ _ => throw .notAvailable
    readPayload := fun _ => throw .notAvailable }
  pageLimit := 1

/-- Every second look finds an empty cache. -/
def beginning : Context (Unit × LossyCache) where
  store := {}
  snapshots := .empty 4
  parser := ((), { losses := fun look _ => look % 2 == 0 })
  evictions := fun _ _ => false

theorem fixed : Fixed (fun _ => True) (reader (RescanM (Unit × LossyCache))) (reader Id) where
  pageLimit := rfl
  masterBlock _ _ n := by
    simp only [reader]
    split
    · exact .pure _
    · exact .mk _
  topShards _ _ _ := .pure _
  header _ _ id := by
    simp only [reader]
    split
    · exact .pure _
    · exact .mk _
  transactionPage _ _ _ _ := .pure _
  transaction _ _ _ _ _ := .pure _
  account _ _ _ _ := .pure _
  libraries _ _ _ := .pure _
  interfacesOf _ _ _ := .pure _
  readAccount I lookup found _ hl s types := by
    simp only [reader]
    refine (hl ⟨0, 6⟩ s.lastTxLt).lift.bind fun outcome _ => ?_
    split
    · exact .mk _
    · split
      · exact .mk _
      · exact .pure _

theorem unseenBlocks_one : (reader Id).unseenBlocks 1 =
    pure ⟨headerOf (block .masterchain 1), [headerOf (block .basechain 1)]⟩ := by
  cbv

/-- The only shard block of a master block carries its number. -/
theorem id_of_unseen {n : UInt32} {u : UnseenBlocks} (hu : (reader Id).unseenBlocks n = pure u) :
    ∀ h ∈ u.shards, h.id = block .basechain n := by
  by_cases hn : n ≤ 2
  · have hcases : n = 0 ∨ n = 1 ∨ n = 2 := by
      have hle : n.toNat ≤ 2 := UInt32.le_iff_toNat_le.1 hn
      have hnat : n.toNat = (0 : UInt32).toNat ∨ n.toNat = (1 : UInt32).toNat ∨ n.toNat = (2 : UInt32).toNat := by
        simp only [UInt32.toNat_ofNat]
        omega
      simpa only [UInt32.toNat_inj] using hnat
    rcases hcases with rfl | rfl | rfl
    · have h0 : (reader Id).unseenBlocks 0 = pure ⟨headerOf (block .masterchain 0), []⟩ := by cbv
      obtain rfl := pure_inj (h0.symm.trans hu)
      decide
    · obtain rfl := pure_inj (unseenBlocks_one.symm.trans hu)
      decide
    · have h2 : (reader Id).unseenBlocks 2 =
          pure ⟨headerOf (block .masterchain 2), [headerOf (block .basechain 2)]⟩ := by cbv
      obtain rfl := pure_inj (h2.symm.trans hu)
      decide
  · obtain ⟨id, hid, -⟩ := exists_of_bind_eq_pure hu
    rw [Reader.masterBlock_direct, bind_pure] at hid
    simp only [reader, if_neg hn] at hid
    cases hid

theorem consistent : (reader Id).Consistent where
  masterBlock_seqno n id h := by
    simp only [reader] at h
    split at h
    · exact (pure_inj h) ▸ rfl
    · cases h
  masterBlock_shard n id h := by
    simp only [reader] at h
    split at h
    · exact (pure_inj h) ▸ rfl
    · cases h
  header_id id h hh := by
    simp only [reader] at hh
    split at hh
    · exact (pure_inj hh) ▸ rfl
    · cases hh
  account_address id address a h := (pure_inj h) ▸ rfl
  one_block id id' h h' hh hh' href := by
    have hname : ∀ {i : BlockId} {k : Header}, (reader Id).node.header i = pure k →
        i = block i.ref.shard i.ref.seqno := by
      intro i k hk
      simp only [reader] at hk
      split at hk
      · assumption
      · cases hk
    rw [hname hh, hname hh', href]
  one_code asked answer hash code h he := by
    obtain rfl := pure_inj h
    have hcode : code = [1] := by
      simp only [List.map_cons, List.map_nil, List.cons_append, List.nil_append, List.mem_cons, Prod.mk.injEq,
        List.not_mem_nil, or_false] at he
      rcases he with he | he
      · exact he.2
      · exact he.2
    refine ⟨_, rfl, ?_⟩
    simp [Table.ofEntries, Table.get?_set, hcode]
  shards_apart n u hu h hh := by
    rw [id_of_unseen hu h hh]
    rfl
  one_master m n u v hu hv h hhu hhv := by
    have hid := (id_of_unseen hu h hhu).symm.trans (id_of_unseen hv h hhv)
    exact congrArg BlockId.seqno hid

def cached : Reader (RescanM (Unit × LossyCache)) := reader _

/-- Fetches in any order, some of them again; there is no tenth master block. -/
def fetched : List (Except Fault MasterBundle) × Context (Unit × LossyCache) :=
  exec ([1, 2, 1, 2, 0, 9].mapM fun n => (cached.fetchMaster n).run) beginning

/-- The account that has transactions, read as of the first shard block. -/
def read (w : Context (Unit × LossyCache)) : Except Fault AccountState :=
  (exec (cached.account (headerOf (block .basechain 1)) 1 ⟨0, 5⟩).run w).1

/-- The owners that a bundle tells. -/
def owners (r : Except Fault MasterBundle) : Except Fault (List (Option Address)) :=
  r.map fun bundle => (bundle.shards.flatMap (·.accounts)).map (·.owner)

end LossySample

/-- The account has an owner each time that its block is fetched, and still none when it is read from the cache. -/
theorem Fixed.caches_transparent_sample :
    LossySample.fetched.1.map LossySample.owners = [.ok [some ⟨0, 6⟩], .error (.external "timeout"),
      .ok [some ⟨0, 6⟩], .error (.external "timeout"), .ok [], .error .blockNotFound] ∧
    LossySample.fetched.1 = [1, 2, 1, 2, 0, 9].map (fun n =>
      (exec (LossySample.cached.fetchMaster n).run LossySample.beginning).1) ∧
    LossySample.read LossySample.fetched.2 = LossySample.read LossySample.beginning ∧
    (LossySample.read LossySample.fetched.2).map (fun s => (s.owner, s.types)) = .ok (none, ["item"]) := by
  obtain ⟨hresults, hlater⟩ := LossySample.fixed.caches_transparent LossySample.consistent
    (w := LossySample.beginning) trivial rfl [1, 2, 1, 2, 0, 9] (v := LossySample.beginning) trivial rfl
  have hread := hlater 1 _ (.shard LossySample.unseenBlocks_one List.mem_cons_self) ⟨0, 5⟩
  exact ⟨by cbv, hresults, hread.1, by cbv⟩

end ShardIndex.Rescan
