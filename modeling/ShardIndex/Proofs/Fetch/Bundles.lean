import ShardIndex.Proofs.Fetch.LedgerNode
import ShardIndex.Proofs.Fetch.Mapping
import ShardIndex.Proofs.Fetch.Streams
/-!
# What a fetched bundle holds

A bundle that was fetched for a master block holds the block itself and each shard block that is unseen under
it, in the order of discovery (`Reader.BundleOf`). Of each block it has exactly the transactions that the node
lists, in their order and mapped field by field (`WireTransaction.MappedTo`), and one snapshot of every account
with a transaction, in the order of the first ones (`Reader.BlockOf`). A snapshot is the account as of that
block, with the code of its library (`WireAccount.ShownBy`); it is labelled if it is active, and read if it has
a label (`Reader.StateOf`). Messages carry the first label of the snapshot of their own transaction's account.

The reader as a function returns such a bundle or a fault, and no fault if all is answered that is asked for
(`Reader.bundleOf_of_pure`, `Reader.exists_fetchMaster`). Readers with a cache that has entries from before and
loses some of them, whose requests are made one after the other or many at a time, return a bundle exactly if
the function does (`Rescan.fetchMaster_exact`).
-/
namespace ShardIndex

/-! ## Accounts -/

/-- The account with the code of its library, if it only refers to one. -/
inductive ChainNode.Resolves (node : ChainNode Id) (raw : WireAccount) : WireAccount → Prop
  | own (h : raw.library = none) : Resolves node raw raw
  | library {hash : Hash} {answer : List (Hash × Bytes)} {code : Bytes} (h : raw.library = some hash)
      (hanswer : node.libraries [hash] = pure answer)
      (hcode : (Table.ofEntries answer).get? hash = some code) :
      Resolves node raw { raw with code := some code, codeHash := some hash }

namespace Reader

/-- What becomes of a snapshot that has nothing but what the chain says: an active account gets its labels,
and one with labels is read, its siblings as of the master block. -/
inductive Completes (p : Reader Id) (master : Header) (bare : AccountState) : AccountState → Prop
  | inactive (h : bare.isActive = false) : Completes p master bare bare
  | unlabelled (h : bare.isActive = true) (htypes : p.parser.interfacesOf bare = pure []) :
      Completes p master bare bare
  | read {types : List ContractName} {a : AccountState} (h : bare.isActive = true)
      (htypes : p.parser.interfacesOf bare = pure types) (hne : types ≠ [])
      (hread : ({ bare with types := types } : AccountState).TakesOver
        (p.parser.readAccount { bare with types := types } types (p.lookupAt master)).run a) :
      Completes p master bare a

/-- The state of the account as of the block: what the chain says, and if it is active its labels and what
contracts say. -/
def StateOf (p : Reader Id) (master header : Header) (address : Address) (a : AccountState) : Prop :=
  ∃ raw resolved bare, p.node.account header.id address = pure raw ∧ p.node.Resolves raw resolved ∧
    resolved.ShownBy header.id master.id.seqno header.genTime bare ∧ bare.chain = bare ∧
    p.Completes master bare a ∧ resolved.ShownBy header.id master.id.seqno header.genTime a

end Reader

/-! ## Blocks and bundles -/

namespace Reader

/-- The record of a block with these transactions. -/
structure BlockOf (p : Reader Id) (master header : Header) (masterRef : Option BlockRef)
    (txs : List WireTransaction) (r : BlockRecord) : Prop where
  id : r.block.id = header.id
  masterRef : r.block.masterRef = masterRef
  genTime : r.block.genTime = header.genTime
  startLt : r.block.startLt = header.startLt
  endLt : r.block.endLt = header.endLt
  transactions : List.Forall₂ (fun t tx => ∃ a ∈ r.accounts, t.MappedTo header.id master.id.seqno a tx)
    txs r.block.transactions
  addresses : r.accounts.map (·.address) = (txs.map (·.account)).eraseDups
  distinct : (r.accounts.map (·.address)).Nodup
  accounts : ∀ a ∈ r.accounts, p.StateOf master header a.address a

/-- Whatever is asked for the block is answered, and its listing is within the limit of pages. -/
structure Served (p : Reader Id) (master header : Header) (txs : List WireTransaction) : Prop where
  limit : txs.length < p.pageLimit
  pages : ∀ before after, listed txs = before ++ after →
    ∃ answer, p.node.transactionPage header.id before.getLast? = pure answer
  transactions : ∀ t ∈ txs, ∃ raw, p.node.transaction header.id t.account t.lt = pure raw
  accounts : ∀ t ∈ txs, ∃ a, p.StateOf master header t.account a

/-- The bundle of a master block, where `txs` has the transactions of blocks. Shard blocks name the master
block. -/
def BundleOf (p : Reader Id) (txs : BlockId → List WireTransaction) (n : UInt32) (b : MasterBundle) : Prop :=
  ∃ u : UnseenBlocks, p.unseenBlocks n = pure u ∧ u.master.id.seqno = n ∧ b.seqno = n ∧
    p.BlockOf u.master u.master none (txs u.master.id) b.master ∧
    List.Forall₂ (fun header r => p.BlockOf u.master header (some ⟨u.master.id.shard, u.master.id.seqno⟩)
      (txs header.id) r) u.shards b.shards

end Reader

/-! ## Lists -/

theorem mapM_eq_pure {ε α β : Type} {f : α → ExceptT ε Id β} : ∀ {l : List α} {bs : List β},
    l.mapM f = pure bs → List.Forall₂ (fun a b => f a = pure b) l bs
  | [], bs, h => by
    rw [List.mapM_nil] at h
    rw [← pure_inj h]
    exact .nil
  | a :: l, bs, h => by
    rw [List.mapM_cons] at h
    obtain ⟨b, hb, h⟩ := exists_of_bind_eq_pure h
    obtain ⟨rest, hrest, h⟩ := exists_of_bind_eq_pure h
    rw [← pure_inj h]
    exact .cons hb (mapM_eq_pure hrest)

theorem exists_mapM_eq_pure {ε α β : Type} {f : α → ExceptT ε Id β} : ∀ {l : List α},
    (∀ a ∈ l, ∃ b, f a = pure b) → ∃ bs, l.mapM f = pure bs
  | [], _ => ⟨[], List.mapM_nil⟩
  | a :: l, h => by
    obtain ⟨⟨b, hb⟩, hl⟩ := List.forall_mem_cons.1 h
    obtain ⟨bs, hbs⟩ := exists_mapM_eq_pure hl
    refine ⟨b :: bs, ?_⟩
    rw [List.mapM_cons, hb, pure_bind, hbs, pure_bind]

theorem nodup_eraseDups {α : Type} [BEq α] [LawfulBEq α] : ∀ l : List α, l.eraseDups.Nodup
  | [] => by simp
  | a :: l => by
    have hshorter : (l.filter fun b => !b == a).length < l.length + 1 :=
      Nat.lt_succ_of_le (List.length_filter_le _ _)
    rw [List.eraseDups_cons, List.nodup_cons]
    exact ⟨by simp, nodup_eraseDups _⟩
termination_by l => l.length

/-- Every account passes its first label on, if there is one snapshot of it. -/
theorem Reader.get?_labels {accounts : List AccountState} (hnodup : (accounts.map (·.address)).Nodup)
    {a : AccountState} (ha : a ∈ accounts) : (Reader.labels accounts).get? a.address = a.types.head? := by
  have hentries : ∀ e ∈ accounts.filterMap (fun s => s.types.head?.map (s.address, ·)), e.1 = a.address →
      a.types.head? = some e.2 := by
    intro e he haddress
    obtain ⟨s, hs, hentry⟩ := List.mem_filterMap.1 he
    obtain ⟨label, hlabel, rfl⟩ := Option.map_eq_some_iff.1 hentry
    rw [← List.inj_on_of_nodup_map hnodup hs ha haddress]
    exact hlabel
  rw [labels, Table.get?_ofEntries]
  cases hlast : ((accounts.filterMap fun s => s.types.head?.map (s.address, ·)).filter
      fun e => decide (e.1 = a.address)).getLast? with
  | some e =>
    obtain ⟨he, haddress⟩ := List.mem_filter.1 (List.mem_of_getLast? hlast)
    exact (hentries e he (of_decide_eq_true haddress)).symm
  | none =>
    have hempty := List.getLast?_eq_none_iff.1 hlast
    cases hlabel : a.types.head? with
    | none => rfl
    | some label =>
      have hmem : (a.address, label) ∈ accounts.filterMap fun s => s.types.head?.map (s.address, ·) :=
        List.mem_filterMap.2 ⟨a, ha, by rw [hlabel]; rfl⟩
      have hnone := List.filter_eq_nil_iff.1 hempty _ hmem
      exact absurd (decide_eq_true rfl) hnone

/-! ## One account -/

theorem ChainNode.Resolves.address {node : ChainNode Id} {raw resolved : WireAccount}
    (h : node.Resolves raw resolved) : resolved.address = raw.address := by
  cases h <;> rfl

namespace Reader

variable {p : Reader Id} {master header : Header} {address : Address} {a : AccountState}

theorem resolveCode_iff {raw resolved : WireAccount} :
    p.resolveCode raw = pure resolved ↔ p.node.Resolves raw resolved := by
  constructor
  · intro h
    unfold resolveCode at h
    split at h
    · rename_i hnone
      obtain rfl := pure_inj h
      exact .own hnone
    · rename_i hash hlibrary
      obtain ⟨code, hcode, h⟩ := exists_of_bind_eq_pure h
      obtain rfl := pure_inj h
      rw [libraryCode_direct] at hcode
      obtain ⟨answer, hanswer, hcode⟩ := exists_of_bind_eq_pure hcode
      split at hcode
      · rename_i found hfound
        obtain rfl := pure_inj hcode
        exact .library hlibrary hanswer hfound
      · cases hcode
  · intro h
    cases h with
    | own hnone => simp only [resolveCode, hnone]
    | library hlibrary hanswer hcode =>
      simp only [resolveCode, hlibrary, libraryCode_direct, hanswer, pure_bind, hcode]

/-- Only an active account with a label is read. -/
theorem completes_iff {bare : AccountState} (hbare : bare.types = []) :
    p.Completes master bare a ↔ ∃ types,
      (if bare.isActive then p.parser.interfacesOf bare else pure []) = pure types ∧
      p.parser.fillAccount (p.lookupAt master) { bare with types := types } = pure a := by
  have hself : ({ bare with types := [] } : AccountState) = bare := by rw [← hbare]
  have hnone : p.parser.fillAccount (p.lookupAt master) { bare with types := [] } = pure bare := by
    rw [hself, Parser.fillAccount, hbare, List.isEmpty_nil, Bool.or_true, if_pos rfl]
  have hsome : ∀ types, bare.isActive = true → types ≠ [] →
      p.parser.fillAccount (p.lookupAt master) { bare with types := types } =
        ExceptT.mk (pure (({ bare with types := types } : AccountState).absorb
          (p.parser.readAccount { bare with types := types } types (p.lookupAt master)).run)) := by
    intro types hactive hne
    have hread : ¬ (!({ bare with types := types } : AccountState).isActive || types.isEmpty) = true := by
      change ¬ (!bare.isActive || types.isEmpty) = true
      simpa [hactive] using hne
    rw [Parser.fillAccount, if_neg hread]
    rfl
  constructor
  · intro h
    cases h with
    | inactive hinactive => exact ⟨[], if_neg (by simp [hinactive]), hnone⟩
    | unlabelled hactive htypes => exact ⟨[], (if_pos hactive).trans htypes, hnone⟩
    | @read types a hactive htypes hne hread =>
      refine ⟨types, (if_pos hactive).trans htypes, ?_⟩
      rw [hsome types hactive hne, AccountState.takesOver_iff.1 hread]
      rfl
  · rintro ⟨types, htypes, hfill⟩
    split at htypes
    · rename_i hactive
      by_cases hne : types = []
      · subst hne
        rw [← pure_inj (hnone.symm.trans hfill)]
        exact .unlabelled hactive htypes
      · have habsorbed := (hsome types hactive hne).symm.trans hfill
        exact .read hactive htypes hne (AccountState.takesOver_iff.2 habsorbed)
    · rename_i hinactive
      obtain rfl := pure_inj htypes
      rw [← pure_inj (hnone.symm.trans hfill)]
      exact .inactive (by simpa using hinactive)

/-- What the chain says stays. -/
theorem Completes.chain_eq {bare : AccountState} (h : p.Completes master bare a) : a.chain = bare.chain := by
  cases h with
  | inactive => rfl
  | unlabelled => rfl
  | read _ _ _ hread => exact (AccountState.of_absorb (AccountState.takesOver_iff.1 hread)).1

/-- An account is labelled by the reader and then filled in. -/
theorem stateOf_iff : p.StateOf master header address a ↔
    (do
      let state ← p.account header master.id.seqno address
      p.parser.fillAccount (p.lookupAt master) state) = pure a := by
  -- in the reader each branch of the condition goes on by itself
  have hlabelled : ∀ bare : AccountState, (do
        let types ← if bare.isActive then p.parser.interfacesOf bare else pure []
        pure { bare with types := types } : ExceptT Fault Id AccountState) =
      (if bare.isActive then p.parser.interfacesOf bare else pure []) >>=
        fun types => pure { bare with types := types } := by
    intro bare
    split <;> rfl
  rw [account_direct]
  simp only [hlabelled]
  constructor
  · rintro ⟨raw, resolved, bare, hraw, hresolved, hshown, hchain, ha, -⟩
    obtain rfl := hchain.symm.trans (WireAccount.shownBy_iff.1 hshown)
    obtain ⟨types, htypes, hfill⟩ := (completes_iff rfl).1 ha
    rw [hraw, pure_bind, resolveCode_iff.2 hresolved, pure_bind, htypes, pure_bind, pure_bind, hfill]
  · intro h
    obtain ⟨state, hstate, hfill⟩ := exists_of_bind_eq_pure h
    obtain ⟨raw, hraw, hstate⟩ := exists_of_bind_eq_pure hstate
    obtain ⟨resolved, hresolved, hstate⟩ := exists_of_bind_eq_pure hstate
    obtain ⟨types, htypes, hstate⟩ := exists_of_bind_eq_pure hstate
    obtain rfl := pure_inj hstate
    have hcompletes : p.Completes master (resolved.toState header.id master.id.seqno header.genTime) a :=
      (completes_iff rfl).2 ⟨types, htypes, hfill⟩
    refine ⟨raw, resolved, _, hraw, resolveCode_iff.1 hresolved, WireAccount.shownBy_iff.2 rfl, rfl,
      hcompletes, WireAccount.shownBy_iff.2 ?_⟩
    exact hcompletes.chain_eq

theorem StateOf.address_eq (hp : p.node.Truthful) (h : p.StateOf master header address a) :
    a.address = address := by
  obtain ⟨raw, resolved, -, hraw, hresolved, -, -, -, ha⟩ := h
  calc a.address = resolved.address := ha.address
    _ = raw.address := hresolved.address
    _ = address := hp.account_address _ _ _ hraw

end Reader

/-! ## One block -/

/-- Asking for every transaction of the listing gives the transactions. -/
theorem ChainNode.Lists.transactions_of_pure {node : ChainNode Id} {block : BlockId}
    {txs raws : List WireTransaction} (h : node.Lists block txs)
    (hraws : ((listed txs).mapM fun key =>
      node.transaction block ⟨block.shard.workchain.toInt8, key.account⟩ key.lt) = pure raws) :
    raws = txs := by
  have hasked := mapM_eq_pure hraws
  rw [listed, List.forall₂_map_left_iff] at hasked
  have hmem : List.Forall₂ (fun t raw => t ∈ txs ∧ node.transaction block
      ⟨block.shard.workchain.toInt8, t.account.account⟩ t.lt = pure raw) txs raws :=
    (List.forall₂_and_left _ _).2 ⟨fun t ht => ht, hasked⟩
  have hsame : List.Forall₂ (· = ·) txs raws := by
    refine hmem.imp fun t raw hboth => ?_
    obtain ⟨ht, hraw⟩ := hboth
    rw [← h.workchain t ht] at hraw
    exact (h.transaction t ht raw hraw).symm
  rw [List.forall₂_eq_eq_eq] at hsame
  exact hsame.symm

namespace Reader

variable {p : Reader Id} {master header : Header}

theorem blockOf_of_pure (hp : p.node.Truthful) {txs : List WireTransaction}
    (hlists : p.node.Lists header.id txs) {masterRef : Option BlockRef} {r : BlockRecord}
    (h : p.fetchBlock header masterRef master = pure r) : p.BlockOf master header masterRef txs r := by
  dsimp only [fetchBlock, fetchBlockBy, oneByOne] at h
  obtain ⟨keys, hkeys, hlisted⟩ := exists_of_bind_eq_pure h
  obtain rfl := hlists.listTransactions_of_pure hkeys
  obtain ⟨raws, hraws, hfetched⟩ := exists_of_bind_eq_pure hlisted
  obtain rfl := hlists.transactions_of_pure hraws
  obtain ⟨accounts, haccounts, hfilled⟩ := exists_of_bind_eq_pure hfetched
  obtain rfl := pure_inj hfilled
  have hstates : List.Forall₂ (p.StateOf master header) (raws.map (·.account)).eraseDups accounts :=
    (mapM_eq_pure haccounts).imp fun address a ha => stateOf_iff.2 ha
  have haddresses : accounts.map (·.address) = (raws.map (·.account)).eraseDups := by
    have hsame : List.Forall₂ (· = ·) (raws.map (·.account)).eraseDups (accounts.map (·.address)) :=
      List.forall₂_map_right_iff.2 (hstates.imp fun _ _ ha => (ha.address_eq hp).symm)
    rw [List.forall₂_eq_eq_eq] at hsame
    exact hsame.symm
  have hnodup : (accounts.map (·.address)).Nodup := haddresses ▸ nodup_eraseDups _
  refine {
    id := rfl, masterRef := rfl, genTime := rfl, startLt := rfl, endLt := rfl
    transactions := ?_, addresses := haddresses, distinct := hnodup, accounts := ?_ }
  · rw [List.forall₂_map_right_iff, List.forall₂_same]
    intro t ht
    -- the account of a transaction is one of the block's accounts
    have haccount : t.account ∈ accounts.map (·.address) := by
      rw [haddresses, List.mem_eraseDups]
      exact List.mem_map_of_mem ht
    obtain ⟨a, ha, haddress⟩ := List.mem_map.1 haccount
    have hlabel : (labels accounts).get? t.account = a.types.head? := haddress ▸ get?_labels hnodup ha
    have hmapped : (t.toTransaction header.id master.id.seqno).labelMessages
        ((labels accounts).get? t.account) =
          (t.toTransaction header.id master.id.seqno).labelMessages a.types.head? := by rw [hlabel]
    exact ⟨a, ha, WireTransaction.mappedTo_iff.2 ⟨haddress, hmapped⟩⟩
  · rw [← haddresses, List.forall₂_map_left_iff, List.forall₂_same] at hstates
    exact hstates

/-- A block is fetched if all is answered that is asked for it. -/
theorem exists_fetchBlock {txs : List WireTransaction} (hlists : p.node.Lists header.id txs)
    (hserved : p.Served master header txs) (masterRef : Option BlockRef) :
    ∃ r, p.fetchBlock header masterRef master = pure r := by
  have hkeys : p.listTransactions header.id p.pageLimit none = pure (listed txs) := by
    rcases hlists.listTransactions_ends hserved.limit with
      hkeys | ⟨before, after, fault, hsplit, hfault, -⟩
    · exact hkeys
    · obtain ⟨answer, hanswer⟩ := hserved.pages before after hsplit
      rw [hanswer] at hfault
      cases hfault
  obtain ⟨raws, hraws⟩ : ∃ raws, ((listed txs).mapM fun key => p.node.transaction header.id
      ⟨header.id.shard.workchain.toInt8, key.account⟩ key.lt) = pure raws := by
    refine exists_mapM_eq_pure fun key hkey => ?_
    obtain ⟨t, ht, rfl⟩ := List.mem_map.1 hkey
    obtain ⟨raw, hraw⟩ := hserved.transactions t ht
    have haccount : (⟨header.id.shard.workchain.toInt8, t.account.account⟩ : Address) = t.account := by
      rw [← hlists.workchain t ht]
    exact ⟨raw, by rw [Ledger.keyOf, haccount, hraw]⟩
  obtain ⟨accounts, haccounts⟩ : ∃ accounts, ((txs.map (·.account)).eraseDups.mapM fun address => do
      let state ← p.account header master.id.seqno address
      p.parser.fillAccount (p.lookupAt master) state) = pure accounts := by
    refine exists_mapM_eq_pure fun address haddress => ?_
    obtain ⟨t, ht, rfl⟩ := List.mem_map.1 (List.mem_eraseDups.1 haddress)
    obtain ⟨a, ha⟩ := hserved.accounts t ht
    exact ⟨a, stateOf_iff.1 ha⟩
  dsimp only [fetchBlock, fetchBlockBy, oneByOne]
  rw [hkeys, pure_bind, hraws, pure_bind, hlists.transactions_of_pure hraws, haccounts, pure_bind]
  exact ⟨_, rfl⟩

/-! ## One bundle -/

theorem bundleOf_of_pure (hp : p.node.Truthful) {txs : BlockId → List WireTransaction} {n : UInt32}
    (hlists : ∀ header, p.Covers n header → p.node.Lists header.id (txs header.id)) {b : MasterBundle}
    (h : p.fetchMaster n = pure b) : p.BundleOf txs n b := by
  dsimp only [fetchMaster, fetchMasterBy, oneByOne] at h
  obtain ⟨u, hu, hunseen⟩ := exists_of_bind_eq_pure h
  obtain ⟨master, hmaster, hfetched⟩ := exists_of_bind_eq_pure hunseen
  obtain ⟨shards, hshards, hgathered⟩ := exists_of_bind_eq_pure hfetched
  obtain rfl := pure_inj hgathered
  obtain ⟨hcovered, hn⟩ := covers_master hp hu
  have hblocks : List.Forall₂ (fun header r => header ∈ u.shards ∧
      p.fetchBlock header (some u.master.id.ref) u.master = pure r) u.shards shards :=
    (List.forall₂_and_left _ _).2 ⟨fun header hheader => hheader, mapM_eq_pure hshards⟩
  refine ⟨u, hu, hn, rfl, blockOf_of_pure hp (hlists _ hcovered) hmaster, hblocks.imp ?_⟩
  intro header r hr
  exact blockOf_of_pure hp (hlists _ (.shard hu hr.1)) hr.2

/-- A bundle is fetched if all is answered that is asked for its blocks. -/
theorem exists_fetchMaster (hp : p.node.Truthful) {txs : BlockId → List WireTransaction} {n : UInt32}
    (hlists : ∀ header, p.Covers n header → p.node.Lists header.id (txs header.id)) {u : UnseenBlocks}
    (hu : p.unseenBlocks n = pure u)
    (hserved : ∀ header ∈ u.master :: u.shards, p.Served u.master header (txs header.id)) :
    ∃ b, p.fetchMaster n = pure b := by
  obtain ⟨hmasterServed, hshardsServed⟩ := List.forall_mem_cons.1 hserved
  obtain ⟨hcovered, -⟩ := covers_master hp hu
  obtain ⟨master, hmaster⟩ := exists_fetchBlock (hlists _ hcovered) hmasterServed none
  obtain ⟨shards, hshards⟩ : ∃ shards, (u.shards.mapM fun header =>
      p.fetchBlock header (some u.master.id.ref) u.master) = pure shards :=
    exists_mapM_eq_pure fun header hheader =>
      exists_fetchBlock (hlists _ (.shard hu hheader)) (hshardsServed header hheader) _
  refine ⟨{ seqno := n, master := master, shards := shards }, ?_⟩
  dsimp only [fetchMaster, fetchMasterBy, oneByOne]
  dsimp only [fetchBlock] at hmaster hshards
  rw [hu, pure_bind, hmaster, pure_bind, hshards, pure_bind]

end Reader

namespace Rescan

/-- Fetching a master block loses and duplicates nothing. A listing comes to its end with all names, or with the
fault of a page. A fetch returns nothing but the bundle of the transactions that the node lists, and it returns
one if all is answered that is asked for. Neither a faithful cache shows in that, whatever gets lost from it,
nor how many requests are under way at the same time. -/
theorem fetchMaster_exact {p : Reader Id} (hp : p.node.Truthful) {txs : BlockId → List WireTransaction}
    {n : UInt32} (hlists : ∀ header, p.Covers n header → p.node.Lists header.id (txs header.id)) :
    (∀ header, p.Covers n header → ∀ limit, (txs header.id).length < limit →
      p.listTransactions header.id limit none = pure (listed (txs header.id)) ∨
        ∃ before after fault, listed (txs header.id) = before ++ after ∧
          p.node.transactionPage header.id before.getLast? = throw fault ∧
          p.listTransactions header.id limit none = throw fault) ∧
    (∀ b, p.fetchMaster n = pure b → p.BundleOf txs n b) ∧
    (∀ u, p.unseenBlocks n = pure u →
      (∀ header ∈ u.master :: u.shards, p.Served u.master header (txs header.id)) →
        ∃ b, p.fetchMaster n = pure b) ∧
    ∀ {σ : Type} (P : σ → Prop) (r : Reader (RescanM (σ × LossyCache))), Fixed P r p → p.Consistent →
      ∀ w, Recalls P p w →
        (∀ block limit, (exec (r.listTransactions block limit none).run w).1 =
          (p.listTransactions block limit none).run) ∧
        (∀ b, (exec (r.fetchMaster n).run w).1 = .ok b ↔ p.fetchMaster n = pure b) ∧
        ∀ width width' turns turns' b,
          (exec (r.fetchMasterBy (buffered width turns) (buffered width' turns') n).run w).1 = .ok b ↔
            p.fetchMaster n = pure b := by
  refine ⟨fun header hheader limit hlimit => (hlists header hheader).listTransactions_ends hlimit,
    fun b hb => Reader.bundleOf_of_pure hp hlists hb,
    fun u hu hserved => Reader.exists_fetchMaster hp hlists hu hserved, ?_⟩
  intro σ P r hr hconsistent w hw
  have hread : ∀ gather shards : Gather (RescanM (σ × LossyCache)), InOrder (Recalls P p) gather →
      InOrder (Recalls P p) shards → ∀ b, (exec (r.fetchMasterBy gather shards n).run w).1 = .ok b ↔
        p.fetchMaster n = pure b := by
    intro gather shards hgather hshards
    exact (hr.fetchMasterBy_reads hconsistent hgather hshards n w hw).1
  refine ⟨fun block limit => (hr.listTransactions_mirrors block limit none w hw).1, ?_, ?_⟩
  · exact hread _ _ (oneByOne_inOrder _) (oneByOne_inOrder _)
  · intro width width' turns turns'
    exact hread _ _ (buffered_inOrder _ width turns) (buffered_inOrder _ width' turns')

/-! ## A sample -/

namespace LedgerSample

/-- An account whose code is in a library. -/
def item : WireAccount :=
  { Synthetic.account ⟨0, 5⟩ 1000005 with code := none, codeHash := none, library := some 7 }

/-- An account without labels. -/
def wallet : WireAccount :=
  Synthetic.account ⟨0, 6⟩ 1000002

def message (hash : Hash) (src dst : Address) : WireMessage where
  hash := hash
  envelope := .internal src dst 1 0 0 true false 1000001 0

/-- The wallet sends to the item, and the item to an account that there is no more. -/
def transactions : List WireTransaction := [
  { Synthetic.transaction ⟨0, 5⟩ 1000001 with hash := 1 },
  { Synthetic.transaction ⟨0, 6⟩ 1000002 with hash := 2, outMessages := [message 9 ⟨0, 6⟩ ⟨0, 5⟩] },
  { Synthetic.transaction ⟨0, 5⟩ 1000003 with hash := 3, inMessage := some (message 9 ⟨0, 6⟩ ⟨0, 5⟩) },
  { Synthetic.transaction ⟨0, 5⟩ 1000004 with hash := 4, outMessages := [message 10 ⟨0, 5⟩ ⟨0, 7⟩] },
  { Synthetic.transaction ⟨0, 7⟩ 1000005 with hash := 5, inMessage := some (message 10 ⟨0, 5⟩ ⟨0, 7⟩) }]

/-- Two master blocks; the second one refers to a shard block with three pages of transactions. -/
def ledger : Ledger :=
  { (({} : Ledger).addSimpleMaster 0 [] []).addSimpleMaster 1 [] transactions with
    accounts := [(⟨0, 5⟩, item), (⟨0, 6⟩, wallet)]
    knownLibraries := [(7, [1])] }

/-- Accounts with the code of the library are items, and their owner is looked up. -/
def parser (M : Type → Type) [Monad M] : Parser M where
  interfacesOf s := return if s.code = some [1] then ["item", "token"] else []
  readAccount s _ lookup := do
    match ← ExceptT.lift (lookup ⟨0, 6⟩ s.lastTxLt).run with
    | .error fault => throw (.other fault)
    | .ok found => return { executed := [], owner := found.map (·.address) }
  callMethod _ _ _ _ := throw .notAvailable
  readPayload _ := throw .notAvailable

def reader : Reader (RescanM (Ledger × LossyCache)) := ⟨Ledger.node, parser _, 6⟩

def answers : Reader Id := ⟨ledger.answers, parser _, 6⟩

/-- The transactions of a block of the ledger. -/
def listedIn (block : BlockId) : List WireTransaction :=
  (ledger.transactions.get? block).getD []

/-- Every second look finds an empty cache. -/
def beginning : Context (Ledger × LossyCache) where
  store := {}
  snapshots := .empty 4
  parser := (ledger, { losses := fun look _ => look % 2 == 0 })
  evictions := fun _ _ => false

theorem fixed : Fixed (ServedFrom ledger) reader answers :=
  ledger_fixed rfl rfl (fun _ _ _ => .pure _) fun I lookup found _ hl s types => by
    simp only [parser]
    refine (hl ⟨0, 6⟩ s.lastTxLt).lift.bind fun outcome _ => ?_
    split
    · exact .mk _
    · exact .pure _

/-- The code of a library is told to those who ask for it. -/
theorem librariesOf_singleton (hash : Hash) :
    ledger.librariesOf [hash] = ((ledger.knownLibraries.get? hash).map (hash, ·)).toList := by
  change List.filterMap (fun h => (ledger.knownLibraries.get? h).map (h, ·)) [hash] ++ [] = _
  rw [List.append_nil, List.filterMap_cons, List.filterMap_nil]
  cases ledger.knownLibraries.get? hash <;> rfl

theorem unseenBlocks_zero : answers.unseenBlocks 0 =
    pure ⟨Synthetic.header (Synthetic.masterId 0) [Synthetic.masterId 0], []⟩ := by
  cbv

/-- What the second master block newly finalises. -/
def unseen : UnseenBlocks where
  master := Synthetic.header (Synthetic.masterId 1) [Synthetic.masterId 0]
  shards := [Synthetic.header (Synthetic.blockId .basechain 1) [Synthetic.blockId .basechain 0]]

theorem unseenBlocks_one : answers.unseenBlocks 1 = pure unseen := by
  cbv

/-- The only shard block of a master block carries its number. -/
theorem id_of_unseen {n : UInt32} {u : UnseenBlocks} (hu : answers.unseenBlocks n = pure u) :
    ∀ h ∈ u.shards, h.id = Synthetic.blockId .basechain n := by
  obtain ⟨id, hid, -⟩ := exists_of_bind_eq_pure hu
  rw [Reader.masterBlock_direct, bind_pure] at hid
  have hn : n = 0 ∨ n = 1 := by
    have hknown : ∀ e ∈ ledger.masters, e.1 = 0 ∨ e.1 = 1 := by decide
    exact hknown _ (Ledger.mem_of_found hid)
  rcases hn with rfl | rfl
  · obtain rfl := pure_inj (unseenBlocks_zero.symm.trans hu)
    decide
  · obtain rfl := pure_inj (unseenBlocks_one.symm.trans hu)
    decide

theorem consistent : answers.Consistent where
  masterBlock_seqno n id h := by
    have hseqno : ∀ e ∈ ledger.masters, e.2.seqno = e.1 := by decide
    exact hseqno _ (Ledger.mem_of_found h)
  masterBlock_shard n id h := by
    have hshard : ∀ e ∈ ledger.masters, e.2.isMasterchain = true := by decide
    exact hshard _ (Ledger.mem_of_found h)
  header_id id h hh := by
    have hid : ∀ e ∈ ledger.headers, e.2.id = e.1 := by decide
    exact hid _ (Ledger.mem_of_found hh)
  account_address id address a h := by
    obtain rfl := pure_inj h
    unfold Ledger.accountAt
    split
    · rename_i hpinned
      cases hpinned
    · split
      · rename_i a ha
        have haddress : ∀ e ∈ ledger.accounts, e.2.address = e.1 := by decide
        exact haddress _ (Table.mem_of_get? ha)
      · rfl
  one_block id id' h h' hh hh' href := by
    have hone : ∀ e ∈ ledger.headers, ∀ e' ∈ ledger.headers, e.1.ref = e'.1.ref → e.1 = e'.1 := by decide
    exact hone _ (Ledger.mem_of_found hh) _ (Ledger.mem_of_found hh') href
  one_code asked answer hash code h he := by
    obtain rfl := pure_inj h
    rw [librariesOf_singleton, Option.mem_toList] at he
    obtain ⟨code, hcode, hentry⟩ := Option.map_eq_some_iff.1 he
    obtain ⟨rfl, rfl⟩ := Prod.mk.inj hentry
    refine ⟨[(asked, code)], ?_, ?_⟩
    · change ExceptT.mk (pure (.ok (ledger.librariesOf [asked]))) = _
      rw [librariesOf_singleton, hcode]
      rfl
    · simp [Table.ofEntries, Table.get?_set]
  shards_apart n u hu h hh := by
    rw [id_of_unseen hu h hh]
    rfl
  one_master m n u v hu hv h hhu hhv := by
    have hid := (id_of_unseen hu h hhu).symm.trans (id_of_unseen hv h hhv)
    exact congrArg BlockId.seqno hid

theorem listable : ∀ e ∈ ledger.transactions, (listed e.2).Nodup ∧
    (e.2.map fun t => (t.account, t.lt)).Nodup ∧
    ∀ t ∈ e.2, t.account.workchain = e.1.shard.workchain.toInt8 := by
  decide

/-- What the ledger holds of a block is what it lists. -/
theorem lists {block : BlockId} (h : (ledger.transactions.get? block).isSome) :
    answers.node.Lists block (listedIn block) := by
  obtain ⟨txs, htxs⟩ := Option.isSome_iff_exists.1 h
  obtain ⟨hnames, hpairs, hworkchain⟩ := listable _ (Table.mem_of_get? htxs)
  rw [listedIn, htxs]
  exact Ledger.lists htxs hnames hpairs hworkchain

/-- What is not a fault is a result. -/
theorem exists_of_isOk {α : Type} {x : ExceptT Fault Id α} (h : x.run.isOk = true) : ∃ a, x = pure a := by
  rcases hx : x.run with fault | a
  · rw [hx] at h
    cases h
  · exact ⟨a, hx⟩

/-- Whatever is asked for the blocks of the second master block is answered. -/
theorem served : ∀ header ∈ unseen.master :: unseen.shards,
    answers.Served unseen.master header (listedIn header.id) := by
  have hknown : ∀ header ∈ unseen.master :: unseen.shards,
      ledger.transactions.get? header.id = some (listedIn header.id) := by decide
  have htransactions : ∀ header ∈ unseen.master :: unseen.shards, ∀ t ∈ listedIn header.id,
      (answers.node.transaction header.id t.account t.lt).run.isOk = true := by decide
  have haccounts : ∀ header ∈ unseen.master :: unseen.shards, ∀ t ∈ listedIn header.id,
      (answers.account header unseen.master.id.seqno t.account >>= fun state =>
        answers.parser.fillAccount (answers.lookupAt unseen.master) state).run.isOk = true := by
    decide +kernel
  have hlimit : ∀ header ∈ unseen.master :: unseen.shards, (listedIn header.id).length < answers.pageLimit := by
    decide
  intro header hheader
  refine ⟨hlimit header hheader, fun before after hsplit => ?_, fun t ht => ?_, fun t ht => ?_⟩
  · have hnames := (listable _ (Table.mem_of_get? (hknown header hheader))).1
    exact ⟨_, Ledger.transactionPage_getLast (hknown header hheader) hnames hsplit⟩
  · exact exists_of_isOk (htransactions header hheader t ht)
  · obtain ⟨a, ha⟩ := exists_of_isOk (haccounts header hheader t ht)
    exact ⟨a, Reader.stateOf_iff.2 ha⟩

theorem lists_of_covers {header : Header} (h : answers.Covers 1 header) :
    answers.node.Lists header.id (listedIn header.id) := by
  have hheaders : ∀ e ∈ ledger.headers, (ledger.transactions.get? e.1).isSome := by decide
  have hheader := consistent.header_of_covers h
  exact lists (hheaders _ (Ledger.mem_of_found hheader))

/-- The order in which requests finish. -/
def turns (turn : Nat) : Nat :=
  [2, 0, 0, 1, 0].getD turn 0

def fetched : Except Fault MasterBundle :=
  (exec (reader.fetchMasterBy (buffered 3 turns) (buffered 1 turns) 1).run beginning).1

/-- What a bundle says of the transactions of shard blocks and of their accounts. -/
def outline (b : MasterBundle) : List (List (UInt64 × Option ContractName × List (Option ContractName)) ×
    List (Address × List ContractName × Option Address)) :=
  b.shards.map fun r =>
    (r.block.transactions.map fun t =>
      (t.lt, t.inMessage.bind (·.destination.contract), t.outMessages.map (·.source.contract)),
      r.accounts.map fun a => (a.address, a.types, a.owner))

/-- The shard block of the second master block. -/
def shard : BlockRef := ⟨.basechain, 1⟩

/-- The names of the transactions of shard blocks and of their messages. -/
def names (b : MasterBundle) : List (Hash × BlockRef × UInt32 × Option Hash × List Hash) :=
  (b.shards.flatMap (·.block.transactions)).map fun t =>
    (t.hash, t.block, t.masterSeqno, t.inMessageHash, t.outMessageHashes)

/-- The messages with their two sides. -/
def sides (b : MasterBundle) : List (Hash × Side × Side) :=
  b.messages.map fun m => (m.hash, m.source, m.destination)

/-- What the chain says of accounts. -/
def snapshots (b : MasterBundle) :
    List (BlockRef × UInt32 × AccountStatus × Nat × UInt64 × Option Bytes × Option Hash) :=
  b.accounts.map fun a =>
    (a.block, a.masterSeqno, a.status, a.balance, a.lastTxLt, a.code, a.codeHash)

end LedgerSample

/-- Three pages of transactions of three accounts; only the item is read, and only it labels messages. Two
messages are recorded on both sides, each with the transaction of its side. -/
theorem fetchMaster_exact_sample :
    LedgerSample.answers.listTransactions (Synthetic.blockId .basechain 1) 6 none =
      pure (listed LedgerSample.transactions) ∧
    LedgerSample.fetched.map LedgerSample.outline = .ok [(
      [(1000001, none, []), (1000002, none, [none]), (1000003, some "item", []),
        (1000004, none, [some "item"]), (1000005, none, [])],
      [(⟨0, 5⟩, ["item", "token"], some ⟨0, 6⟩), (⟨0, 6⟩, [], none), (⟨0, 7⟩, [], none)])] ∧
    LedgerSample.fetched.map LedgerSample.names = .ok [
      (1, LedgerSample.shard, 1, none, []), (2, LedgerSample.shard, 1, none, [9]),
      (3, LedgerSample.shard, 1, some 9, []), (4, LedgerSample.shard, 1, none, [10]),
      (5, LedgerSample.shard, 1, some 10, [])] ∧
    LedgerSample.fetched.map LedgerSample.sides = .ok [
      (9, { address := some ⟨0, 6⟩, tx := some ⟨2, 1000002, LedgerSample.shard, 1⟩ }, { address := some ⟨0, 5⟩ }),
      (9, { address := some ⟨0, 6⟩ },
        { address := some ⟨0, 5⟩, tx := some ⟨3, 1000003, LedgerSample.shard, 1⟩, contract := some "item" }),
      (10, { address := some ⟨0, 5⟩, tx := some ⟨4, 1000004, LedgerSample.shard, 1⟩, contract := some "item" },
        { address := some ⟨0, 7⟩ }),
      (10, { address := some ⟨0, 5⟩ },
        { address := some ⟨0, 7⟩, tx := some ⟨5, 1000005, LedgerSample.shard, 1⟩ })] ∧
    LedgerSample.fetched.map LedgerSample.snapshots = .ok [
      (LedgerSample.shard, 1, .active, 1000000000, 1000005, some [1], some 7),
      (LedgerSample.shard, 1, .active, 1000000000, 1000002, some [99, 111, 100, 101],
        some (Hash.repeated 0xc0)),
      (LedgerSample.shard, 1, .nonexistent, 0, 0, none, none)] ∧
    ∃ b, LedgerSample.fetched = .ok b ∧ LedgerSample.answers.BundleOf LedgerSample.listedIn 1 b := by
  obtain ⟨-, hbundle, hserved, hreaders⟩ := fetchMaster_exact LedgerSample.consistent.truthful (n := 1)
    fun header h => LedgerSample.lists_of_covers h
  obtain ⟨b, hb⟩ := hserved _ LedgerSample.unseenBlocks_one LedgerSample.served
  have hreader := hreaders _ _ LedgerSample.fixed LedgerSample.consistent LedgerSample.beginning ⟨.empty _, rfl⟩
  have hfetched := (hreader.2.2 3 1 LedgerSample.turns LedgerSample.turns b).2 hb
  exact ⟨by cbv, by cbv, by cbv, by cbv, by cbv, b, hfetched, hbundle b hb⟩

end Rescan

end ShardIndex
