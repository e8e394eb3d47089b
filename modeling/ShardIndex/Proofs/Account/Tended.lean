import Mathlib
import ShardIndex.Proofs.Account.Reading
import ShardIndex.Proofs.Account.Rewriting
/-!
# Every snapshot is represented

Snapshots are made by fetching blocks and rewritten by the rescan. A fetched snapshot starts from what the
reader keeps, which is bare: nothing that is read from contracts flows back into the cache. So it is
represented (`fetchBlock_represented`), and by what rewriting does to it the snapshots in the store are so
after any steps of the rescan, for tasks of any kind, with blocks fetched and committed, definitions changed
and tasks added in between (`Tended.keeps_representation`).
-/
namespace ShardIndex.Rescan

variable {σ : Type}

/-- The snapshots in the store are represented, and those in the cache bare. -/
structure Orderly (w : Context (σ × ReadCache)) : Prop where
  stored : ∀ s ∈ w.store.accounts, s.Represented
  cached : ∀ key s, w.parser.2.accounts.get? key = some s → s.Bare

theorem orderly_indifferent : Indifferent (Orderly (σ := σ)) :=
  fun _ _ h => ⟨h.stored, h.cached⟩

/-! ## Fetching -/

section

variable {P : σ → Prop} {reader : Reader (RescanM (σ × ReadCache))}

theorem orderly_caches : Caches (Within (Orderly (σ := σ)) P) AccountState.Bare :=
  ⟨fun _ hw => hw.1.cached, fun _ _ hw hc => ⟨⟨hw.1.stored, hc⟩, hw.2⟩⟩

variable (hnode : NodeKeeps (Within Orderly P) reader.node)

include hnode

theorem listTransactions_keeps (block : BlockId) : ∀ (pages : Nat) (after : Option TransactionKey),
    Keeps (Within Orderly P) (reader.listTransactions block pages after).run
  | 0, _ => .run_mk _
  | pages + 1, after => by
    rw [Reader.listTransactions]
    refine .run_bind (hnode.transactionPage _ _) fun ⟨page, more⟩ => ?_
    dsimp only
    split
    · exact .run_pure _
    · split
      · exact .run_bind (listTransactions_keeps block pages _) fun _ => .run_pure _
      · exact .run_pure _

variable (hparser : Behaves P List.Nodup AccountData.Reports reader.parser)

include hparser

/-- A snapshot that the reader keeps has labels, and nothing that contracts said. -/
theorem account_bare (header : Header) (masterSeqno : UInt32) (address : Address) :
    Ends (Within Orderly P) (reader.account header masterSeqno address).run (Yields AccountState.Bare) := by
  have hbare : ∀ (s : AccountState) (types : List ContractName), s.chain = s → types.Nodup →
      { s with types := types }.Bare := by
    intro s types hs htypes
    exact ⟨htypes, congrArg (fun c : AccountState => { c with types := types }) hs.symm⟩
  refine account_yields orderly_caches hnode (fun s hs _ => ?_) (fun s hs _ => hbare s [] hs .nil) header
    masterSeqno address
  exact (hparser.interfacesOf Orderly orderly_indifferent s).yields_weaken fun types => hbare s types hs

theorem lookupAt_keeps (master : Header) (address : Address) (beforeLt : UInt64) :
    Keeps (Within Orderly P) (reader.lookupAt master address beforeLt).run :=
  .run_bind (account_bare hnode hparser _ _ _).keeps fun _ => .run_pure _

/-- Every snapshot of a fetched block is represented. -/
theorem fetchBlock_represented (header : Header) (masterRef : Option BlockRef) (master : Header) :
    Ends (Within Orderly P) (reader.fetchBlock header masterRef master).run
      (Yields fun record => ∀ s ∈ record.accounts, s.Represented) := by
  have hfill : ∀ s : AccountState, s.Bare → Ends (Within Orderly P)
      (reader.parser.fillAccount (reader.lookupAt master) s).run (Yields AccountState.Represented) := by
    intro s hs
    unfold Parser.fillAccount
    split
    · exact .yields_pure hs.represented
    · refine (Ends.yields_lift (hparser.readAccount Orderly _ orderly_indifferent
        (lookupAt_keeps hnode hparser master) s s.types)).yields_bind fun outcome hd => ?_
      exact .yields_mk fun b hb => hs.represented.absorb (List.Subset.refl _) hd hb
  have htransactions : ∀ keys : List TransactionKey, Keeps (Within Orderly P) (keys.mapM fun key =>
      reader.node.transaction header.id ⟨header.id.shard.workchain.toInt8, key.account⟩ key.lt).run :=
    fun keys => (Ends.yields_mapM fun key _ => (hnode.transaction _ _ _).yields).keeps
  unfold Reader.fetchBlock Reader.fetchBlockBy oneByOne
  refine .yields_then (listTransactions_keeps hnode _ _ _) fun keys => .yields_then (htransactions keys) fun raws => ?_
  refine (Ends.yields_mapM (R := AccountState.Represented) fun address _ => ?_).yields_bind
    fun accounts haccounts => .yields_pure haccounts
  exact (account_bare hnode hparser _ _ _).yields_bind hfill

end

/-! ## Stepping -/

section

variable {P : σ → Prop} {parser : Parser (RescanM (σ × ReadCache))}
  (hparser : Behaves P List.Nodup AccountData.Reports parser)

include hparser

/-- A step of the rescan leaves the store represented, whatever its outcome is. -/
theorem step_orderly (batch : UInt32) {w : Context (σ × ReadCache)} (hw : Within Orderly P w) :
    Within Orderly P (exec (step parser batch).run w).2 := by
  have hlookup : ∀ address beforeLt, Keeps (Within Orderly P)
      ((Snapshots.lookup : Lookup (RescanM (σ × ReadCache))) address beforeLt).run :=
    fun _ _ _ h => ⟨⟨h.1.stored, h.1.cached⟩, h.2⟩
  have hcarry : ∀ {t : RescanTask} {pl : Plan} {r : Except Fault (List AccountState × List Message)}
      {v : Context (σ × ReadCache)}, exec (carryOutWith parser Snapshots.lookup t pl).run w = (r, v) →
        Yields (fun rows => ∀ s ∈ rows.1, s.Represented) r ∧ Within Orderly P v := by
    intro t pl r v h
    have hends := carryOut_represented hparser orderly_indifferent hlookup t (fun _ h => h.stored) pl w hw
    rwa [h] at hends
  generalize hr : exec (step parser batch).run w = r
  cases hr ▸ step_spec parser batch w with
  | idle h => exact hw
  | stuck hjob h => exact (hcarry h).2
  | refused hjob h hrefusals =>
    obtain ⟨-, hv⟩ := hcarry h
    exact ⟨⟨hv.1.stored, hv.1.cached⟩, hv.2⟩
  | @committed t first last rows v hjob h hrefusals =>
    obtain ⟨hrows, hv⟩ := hcarry h
    refine ⟨⟨fun s hs => ?_, ?_⟩, ?_⟩
    · rw [Context.store_commit, committed_writes] at hs
      rcases Store.mem_of_mem_foldl_putAccount _ _ hs with hs | hs
      · exact hrows rows rfl s hs
      · exact hv.1.stored s hs
    · rw [Context.parser_commit]
      exact hv.1.cached
    · rw [Context.parser_commit]
      exact hv.2

end

/-! ## Any course of events -/

/-- The snapshots that a fetch came to. -/
def fetchedBy : Except Fault BlockRecord → List AccountState
  | .ok record => record.accounts
  | .error _ => []

/-- What fetching and rescanning lead to, with the snapshots fetched so far. In between rows are written as
they are or as they were fetched, windows and cached reads may get lost, and everything else may change. -/
inductive Tended (reader : Reader (RescanM (σ × ReadCache))) (P : σ → Prop) :
    Context (σ × ReadCache) → List AccountState → Prop
  | start {w : Context (σ × ReadCache)} (hstore : w.store.accounts = []) (hcache : w.parser.2.accounts = [])
      (hp : P w.parser.1) : Tended reader P w []
  | fetch {w : Context (σ × ReadCache)} {fetched : List AccountState} (h : Tended reader P w fetched)
      (header : Header) (masterRef : Option BlockRef) (master : Header) :
      Tended reader P (exec (reader.fetchBlock header masterRef master).run w).2
        (fetched ++ fetchedBy (exec (reader.fetchBlock header masterRef master).run w).1)
  | step {w : Context (σ × ReadCache)} {fetched : List AccountState} (h : Tended reader P w fetched)
      (batch : UInt32) : Tended reader P (exec (step reader.parser batch).run w).2 fetched
  | between {w v : Context (σ × ReadCache)} {fetched : List AccountState} (h : Tended reader P w fetched)
      (hstore : ∀ s ∈ v.store.accounts, s ∈ fetched ∨ s ∈ w.store.accounts)
      (hcache : ∀ key s, v.parser.2.accounts.get? key = some s → w.parser.2.accounts.get? key = some s)
      (hp : P v.parser.1) : Tended reader P v fetched

/-- Every snapshot that is fetched, and every one that is in the store after steps of the rescan, has labels
without repetition, executions of labels only, some for each and each method once, and nothing in a derived
field that no executed method populates; so without labels it has nothing. -/
theorem Tended.keeps_representation {P : σ → Prop} {reader : Reader (RescanM (σ × ReadCache))}
    (hparser : Behaves P List.Nodup AccountData.Reports reader.parser)
    (hnode : ∀ I : Context (σ × ReadCache) → Prop, Indifferent I → NodeKeeps (Within I P) reader.node)
    {w : Context (σ × ReadCache)} {fetched : List AccountState} (h : Tended reader P w fetched) :
    ∀ s, s ∈ fetched ∨ s ∈ w.store.accounts →
      s.Represented ∧ (s.types = [] → s.executed = [] ∧ ∀ f, ¬ s.Fills f) := by
  have hinv : Within Orderly P w ∧ ∀ s ∈ fetched, s.Represented := by
    induction h with
    | start hstore hcache hp =>
      refine ⟨⟨⟨by simp [hstore], fun key s hs => ?_⟩, hp⟩, by simp⟩
      rw [hcache] at hs
      cases hs
    | fetch h header masterRef master ih =>
      obtain ⟨hw, hfetched⟩ := ih
      obtain ⟨hrecord, hv⟩ := fetchBlock_represented (hnode _ orderly_indifferent) hparser header masterRef
        master _ hw
      refine ⟨hv, List.forall_mem_append.2 ⟨hfetched, fun s hs => ?_⟩⟩
      cases hr : (exec (reader.fetchBlock header masterRef master).run _).1 with
      | error fault =>
        rw [hr] at hs
        cases hs
      | ok record =>
        rw [hr] at hs
        exact hrecord record hr s hs
    | step h batch ih => exact ⟨step_orderly hparser batch ih.1, ih.2⟩
    | between h hstore hcache hp ih =>
      obtain ⟨hw, hfetched⟩ := ih
      refine ⟨⟨⟨fun s hs => ?_, fun key s hs => hw.1.cached key s (hcache key s hs)⟩, hp⟩, hfetched⟩
      rcases hstore s hs with hs | hs
      · exact hfetched s hs
      · exact hw.1.stored s hs
  intro s hs
  have hs : s.Represented := hs.elim (hinv.2 s) (hinv.1.1.stored s)
  exact ⟨hs, hs.unlabelled⟩

/-! ## A sample -/

namespace Sample

def ownedHash : Hash := 12

def forgetTask : RescanTask where
  id := 1
  kind := .delMethod
  contract := "item"
  method := some "get_nft_data"

def founded : Registry where
  interfaces := [{ name := "item", codeHash := some ownedHash, methods := ["get_nft_data"] }]
  methodResults := [(("item", "get_nft_data"), { owner := some ⟨0, 3⟩ })]

theorem founded_founded : founded.Founded where
  names := by decide
  script := rfl
  results contract method data h f hf := by
    simp only [founded, Table.get?] at h
    split at h
    · rename_i hkey
      obtain rfl := Option.some.inj h
      cases hkey
      cases f <;> simp [AccountData.Fills] at hf
      decide
    · cases h

def masterHeader : Header := ⟨⟨.masterchain, 6, 0, 0⟩, 0, 0, 0, [], false, false⟩

/-- A node whose only block has one transaction, of an active item. -/
def node : ChainNode (RescanM (Registry × ReadCache)) where
  lastMaster := return 6
  masterBlock _ := return masterHeader.id
  topShards _ := return []
  header _ := return masterHeader
  transactionPage _ _ := return ([⟨2, 20, 0⟩], false)
  transaction _ address lt := return ⟨0, lt, address, 0, 0, 0, 0, .active, .active, false, none, none, []⟩
  account _ address := return {
    WireAccount.absent address with status := .active, lastTxLt := 20, codeHash := some ownedHash }
  libraries _ := return []

theorem node_keeps (I : Context (Registry × ReadCache) → Prop) : NodeKeeps I node :=
  ⟨fun _ _ => .run_pure _, fun _ _ _ => .run_pure _, fun _ _ => .run_pure _, fun _ => .run_pure _⟩

def reader : Reader (RescanM (Registry × ReadCache)) := ⟨node, Registry.parser, 1⟩

def beginning : Context (Registry × ReadCache) where
  store := {}
  snapshots := .empty 4
  parser := (founded, {})
  evictions := fun _ _ => false

def fetched : Except Fault BlockRecord × Context (Registry × ReadCache) :=
  exec (reader.fetchBlock masterHeader none masterHeader).run beginning

/-- The snapshot is committed, and the item loses its get-method. -/
def recorded : Context (Registry × ReadCache) :=
  { fetched.2 with
    store := {
      blocks := [⟨masterHeader.id, none, 0, 0, 0, []⟩]
      accounts := fetchedBy fetched.1
      tasks := [forgetTask] }
    parser := (founded, fetched.2.parser.2) }

end Sample

/-- The fetched item has an owner by its only execution; without the execution it has none. -/
theorem Tended.keeps_representation_sample :
    Sample.founded.Founded ∧
      Tended Sample.reader Registry.Founded (exec (Rescan.step Sample.reader.parser 2).run Sample.recorded).2
        (fetchedBy Sample.fetched.1) ∧
      (fetchedBy Sample.fetched.1).map (fun s => (s.types, s.executed.map (·.1), s.owner.isSome)) =
        [(["item"], ["item"], true)] ∧
      (exec (Rescan.step Sample.reader.parser 2).run Sample.recorded).2.store.accounts.map (fun s =>
        (s.types, s.executed.map (·.1), s.owner.isSome)) = [(["item"], [], false)] ∧
      ∀ s ∈ (exec (Rescan.step Sample.reader.parser 2).run Sample.recorded).2.store.accounts, s.Represented := by
  have hstart : Tended Sample.reader Registry.Founded Sample.beginning [] :=
    .start rfl rfl Sample.founded_founded
  have hfetched := hstart.fetch Sample.masterHeader none Sample.masterHeader
  have hrecorded : Tended Sample.reader Registry.Founded Sample.recorded (fetchedBy Sample.fetched.1) :=
    .between hfetched (fun s hs => .inl hs) (fun _ _ hs => hs) Sample.founded_founded
  have hstep := hrecorded.step 2
  exact ⟨Sample.founded_founded, hstep, by cbv, by cbv, fun s hs =>
    (Tended.keeps_representation registry_reports (fun I _ => Sample.node_keeps _) hstep s (.inr hs)).1⟩

end ShardIndex.Rescan
