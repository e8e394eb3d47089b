import ShardIndex.Fetch.Bundle
import ShardIndex.Proofs.Rescan.Behaviour
/-!
# What a reader keeps

A reader labels snapshots, keeps them and hands them out again. So if all that it labels satisfy a property,
then so does all that it hands out (`account_yields`), provided that nothing else was in the cache to begin
with (`Caches`).
-/
namespace ShardIndex.Rescan

variable {σ : Type}

instance : MonadStateOf ReadCache (RescanM (σ × ReadCache)) := attached

/-- The reads of a node that fetching a block needs keep a property of the context. -/
structure NodeKeeps (I : Context (σ × ReadCache) → Prop) (node : ChainNode (RescanM (σ × ReadCache))) :
    Prop where
  transactionPage : ∀ block after, Keeps I (node.transactionPage block after).run
  transaction : ∀ block address lt, Keeps I (node.transaction block address lt).run
  account : ∀ block address, Keeps I (node.account block address).run
  libraries : ∀ hashes, Keeps I (node.libraries hashes).run

/-- The property of the context has this to say about cached reads: every cached snapshot satisfies `Q`. -/
structure Caches (I : Context (σ × ReadCache) → Prop) (Q : AccountState → Prop) : Prop where
  cached : ∀ w, I w → ∀ key s, w.parser.2.accounts.get? key = some s → Q s
  write : ∀ w c, I w → (∀ key s, c.accounts.get? key = some s → Q s) →
    I { w with parser := (w.parser.1, c) }

section

variable {I : Context (σ × ReadCache) → Prop} {Q : AccountState → Prop}
  {reader : Reader (RescanM (σ × ReadCache))} (hI : Caches I Q)

include hI

theorem Caches.run_get {ε : Type} :
    Ends I (getThe ReadCache : ExceptT ε (RescanM (σ × ReadCache)) ReadCache).run
      (Yields fun c => ∀ key s, c.accounts.get? key = some s → Q s) :=
  fun w hw => ⟨fun _ hc => Except.ok.inj hc ▸ hI.cached w hw, hw⟩

theorem Caches.run_modify {ε : Type} {f : ReadCache → ReadCache}
    (hf : ∀ c, (∀ key s, c.accounts.get? key = some s → Q s) →
      ∀ key s, (f c).accounts.get? key = some s → Q s) :
    Keeps I (modifyThe ReadCache f : ExceptT ε (RescanM (σ × ReadCache)) Unit).run :=
  fun w hw => hI.write w _ hw (hf _ (hI.cached w hw))

variable (hnode : NodeKeeps I reader.node)

include hnode

theorem libraryCode_keeps (hash : Hash) : Keeps I (reader.libraryCode hash).run := by
  unfold Reader.libraryCode
  refine .run_bind hI.run_get.keeps fun c => ?_
  split
  · exact .run_pure _
  · refine .run_bind (hnode.libraries _) fun answer => .run_bind (hI.run_modify fun _ hc => hc) fun _ => ?_
    split
    · exact .run_pure _
    · exact .run_mk _

theorem resolveCode_keeps (raw : WireAccount) : Keeps I (reader.resolveCode raw).run := by
  unfold Reader.resolveCode
  split
  · exact .run_pure _
  · exact .run_bind (libraryCode_keeps hI hnode _) fun _ => .run_pure _

/-- The reader hands out what it has labelled, now or before. What it labels is nothing but what the chain
says, and it asks the parser about active accounts only. -/
theorem account_yields (hactive : ∀ s : AccountState, s.chain = s → s.isActive = true →
      Ends I (reader.parser.interfacesOf s).run (Yields fun types => Q { s with types := types }))
    (hinactive : ∀ s : AccountState, s.chain = s → s.isActive = false → Q { s with types := [] })
    (header : Header) (masterSeqno : UInt32) (address : Address) :
    Ends I (reader.account header masterSeqno address).run (Yields Q) := by
  unfold Reader.account
  refine hI.run_get.yields_bind fun c hc => ?_
  split
  · rename_i state hstate
    exact .yields_pure (hc _ state hstate)
  · refine .yields_then (hnode.account _ _) fun raw => .yields_then (resolveCode_keeps hI hnode raw) fun raw => ?_
    let state := raw.toState header.id masterSeqno header.genTime
    have hkept : ∀ types : List ContractName, Q { state with types := types } → Ends I (do
          modifyThe ReadCache fun c =>
            { c with accounts := c.accounts.set (header.id.ref, state.address) { state with types := types } }
          return { state with types := types } :
            ExceptT Fault (RescanM (σ × ReadCache)) AccountState).run (Yields Q) := by
      intro types htypes
      refine .yields_then (hI.run_modify fun c hc key s hs => ?_) fun _ => .yields_pure htypes
      rw [Table.get?_set] at hs
      split at hs
      · obtain rfl := Option.some.inj hs
        exact htypes
      · exact hc key s hs
    dsimp only
    split
    · rename_i hstatus
      exact (hactive state rfl hstatus).yields_bind hkept
    · rename_i hstatus
      have hnone : Ends I (pure [] : ExceptT Fault (RescanM (σ × ReadCache)) (List ContractName)).run
          (Yields fun types => Q { state with types := types }) :=
        .yields_pure (hinactive state rfl (Bool.eq_false_iff.2 hstatus))
      exact hnone.yields_bind hkept

end

end ShardIndex.Rescan
