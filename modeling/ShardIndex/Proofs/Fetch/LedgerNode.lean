import ShardIndex.Proofs.Fetch.Listing
import ShardIndex.Proofs.Fetch.Transparency
/-!
# The ledger as a node

Without a script and without outages a ledger answers each request by a function (`Ledger.answers`), although
it counts requests on the way (`Rescan.ledger_fixed`). It lists its blocks in pages of two, and each page starts after
the place where the cursor is found, so blocks whose transactions have different names are listed as they are
(`Ledger.lists`).
-/
namespace ShardIndex

namespace Ledger

/-- What the ledger answers, as long as nothing is scripted or out of service. -/
def answers (l : Ledger) : ChainNode Id where
  lastMaster := ExceptT.mk (pure l.lastMaster)
  masterBlock seqno := ExceptT.mk (pure (found (l.masters.get? seqno)))
  topShards master := ExceptT.mk (pure (found (l.topShards.get? master)))
  header block := ExceptT.mk (pure (found (l.headers.get? block)))
  transactionPage block after := ExceptT.mk (pure (do
    pageAfter ((← found (l.transactions.get? block)).map keyOf) after))
  transaction block address lt := ExceptT.mk (pure (do
    let listed ← found (l.transactions.get? block)
    found (listed.find? fun t => t.account == address && t.lt == lt)))
  account block address := ExceptT.mk (pure (.ok (l.accountAt block address)))
  libraries hashes := ExceptT.mk (pure (.ok (l.librariesOf hashes)))

/-- What it answers from a table is an entry of the table. -/
theorem mem_of_found {K V : Type} [DecidableEq K] {t : Table K V} {k : K} {v : V}
    (h : ExceptT.mk (m := Id) (pure (found (t.get? k))) = pure v) : (k, v) ∈ t := by
  cases hk : t.get? k with
  | none =>
    rw [hk] at h
    cases h
  | some v' =>
    rw [hk] at h
    obtain rfl := pure_inj h
    exact Table.mem_of_get? hk

/-! ## Pages -/

/-- The last of the names before is found at its place. -/
theorem findIdx?_getLast {before left : List TransactionKey} {key : TransactionKey}
    (hnodup : (before ++ left).Nodup) (hlast : before.getLast? = some key) :
    (before ++ left).findIdx? (· == key) = some (before.length - 1) := by
  obtain ⟨init, rfl⟩ := List.getLast?_eq_some_iff.1 hlast
  have hnot : key ∉ init := by
    rw [List.append_assoc] at hnodup
    intro hmem
    exact (List.disjoint_of_nodup_append hnodup) hmem (by simp)
  have hinit : init.findIdx? (· == key) = none := by
    rw [List.findIdx?_eq_none_iff]
    intro k hk
    exact beq_eq_false_iff_ne.2 fun h => hnot (h ▸ hk)
  rw [List.append_assoc, List.findIdx?_append, hinit]
  simp [List.findIdx?_cons]

/-- The page after what is before starts with what is left. -/
theorem pageAfter_getLast {before left : List TransactionKey} (hnodup : (before ++ left).Nodup) :
    pageAfter (before ++ left) before.getLast? =
      .ok (left.take pageSize, decide (pageSize < left.length)) := by
  have hmore : decide (before.length + (left.take pageSize).length < (before ++ left).length) =
      decide (pageSize < left.length) := by
    rw [List.length_take, List.length_append]
    refine decide_eq_decide.2 ?_
    omega
  cases hlast : before.getLast? with
  | none =>
    obtain rfl := List.getLast?_eq_none_iff.1 hlast
    rw [← hmore]
    rfl
  | some key =>
    have hpos : 0 < before.length := List.length_pos_of_mem (List.mem_of_getLast? hlast)
    have hoffset : before.length - 1 + 1 = before.length := by omega
    unfold pageAfter
    simp only [findIdx?_getLast hnodup hlast, pure_bind, hoffset, List.drop_left, hmore]
    rfl

/-- A page starts after what is before. -/
theorem transactionPage_getLast {l : Ledger} {block : BlockId} {txs : List WireTransaction}
    (htxs : l.transactions.get? block = some txs) (hnames : (listed txs).Nodup)
    {before left : List TransactionKey} (hsplit : listed txs = before ++ left) :
    l.answers.transactionPage block before.getLast? =
      pure (left.take pageSize, decide (pageSize < left.length)) := by
  have hserved : pageAfter (listed txs) before.getLast? =
      .ok (left.take pageSize, decide (pageSize < left.length)) := by
    rw [hsplit] at hnames ⊢
    exact pageAfter_getLast hnames
  simp only [answers, htxs, found]
  exact congrArg (fun r => ExceptT.mk (pure r)) hserved

/-- The ledger lists its blocks. -/
theorem lists {l : Ledger} {block : BlockId} {txs : List WireTransaction}
    (htxs : l.transactions.get? block = some txs) (hnames : (listed txs).Nodup)
    (hpairs : (txs.map fun t => (t.account, t.lt)).Nodup)
    (hworkchain : ∀ t ∈ txs, t.account.workchain = block.shard.workchain.toInt8) :
    l.answers.Lists block txs where
  workchain := hworkchain
  page before left hsplit page more hpage := by
    rw [transactionPage_getLast htxs hnames hsplit] at hpage
    obtain ⟨rfl, rfl⟩ := Prod.mk.inj (pure_inj hpage)
    refine ⟨left.drop pageSize, (List.take_append_drop _ _).symm, fun hne => ?_⟩
    have hlong : pageSize < left.length := by
      by_contra hshort
      exact hne (List.drop_eq_nil_of_le (by omega))
    refine ⟨fun hempty => ?_, decide_eq_true hlong⟩
    have hnone : left = [] := by
      rcases List.take_eq_nil_iff.1 hempty with hzero | hnone
      · cases hzero
      · exact hnone
    rw [hnone] at hlong
    cases hlong
  transaction t ht raw hraw := by
    simp only [answers, htxs, found] at hraw
    change ExceptT.mk (pure (found (txs.find? fun t' => t'.account == t.account && t'.lt == t.lt))) = _ at hraw
    cases hfind : txs.find? fun t' => t'.account == t.account && t'.lt == t.lt with
    | none =>
      rw [hfind] at hraw
      cases hraw
    | some found =>
      rw [hfind] at hraw
      obtain rfl : found = raw := pure_inj hraw
      have hmem := List.mem_of_find?_eq_some hfind
      have hsame := List.find?_some hfind
      rw [Bool.and_eq_true, beq_iff_eq, beq_iff_eq] at hsame
      exact List.inj_on_of_nodup_map hpairs hmem ht (Prod.ext hsame.1 hsame.2)

end Ledger

/-! ## The node as a function -/

namespace Rescan

instance : MonadStateOf Ledger (RescanM (Ledger × LossyCache)) := ownState

/-- The ledger but for the numbers of requests that it has served. -/
def ServedFrom (l l' : Ledger) : Prop :=
  l' = { l with accountRequests := l'.accountRequests, libraryRequests := l'.libraryRequests }

variable {l : Ledger} {I : Context (Ledger × LossyCache) → Prop} {α : Type}

theorem getLedger_ends {ε : Type} :
    Ends (Within I (ServedFrom l)) (getThe Ledger : ExceptT ε (RescanM (Ledger × LossyCache)) Ledger).run
      fun r => ∃ l', r = .ok l' ∧ ServedFrom l l' :=
  fun w hw => ⟨⟨w.parser.1, rfl, hw.2⟩, hw⟩

variable (hI : Indifferent I)

theorem ask_mirrors {f : Ledger → Except Fault α} (hf : ∀ l', ServedFrom l l' → f l' = f l) :
    Mirrors (Within I (ServedFrom l)) (Ledger.ask f) (ExceptT.mk (pure (f l))) := by
  refine getLedger_ends.run_bind (fun r hr => ?_) (by simp)
  obtain ⟨l', hl', hserved⟩ := hr
  obtain rfl := Except.ok.inj hl'
  rw [hf _ hserved]
  exact Mirrors.mk _

include hI

theorem modifyLedger_ends {f : Ledger → Ledger} (hf : ∀ l', ServedFrom l l' → ServedFrom l (f l')) :
    Ends (Within I (ServedFrom l)) (modifyThe Ledger f : ExceptT Fault (RescanM (Ledger × LossyCache)) Unit).run
      (· = .ok ()) :=
  fun w hw => ⟨rfl, hI w _ hw.1, hf _ hw.2⟩

theorem serve_mirrors (hscript : l.script = []) (call key : String)
    {body : ExceptT Fault (RescanM (Ledger × LossyCache)) α} {y : ExceptT Fault Id α}
    (h : Mirrors (Within I (ServedFrom l)) body y) :
    Mirrors (Within I (ServedFrom l)) (Ledger.serve call key body) y := by
  refine getLedger_ends.run_bind (fun r hr => ?_) (by simp)
  obtain ⟨l', hl', hserved⟩ := hr
  obtain rfl := Except.ok.inj hl'
  have hempty : r.script = [] := (congrArg Ledger.script hserved).trans hscript
  rw [hempty]
  change Mirrors (Within I (ServedFrom l)) (modifyThe Ledger (fun l => { l with script := [] }) >>= fun _ => body) y
  refine .then_of_keeps (modifyLedger_ends hI fun l' h => ?_) h
  have hnone : l'.script = [] := (congrArg Ledger.script h).trans hscript
  rw [← hnone]
  exact h

omit hI in
/-- The ledger is the node of a reader with fixed answers, with any parser that has them. -/
theorem ledger_fixed (hscript : l.script = []) (houtages : l.outages = [])
    {parser : Parser (RescanM (Ledger × LossyCache))} {answers : Parser Id} {pageLimit : Nat}
    (hinterfaces : ∀ I : Context (Ledger × LossyCache) → Prop, Indifferent I → ∀ s,
      Mirrors (Within I (ServedFrom l)) (parser.interfacesOf s) (answers.interfacesOf s))
    (hread : ∀ (I : Context (Ledger × LossyCache) → Prop) (lookup : Lookup (RescanM (Ledger × LossyCache)))
      (found : Lookup Id), Indifferent I →
        (∀ address beforeLt, Mirrors (Within I (ServedFrom l)) (lookup address beforeLt) (found address beforeLt)) →
          ∀ s types, Mirrors (Within I (ServedFrom l)) (parser.readAccount s types lookup)
            (answers.readAccount s types found)) :
    Fixed (ServedFrom l) ⟨Ledger.node, parser, pageLimit⟩ ⟨l.answers, answers, pageLimit⟩ where
  pageLimit := rfl
  masterBlock I hI seqno := by
    refine serve_mirrors hI hscript _ _ (getLedger_ends.run_bind (fun r hr => ?_) (by simp))
    obtain ⟨l', hl', hserved⟩ := hr
    obtain rfl := Except.ok.inj hl'
    have hnone : r.outages = [] := (congrArg Ledger.outages hserved).trans houtages
    have hmasters : r.masters = l.masters := (congrArg Ledger.masters hserved :)
    have hanswer : r.masterBlock seqno = (Ledger.found (l.masters.get? seqno), r) := by
      rw [Ledger.masterBlock, hnone, hmasters]
      rfl
    rw [hanswer]
    refine Mirrors.then_of_keeps (x := set r) (fun w hw => ⟨rfl, hI w _ hw.1, hserved⟩) (.mk _)
  topShards I hI master := serve_mirrors hI hscript _ _ (ask_mirrors fun l' h => by rw [h])
  header I hI block := by
    have hask : Mirrors (Within I (ServedFrom l)) (Ledger.ask fun l => Ledger.found (l.headers.get? block))
        (ExceptT.mk (pure (Ledger.found (l.headers.get? block)))) := ask_mirrors fun l' h => by rw [h]
    refine serve_mirrors hI hscript _ _ (getLedger_ends.run_bind (fun r _ => ?_) (by simp))
    cases r.delays.get? block with
    | none => exact hask
    | some ms =>
      -- waiting takes no time
      have hwait : Ends (Within I (ServedFrom l))
          (Clock.wait ms : ExceptT Fault (RescanM (Ledger × LossyCache)) Unit).run (· = .ok ()) :=
        fun w hw => ⟨rfl, hw⟩
      exact Mirrors.then_of_keeps hwait hask
  transactionPage I hI block after := serve_mirrors hI hscript _ _ (ask_mirrors fun l' h => by rw [h])
  transaction I hI block address lt := serve_mirrors hI hscript _ _ (ask_mirrors fun l' h => by rw [h])
  account I hI block address := by
    refine serve_mirrors hI hscript _ _ (.then_of_keeps (modifyLedger_ends hI fun l' h => ?_) ?_)
    · rw [h]
      rfl
    · exact ask_mirrors fun l' h => by rw [h]; rfl
  libraries I hI hashes := by
    refine serve_mirrors hI hscript _ _ (.then_of_keeps (modifyLedger_ends hI fun l' h => ?_) ?_)
    · rw [h]
      rfl
    · exact ask_mirrors fun l' h => by rw [h]; rfl
  interfacesOf := hinterfaces
  readAccount := hread

end Rescan

end ShardIndex
