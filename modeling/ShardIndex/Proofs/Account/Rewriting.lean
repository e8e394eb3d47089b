import ShardIndex.Proofs.Account.Represented
import ShardIndex.Proofs.Rescan.Commits
import ShardIndex.Proofs.Rescan.Registry
/-!
# Rewriting keeps snapshots represented

A parser whose findings are founded makes represented snapshots of represented ones, whatever the task is
about (`rewriteAccount_represented`): an interface is labelled before it is read, and a get-method is executed
only on snapshots that carry the label of its contract. So what a plan changes is represented if the rows of
the store are (`carryOut_represented`).

The registry is such a parser (`registry_reports`), as long as its canned results have no field that
their own method does not populate.
-/
namespace ShardIndex

theorem AccountState.mem_types_addInterface (s : AccountState) (contract : ContractName) :
    contract ∈ (s.addInterface contract).types := by
  unfold AccountState.addInterface
  split
  · rename_i h
    exact List.contains_iff_mem.1 h
  · exact List.mem_append_right _ (List.mem_singleton_self _)

namespace Rescan

variable {σ τ : Type}

/-! ## Rewriting -/

section

variable {P : σ → Prop} {labels : List ContractName → Prop} {parser : Parser (RescanM (σ × τ))}
  (hparser : Behaves P labels AccountData.Reports parser) {I : Context (σ × τ) → Prop}
  (hI : Indifferent I) {lookup : Lookup (RescanM (σ × τ))}
  (hl : ∀ address beforeLt, Keeps (Within I P) (lookup address beforeLt).run) (t : RescanTask)

/-- Tasks that execute a get-method bear on snapshots that carry the label of its contract. -/
def Labelled (t : RescanTask) (s : AccountState) : Prop :=
  t.kind = .addMethod ∨ t.kind = .updMethod → t.contract ∈ s.types

theorem labelled_of_mem_statesInRange {s : Store} {interface : Option ContractInterface}
    {first last : UInt32} {a : AccountState}
    (ha : a ∈ s.statesInRange (accountFilter t interface) first last) : a ∈ s.accounts ∧ Labelled t a := by
  rw [Store.statesInRange, List.mem_mergeSort, List.mem_filter, Bool.and_eq_true] at ha
  obtain ⟨ha, -, hselects⟩ := ha
  refine ⟨ha, fun hkind => ?_⟩
  have hfilter : accountFilter t interface = { withType := some t.contract } := by
    rcases hkind with hkind | hkind <;> simp [accountFilter, hkind]
  rw [hfilter] at hselects
  simpa [AccountFilter.selects, AccountState.hasInterface] using hselects

include hparser hI hl

theorem rereadInterface_represented {s : AccountState} (hs : s.Represented) (i : ContractInterface) :
    Ends (Within I P) (rereadInterface parser lookup i s).run (Yields AccountState.Represented) := by
  have hcleared := (hs.clearContract i.name i.methods).addInterface i.name
  refine (Ends.yields_lift (hparser.readAccount I lookup hI hl _ [i.name])).yields_bind fun outcome hd => ?_
  refine .yields_mk fun b hb => hcleared.absorb ?_ hd hb
  exact List.cons_subset.2 ⟨AccountState.mem_types_addInterface _ i.name, List.nil_subset _⟩

theorem rereadMethod_represented {s : AccountState} (hs : s.Represented) {contract : ContractName}
    (hlabel : contract ∈ s.types) (method : String) :
    Ends (Within I P) (rereadMethod parser lookup contract method s).run
      (Yields AccountState.Represented) := by
  have hcleared := hs.clearMethod contract method
  refine (Ends.yields_lift (hparser.callMethod I lookup hI hl _ contract method)).yields_bind
    fun outcome hd => ?_
  refine .yields_mk fun b hb => hcleared.absorb ?_ hd hb
  rw [AccountState.types_clearMethod]
  exact List.cons_subset.2 ⟨hlabel, List.nil_subset _⟩

theorem rewriteAccount_represented (interface : Option ContractInterface) {s : AccountState}
    (hs : s.Represented) (hlabel : Labelled t s) :
    Ends (Within I P) (rewriteAccount parser lookup t interface s).run
      (Yields AccountState.Represented) := by
  have hmethod : Ends (Within I P) (ExceptT.mk (pure (methodOf t)) :
      ExceptT Fault (RescanM (σ × τ)) String).run (Yields fun _ => True) :=
    .yields_mk fun _ _ => trivial
  unfold rewriteAccount
  split
  · split
    · exact rereadInterface_represented hparser hI hl hs _
    · exact .yields_pure (hs.clearContract _ _)
  · split
    · exact rereadInterface_represented hparser hI hl hs _
    · exact .yields_pure (hs.clearContract _ _)
  · exact .yields_pure (hs.clearContract _ _)
  · rename_i hkind
    exact hmethod.yields_bind fun method _ =>
      rereadMethod_represented hparser hI hl hs (hlabel (.inl hkind)) method
  · rename_i hkind
    exact hmethod.yields_bind fun method _ =>
      rereadMethod_represented hparser hI hl hs (hlabel (.inr hkind)) method
  · exact hmethod.yields_bind fun method _ => .yields_pure (hs.clearMethod _ method)
  · exact .yields_pure hs
  · exact .yields_pure hs

theorem rewriteAccounts_represented (interface : Option ContractInterface) :
    ∀ {states : List AccountState}, (∀ s ∈ states, s.Represented ∧ Labelled t s) →
      Ends (Within I P) (rewriteAccounts parser lookup t interface states).run
        (Yields fun changed => ∀ s ∈ changed, s.Represented)
  | [], _ => .yields_pure (by simp)
  | s :: rest, h => by
    obtain ⟨⟨hs, hlabel⟩, hrest⟩ := List.forall_mem_cons.1 h
    rw [rewriteAccounts]
    refine (rewriteAccount_represented hparser hI hl t interface hs hlabel).yields_bind fun b hb => ?_
    refine (rewriteAccounts_represented interface hrest).yields_bind fun changed hchanged => ?_
    refine .yields_pure ?_
    split
    · exact hchanged
    · exact List.forall_mem_cons.2 ⟨hb, hchanged⟩

/-- What a plan makes of represented rows is represented. -/
theorem carryOut_represented (hstored : ∀ w, I w → ∀ s ∈ w.store.accounts, s.Represented) (pl : Plan) :
    Ends (Within I P) (carryOutWith parser lookup t pl).run
      (Yields fun rows => ∀ s ∈ rows.1, s.Represented) := by
  have hcalls := hparser.callsKeep hI hl
  match pl with
  | .accounts (some (start, stop)) =>
    refine Ends.yields_bind (Q := fun rows => ∀ s ∈ rows, AccountState.Represented s) ?_
      fun rows hrows => .yields_pure hrows
    refine .yields_then .run_getStore fun _ => .yields_then (.run_mk _) fun interface => ?_
    refine (Ends.yields_getStore (R := fun s => ∀ a ∈ s.accounts, a.Represented)
      fun w hw => hstored w hw.1).yields_bind fun s hs => ?_
    refine rewriteAccounts_represented hparser hI hl t interface fun a ha => ?_
    obtain ⟨ha, hlabel⟩ := labelled_of_mem_statesInRange t ha
    exact ⟨hs a ha, hlabel⟩
  | .messages (some (start, stop)) =>
    exact .yields_then (messages_keeps hcalls hl t start stop) fun _ => .yields_pure (by simp)
  | .accounts none => exact .yields_pure (by simp)
  | .messages none => exact .yields_pure (by simp)
  | .nothing => exact .yields_pure (by simp)

end

end Rescan

/-! ## The registry -/

/-- The canned result of a get-method has no field that the method does not populate, no interface is
registered twice, and nothing is answered from a script. -/
structure Registry.Founded (r : Registry) : Prop where
  names : (r.interfaces.map (·.name)).Nodup
  results : ∀ contract method data, r.methodResults.get? (contract, method) = some data →
    ∀ f, data.Fills f → f ∈ DerivedField.populatedBy method
  script : r.script = []

theorem DerivedField.fake_of_minter {method : String} (h : .minter ∈ populatedBy method) :
    .fake ∈ populatedBy method := by
  unfold populatedBy at h ⊢
  split at h <;> simp_all

namespace AccountData

/-- Findings about the same contracts add up. -/
theorem Reports.add {types : List ContractName} {d other : AccountData} (hd : d.Reports types)
    (hother : other.Reports types) : (d.add other).Reports types := by
  have hentries : ∀ (found x : Executions), (∀ entry ∈ x, entry.1 ∈ types ∧ entry.2 ≠ []) →
      (∀ entry ∈ found, entry.1 ∈ types ∧ entry.2 ≠ []) →
        ∀ entry ∈ x.join (· ++ ·) found, entry.1 ∈ types ∧ entry.2 ≠ [] := by
    intro found
    induction found with
    | nil => exact fun x hx _ => hx
    | cons e found ih =>
      intro x hx hfound
      obtain ⟨he, hfound⟩ := List.forall_mem_cons.1 hfound
      refine ih _ (fun entry hentry => ?_) hfound
      rcases Executions.mem_of_mem_update hentry with hentry | ⟨hc, es, hes, -⟩
      · exact hx entry hentry
      · exact ⟨hc ▸ he.1, hes ▸ List.append_ne_nil_of_right_ne_nil _ he.2⟩
  have hadded := hentries other.executed d.executed (fun e he => ⟨hd.asked e he, hd.nonempty e he⟩)
    fun e he => ⟨hother.asked e he, hother.nonempty e he⟩
  have hpopulates : ∀ f, d.executed.Populates f ∨ other.executed.Populates f →
      (d.add other).executed.Populates f := by
    rintro f (⟨c, m, hrecords, hm⟩ | ⟨c, m, hrecords, hm⟩)
    · exact ⟨c, m, hrecords.join Executions.joins_append other.executed, hm⟩
    · exact ⟨c, m, Executions.records_join Executions.joins_append other.executed d.executed hrecords, hm⟩
  refine ⟨fun e he => (hadded e he).1, fun e he => (hadded e he).2, fun f hf => hpopulates f ?_⟩
  exact (fills_add hf).imp (hd.derived f) (hother.derived f)

theorem Reports.of_subset {types types' : List ContractName} {d : AccountData} (hd : d.Reports types)
    (hsub : types ⊆ types') : d.Reports types' :=
  ⟨fun e he => hsub (hd.asked e he), hd.nonempty, hd.derived⟩

end AccountData

namespace Rescan

theorem CannedFinding.reports {contract : ContractName} {method : String} {d : AccountData}
    (h : CannedFinding Registry.Founded contract method d) : d.Reports [contract] := by
  obtain ⟨r, data, fake, hr, hdata, hfake, rfl⟩ := h
  have hresult := hr.results contract method data hdata
  refine ⟨by simp, by simp, fun f hf => ⟨contract, method, ⟨_, List.mem_singleton_self _, rfl, by simp⟩, ?_⟩⟩
  cases f with
  | content | owner | minter | jettonBalance => exact hresult _ hf
  | fake =>
    by_cases hminter : data.minter = none
    · exact hresult .fake ((hfake hminter).symm.trans hf)
    · exact DerivedField.fake_of_minter (hresult .minter hminter)

theorem steady_founded : Steady Registry.Founded where
  counted _ _ _ h := ⟨h.names, h.results, h.script⟩
  answered p q call key hp hq := by
    refine ⟨hq.names, hq.results, ?_⟩
    rw [hp.script]
    rfl

/-- A registry with founded results labels without repetition, and its findings are founded. -/
theorem registry_reports : Behaves Registry.Founded List.Nodup AccountData.Reports
    (Registry.parser : Parser (RescanM (Registry × τ))) := by
  refine registry_behaves steady_founded (fun r hr s => ?_) (fun r call key d types hr h => ?_)
    (fun types => ⟨by simp, by simp, fun f hf => ?_⟩) (fun types contract hc method d d' hd hd' => ?_)
    fun contract method d hd => hd.reports
  · exact hr.names.sublist (List.filter_sublist.map _)
  · rw [hr.script] at h
    cases h
  · cases f <;> simp [AccountData.Fills] at hf
  · exact hd.add (hd'.reports.of_subset (List.cons_subset.2 ⟨hc, List.nil_subset _⟩))

end Rescan

end ShardIndex
