import ShardIndex.Proofs.Account.Executions
import ShardIndex.Proofs.Rescan.Images
/-!
# Executing a get-method again

A get-method is executed again by forgetting what it has produced and taking over what it finds now.
Doing so twice with the same finding is doing it once (`AccountState.absorb_twice`), for any snapshot: no
order of its executions is assumed, and entries may be repeated.

A finding names the one execution that made it (`AccountData.IsOf`). Merged into executions without the
method (`Executions.Without`) it goes to the end of the entry or makes a new one, so that forgetting the
method gives back what was there (`forget_update`). Of the fields, those that the method populates are
reset each time and the others are overwritten by the same value. The flag needs a look: it is reassigned
by a method that derives it, and only raised by any other.
-/
namespace ShardIndex

/-! ## Executions -/

namespace Executions

variable {contract : ContractName} {method : String}

/-- Entries of the contract are there for other methods only. -/
def Without (contract : ContractName) (method : String) (x : Executions) : Prop :=
  ∀ entry ∈ x, entry.1 = contract → entry.2 ≠ [] ∧ ∀ e ∈ entry.2, e.method ≠ method

theorem Without.tail {entry : ContractName × List Execution} {x : Executions}
    (h : Without contract method (entry :: x)) : Without contract method x :=
  fun e he => h e (List.mem_cons_of_mem _ he)

theorem without_forget (x : Executions) : (x.forget contract method).Without contract method := by
  intro entry hentry hcontract
  rcases mem_forget.1 hentry with ⟨-, hne⟩ | ⟨-, hne, es, -, hes⟩
  · exact absurd hcontract hne
  · refine ⟨hne, fun e he => ?_⟩
    rw [hes] at he
    simpa using (List.mem_filter.1 he).2

theorem forget_cons_ne {c : ContractName} (hc : c ≠ contract) (es : List Execution) (x : Executions) :
    forget ((c, es) :: x) contract method = (c, es) :: x.forget contract method := by
  simp [forget, hc]

/-- An entry that becomes empty goes. -/
theorem forget_cons_nil {es : List Execution} (x : Executions)
    (hes : (es.filter fun e => decide (e.method ≠ method)) = []) :
    forget ((contract, es) :: x) contract method = x.forget contract method := by
  rw [forget, List.filterMap_cons]
  simp only [if_true, hes]
  rfl

theorem forget_cons_kept {es kept : List Execution} (x : Executions)
    (hes : (es.filter fun e => decide (e.method ≠ method)) = kept) (hne : kept ≠ []) :
    forget ((contract, es) :: x) contract method = (contract, kept) :: x.forget contract method := by
  obtain ⟨e, rest, rfl⟩ := List.exists_cons_of_ne_nil hne
  rw [forget, List.filterMap_cons]
  simp only [if_true, hes]
  rfl

theorem filter_of_without {es : List Execution} (h : ∀ e ∈ es, e.method ≠ method) :
    (es.filter fun e => decide (e.method ≠ method)) = es :=
  List.filter_eq_self.2 fun e he => by simpa using h e he

theorem forget_of_without : ∀ {x : Executions}, x.Without contract method →
    x.forget contract method = x
  | [], _ => rfl
  | (c, es) :: x, h => by
    have ih := forget_of_without h.tail
    by_cases hc : c = contract
    · obtain ⟨hne, hes⟩ := h (c, es) List.mem_cons_self hc
      subst hc
      rw [forget_cons_kept x (filter_of_without hes) hne, ih]
    · rw [forget_cons_ne hc, ih]

/-- An execution of another method goes to the end. -/
theorem mergeInto_of_without {e : Execution} : ∀ {es : List Execution},
    (∀ old ∈ es, old.method ≠ e.method) → Execution.mergeInto es e = es ++ [e]
  | [], _ => rfl
  | old :: es, h => by
    have hold : (old.method == e.method) = false := by simpa using h old List.mem_cons_self
    have ih := mergeInto_of_without fun o ho => h o (List.mem_cons_of_mem _ ho)
    rw [Execution.mergeInto] at ih ⊢
    rw [Rows.replaceOrAppend, hold, ih]
    rfl

theorem forget_singleton {e : Execution} (he : e.method = method) (x : Executions) :
    forget ((contract, [e]) :: x) contract method = x.forget contract method :=
  forget_cons_nil x (by simp [he])

/-- Forgetting takes back what merging has added. The entry of the contract is found, inserted before a
greater name, or put at the end. -/
theorem forget_update {e : Execution} (he : e.method = method) : ∀ {x : Executions},
    x.Without contract method →
      (x.update contract fun es => Execution.mergeInto es e).forget contract method = x
  | [], _ => forget_singleton he []
  | (c, es) :: x, h => by
    have hrest := forget_of_without h.tail
    rw [update]
    split
    case isTrue hc =>
      obtain ⟨hne, hes⟩ := h (c, es) List.mem_cons_self hc
      have hmerged : Execution.mergeInto es e = es ++ [e] :=
        mergeInto_of_without fun old hold => he ▸ hes old hold
      have hfilter : ((es ++ [e]).filter fun e => decide (e.method ≠ method)) = es := by
        rw [List.filter_append, filter_of_without hes]
        simp [he]
      subst hc
      rw [hmerged, forget_cons_kept x hfilter hne, hrest]
    case isFalse hc =>
      split
      · have hnew : Execution.mergeInto [] e = [e] := rfl
        rw [hnew, forget_singleton he, forget_cons_ne hc, hrest]
      · rw [forget_cons_ne hc, forget_update he h.tail]

end Executions

/-! ## Snapshots -/

/-- The finding was made by one execution of the method. -/
def AccountData.IsOf (d : AccountData) (contract : ContractName) (method : String) : Prop :=
  ∃ e : Execution, e.method = method ∧ d.executed = [(contract, [e])]

theorem AccountData.IsOf.derivesFake {d : AccountData} {contract : ContractName} {method : String}
    (h : d.IsOf contract method) :
    d.derivesFake = (DerivedField.populatedBy method).contains .fake := by
  obtain ⟨e, rfl, hd⟩ := h
  simp [AccountData.derivesFake, hd]

namespace AccountState

variable {s b : AccountState} {contract : ContractName} {method : String} {d : AccountData}

theorem clearMethod_eq (s : AccountState) (contract : ContractName) (method : String) :
    s.clearMethod contract method = { s with
      executed := s.executed.forget contract method
      content := if .content ∈ DerivedField.populatedBy method then {} else s.content
      owner := if .owner ∈ DerivedField.populatedBy method then none else s.owner
      minter := if .minter ∈ DerivedField.populatedBy method then none else s.minter
      jettonBalance :=
        if .jettonBalance ∈ DerivedField.populatedBy method then none else s.jettonBalance
      fake := if .fake ∈ DerivedField.populatedBy method then false else s.fake } :=
  foldl_clearField_eq _ _

theorem clearMethod_twice (s : AccountState) (contract : ContractName) (method : String) :
    (s.clearMethod contract method).clearMethod contract method = s.clearMethod contract method := by
  have hexecuted : (s.executed.forget contract method).forget contract method =
      s.executed.forget contract method :=
    Executions.forget_of_without (Executions.without_forget s.executed)
  simp only [clearMethod_eq, hexecuted]
  split_ifs <;> rfl

/-- A field that is reset or not, and taken over each time. -/
theorem orElse_twice {α : Type} (p : Prop) [Decidable p] (found old : Option α) :
    (found <|> if p then none else found <|> if p then none else old) =
      (found <|> if p then none else old) := by
  cases found with
  | none => by_cases hp : p <;> simp [hp]
  | some a => rfl

theorem getD_twice {α : Type} (p : Prop) [Decidable p] (found : Option α) (reset old : α) :
    found.getD (if p then reset else found.getD (if p then reset else old)) =
      found.getD (if p then reset else old) := by
  cases found with
  | none => by_cases hp : p <;> simp [hp]
  | some a => rfl

/-- The flag is reassigned where it is derived, and raised otherwise. -/
theorem fake_twice (derived : Bool) (found old : Bool) :
    (if derived then found else (if derived then false else
      if derived then found else (if derived then false else old) || found) || found) =
      if derived then found else (if derived then false else old) || found := by
  cases derived <;> cases found <;> cases old <;> rfl

theorem applyData_twice (h : d.IsOf contract method) :
    (((s.clearMethod contract method).applyData d).clearMethod contract method).applyData d =
      (s.clearMethod contract method).applyData d := by
  have hflag := h.derivesFake
  rw [List.contains_eq_mem] at hflag
  obtain ⟨e, he, hd⟩ := h
  have hwithout : (s.executed.forget contract method).Without contract method :=
    Executions.without_forget s.executed
  have hexecuted := Executions.forget_update he hwithout
  simp only [applyData, clearMethod_eq, hflag, hd, List.foldl_cons, List.foldl_nil, hexecuted,
    orElse_twice, getD_twice]
  congr 1
  simpa using fake_twice (decide (.fake ∈ DerivedField.populatedBy method)) d.fake s.fake

theorem clearMethod_error (s : AccountState) (contract : ContractName) (method : String)
    (error : Option String) : ({ s with error := error } : AccountState).clearMethod contract method =
      { s.clearMethod contract method with error := error } := by
  simp only [clearMethod_eq]

/-- Forgetting the method and taking over the same outcome again changes nothing. -/
theorem absorb_twice {outcome : Except ParseFault AccountData}
    (h : ∀ d, outcome = .ok d → d.IsOf contract method)
    (hb : (s.clearMethod contract method).absorb outcome = .ok b) :
    (b.clearMethod contract method).absorb outcome = .ok b := by
  cases outcome with
  | ok d =>
    obtain rfl := Except.ok.inj hb
    exact congrArg Except.ok (applyData_twice (h d rfl))
  | error fault =>
    cases fault with
    | notAvailable =>
      obtain rfl := Except.ok.inj hb
      exact congrArg Except.ok (s.clearMethod_twice contract method)
    | impossible reason =>
      obtain rfl := Except.ok.inj hb
      rw [clearMethod_error, clearMethod_twice]
      rfl
    | other fault => cases hb

end AccountState

end ShardIndex
