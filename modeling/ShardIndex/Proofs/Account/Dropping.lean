import ShardIndex.Proofs.Account.Repeating
/-!
# Dropping a contract method by method

A contract is dropped in one go (`AccountState.clearContract`), and a get-method of it on its own
(`AccountState.clearMethod`). Both work on the same executions and the same fields, and they agree: dropping
the contract is dropping each of its get-methods, in any order and as often as one likes, and then its label
(`AccountState.clearContract_methodwise`).

Resetting fields is a matter of which fields are meant, not of the order (`reset_congr`). With the
executions it takes an induction over the methods: what is left of the contract's entry is of the methods that
are still to come, so the entry goes with the last of them (`forgetAll_eq_erase`). An entry without
executions would stay, and a second entry of the contract would not be asked for its methods; snapshots have
neither.
-/
namespace ShardIndex

/-! ## Executions -/

namespace Executions

variable {contract : ContractName} {x : Executions}

/-- A method of the contract does not show in the executions of the others. -/
theorem erase_forget (contract : ContractName) (method : String) : ∀ x : Executions,
    (x.forget contract method).erase contract = x.erase contract
  | [] => rfl
  | (c, es) :: x => by
    have ih := erase_forget contract method x
    by_cases hc : c = contract
    · subst hc
      rw [erase_cons_self]
      cases hes : es.filter fun e => decide (e.method ≠ method) with
      | nil => rw [forget_cons_nil x hes, ih]
      | cons e kept => rw [forget_cons_kept x hes (List.cons_ne_nil e kept), erase_cons_self, ih]
    · rw [forget_cons_ne hc, erase_cons_ne hc, erase_cons_ne hc, ih]

/-- Get-methods of a contract forgotten one after the other. -/
def forgetAll (x : Executions) (contract : ContractName) (methods : List String) : Executions :=
  methods.foldl (fun x method => x.forget contract method) x

theorem erase_forgetAll (contract : ContractName) : ∀ (methods : List String) (x : Executions),
    (x.forgetAll contract methods).erase contract = x.erase contract
  | [], _ => rfl
  | method :: methods, x =>
    (erase_forgetAll contract methods (x.forget contract method)).trans (erase_forget contract method x)

/-- When every execution of a contract is of one of the methods, forgetting the methods drops the contract. -/
theorem forgetAll_eq_erase : ∀ (methods : List String) {x : Executions},
    (∀ entry ∈ x, entry.1 = contract → entry.2 ≠ [] ∧ ∀ e ∈ entry.2, e.method ∈ methods) →
      x.forgetAll contract methods = x.erase contract
  | [], x, h => by
    refine (erase_eq_self fun entry hentry hcontract => ?_).symm
    obtain ⟨hne, hes⟩ := h entry hentry hcontract
    obtain ⟨e, he⟩ := List.exists_mem_of_ne_nil _ hne
    cases hes e he
  | method :: methods, x, h => by
    have hleft : ∀ entry ∈ x.forget contract method, entry.1 = contract →
        entry.2 ≠ [] ∧ ∀ e ∈ entry.2, e.method ∈ methods := by
      intro entry hentry hcontract
      rcases mem_forget.1 hentry with ⟨-, hother⟩ | ⟨-, hne, es, hes, hkept⟩
      · exact absurd hcontract hother
      · refine ⟨hne, fun e he => ?_⟩
        rw [hkept, List.mem_filter, decide_eq_true_eq] at he
        exact (List.mem_cons.1 ((h _ hes rfl).2 e he.1)).resolve_left he.2
    rw [← erase_forget contract method x]
    exact forgetAll_eq_erase methods hleft

theorem Without.forget {method other : String} (h : x.Without contract method) :
    (x.forget contract other).Without contract method := by
  intro entry hentry hcontract
  rcases mem_forget.1 hentry with ⟨-, hne⟩ | ⟨-, hne, es, hes, hkept⟩
  · exact absurd hcontract hne
  · refine ⟨hne, fun e he => ?_⟩
    rw [hkept] at he
    exact (h _ hes rfl).2 e (List.mem_filter.1 he).1

theorem without_forgetAll {method : String} : ∀ {methods : List String} {x : Executions},
    method ∈ methods ∨ x.Without contract method → (x.forgetAll contract methods).Without contract method
  | [], _, h => h.resolve_left List.not_mem_nil
  | other :: methods, x, h => by
    have hleft : method ∈ methods ∨ (x.forget contract other).Without contract method := by
      rcases h with h | h
      · rcases List.mem_cons.1 h with rfl | h
        · exact .inr (without_forget x)
        · exact .inl h
      · exact .inr h.forget
    exact (without_forgetAll hleft :)

theorem forgetAll_of_without : ∀ {methods : List String} {x : Executions},
    (∀ method ∈ methods, x.Without contract method) → x.forgetAll contract methods = x
  | [], _, _ => rfl
  | method :: methods, x, h => by
    obtain ⟨hmethod, hmethods⟩ := List.forall_mem_cons.1 h
    rw [forgetAll, List.foldl_cons, forget_of_without hmethod]
    exact forgetAll_of_without hmethods

theorem forgetAll_twice (x : Executions) (contract : ContractName) (methods : List String) :
    (x.forgetAll contract methods).forgetAll contract methods = x.forgetAll contract methods :=
  forgetAll_of_without fun _ hmethod => without_forgetAll (.inl hmethod)

end Executions

/-! ## Fields -/

/-- The two snapshots have the same in the field. -/
def DerivedField.Same (f : DerivedField) (a b : AccountState) : Prop :=
  match f with
  | .content => a.content = b.content
  | .owner => a.owner = b.owner
  | .minter => a.minter = b.minter
  | .jettonBalance => a.jettonBalance = b.jettonBalance
  | .fake => a.fake = b.fake

/-- The fields that methods populate. -/
def DerivedField.populatedByAny (methods : List String) : List DerivedField :=
  methods.flatMap DerivedField.populatedBy

theorem DerivedField.mem_populatedByAny {methods : List String} {f : DerivedField} :
    f ∈ populatedByAny methods ↔ ∃ m ∈ methods, f ∈ populatedBy m :=
  List.mem_flatMap

namespace AccountState

variable {s : AccountState} {contract : ContractName} {methods order : List String}
  {fields fields' : List DerivedField}

/-- Resets fields one after the other. -/
def reset (s : AccountState) (fields : List DerivedField) : AccountState :=
  fields.foldl clearField s

/-- The snapshot with other executions. -/
def withExecuted (s : AccountState) (x : Executions) : AccountState :=
  { s with executed := x }

@[simp] theorem executed_withExecuted (s : AccountState) (x : Executions) :
    (s.withExecuted x).executed = x := rfl

@[simp] theorem withExecuted_withExecuted (s : AccountState) (x y : Executions) :
    (s.withExecuted x).withExecuted y = s.withExecuted y := rfl

/-- Fields and executions are apart. -/
@[simp] theorem reset_withExecuted (s : AccountState) (x : Executions) (fields : List DerivedField) :
    (s.withExecuted x).reset fields = (s.reset fields).withExecuted x := by
  simp only [reset, withExecuted, foldl_clearField_eq]

theorem reset_append (s : AccountState) (fields fields' : List DerivedField) :
    s.reset (fields ++ fields') = (s.reset fields).reset fields' :=
  List.foldl_append

/-- It is all the same in which order fields are reset, and how often. -/
theorem reset_congr (h : ∀ f, f ∈ fields ↔ f ∈ fields') (s : AccountState) :
    s.reset fields = s.reset fields' := by
  simp only [reset, foldl_clearField_eq, h]

/-- Fields that are reset already are reset. -/
theorem reset_reset_of_subset (h : fields' ⊆ fields) (s : AccountState) :
    (s.reset fields).reset fields' = s.reset fields := by
  rw [← reset_append]
  refine reset_congr (fun f => ?_) s
  rw [List.mem_append]
  exact ⟨fun hf => hf.elim id (h ·), .inl⟩

theorem same_reset {f : DerivedField} (hf : f ∉ fields) (s : AccountState) : f.Same (s.reset fields) s := by
  rw [reset, foldl_clearField_eq]
  cases f <;> exact if_neg hf

/-! ## Dropping -/

/-- The get-methods that were executed for a contract. -/
def recorded (s : AccountState) (contract : ContractName) : List String :=
  (s.executed.ofContract contract).map (·.method)

/-- Forgets the executions of a contract, and every field that they or the given get-methods populate. -/
def clearFindings (s : AccountState) (contract : ContractName) (methods : List String) : AccountState :=
  (s.reset (DerivedField.populatedByAny (s.recorded contract ++ methods))).withExecuted
    (s.executed.erase contract)

/-- Get-methods of a contract forgotten one after the other. -/
def clearMethods (s : AccountState) (contract : ContractName) (methods : List String) : AccountState :=
  methods.foldl (fun s method => s.clearMethod contract method) s

/-- Takes the label of a contract off. Without a label left the account is no fake. -/
def dropLabel (s : AccountState) (contract : ContractName) : AccountState :=
  let types := s.types.filter fun t => decide (t ≠ contract)
  { s with types := types, fake := if types.isEmpty then false else s.fake }

theorem clearMethod_eq_reset (s : AccountState) (contract : ContractName) (method : String) :
    s.clearMethod contract method =
      (s.reset (DerivedField.populatedBy method)).withExecuted (s.executed.forget contract method) :=
  reset_withExecuted s (s.executed.forget contract method) _

theorem clearMethods_eq (contract : ContractName) : ∀ (methods : List String) (s : AccountState),
    s.clearMethods contract methods = (s.reset (DerivedField.populatedByAny methods)).withExecuted
      (s.executed.forgetAll contract methods)
  | [], _ => rfl
  | method :: methods, s => by
    have hfields : DerivedField.populatedByAny (method :: methods) =
        DerivedField.populatedBy method ++ DerivedField.populatedByAny methods := List.flatMap_cons
    have ih := clearMethods_eq contract methods (s.clearMethod contract method)
    rw [clearMethods, List.foldl_cons, ← clearMethods, ih, clearMethod_eq_reset, hfields, reset_append,
      reset_withExecuted, withExecuted_withExecuted, executed_withExecuted]
    rfl

theorem clearContract_eq (s : AccountState) (contract : ContractName) (methods : List String) :
    s.clearContract contract methods = (s.clearFindings contract methods).dropLabel contract := by
  rw [clearFindings, ← reset_withExecuted, reset, DerivedField.populatedByAny, List.foldl_flatMap]
  rfl

theorem dropLabel_twice (s : AccountState) (contract : ContractName) :
    (s.dropLabel contract).dropLabel contract = s.dropLabel contract := by
  unfold dropLabel
  simp only [List.filter_filter, Bool.and_self]
  congr 1
  split <;> rfl

/-- Neither fields nor executions ask for labels. -/
theorem reset_dropLabel (s : AccountState) (contract : ContractName) (fields : List DerivedField) :
    (s.dropLabel contract).reset fields = (s.reset fields).dropLabel contract := by
  simp only [reset, foldl_clearField_eq, dropLabel]
  congr 1
  split_ifs <;> rfl

theorem withExecuted_dropLabel (s : AccountState) (contract : ContractName) (x : Executions) :
    (s.dropLabel contract).withExecuted x = (s.withExecuted x).dropLabel contract := rfl

theorem clearMethods_twice (s : AccountState) (contract : ContractName) (methods : List String) :
    (s.clearMethods contract methods).clearMethods contract methods = s.clearMethods contract methods := by
  simp [clearMethods_eq, reset_reset_of_subset, Executions.forgetAll_twice]

theorem clearMethods_dropLabel (s : AccountState) (contract : ContractName) (methods : List String) :
    (s.dropLabel contract).clearMethods contract methods =
      (s.clearMethods contract methods).dropLabel contract := by
  rw [clearMethods_eq, clearMethods_eq, reset_dropLabel, withExecuted_dropLabel]
  rfl

/-- A contract that was forgotten has no executions. -/
theorem recorded_clearFindings (s : AccountState) (contract : ContractName) (methods : List String) :
    (s.clearFindings contract methods).recorded contract = [] := by
  have hnone : (s.executed.erase contract).ofContract contract = [] :=
    Executions.ofContract_of_absent fun _ => Executions.ne_of_mem_erase
  exact congrArg (List.map (·.method)) hnone

theorem clearFindings_twice (s : AccountState) (contract : ContractName) (methods : List String) :
    (s.clearFindings contract methods).clearFindings contract methods = s.clearFindings contract methods := by
  have hfields : DerivedField.populatedByAny methods ⊆
      DerivedField.populatedByAny (s.recorded contract ++ methods) := by
    rw [DerivedField.populatedByAny, DerivedField.populatedByAny, List.flatMap_append]
    exact List.subset_append_right _ _
  have herased : (s.clearFindings contract methods).executed.erase contract = s.executed.erase contract :=
    s.executed.erase_erase contract
  rw [clearFindings, recorded_clearFindings, herased, List.nil_append, clearFindings, reset_withExecuted,
    withExecuted_withExecuted, reset_reset_of_subset hfields]

theorem clearFindings_dropLabel (s : AccountState) (contract other : ContractName) (methods : List String) :
    (s.dropLabel other).clearFindings contract methods =
      (s.clearFindings contract methods).dropLabel other := by
  rw [clearFindings, reset_dropLabel, withExecuted_dropLabel]
  rfl

theorem clearContract_twice (s : AccountState) (contract : ContractName) (methods : List String) :
    (s.clearContract contract methods).clearContract contract methods = s.clearContract contract methods := by
  rw [clearContract_eq (s.clearContract contract methods), clearContract_eq s, clearFindings_dropLabel,
    clearFindings_twice, dropLabel_twice]

/-! ## What is spared -/

/-- Everything about the snapshot is as it was, apart from its labels, the executions of the contract and
the fields for which an exception is made. -/
structure Spares (contract : ContractName) (except : DerivedField → Prop) (s b : AccountState) : Prop where
  chain : b.chain = s.chain
  error : b.error = s.error
  executed : b.executed.erase contract = s.executed.erase contract
  derived : ∀ f, ¬ except f → f.Same b s

theorem spares_reset (fields : List DerivedField) (s : AccountState) {x : Executions}
    (hx : x.erase contract = s.executed.erase contract) :
    Spares contract (· ∈ fields) s ((s.reset fields).withExecuted x) where
  chain := (foldl_clearField fields s).1
  error := by rw [withExecuted, reset, foldl_clearField_eq]
  executed := hx
  derived f hf := by
    have hsame := same_reset hf s
    cases f <;> exact hsame

theorem Spares.dropLabel {except : DerivedField → Prop} {b : AccountState} (h : Spares contract except s b) :
    Spares contract (fun f => except f ∨ f = .fake ∧ ∀ t ∈ b.types, t = contract) s (b.dropLabel contract) where
  chain := h.chain
  error := h.error
  executed := h.executed
  derived f hf := by
    obtain ⟨hexcept, hlabel⟩ := not_or.1 hf
    have hsame := h.derived f hexcept
    cases f with
    | fake =>
      have hleft : (b.types.filter fun t => decide (t ≠ contract)).isEmpty ≠ true := by
        intro hempty
        refine hlabel ⟨rfl, fun t ht => ?_⟩
        have hnone := List.filter_eq_nil_iff.1 (List.isEmpty_iff.1 hempty) t ht
        simpa using hnone
      exact (if_neg hleft).trans hsame
    | content | owner | minter | jettonBalance => exact hsame

/-- The recorded methods are all that the contract has executions of, so it goes with them. -/
theorem forgetAll_recorded (hentries : (s.executed.map (·.1)).Nodup)
    (hnonempty : ∀ entry ∈ s.executed, entry.2 ≠ []) (horder : s.recorded contract ⊆ order) :
    s.executed.forgetAll contract order = s.executed.erase contract := by
  refine Executions.forgetAll_eq_erase order fun ⟨c, es⟩ hentry hcontract => ?_
  obtain rfl : c = contract := hcontract
  refine ⟨hnonempty _ hentry, fun e he => horder (List.mem_map.2 ⟨e, ?_, rfl⟩)⟩
  rw [Executions.ofContract, Table.get?_of_mem hentries hentry]
  exact he

/-- Dropping a contract is dropping its get-methods one by one and then its label: those that were executed
and the given ones, in any order and with repetitions. Either way nothing but the executions of the contract
and the fields that these methods populate is lost, and the flag, if no label is left; and what was dropped
once can be dropped again without any effect. -/
theorem clearContract_methodwise (hentries : (s.executed.map (·.1)).Nodup)
    (hnonempty : ∀ entry ∈ s.executed, entry.2 ≠ []) (contract : ContractName) (methods : List String) :
    (∀ order : List String, (∀ m, m ∈ order ↔ m ∈ s.recorded contract ∨ m ∈ methods) →
      s.clearContract contract methods = (s.clearMethods contract order).dropLabel contract) ∧
    Spares contract (fun f => (∃ m ∈ s.recorded contract ++ methods, f ∈ DerivedField.populatedBy m) ∨
      f = .fake ∧ ∀ t ∈ s.types, t = contract) s (s.clearContract contract methods) ∧
    (s.clearContract contract methods).clearContract contract methods = s.clearContract contract methods ∧
    ∀ order : List String,
      (s.clearMethods contract order).types = s.types ∧
      Spares contract (fun f => ∃ m ∈ order, f ∈ DerivedField.populatedBy m) s
        (s.clearMethods contract order) ∧
      (s.clearMethods contract order).clearMethods contract order = s.clearMethods contract order ∧
      (((s.clearMethods contract order).dropLabel contract).clearMethods contract order).dropLabel contract =
        (s.clearMethods contract order).dropLabel contract := by
  have htypes : ∀ (fields : List DerivedField) (x : Executions),
      ((s.reset fields).withExecuted x).types = s.types := fun fields _ => (foldl_clearField fields s).2
  refine ⟨fun order horder => ?_, ?_, s.clearContract_twice contract methods, fun order => ⟨?_, ?_, ?_, ?_⟩⟩
  · have hfields : ∀ f, f ∈ DerivedField.populatedByAny (s.recorded contract ++ methods) ↔
        f ∈ DerivedField.populatedByAny order := by
      intro f
      simp only [DerivedField.mem_populatedByAny, List.mem_append, horder]
    rw [clearContract_eq, clearFindings, clearMethods_eq, reset_congr hfields,
      forgetAll_recorded hentries hnonempty fun m hm => (horder m).2 (.inl hm)]
  · have hspares := (spares_reset (DerivedField.populatedByAny (s.recorded contract ++ methods)) s
      (s.executed.erase_erase contract)).dropLabel
    simpa only [clearContract_eq, clearFindings, DerivedField.mem_populatedByAny, htypes] using hspares
  · rw [clearMethods_eq, htypes]
  · have hspares := spares_reset (DerivedField.populatedByAny order) s
      (s.executed.erase_forgetAll contract order)
    simpa only [clearMethods_eq, DerivedField.mem_populatedByAny] using hspares
  · exact s.clearMethods_twice contract order
  · rw [clearMethods_dropLabel, clearMethods_twice, dropLabel_twice]

/-! ## A sample -/

namespace Sample

/-- An item that is a wallet as well; one of its get-methods was recorded twice. -/
def walletItem : AccountState where
  address := ⟨0, 7⟩
  block := ⟨.basechain, 3⟩
  masterSeqno := 3
  updatedAt := 0
  status := .active
  balance := 0
  lastTxLt := 30
  lastTxHash := 0
  types := ["nft_item", "wallet"]
  executed := [
    ("nft_item", [{ method := "get_nft_data" }, { method := "get_nft_content" }, { method := "get_nft_data" }]),
    ("wallet", [{ method := "get_wallet_data" }])]
  content := { uri := some "item" }
  owner := some ⟨0, 8⟩
  minter := some ⟨0, 9⟩
  jettonBalance := some 5
  fake := true
  error := some "bad cell"

end Sample

open AccountState.Sample in
/-- The item is dropped together with a method that it has not executed. -/
theorem clearContract_methodwise_sample :
    (walletItem.executed.map (·.1)).Nodup ∧ (∀ entry ∈ walletItem.executed, entry.2 ≠ []) ∧
      walletItem.clearContract "nft_item" ["get_jetton_data"] =
        (walletItem.clearMethods "nft_item"
          ["get_jetton_data", "get_nft_content", "get_nft_data", "get_jetton_data"]).dropLabel "nft_item" ∧
      walletItem.clearContract "nft_item" ["get_jetton_data"] = { walletItem with
        types := ["wallet"], executed := [("wallet", [{ method := "get_wallet_data" }])], content := {},
        owner := none, minter := none, fake := false } := by
  have hentries : (walletItem.executed.map (·.1)).Nodup := by decide
  have hnonempty : ∀ entry ∈ walletItem.executed, entry.2 ≠ [] := by decide
  refine ⟨hentries, hnonempty, ?_, by decide +kernel⟩
  refine (clearContract_methodwise hentries hnonempty "nft_item" ["get_jetton_data"]).1 _ fun m => ?_
  have hrecorded : walletItem.recorded "nft_item" =
      ["get_nft_data", "get_nft_content", "get_nft_data"] := by decide +kernel
  rw [hrecorded]
  simp only [List.mem_cons, List.not_mem_nil, or_false]
  tauto

end AccountState

end ShardIndex
