import ShardIndex.Proofs.Account.Executions
import ShardIndex.Proofs.Rescan.Images
/-!
# What a snapshot may hold

A snapshot is represented (`AccountState.Represented`) if no label is repeated, executions belong to labels,
and whatever is in a derived field goes back to an execution that populates the field. The last part is what
the edits of a snapshot have to work for: two methods may populate one field, and so may two contracts, so a
field that outlives an execution has to have another one to go back to.

Every edit keeps snapshots represented, merging a finding as long as the finding is founded itself
(`AccountData.Reports`).
-/
namespace ShardIndex

/-! ## Filled fields -/

/-- The finding has something for the field. -/
def AccountData.Fills (d : AccountData) : DerivedField → Prop
  | .content => ∃ content, d.content = some content ∧ content ≠ {}
  | .owner => d.owner ≠ none
  | .minter => d.minter ≠ none
  | .jettonBalance => d.jettonBalance ≠ none
  | .fake => d.fake = true

theorem orElse_ne_none {α : Type} {a b : Option α} (h : (a <|> b) ≠ none) : a ≠ none ∨ b ≠ none := by
  cases a with
  | none => exact .inr h
  | some a => exact .inl (by simp)

theorem AccountData.fills_add {d other : AccountData} {f : DerivedField} (h : (d.add other).Fills f) :
    d.Fills f ∨ other.Fills f := by
  cases f with
  | content =>
    obtain ⟨content, hcontent, hne⟩ := h
    cases hother : other.content with
    | none => exact .inl ⟨content, by simpa [add, hother] using hcontent, hne⟩
    | some c => exact .inr ⟨content, by simpa [add, hother] using hcontent, hne⟩
  | owner => exact (orElse_ne_none h).symm
  | minter => exact (orElse_ne_none h).symm
  | jettonBalance => exact (orElse_ne_none h).symm
  | fake => exact (Bool.or_eq_true _ _).mp h

/-- An execution populates the field. -/
def Executions.Populates (x : Executions) (f : DerivedField) : Prop :=
  ∃ contract method, x.Records contract method ∧ f ∈ DerivedField.populatedBy method

/-- A finding about contracts: it has executions of these contracts only, some for each entry, and nothing
in a field that none of them populates. -/
structure AccountData.Reports (types : List ContractName) (d : AccountData) : Prop where
  asked : ∀ entry ∈ d.executed, entry.1 ∈ types
  nonempty : ∀ entry ∈ d.executed, entry.2 ≠ []
  derived : ∀ f, d.Fills f → d.executed.Populates f

namespace AccountState

/-- The snapshot has something in the field. -/
def Fills (s : AccountState) : DerivedField → Prop
  | .content => s.content ≠ {}
  | .owner => s.owner ≠ none
  | .minter => s.minter ≠ none
  | .jettonBalance => s.jettonBalance ≠ none
  | .fake => s.fake = true

variable {s : AccountState} {f : DerivedField}

theorem fills_clearField {g : DerivedField} : (s.clearField g).Fills f ↔ f ≠ g ∧ s.Fills f := by
  cases f <;> cases g <;> simp [clearField, Fills]

theorem fills_foldl_clearField : ∀ (fields : List DerivedField) (s : AccountState),
    (fields.foldl clearField s).Fills f ↔ f ∉ fields ∧ s.Fills f
  | [], s => by simp
  | g :: fields, s => by
    rw [List.foldl_cons, fills_foldl_clearField fields, fills_clearField, List.mem_cons, not_or, ← and_assoc,
      and_comm (a := f ∉ fields)]

/-- Exactly the fields of the methods are reset. -/
theorem fills_foldl_clearFieldsOf : ∀ (methods : List String) (s : AccountState),
    (methods.foldl clearFieldsOf s).Fills f ↔
      (∀ method ∈ methods, f ∉ DerivedField.populatedBy method) ∧ s.Fills f
  | [], s => by simp
  | method :: methods, s => by
    rw [List.foldl_cons, fills_foldl_clearFieldsOf methods, clearFieldsOf, fills_foldl_clearField,
      List.forall_mem_cons, ← and_assoc, and_comm (a := f ∉ _)]

theorem executed_foldl_clearField (fields : List DerivedField) (s : AccountState) :
    (fields.foldl clearField s).executed = s.executed := by
  rw [foldl_clearField_eq]

theorem executed_foldl_clearFieldsOf : ∀ (methods : List String) (s : AccountState),
    (methods.foldl clearFieldsOf s).executed = s.executed
  | [], _ => rfl
  | method :: methods, s => by
    rw [List.foldl_cons, executed_foldl_clearFieldsOf methods, clearFieldsOf, executed_foldl_clearField]

theorem executed_clearContract (s : AccountState) (contract : ContractName) (methods : List String) :
    (s.clearContract contract methods).executed = s.executed.erase contract :=
  executed_foldl_clearFieldsOf _ _

theorem fills_clearContract {contract : ContractName} {methods : List String}
    (h : (s.clearContract contract methods).Fills f) :
    (∀ method ∈ (s.executed.ofContract contract).map (·.method), f ∉ DerivedField.populatedBy method) ∧
      s.Fills f := by
  have hreset : ((((s.executed.ofContract contract).map (·.method)) ++ methods).foldl clearFieldsOf
      { s with executed := s.executed.erase contract }).Fills f := by
    -- the flag of a snapshot without a label is reset in addition
    cases f with
    | fake =>
      rw [clearContract, Fills] at h
      dsimp only at h
      split at h
      · cases h
      · exact h
    | content | owner | minter | jettonBalance => exact h
  rw [fills_foldl_clearFieldsOf] at hreset
  obtain ⟨hmethods, hfills⟩ := hreset
  refine ⟨fun method hm => hmethods method (List.mem_append_left _ hm), ?_⟩
  cases f <;> exact hfills

theorem fills_applyData {d : AccountData} (h : (s.applyData d).Fills f) : d.Fills f ∨ s.Fills f := by
  cases f with
  | content =>
    rw [Fills, applyData] at h
    cases hd : d.content with
    | none =>
      rw [hd] at h
      exact .inr h
    | some content =>
      rw [hd] at h
      exact .inl ⟨content, hd, h⟩
  | owner => exact orElse_ne_none h
  | minter => exact orElse_ne_none h
  | jettonBalance => exact orElse_ne_none h
  | fake =>
    rw [Fills, applyData] at h
    dsimp only at h
    split at h
    · exact .inl h
    · exact ((Bool.or_eq_true _ _).mp h).symm

/-! ## Represented snapshots -/

/-- No label is repeated, executions belong to labels, and the derived fields go back to executions. -/
structure Represented (s : AccountState) : Prop where
  types : s.types.Nodup
  executed : s.executed.WellFormed s.types
  derived : ∀ f, s.Fills f → s.executed.Populates f

/-- Nothing was read from the contracts of the snapshot yet. -/
structure Bare (s : AccountState) : Prop where
  types : s.types.Nodup
  unread : s = { s.chain with types := s.types }

theorem Bare.represented (h : s.Bare) : s.Represented := by
  have hexecuted : s.executed = [] := (congrArg AccountState.executed h.unread :)
  refine ⟨h.types, hexecuted ▸ .nil _, fun f hf => ?_⟩
  rw [h.unread] at hf
  cases f <;> simp [Fills, chain] at hf

/-- The findings of all labels are in the snapshot, and nothing else: without labels there is nothing. -/
theorem Represented.unlabelled (h : s.Represented) (htypes : s.types = []) :
    s.executed = [] ∧ ∀ f, ¬ s.Fills f := by
  have hexecuted : s.executed = [] := by
    refine List.eq_nil_iff_forall_not_mem.2 fun entry hentry => ?_
    have := h.executed.labelled entry hentry
    rw [htypes] at this
    cases this
  refine ⟨hexecuted, fun f hf => ?_⟩
  obtain ⟨_, _, ⟨entry, hentry, -⟩, -⟩ := h.derived f hf
  rw [hexecuted] at hentry
  cases hentry

namespace Represented

theorem clearContract (h : s.Represented) (contract : ContractName) (methods : List String) :
    (s.clearContract contract methods).Represented where
  types := by
    rw [types_clearContract]
    exact h.types.filter _
  executed := by
    rw [types_clearContract, executed_clearContract]
    exact h.executed.erase contract
  derived f hf := by
    obtain ⟨hmethods, hf⟩ := fills_clearContract hf
    obtain ⟨c, method, hrecords, hmem⟩ := h.derived f hf
    rw [executed_clearContract]
    refine ⟨c, method, hrecords.erase ?_, hmem⟩
    rintro rfl
    exact hmethods method (h.executed.ofContract hrecords) hmem

theorem clearMethod (h : s.Represented) (contract : ContractName) (method : String) :
    (s.clearMethod contract method).Represented := by
  have hexecuted : (s.clearMethod contract method).executed = s.executed.forget contract method :=
    executed_foldl_clearField _ _
  refine ⟨?_, ?_, fun f hf => ?_⟩
  · rw [types_clearMethod]
    exact h.types
  · rw [types_clearMethod, hexecuted]
    exact h.executed.forget contract method
  · obtain ⟨hmethod, hf⟩ := (fills_foldl_clearField _ _).1 hf
    have hf : s.Fills f := by cases f <;> exact hf
    obtain ⟨c, m, hrecords, hmem⟩ := h.derived f hf
    rw [hexecuted]
    exact ⟨c, m, hrecords.forget fun hm => hmethod (hm ▸ hmem), hmem⟩

theorem addInterface (h : s.Represented) (contract : ContractName) :
    (s.addInterface contract).Represented := by
  unfold AccountState.addInterface
  split
  · exact h
  · rename_i hnew
    refine ⟨?_, h.executed.of_subset (List.subset_append_left _ _), fun f hf => h.derived f ?_⟩
    · rw [hasInterface, List.contains_iff_mem] at hnew
      exact List.nodup_append.2 ⟨h.types, List.nodup_singleton _, fun a ha b hb hab =>
        hnew (List.mem_singleton.1 hb ▸ hab ▸ ha)⟩
    · cases f <;> exact hf

theorem applyData (h : s.Represented) {types : List ContractName} (htypes : types ⊆ s.types)
    {d : AccountData} (hd : d.Reports types) : (s.applyData d).Represented where
  types := h.types
  executed := h.executed.merge d.executed (fun entry hentry => htypes (hd.asked entry hentry)) hd.nonempty
  derived f hf := by
    rcases fills_applyData hf with hf | hf
    · obtain ⟨c, m, hrecords, hmem⟩ := hd.derived f hf
      exact ⟨c, m, Executions.records_join Executions.joins_merge d.executed s.executed hrecords, hmem⟩
    · obtain ⟨c, m, hrecords, hmem⟩ := h.derived f hf
      exact ⟨c, m, hrecords.join Executions.joins_merge d.executed, hmem⟩

/-- A snapshot takes over what was found about some of its labels. -/
theorem absorb (h : s.Represented) {types : List ContractName} (htypes : types ⊆ s.types)
    {outcome : Except ParseFault AccountData} (houtcome : ∀ d, outcome = .ok d → d.Reports types)
    {b : AccountState} (hb : s.absorb outcome = .ok b) : b.Represented := by
  cases outcome with
  | ok d =>
    obtain rfl := Except.ok.inj hb
    exact h.applyData htypes (houtcome d rfl)
  | error fault =>
    cases fault with
    | notAvailable =>
      obtain rfl := Except.ok.inj hb
      exact h
    | impossible reason =>
      obtain rfl := Except.ok.inj hb
      exact ⟨h.types, h.executed, fun f hf => h.derived f (by cases f <;> exact hf)⟩
    | other fault => cases hb

end Represented

end AccountState

end ShardIndex
