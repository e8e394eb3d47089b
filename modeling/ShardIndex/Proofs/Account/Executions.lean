import ShardIndex.Entity.Account
import ShardIndex.Proofs.Store.Rows
/-!
# Executions by contract

Executions are kept in increasing order of contracts, with one entry a contract, and an entry names each
method once (`Executions.WellFormed`). Merging a finding, dropping a contract and forgetting a method keep
this. What was executed is read off as `Executions.Records`: merging forgets no record, dropping a contract
takes exactly its own records away, and forgetting a method no other ones. Merging findings about one contract
does not show in the entries of the others (`Executions.erase_merge`).
-/
namespace ShardIndex

/-! ## The executions of one contract -/

namespace Execution

theorem method_mergeInto (es : List Execution) (e : Execution) :
    (mergeInto es e).map (·.method) =
      if e.method ∈ es.map (·.method) then es.map (·.method) else es.map (·.method) ++ [e.method] := by
  have hsame : ∀ old : Execution, (old.method == e.method) = true ↔ old.method = e.method := by simp
  exact Rows.map_replaceOrAppend hsame es

/-- Merging executes methods in addition to those that were executed before. -/
theorem mem_foldl_mergeInto {m : String} : ∀ (found es : List Execution),
    m ∈ (found.foldl mergeInto es).map (·.method) ↔ m ∈ es.map (·.method) ∨ m ∈ found.map (·.method)
  | [], es => by simp
  | e :: found, es => by
    rw [List.foldl_cons, mem_foldl_mergeInto found, method_mergeInto]
    by_cases he : e.method ∈ es.map (·.method)
    · rw [if_pos he, List.map_cons, List.mem_cons]
      constructor
      · rintro (h | h)
        · exact .inl h
        · exact .inr (.inr h)
      · rintro (h | rfl | h)
        · exact .inl h
        · exact .inl he
        · exact .inr h
    · rw [if_neg he, List.mem_append, List.mem_singleton, List.map_cons, List.mem_cons, or_assoc]

theorem keeps_mergeInto : Rows.Keeps (fun e : Execution => e.method) mergeInto :=
  Rows.keeps_replaceOrAppend _ (fun row old : Execution => old.method == row.method) (by simp)

end Execution

namespace Executions

/-- A contract has executed the method. -/
def Records (x : Executions) (contract : ContractName) (method : String) : Prop :=
  ∃ entry ∈ x, entry.1 = contract ∧ method ∈ entry.2.map (·.method)

/-- In increasing order of contracts, with one entry each. -/
def Sorted (x : Executions) : Prop :=
  (x.map (·.1)).Pairwise (· < ·)

instance (x : Executions) : Decidable x.Sorted :=
  inferInstanceAs (Decidable (List.Pairwise _ _))

theorem Sorted.nodup {x : Executions} (h : x.Sorted) : (x.map (·.1)).Nodup :=
  List.Pairwise.imp (fun {a b} (hlt : a < b) (he : a = b) => String.lt_irrefl b (he ▸ hlt)) h

/-- Executions as an account with these labels may hold them. -/
structure WellFormed (types : List ContractName) (x : Executions) : Prop where
  /-- In increasing order of contracts, one entry each. -/
  sorted : (x.map (·.1)).Pairwise (· < ·)
  labelled : ∀ entry ∈ x, entry.1 ∈ types
  nonempty : ∀ entry ∈ x, entry.2 ≠ []
  /-- An entry names each method at most once. -/
  once : ∀ entry ∈ x, (entry.2.map (·.method)).Nodup

section erase

variable {contract : ContractName} {x : Executions}

theorem erase_eq_self (h : ∀ entry ∈ x, entry.1 ≠ contract) : x.erase contract = x :=
  List.filter_eq_self.2 fun entry hentry => decide_eq_true (h entry hentry)

theorem ne_of_mem_erase {entry : ContractName × List Execution} (h : entry ∈ x.erase contract) :
    entry.1 ≠ contract :=
  of_decide_eq_true (List.mem_filter.1 h).2

theorem erase_erase (x : Executions) (contract : ContractName) :
    (x.erase contract).erase contract = x.erase contract :=
  erase_eq_self fun _ => ne_of_mem_erase

theorem erase_cons_self (es : List Execution) (x : Executions) :
    erase ((contract, es) :: x) contract = x.erase contract :=
  List.filter_cons_of_neg (by simp)

theorem erase_cons_ne {c : ContractName} (hc : c ≠ contract) (es : List Execution) (x : Executions) :
    erase ((c, es) :: x) contract = (c, es) :: x.erase contract :=
  List.filter_cons_of_pos (by simpa using hc)

theorem ofContract_of_absent (h : ∀ entry ∈ x, entry.1 ≠ contract) : x.ofContract contract = [] := by
  have hnone : Table.get? x contract = none := by
    rw [← erase_eq_self h, erase, ← Table.erase, Table.get?_erase, if_pos rfl]
  rw [ofContract, hnone]
  rfl

end erase

section update

variable {contract : ContractName} {f : List Execution → List Execution}

theorem mem_of_mem_update {entry : ContractName × List Execution} : ∀ {x : Executions},
    entry ∈ x.update contract f →
      entry ∈ x ∨ entry.1 = contract ∧ ∃ es, entry.2 = f es ∧ (es = [] ∨ (contract, es) ∈ x)
  | [], h => by
    rw [update, List.mem_singleton] at h
    exact .inr ⟨congrArg Prod.fst h, [], congrArg Prod.snd h, .inl rfl⟩
  | (c, es) :: x, h => by
    rw [update] at h
    split at h
    · rename_i hc
      subst hc
      rcases List.mem_cons.1 h with h | h
      · exact .inr ⟨congrArg Prod.fst h, es, congrArg Prod.snd h, .inr List.mem_cons_self⟩
      · exact .inl (List.mem_cons_of_mem _ h)
    · split at h
      · rcases List.mem_cons.1 h with h | h
        · exact .inr ⟨congrArg Prod.fst h, [], congrArg Prod.snd h, .inl rfl⟩
        · exact .inl h
      · rcases List.mem_cons.1 h with rfl | h
        · exact .inl List.mem_cons_self
        · rcases mem_of_mem_update h with h | ⟨hc, es', hes, hx⟩
          · exact .inl (List.mem_cons_of_mem _ h)
          · exact .inr ⟨hc, es', hes, hx.imp_right (List.mem_cons_of_mem _)⟩

theorem sorted_update : ∀ {x : Executions}, (x.map (·.1)).Pairwise (· < ·) →
    ((x.update contract f).map (·.1)).Pairwise (· < ·)
  | [], _ => by simp [update]
  | (c, es) :: x, h => by
    obtain ⟨hc, hx⟩ := List.pairwise_cons.1 h
    rw [update]
    split
    · exact h
    · rename_i hne
      split
      · rename_i hlt
        refine List.pairwise_cons.2 ⟨fun a ha => ?_, h⟩
        rcases List.mem_cons.1 ha with rfl | ha
        · exact hlt
        · exact String.lt_trans hlt (hc a ha)
      · rename_i hlt
        refine List.pairwise_cons.2 ⟨fun a ha => ?_, sorted_update hx⟩
        obtain ⟨entry, hentry, rfl⟩ := List.mem_map.1 ha
        rcases mem_of_mem_update hentry with hentry | ⟨hcontract, -⟩
        · exact hc _ (List.mem_map_of_mem hentry)
        · rw [hcontract]
          exact Std.lt_of_le_of_ne (String.not_lt.1 hlt) hne

theorem Sorted.update {x : Executions} (h : x.Sorted) (contract : ContractName)
    (f : List Execution → List Execution) : (x.update contract f).Sorted :=
  sorted_update h

/-- No entry repeats a method, if none did before and the rewritten one does not. -/
theorem once_update {x : Executions} (h : ∀ entry ∈ x, (entry.2.map (·.method)).Nodup)
    (hf : ∀ es, (es.map (·.method)).Nodup → ((f es).map (·.method)).Nodup) :
    ∀ entry ∈ x.update contract f, (entry.2.map (·.method)).Nodup := by
  intro entry hentry
  rcases mem_of_mem_update hentry with hentry | ⟨-, es, hes, hx⟩
  · exact h entry hentry
  · rw [hes]
    refine hf es ?_
    rcases hx with rfl | hx
    · exact List.nodup_nil
    · exact h _ hx

/-- Rewriting an entry loses no record, as long as the entry's own are kept. -/
theorem Records.update (hf : ∀ es m, m ∈ es.map (·.method) → m ∈ (f es).map (·.method)) {c : ContractName}
    {m : String} : ∀ {x : Executions}, x.Records c m → (x.update contract f).Records c m
  | [], ⟨_, h, _⟩ => by cases h
  | (a, es) :: x, ⟨entry, hentry, hc, hm⟩ => by
    rw [Executions.update]
    split
    · rcases List.mem_cons.1 hentry with rfl | hentry
      · exact ⟨_, List.mem_cons_self, hc, hf _ _ hm⟩
      · exact ⟨entry, List.mem_cons_of_mem _ hentry, hc, hm⟩
    · split
      · exact ⟨entry, List.mem_cons_of_mem _ hentry, hc, hm⟩
      · rcases List.mem_cons.1 hentry with rfl | hentry
        · exact ⟨_, List.mem_cons_self, hc, hm⟩
        · obtain ⟨entry, hentry, h⟩ := Records.update hf ⟨entry, hentry, hc, hm⟩
          exact ⟨entry, List.mem_cons_of_mem _ hentry, h⟩

/-- The rewritten entry is there, whatever was there before. -/
theorem records_update {m : String} (hf : ∀ es, m ∈ (f es).map (·.method)) : ∀ x : Executions,
    (x.update contract f).Records contract m
  | [] => ⟨_, List.mem_singleton_self _, rfl, hf []⟩
  | (a, es) :: x => by
    rw [update]
    split
    · rename_i ha
      exact ⟨_, List.mem_cons_self, ha, hf es⟩
    · split
      · exact ⟨_, List.mem_cons_self, rfl, hf []⟩
      · obtain ⟨entry, hentry, h⟩ := records_update hf x
        exact ⟨entry, List.mem_cons_of_mem _ hentry, h⟩

/-- Rewriting the entry of a contract does not show in the executions of the others. -/
theorem erase_update (contract : ContractName) (f : List Execution → List Execution) : ∀ x : Executions,
    (x.update contract f).erase contract = x.erase contract
  | [] => erase_cons_self (f []) []
  | (c, es) :: x => by
    rw [update]
    split
    · rename_i hc
      subst hc
      rw [erase_cons_self, erase_cons_self]
    · rename_i hc
      split
      · rw [erase_cons_self]
      · rw [erase_cons_ne hc, erase_cons_ne hc, erase_update contract f x]

/-- An entry that is rewritten twice is where it was after the first time. -/
theorem update_update (contract : ContractName) (f g : List Execution → List Execution) : ∀ x : Executions,
    (x.update contract f).update contract g = x.update contract fun es => g (f es)
  | [] => by simp [update]
  | (c, es) :: x => by
    by_cases hc : c = contract
    · simp [update, hc]
    · by_cases hlt : contract < c
      · simp [update, hc, hlt]
      · simp [update, hc, hlt, update_update contract f g x]

/-- A contract without an entry gets one. -/
theorem ofContract_update (f : List Execution → List Execution) : ∀ {x : Executions},
    (∀ entry ∈ x, entry.1 ≠ contract) → (x.update contract f).ofContract contract = f []
  | [], _ => by simp [update, ofContract, Table.get?]
  | (c, es) :: x, h => by
    obtain ⟨hc, hx⟩ := List.forall_mem_cons.1 h
    have hc : c ≠ contract := hc
    rw [update, if_neg hc]
    split
    · simp [ofContract, Table.get?]
    · rw [← ofContract_update f hx, ofContract, Table.get?, if_neg hc, ofContract]

end update

/-! ## Merging -/

section join

variable {types : List ContractName} {x : Executions}

/-- Executions added to others, entry by entry. -/
def join (f : List Execution → List Execution → List Execution) (x found : Executions) : Executions :=
  found.foldl (fun x entry => x.update entry.1 fun es => f es entry.2) x

/-- The executions of both are there. -/
def Joins (f : List Execution → List Execution → List Execution) : Prop :=
  ∀ es found m, m ∈ es.map (·.method) ∨ m ∈ found.map (·.method) → m ∈ (f es found).map (·.method)

/-- Executions merged into others, contract by contract. -/
abbrev merge : Executions → Executions → Executions :=
  join fun es found => found.foldl Execution.mergeInto es

theorem joins_merge : Joins fun es found => found.foldl Execution.mergeInto es :=
  fun es found _ => (Execution.mem_foldl_mergeInto found es).2

theorem joins_append : Joins (· ++ ·) := fun es found m hm => by
  rw [List.map_append]
  exact List.mem_append.2 hm

theorem WellFormed.update_merge (h : x.WellFormed types) {contract : ContractName}
    (hcontract : contract ∈ types) {found : List Execution} (hfound : found ≠ []) :
    (x.update contract fun es => found.foldl Execution.mergeInto es).WellFormed types where
  sorted := sorted_update h.sorted
  labelled entry hentry := by
    rcases mem_of_mem_update hentry with hentry | ⟨hc, -⟩
    · exact h.labelled entry hentry
    · exact hc ▸ hcontract
  nonempty entry hentry := by
    rcases mem_of_mem_update hentry with hentry | ⟨-, es, hes, -⟩
    · exact h.nonempty entry hentry
    · obtain ⟨e, he⟩ := List.exists_mem_of_ne_nil found hfound
      have hmem := (Execution.mem_foldl_mergeInto found es).2 (.inr (List.mem_map_of_mem he))
      rintro hnil
      rw [← hes, hnil] at hmem
      cases hmem
  once := once_update h.once (Execution.keeps_mergeInto.nodup_foldl found)

theorem Sorted.merge : ∀ (found : Executions) {x : Executions}, x.Sorted → (x.merge found).Sorted
  | [], _, h => h
  | _ :: found, _, h => Sorted.merge found (h.update _ _)

/-- No contract gets records that repeat a method, if none had before. -/
theorem once_merge : ∀ (found : Executions) {x : Executions}, (∀ entry ∈ x, (entry.2.map (·.method)).Nodup) →
    ∀ entry ∈ x.merge found, (entry.2.map (·.method)).Nodup
  | [], _, h => h
  | _ :: found, _, h => once_merge found (once_update h (Execution.keeps_mergeInto.nodup_foldl _))

theorem WellFormed.merge : ∀ (found : Executions) {x : Executions}, x.WellFormed types →
    (∀ entry ∈ found, entry.1 ∈ types) → (∀ entry ∈ found, entry.2 ≠ []) →
      (x.merge found).WellFormed types
  | [], _, h, _, _ => h
  | entry :: found, x, h, htypes, hnonempty => by
    obtain ⟨htype, htypes⟩ := List.forall_mem_cons.1 htypes
    obtain ⟨hne, hnonempty⟩ := List.forall_mem_cons.1 hnonempty
    exact WellFormed.merge found (h.update_merge htype hne) htypes hnonempty

variable {f : List Execution → List Execution → List Execution} (hf : Joins f)

include hf

/-- No record is forgotten. -/
theorem Records.join {c : ContractName} {m : String} : ∀ (found : Executions) {x : Executions},
    x.Records c m → (x.join f found).Records c m
  | [], _, h => h
  | _ :: found, _, h => Records.join found (h.update fun _ _ hm => hf _ _ _ (.inl hm))

/-- Every record is taken over. -/
theorem records_join {c : ContractName} {m : String} : ∀ (found x : Executions),
    found.Records c m → (x.join f found).Records c m
  | [], _, ⟨_, h, _⟩ => by cases h
  | entry :: found, x, ⟨e, he, hc, hm⟩ => by
    rcases List.mem_cons.1 he with rfl | he
    · refine Records.join hf found ?_
      rw [← hc]
      exact records_update (fun _ => hf _ _ _ (.inr hm)) x
    · exact records_join found _ ⟨e, he, hc, hm⟩

end join

section merge

variable {contract : ContractName} {x found : Executions}

/-- Findings about one contract are merged into its entry alone. -/
theorem merge_update : ∀ (found : Executions) (f : List Execution → List Execution),
    (∀ entry ∈ found, entry.1 = contract) → (x.update contract f).merge found =
      x.update contract fun es => (found.flatMap (·.2)).foldl Execution.mergeInto (f es)
  | [], _, _ => rfl
  | (c, es) :: found, f, h => by
    obtain ⟨hc, hfound⟩ := List.forall_mem_cons.1 h
    obtain rfl : contract = c := hc.symm
    rw [merge, join, List.foldl_cons, update_update, ← join, ← merge, merge_update found _ hfound]
    simp only [List.flatMap_cons, List.foldl_append]

theorem erase_merge : ∀ (found x : Executions), (∀ entry ∈ found, entry.1 = contract) →
    (x.merge found).erase contract = x.erase contract
  | [], _, _ => rfl
  | (c, es) :: found, x, h => by
    obtain ⟨hc, hfound⟩ := List.forall_mem_cons.1 h
    obtain rfl : contract = c := hc.symm
    exact (erase_merge found _ hfound).trans (erase_update contract _ x)

/-- What is recorded for a new contract is what was found about it. -/
theorem mem_ofContract_merge (hx : ∀ entry ∈ x, entry.1 ≠ contract)
    (hfound : ∀ entry ∈ found, entry.1 = contract) {m : String} :
    m ∈ ((x.merge found).ofContract contract).map (·.method) ↔
      ∃ entry ∈ found, m ∈ entry.2.map (·.method) := by
  cases found with
  | nil =>
    rw [merge, join, List.foldl_nil, ofContract_of_absent hx]
    simp
  | cons entry found =>
    obtain ⟨hc, hrest⟩ := List.forall_mem_cons.1 hfound
    rw [merge, join, List.foldl_cons, hc, ← join, ← merge, merge_update found _ hrest, ofContract_update _ hx,
      Execution.mem_foldl_mergeInto, Execution.mem_foldl_mergeInto]
    simp only [List.map_nil, List.not_mem_nil, false_or, List.map_flatMap, List.mem_flatMap,
      List.exists_mem_cons_iff]

end merge

/-! ## Forgetting -/

section forget

variable {types : List ContractName} {x : Executions} {contract : ContractName}

theorem WellFormed.nil (types : List ContractName) : WellFormed types [] where
  sorted := List.Pairwise.nil
  labelled := by simp
  nonempty := by simp
  once := by simp

theorem WellFormed.of_subset {types' : List ContractName} (h : x.WellFormed types) (hsub : types ⊆ types') :
    x.WellFormed types' where
  sorted := h.sorted
  labelled entry hentry := hsub (h.labelled entry hentry)
  nonempty := h.nonempty
  once := h.once

theorem WellFormed.nodup (h : x.WellFormed types) : (x.map (·.1)).Nodup :=
  Sorted.nodup h.sorted

theorem WellFormed.ofContract (h : x.WellFormed types) {c : ContractName} {m : String}
    (hrecords : x.Records c m) : m ∈ (x.ofContract c).map (·.method) := by
  obtain ⟨⟨a, es⟩, hentry, rfl, hm⟩ := hrecords
  rw [Executions.ofContract, Table.get?_of_mem h.nodup hentry]
  exact hm

theorem WellFormed.erase (h : x.WellFormed types) (contract : ContractName) :
    (x.erase contract).WellFormed (types.filter fun t => decide (t ≠ contract)) where
  sorted := h.sorted.sublist (List.filter_sublist.map _)
  labelled entry hentry := by
    obtain ⟨hentry, hne⟩ := List.mem_filter.1 hentry
    exact List.mem_filter.2 ⟨h.labelled entry hentry, hne⟩
  nonempty entry hentry := h.nonempty entry (List.mem_filter.1 hentry).1
  once entry hentry := h.once entry (List.mem_filter.1 hentry).1

theorem Records.erase {c : ContractName} {m : String} (h : x.Records c m) (hc : c ≠ contract) :
    (x.erase contract).Records c m := by
  obtain ⟨entry, hentry, rfl, hm⟩ := h
  exact ⟨entry, List.mem_filter.2 ⟨hentry, decide_eq_true hc⟩, rfl, hm⟩

/-- The executions of a contract without those of one method. -/
def forget (x : Executions) (contract : ContractName) (method : String) : Executions :=
  x.filterMap fun entry =>
    if entry.1 = contract then
      match entry.2.filter fun e => decide (e.method ≠ method) with
      | [] => none
      | kept => some (entry.1, kept)
    else some entry

theorem mem_forget {method : String} {entry : ContractName × List Execution} :
    entry ∈ x.forget contract method ↔
      entry ∈ x ∧ entry.1 ≠ contract ∨
        entry.1 = contract ∧ entry.2 ≠ [] ∧
          ∃ es, (contract, es) ∈ x ∧ entry.2 = es.filter fun e => decide (e.method ≠ method) := by
  rw [forget, List.mem_filterMap]
  constructor
  · rintro ⟨⟨c, es⟩, hold, hentry⟩
    dsimp only at hentry
    split at hentry
    · rename_i hc
      subst hc
      split at hentry
      · cases hentry
      · rename_i hne
        obtain rfl := Option.some.inj hentry
        exact .inr ⟨rfl, hne, es, hold, rfl⟩
    · rename_i hc
      obtain rfl := Option.some.inj hentry
      exact .inl ⟨hold, hc⟩
  · rintro (⟨hold, hc⟩ | ⟨hc, hne, es, hold, hes⟩)
    · exact ⟨entry, hold, if_neg hc⟩
    · refine ⟨(contract, es), hold, ?_⟩
      dsimp only
      rw [if_pos rfl, ← hes]
      obtain ⟨c, kept⟩ := entry
      subst hc
      cases kept with
      | nil => exact absurd rfl hne
      | cons e kept => rfl

theorem WellFormed.forget (h : x.WellFormed types) (contract : ContractName) (method : String) :
    (x.forget contract method).WellFormed types where
  sorted := by
    have hsub : ((x.forget contract method).map (·.1)).Sublist (x.map (·.1)) := by
      unfold Executions.forget
      clear h
      induction x with
      | nil => exact List.Sublist.slnil
      | cons entry x ih =>
        rw [List.filterMap_cons]
        split
        · exact ih.cons _
        · rename_i kept hkept
          have hfst : kept.1 = entry.1 := by
            split at hkept
            · split at hkept
              · cases hkept
              · exact (congrArg Prod.fst (Option.some.inj hkept)).symm
            · exact (congrArg Prod.fst (Option.some.inj hkept)).symm
          rw [List.map_cons, List.map_cons, hfst]
          exact ih.cons_cons _
    exact h.sorted.sublist hsub
  labelled entry hentry := by
    rcases mem_forget.1 hentry with ⟨hentry, -⟩ | ⟨hc, -, es, hold, -⟩
    · exact h.labelled entry hentry
    · exact hc ▸ h.labelled _ hold
  nonempty entry hentry := by
    rcases mem_forget.1 hentry with ⟨hentry, -⟩ | ⟨-, hne, -⟩
    · exact h.nonempty entry hentry
    · exact hne
  once entry hentry := by
    rcases mem_forget.1 hentry with ⟨hentry, -⟩ | ⟨-, -, es, hold, hes⟩
    · exact h.once entry hentry
    · rw [hes]
      exact (h.once _ hold).sublist (List.filter_sublist.map _)

/-- Forgetting a method forgets no other one. -/
theorem Records.forget {c : ContractName} {m method : String} (h : x.Records c m) (hm : m ≠ method) :
    (x.forget contract method).Records c m := by
  obtain ⟨⟨c, es⟩, hentry, rfl, hmem⟩ := h
  by_cases hc : c = contract
  · subst hc
    obtain ⟨e, he, rfl⟩ := List.mem_map.1 hmem
    have hkept : e ∈ es.filter fun e => decide (e.method ≠ method) :=
      List.mem_filter.2 ⟨he, decide_eq_true hm⟩
    refine ⟨(c, _), mem_forget.2 (.inr ⟨rfl, ?_, es, hentry, rfl⟩), rfl, List.mem_map_of_mem hkept⟩
    exact List.ne_nil_of_mem hkept
  · exact ⟨_, mem_forget.2 (.inl ⟨hentry, hc⟩), rfl, hmem⟩

end forget

end Executions

end ShardIndex
