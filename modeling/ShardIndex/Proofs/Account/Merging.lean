import ShardIndex.Proofs.Account.Executions
/-!
# Taking over what a parser found

What a parser found is merged into a snapshot contract by contract and record by record
(`AccountState.applyData`). Methods may be repeated, among the records of the snapshot and in the finding.

For one contract this is rows put over rows (`Execution.merged_foldl`): a record that was found takes the place
of the first one of its method, or follows at the end. Executions are in increasing order of contracts, as is
the finding, so they are known by the records of each contract (`Executions.ext_of_sorted`), and merging is
known contract by contract (`Executions.get?_merge`). Hence taking over the same finding again changes nothing
(`Executions.merge_merge`), whichever methods it repeats.
-/
namespace ShardIndex

/-! ## The records of one contract -/

namespace Execution

/-- Records of a contract after others were found: `old` before and `now` afterwards. -/
structure Merged (old found now : List Execution) : Prop where
  /-- The first record of a method that was found is the last one found. -/
  last : ∀ m ∈ found.map (·.method),
    now.find? (fun e => e.method == m) = (found.filter fun e => e.method == m).getLast?
  /-- Records keep their places, and their values unless their methods were found. Those of methods that are
  new follow, one a method. -/
  kept : ∃ kept new : List Execution, now = kept ++ new ∧
    List.Forall₂ (fun o n => n = o ∨ n ∈ found ∧ n.method = o.method) old kept ∧
    (new.map (·.method)).Nodup ∧ ∀ e ∈ new, e ∈ found ∧ e.method ∉ old.map (·.method)
  once : (old.map (·.method)).Nodup → (now.map (·.method)).Nodup

theorem merged_foldl (found old : List Execution) : Merged old found (found.foldl mergeInto old) where
  last m hm := by
    obtain ⟨e, -, -, he⟩ := Rows.exists_last hm
    rw [keeps_mergeInto.find?_foldl, he, Option.some_or]
  kept := Rows.foldl_eq_append (by simp) old found
  once := keeps_mergeInto.nodup_foldl found old

/-- Records that are merged a second time change nothing. -/
theorem foldl_mergeInto_twice (found es : List Execution) :
    found.foldl mergeInto (found.foldl mergeInto es) = found.foldl mergeInto es := by
  have hsame : ∀ row old : Execution, (old.method == row.method) = true ↔ old.method = row.method := by simp
  exact Rows.foldl_foldl hsame found es

end Execution

/-! ## Contract by contract -/

namespace Executions

variable {x y : Executions}

/-- Executions are known by the records of each contract. -/
theorem ext_of_sorted (hx : x.Sorted) (hy : y.Sorted) (h : ∀ c, Table.get? x c = Table.get? y c) :
    x = y := by
  have hmem : ∀ entry, entry ∈ x ↔ entry ∈ y := fun entry =>
    ⟨fun he => Table.mem_of_get? ((h _).symm.trans (Table.get?_of_mem hx.nodup he)),
      fun he => Table.mem_of_get? ((h _).trans (Table.get?_of_mem hy.nodup he))⟩
  have hperm := (List.perm_ext_iff_of_nodup hx.nodup.of_map hy.nodup.of_map).2 hmem
  refine hperm.eq_of_pairwise ?_ (List.pairwise_map.1 hx) (List.pairwise_map.1 hy)
  intro a b _ _ hab hba
  exact absurd (String.lt_trans hab hba) (String.lt_irrefl _)

/-- Only the entry that is rewritten changes. -/
theorem get?_update (contract : ContractName) (f : List Execution → List Execution) (c : ContractName) :
    ∀ {x : Executions}, x.Sorted → Table.get? (x.update contract f) c =
      if c = contract then some (f (x.ofContract contract)) else Table.get? x c
  | [], _ => by
    by_cases hc : c = contract
    · simp [update, ofContract, Table.get?, hc]
    · simp [update, Table.get?, hc, Ne.symm hc]
  | (a, es) :: x, h => by
    obtain ⟨ha, hx⟩ := List.pairwise_cons.1 h
    rw [update]
    split
    · rename_i hac
      subst hac
      by_cases hc : c = a
      · simp [ofContract, Table.get?, hc]
      · simp [Table.get?, hc, Ne.symm hc]
    · rename_i hac
      split
      · rename_i hlt
        have hnone : ofContract ((a, es) :: x) contract = [] := by
          refine ofContract_of_absent fun entry hentry => ?_
          rcases List.mem_cons.1 hentry with rfl | hentry
          · exact hac
          · rintro rfl
            exact String.lt_irrefl _ (String.lt_trans hlt (ha _ (List.mem_map_of_mem hentry)))
        rw [Table.get?]
        by_cases hc : c = contract
        · rw [if_pos hc.symm, if_pos hc, hnone]
        · rw [if_neg (Ne.symm hc), if_neg hc]
      · rw [Table.get?, get?_update contract f c hx]
        by_cases hca : a = c
        · have hc : c ≠ contract := fun e => hac (hca.trans e)
          simp [Table.get?, hca, hc]
        · simp [Table.get?, ofContract, hca, hac]

/-- What was found about a contract is merged into the records of that contract alone. -/
theorem get?_merge (c : ContractName) : ∀ {found x : Executions}, found.Sorted → x.Sorted →
    Table.get? (x.merge found) c =
      match Table.get? found c with
      | some es => some (es.foldl Execution.mergeInto (x.ofContract c))
      | none => Table.get? x c
  | [], _, _, _ => rfl
  | (a, es) :: found, x, h, hx => by
    obtain ⟨ha, hfound⟩ := List.pairwise_cons.1 h
    rw [merge, join, List.foldl_cons, ← join, ← merge, get?_merge c hfound (hx.update a _), ofContract,
      get?_update _ _ _ hx]
    by_cases hc : c = a
    · subst hc
      have hnone : Table.get? found c = none := by
        cases hget : Table.get? found c with
        | none => rfl
        | some es =>
          exact absurd (ha _ (List.mem_map_of_mem (Table.mem_of_get? hget))) (String.lt_irrefl c)
      simp [hnone, Table.get?]
    · simp [hc, Table.get?, Ne.symm hc, ofContract]

/-- A finding that is merged a second time changes nothing. -/
theorem merge_merge {found : Executions} (hfound : found.Sorted) (hx : x.Sorted) :
    (x.merge found).merge found = x.merge found := by
  refine ext_of_sorted ((hx.merge found).merge found) (hx.merge found) fun c => ?_
  rw [get?_merge c hfound (hx.merge found)]
  cases hget : Table.get? found c with
  | none => rfl
  | some es =>
    have honce : Table.get? (x.merge found) c = some (es.foldl Execution.mergeInto (x.ofContract c)) := by
      rw [get?_merge c hfound hx, hget]
    show some (es.foldl Execution.mergeInto ((x.merge found).ofContract c)) = _
    rw [ofContract, honce, Option.getD_some, Execution.foldl_mergeInto_twice]

end Executions

/-! ## Snapshots -/

theorem AccountData.derivesFake_iff {d : AccountData} : d.derivesFake = true ↔
    ∃ entry ∈ d.executed, ∃ e ∈ entry.2, .fake ∈ DerivedField.populatedBy e.method := by
  simp only [derivesFake, List.any_eq_true, List.contains_iff_mem]

namespace AccountState

variable {s : AccountState} {d : AccountData}

theorem applyData_applyData (hs : s.executed.Sorted) (hd : d.executed.Sorted) :
    (s.applyData d).applyData d = s.applyData d := by
  have horElse : ∀ {α : Type} (found old : Option α), (found <|> found <|> old) = (found <|> old) := by
    intro α found old
    cases found <;> rfl
  have hcontent : d.content.getD (d.content.getD s.content) = d.content.getD s.content := by
    cases d.content <;> rfl
  have hfake : (if d.derivesFake then d.fake else (if d.derivesFake then d.fake else s.fake || d.fake) ||
      d.fake) = if d.derivesFake then d.fake else s.fake || d.fake := by
    cases d.derivesFake <;> simp
  simp only [applyData, AccountState.mk.injEq, true_and, and_true]
  exact ⟨Executions.merge_merge hd hs, hcontent, horElse _ _, horElse _ _, horElse _ _, hfake⟩

/-- Taking over what a parser found, however methods are repeated in it or in the snapshot. A second time
changes nothing. Records are merged contract by contract, and contracts that were not looked at keep theirs. A
field is the one found, if one was. The flag is the one found if an execution derives it, and otherwise it is
raised if it was or is found so. -/
theorem applyData_merges (hs : s.executed.Sorted) (hd : d.executed.Sorted) :
    let now := s.applyData d
    now.applyData d = now ∧ now.executed.Sorted ∧
    (∀ c, match Table.get? d.executed c with
      | some found => ∃ es, Table.get? now.executed c = some es ∧
          Execution.Merged (s.executed.ofContract c) found es
      | none => Table.get? now.executed c = Table.get? s.executed c) ∧
    ((∀ entry ∈ s.executed, (entry.2.map (·.method)).Nodup) →
      ∀ entry ∈ now.executed, (entry.2.map (·.method)).Nodup) ∧
    now = { s with
      executed := now.executed
      content := d.content.getD s.content
      owner := d.owner <|> s.owner
      minter := d.minter <|> s.minter
      jettonBalance := d.jettonBalance <|> s.jettonBalance
      fake :=
        if ∃ entry ∈ d.executed, ∃ e ∈ entry.2, .fake ∈ DerivedField.populatedBy e.method then d.fake
        else s.fake || d.fake } := by
  have hexecuted : (s.applyData d).executed = s.executed.merge d.executed := rfl
  refine ⟨applyData_applyData hs hd, hs.merge d.executed, fun c => ?_, Executions.once_merge _, ?_⟩
  · rw [hexecuted, Executions.get?_merge c hd hs]
    cases hget : Table.get? d.executed c with
    | none => rfl
    | some found => exact ⟨_, rfl, Execution.merged_foldl found _⟩
  · simp only [applyData, AccountData.derivesFake_iff]

/-- An item with two records of one method. -/
def repeatedItem : AccountState where
  address := ⟨0, 7⟩
  block := ⟨.basechain, 3⟩
  masterSeqno := 3
  updatedAt := 0
  status := .active
  balance := 0
  lastTxLt := 30
  lastTxHash := 0
  executed := [("nft_item", [{ method := "get_nft_content" }, { method := "get_nft_data" },
    { method := "get_nft_data", error := some "old" }])]
  minter := some ⟨0, 9⟩
  fake := true

/-- The method was executed twice more. -/
def repeatedReading : AccountData where
  executed := [("nft_item", [{ method := "get_nft_data" }, { method := "get_owner" },
    { method := "get_nft_data", error := some "new" }])]
  owner := some ⟨0, 8⟩

/-- The last reading takes the place of the first record, and decides about the flag. -/
theorem applyData_merges_sample :
    repeatedItem.executed.Sorted ∧ repeatedReading.executed.Sorted ∧
    (repeatedItem.applyData repeatedReading).applyData repeatedReading =
      repeatedItem.applyData repeatedReading ∧
    repeatedItem.applyData repeatedReading = { repeatedItem with
      executed := [("nft_item", [{ method := "get_nft_content" },
        { method := "get_nft_data", error := some "new" }, { method := "get_nft_data", error := some "old" },
        { method := "get_owner" }])]
      owner := some ⟨0, 8⟩
      fake := false } := by
  have hs : repeatedItem.executed.Sorted := by decide +kernel
  have hd : repeatedReading.executed.Sorted := by decide +kernel
  obtain ⟨htwice, -⟩ := applyData_merges hs hd
  exact ⟨hs, hd, htwice, by decide +kernel⟩

end AccountState

end ShardIndex
