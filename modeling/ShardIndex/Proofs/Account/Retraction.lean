import ShardIndex.Proofs.Account.Represented
import ShardIndex.Proofs.Account.Rereading
/-!
# Adding an interface and deleting it again

A task that deletes an interface undoes one that has added it: snapshots that had nothing of the interface
before (`AccountState.Apart`) get back what they were (`Rescan.delInterface_addInterface`). The two go by
different lists of get-methods. Adding resets what the definition's methods populate, and there is nothing to
reset. Deleting knows no definition and goes by the executions that were recorded, so what the parser has
found has to go back to executions of the definition's methods (`AccountData.FoundBy`); then the recorded
methods populate every field that was found, and none that was not empty before.
-/
namespace ShardIndex

/-! ## Findings about an interface -/

namespace AccountData

variable {d : AccountData} {i : ContractInterface}

/-- The finding has the field. An empty content counts as well (it does not with `Fills`): it would take the
place of the one that is there. -/
def Has (d : AccountData) : DerivedField → Prop
  | .content => d.content ≠ none
  | .owner => d.owner ≠ none
  | .minter => d.minter ≠ none
  | .jettonBalance => d.jettonBalance ≠ none
  | .fake => d.fake = true

/-- The executions are of the interface and of get-methods that it defines, and they populate every field
that the finding has. -/
structure FoundBy (d : AccountData) (i : ContractInterface) : Prop where
  asked : ∀ entry ∈ d.executed, entry.1 = i.name
  defined : ∀ entry ∈ d.executed, ∀ e ∈ entry.2, e.method ∈ i.methods
  derived : ∀ f, d.Has f → d.executed.Populates f

theorem foundBy_empty (i : ContractInterface) : FoundBy {} i where
  asked := by simp
  defined := by simp
  derived f hf := by cases f <;> simp [Has] at hf

theorem populates_of_derivesFake (h : d.derivesFake = true) : d.executed.Populates .fake := by
  obtain ⟨entry, hentry, h⟩ := List.any_eq_true.1 h
  obtain ⟨e, he, hfake⟩ := List.any_eq_true.1 h
  exact ⟨entry.1, e.method, ⟨entry, hentry, rfl, List.mem_map_of_mem he⟩, List.contains_iff_mem.1 hfake⟩

end AccountData

namespace AccountState

variable {s : AccountState} {contract : ContractName} {i : ContractInterface} {d : AccountData}
  {fields : List DerivedField}

/-! ## Taking back -/

theorem reset_of_empty (h : ∀ f ∈ fields, ¬ s.Fills f) : s.reset fields = s := by
  have hcontent : (if .content ∈ fields then {} else s.content) = s.content :=
    ite_eq_right_iff.2 fun hf => (not_not.1 (h _ hf)).symm
  have howner : (if .owner ∈ fields then none else s.owner) = s.owner :=
    ite_eq_right_iff.2 fun hf => (not_not.1 (h _ hf)).symm
  have hminter : (if .minter ∈ fields then none else s.minter) = s.minter :=
    ite_eq_right_iff.2 fun hf => (not_not.1 (h _ hf)).symm
  have hbalance : (if .jettonBalance ∈ fields then none else s.jettonBalance) = s.jettonBalance :=
    ite_eq_right_iff.2 fun hf => (not_not.1 (h _ hf)).symm
  have hfake : (if .fake ∈ fields then false else s.fake) = s.fake :=
    ite_eq_right_iff.2 fun hf => (Bool.eq_false_iff.2 (h _ hf)).symm
  rw [reset, foldl_clearField_eq, hcontent, howner, hminter, hbalance, hfake]

/-- A finding leaves no trace where the fields that it has are reset. -/
theorem reset_applyData (h : ∀ f, d.Has f ∨ d.executed.Populates f → f ∈ fields) (s : AccountState) :
    (s.applyData d).reset fields = (s.reset fields).withExecuted (s.executed.merge d.executed) := by
  have hnone : ∀ f, f ∉ fields → ¬ d.Has f := fun f hf hhas => hf (h f (.inl hhas))
  have hcontent : .content ∉ fields → d.content = none := fun hf => not_not.1 (hnone _ hf)
  have howner : .owner ∉ fields → d.owner = none := fun hf => not_not.1 (hnone _ hf)
  have hminter : .minter ∉ fields → d.minter = none := fun hf => not_not.1 (hnone _ hf)
  have hbalance : .jettonBalance ∉ fields → d.jettonBalance = none := fun hf => not_not.1 (hnone _ hf)
  have hfake : .fake ∉ fields → d.derivesFake = false ∧ d.fake = false := fun hf =>
    ⟨Bool.eq_false_iff.2 fun hderives => hf (h _ (.inr (AccountData.populates_of_derivesFake hderives))),
      Bool.eq_false_iff.2 (hnone _ hf)⟩
  simp only [reset, foldl_clearField_eq, applyData, withExecuted, AccountState.mk.injEq, true_and, and_true]
  refine ⟨rfl, ite_congr rfl (fun _ => rfl) fun hf => ?_, ite_congr rfl (fun _ => rfl) fun hf => ?_,
    ite_congr rfl (fun _ => rfl) fun hf => ?_, ite_congr rfl (fun _ => rfl) fun hf => ?_,
    ite_congr rfl (fun _ => rfl) fun hf => ?_⟩
  · rw [hcontent hf]
    rfl
  · rw [howner hf]
    rfl
  · rw [hminter hf]
    rfl
  · rw [hbalance hf]
    rfl
  · rw [(hfake hf).1, (hfake hf).2]
    simp

/-- A finding with nothing in it changes nothing. -/
theorem applyData_empty (s : AccountState) : s.applyData {} = s := by
  simp [applyData, AccountData.derivesFake]

/-- The snapshot has nothing of the interface: neither its label nor executions, and nothing in a field that
its get-methods populate. Without any label it is no fake. -/
structure Apart (i : ContractInterface) (s : AccountState) : Prop where
  label : i.name ∉ s.types
  executed : ∀ entry ∈ s.executed, entry.1 ≠ i.name
  empty : ∀ method ∈ i.methods, ∀ f ∈ DerivedField.populatedBy method, ¬ s.Fills f
  unlabelled : s.types = [] → s.fake = false

namespace Apart

variable (h : s.Apart i)

include h

theorem recorded : s.recorded i.name = [] := by
  rw [AccountState.recorded, Executions.ofContract_of_absent h.executed]
  rfl

/-- There is nothing in the fields that the methods of the interface populate, whatever the labels are. -/
theorem reset (types : List ContractName) {methods : List String} (hmethods : methods ⊆ i.methods) :
    AccountState.reset { s with types := types } (DerivedField.populatedByAny methods) =
      { s with types := types } := by
  refine reset_of_empty fun f hf hfills => ?_
  obtain ⟨m, hm, hf⟩ := DerivedField.mem_populatedByAny.1 hf
  refine h.empty m (hmethods hm) f hf ?_
  cases f <;> exact hfills

/-- Whatever label comes on top, taking the interface's off leaves the others as they were. -/
theorem dropLabel {types : List ContractName}
    (htypes : types.filter (fun t => decide (t ≠ i.name)) = s.types) :
    AccountState.dropLabel { s with types := types } i.name = s := by
  have hfake : (if s.types.isEmpty then false else s.fake) = s.fake :=
    ite_eq_right_iff.2 fun hempty => (h.unlabelled (List.isEmpty_iff.1 hempty)).symm
  simp only [AccountState.dropLabel, htypes, hfake]

theorem filter_types : s.types.filter (fun t => decide (t ≠ i.name)) = s.types :=
  List.filter_eq_self.2 fun _ ht => decide_eq_true fun hname => h.label (hname ▸ ht)

theorem addInterface_eq : s.addInterface i.name = { s with types := s.types ++ [i.name] } :=
  if_neg fun hlabel => h.label (List.contains_iff_mem.1 hlabel)

theorem dropLabel_addInterface : (s.addInterface i.name).dropLabel i.name = s := by
  rw [h.addInterface_eq]
  refine h.dropLabel ?_
  rw [List.filter_append, h.filter_types, List.filter_cons_of_neg (by simp), List.filter_nil,
    List.append_nil]

/-- There is nothing to clear before the interface is read. -/
theorem prepared : s.prepared i = s.addInterface i.name := by
  rw [AccountState.prepared, clearContract_eq, clearFindings, h.recorded, List.nil_append,
    h.reset s.types (List.Subset.refl _), Executions.erase_eq_self h.executed]
  exact congrArg (AccountState.addInterface · i.name) (h.dropLabel h.filter_types)

/-- Deleting the interface takes back what was found about it. -/
theorem clearContract_applyData (hd : d.FoundBy i) :
    ((s.addInterface i.name).applyData d).clearContract i.name [] = s := by
  have hexecuted : (s.addInterface i.name).executed = s.executed := by rw [h.addInterface_eq]
  generalize hmethods : ((s.addInterface i.name).applyData d).recorded i.name = methods
  have hmem : ∀ m, m ∈ methods ↔ ∃ entry ∈ d.executed, m ∈ entry.2.map (·.method) := by
    intro m
    rw [← hmethods, ← Executions.mem_ofContract_merge h.executed hd.asked, ← hexecuted]
    rfl
  have hdefined : methods ⊆ i.methods := by
    intro m hm
    obtain ⟨entry, hentry, hm⟩ := (hmem m).1 hm
    obtain ⟨e, he, rfl⟩ := List.mem_map.1 hm
    exact hd.defined entry hentry e he
  have hfields : ∀ f, d.Has f ∨ d.executed.Populates f → f ∈ DerivedField.populatedByAny methods := by
    rintro f hf
    obtain ⟨c, m, ⟨entry, hentry, -, hm⟩, hf⟩ := hf.elim (hd.derived f) id
    exact DerivedField.mem_populatedByAny.2 ⟨m, (hmem m).2 ⟨entry, hentry, hm⟩, hf⟩
  have hreset : (s.addInterface i.name).reset (DerivedField.populatedByAny methods) =
      s.addInterface i.name := by
    rw [h.addInterface_eq]
    exact h.reset _ hdefined
  have herased : ((s.addInterface i.name).applyData d).executed.erase i.name = s.executed := by
    refine (Executions.erase_merge d.executed _ hd.asked).trans ?_
    rw [hexecuted, Executions.erase_eq_self h.executed]
  rw [clearContract_eq, clearFindings, hmethods, List.append_nil, reset_applyData hfields, hreset, herased,
    withExecuted_withExecuted, ← hexecuted]
  exact h.dropLabel_addInterface

end Apart

end AccountState

namespace Rescan

variable {σ : Type} {parser : Parser (RescanM σ)} {lookup : Lookup (RescanM σ)} {i : ContractInterface}
  {s : AccountState} {tadd tdel : RescanTask}

/-! ## The tasks -/

/-- What a reading of the interface may come to where nothing stands in its way: the account has nothing to
be read, or something was found. -/
def Readable (i : ContractInterface) : Except ParseFault AccountData → Prop
  | .ok d => d.FoundBy i
  | .error fault => fault = .notAvailable

/-- The snapshot takes over what was read, and drops it again together with the interface. -/
theorem Readable.retracted {outcome : Except ParseFault AccountData} (h : Readable i outcome)
    (hs : s.Apart i) : ∃ b, (s.addInterface i.name).absorb outcome = .ok b ∧
      b.types = s.types ++ [i.name] ∧ b.clearContract i.name [] = s := by
  have htypes : (s.addInterface i.name).types = s.types ++ [i.name] := by rw [hs.addInterface_eq]
  cases outcome with
  | ok d => exact ⟨_, rfl, htypes, hs.clearContract_applyData h⟩
  | error fault =>
    obtain rfl : fault = .notAvailable := h
    refine ⟨_, rfl, htypes, ?_⟩
    have hdropped := hs.clearContract_applyData (AccountData.foundBy_empty i)
    rwa [AccountState.applyData_empty] at hdropped

/-- A task that adds an interface makes of a snapshot that had nothing of it one which a task that deletes the
interface selects, and of which that task makes the first one again. -/
theorem delInterface_addInterface (hadd : tadd.kind = .addInterface) (hdel : tdel.kind = .delInterface)
    (hcontract : tdel.contract = i.name) (haccepts : i.accepts s = true) (hs : s.Apart i) (w : Context σ)
    (hread : Readable i (exec (parser.readAccount (s.addInterface i.name) [i.name] lookup).run w).1) :
    ∃ b v, exec (rewriteAccount parser lookup tadd (some i) s).run w = (.ok b, v) ∧
      (accountFilter tdel none).selects b = true ∧
      ∀ v', exec (rewriteAccount parser lookup tdel none b).run v' = (.ok s, v') := by
  have hrewrite : rewriteAccount parser lookup tadd (some i) s = rereadInterface parser lookup i s := by
    unfold rewriteAccount
    rw [hadd]
    simp only [Option.filter, haccepts, if_true]
  obtain ⟨b, hb, htypes, hdropped⟩ := hread.retracted hs
  refine ⟨b, (exec (parser.readAccount (s.addInterface i.name) [i.name] lookup).run w).2, ?_, ?_,
    fun v' => ?_⟩
  · rw [hrewrite, exec_rereadInterface, hs.prepared, hb]
  · simp [accountFilter, hdel, AccountFilter.selects, AccountState.hasInterface, htypes, hcontract]
  · unfold rewriteAccount
    rw [hdel, hcontract]
    exact congrArg (fun a => (Except.ok a, v')) hdropped

/-! ## A sample -/

namespace Sample

/-- A wallet with findings and an error of its own. -/
def foundWallet : AccountState :=
  { AccountState.Sample.walletItem with
    types := ["wallet"], executed := [("wallet", [{ method := "get_wallet_data" }])], content := {} }

def contentInterface : ContractInterface where
  name := "nft_item"
  addresses := [foundWallet.address]
  methods := ["get_nft_content"]

def contentFinding : AccountData where
  executed := [("nft_item", [{ method := "get_nft_content" }])]
  content := some { uri := some "item" }

def contentStart : Context Registry where
  store := {}
  snapshots := .empty 4
  parser := {
    interfaces := [contentInterface]
    methodResults := [(("nft_item", "get_nft_content"), { content := some { uri := some "item" } })] }
  evictions := fun _ _ => false

def addTask : RescanTask where
  id := 1
  kind := .addInterface
  contract := "nft_item"

def delTask : RescanTask where
  id := 2
  kind := .delInterface
  contract := "nft_item"

theorem apart_foundWallet : foundWallet.Apart contentInterface where
  label := by decide +kernel
  executed := by decide +kernel
  empty := by simp [contentInterface, DerivedField.populatedBy, AccountState.Fills, foundWallet]
  unlabelled := by simp [foundWallet]

theorem foundBy_contentFinding : contentFinding.FoundBy contentInterface where
  asked := by decide +kernel
  defined := by decide +kernel
  derived f hf := by
    refine ⟨"nft_item", "get_nft_content", ⟨_, List.mem_singleton_self _, rfl, by simp⟩, ?_⟩
    cases f <;> simp [AccountData.Has, contentFinding, DerivedField.populatedBy] at hf ⊢

end Sample

open Rescan.Sample in
/-- Adding the interface labels the wallet and gives it a content, deleting it leaves the wallet as it was. -/
theorem delInterface_addInterface_sample : ∃ b v,
    exec (rewriteAccount registry Snapshots.lookup addTask (some contentInterface) foundWallet).run
        contentStart = (.ok b, v) ∧
      b.types = ["wallet", "nft_item"] ∧ b.content = { uri := some "item" } ∧
      (accountFilter delTask none).selects b = true ∧
      ∀ v', exec (rewriteAccount registry Snapshots.lookup delTask none b).run v' = (.ok foundWallet, v') := by
  have hread : Readable contentInterface (exec (registry.readAccount
      (foundWallet.addInterface contentInterface.name) [contentInterface.name] Snapshots.lookup).run
        contentStart).1 := foundBy_contentFinding
  have hadd : addTask.kind = .addInterface := rfl
  have hdel : delTask.kind = .delInterface := rfl
  obtain ⟨b, v, hb, hselects, hdeleted⟩ := delInterface_addInterface hadd hdel rfl (by decide +kernel)
    apart_foundWallet contentStart hread
  obtain rfl := Except.ok.inj (congrArg Prod.fst hb)
  exact ⟨_, v, hb, rfl, rfl, hselects, hdeleted⟩

end Rescan

end ShardIndex
