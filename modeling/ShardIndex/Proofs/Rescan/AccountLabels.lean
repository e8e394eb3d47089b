import ShardIndex.Proofs.Account.Reading
import ShardIndex.Proofs.Rescan.WindowSize
/-!
# Labels of snapshots, fetched and rewritten

A fetch (`Fetcher.get_account`) labels an active account with the interfaces that accept it, in the order of
their registration, and leaves other accounts without labels (`Registry.determined`, `account_determined`). A
task for a new or for a changed interface puts one label right in the snapshots of the store
(`RescanScheduler.rescan_accounts`). It does not ask whether the account is active, it puts the label behind all
others, and a new interface leaves alone what it does not accept. So it comes to the labels of a fetch exactly
where these make no difference (`Course.account_labels`), and elsewhere it does not
(`Course.account_labels_differ`).
-/
namespace ShardIndex

/-! ## What a fetch determines -/

/-- The labels that a fetch gives a snapshot. -/
def Registry.determined (r : Registry) (a : AccountState) : List ContractName :=
  if a.isActive then r.interfacesOf a else []

namespace Rescan

/-- Labels are determined by what the chain says. -/
theorem determined_of_chain (r : Registry) {a b : AccountState} (h : b.chain = a.chain) :
    r.determined b = r.determined a :=
  (congrArg r.determined h :)

/-- A reader that asks a registry hands out snapshots with the labels that the registry determines, as long as
the definitions stay as they are. -/
theorem account_determined (r : Registry) {node : ChainNode (RescanM (Registry × ReadCache))} {pageLimit : Nat}
    (hnode : ∀ I : Context (Registry × ReadCache) → Prop, Indifferent I →
      NodeKeeps (Within I fun p => p.interfaces = r.interfaces) node)
    (header : Header) (masterSeqno : UInt32) (address : Address) :
    Ends (Within (fun w => ∀ key s, w.parser.2.accounts.get? key = some s → s.types = r.determined s)
        fun p => p.interfaces = r.interfaces)
      ((⟨node, Registry.parser, pageLimit⟩ : Reader _).account header masterSeqno address).run
      (Yields fun s => s.types = r.determined s) := by
  have hI : Indifferent fun w : Context (Registry × ReadCache) =>
      ∀ key s, w.parser.2.accounts.get? key = some s → s.types = r.determined s := fun _ _ h => h
  have hsteady : Steady fun p => p.interfaces = r.interfaces := ⟨fun _ _ _ h => h, fun _ _ _ _ _ h => h⟩
  refine account_yields ⟨fun _ hw => hw.1, fun _ _ hw hc => ⟨hc, hw.2⟩⟩ (hnode _ hI) (fun s _ hactive => ?_)
    (fun s _ hinactive => ?_) header masterSeqno address
  · refine (Hosts.within hI).parser_interfacesOf hsteady fun p hp => ?_
    have hsame : p.interfacesOf s = r.interfacesOf s := by rw [Registry.interfacesOf, hp, Registry.interfacesOf]
    exact hsame.trans (if_pos hactive).symm
  · exact (if_neg (ne_true_of_eq_false hinactive)).symm

/-! ## What a task leaves -/

section

variable {σ : Type} {parser : Parser (RescanM σ)} {P : σ → Prop} {answers : Answers} {faults : Prop}
  {batch : UInt32} {s₀ : Store} {t₀ t : RescanTask} {first last : UInt32} {w : Context σ} {es : List Entry}

/-- The labels of a snapshot once the task is finished. -/
def relabelledTypes (t : RescanTask) (i : Option ContractInterface) (a : AccountState) :
    List ContractName :=
  if (accountFilter t i).selects a then retyped t i a else a.types

/-- A finished interface task has relabelled the snapshots of the history one by one. -/
theorem Course.relabels (hd : Determined parser P answers faults) (hp : Pending s₀ t₀ first last)
    (hkind : InterfaceKind t₀.kind) {i : Option ContractInterface} (hi : interfaceOf s₀ t₀ = .ok i)
    (h : Course parser P batch s₀ t₀ w es) (ht : w.store.task? t₀.id = some t)
    (hfinished : t.finished = true) :
    List.Forall₂ (fun a b => b.chain = a.chain ∧
      (first ≤ a.masterSeqno → a.masterSeqno ≤ last → b.types = relabelledTypes t₀ i a))
      s₀.accounts w.store.accounts := by
  obtain ⟨t', hreached⟩ := h.reached hd hp fun s stop a => seen_of_reworked hkind
  obtain rfl : t' = t := by
    rw [hreached.task?_eq hp] at ht
    exact Option.some.inj ht
  have hreq : Phase.accounts.required t₀.kind = true := by
    rcases hkind with hkind | hkind | hkind <;> rw [hkind] <;> rfl
  have haccounts := hreached.accounts
  rw [hreached.reach_of_finished hfinished .accounts hreq] at haccounts
  obtain ⟨g, hg, hrows⟩ := haccounts
  rw [hg, List.forall₂_map_right_iff]
  refine List.forall₂_same.2 fun a ha => ?_
  by_cases hcovered : Between accountHeight first.toNat (last.toNat + 1) a ∧ SelectsAccount s₀ t₀ a
  · obtain ⟨j, labels, hj, -, himage⟩ := (hrows a ha).covered hcovered.1 hcovered.2
    rw [hi] at hj
    obtain rfl := Except.ok.inj hj
    refine ⟨chain_of_accountImage himage, fun _ _ => ?_⟩
    rw [types_eq_retyped hkind hi himage, relabelledTypes, if_pos ((selectsAccount_of_ok hi a).1 hcovered.2)]
  · rw [(hrows a ha).other hcovered]
    refine ⟨rfl, fun hfirst hlast => ?_⟩
    rw [relabelledTypes, if_neg]
    exact fun hselects => hcovered
      ⟨between_iff.2 ⟨_, rfl, hfirst, hlast⟩, (selectsAccount_of_ok hi a).2 hselects⟩

end

/-! ## Where the two agree -/

theorem filter_ne_eq_self {l : List ContractName} {c : ContractName} (hc : c ∉ l) :
    (l.filter fun x => decide (x ≠ c)) = l :=
  List.filter_eq_self.2 fun _ hx => decide_eq_true (ne_of_mem_of_not_mem hx hc)

/-- Moving a name to the end of a list changes nothing exactly if it is the last one. -/
theorem filter_append_singleton_eq_self {l : List ContractName} {c : ContractName} (hl : l.Nodup) :
    (l.filter fun x => decide (x ≠ c)) ++ [c] = l ↔ l.getLast? = some c := by
  constructor
  · intro h
    rw [← h, List.getLast?_concat]
  · intro h
    obtain ⟨front, rfl⟩ := List.getLast?_eq_some_iff.1 h
    have hc : c ∉ front := fun hmem => List.disjoint_of_nodup_append hl hmem (List.mem_singleton_self c)
    rw [List.filter_append, filter_ne_eq_self hc]
    simp

variable {r : Registry} {i : ContractInterface} {t : RescanTask} {a : AccountState}

/-- The labels of the snapshot are those of a fetch, apart from the label of the contract. -/
def UpToDateBut (r : Registry) (contract : ContractName) (a : AccountState) : Prop :=
  (a.types.filter fun c => decide (c ≠ contract)) = (r.determined a).filter fun c => decide (c ≠ contract)

/-- The account is active and the interface the last one to accept it, or the interface does not accept it,
and did not do so before if the task is about a new interface. -/
def Unaffected (r : Registry) (i : ContractInterface) (t : RescanTask) (a : AccountState) : Prop :=
  if i.accepts a then a.isActive = true ∧ (r.interfacesOf a).getLast? = some i.name
  else t.kind = .addInterface → i.name ∉ a.types

/-- Of the registered interfaces with the name, it is this one that decides. -/
theorem mem_interfacesOf (hi : i ∈ r.interfaces) (hnames : (r.interfaces.map (·.name)).Nodup) :
    i.name ∈ r.interfacesOf a ↔ i.accepts a = true := by
  unfold Registry.interfacesOf
  rw [List.mem_map]
  constructor
  · rintro ⟨j, hj, hname⟩
    obtain ⟨hj, haccepts⟩ := List.mem_filter.1 hj
    obtain rfl := List.inj_on_of_nodup_map hnames hj hi hname
    exact haccepts
  · exact fun haccepts => ⟨i, List.mem_filter.2 ⟨hi, haccepts⟩, rfl⟩

theorem mem_determined (hi : i ∈ r.interfaces) (hnames : (r.interfaces.map (·.name)).Nodup) :
    i.name ∈ r.determined a ↔ a.isActive = true ∧ i.accepts a = true := by
  unfold Registry.determined
  split
  · rename_i hactive
    rw [mem_interfacesOf hi hnames]
    exact (and_iff_right hactive).symm
  · rename_i hinactive
    simp [hinactive]

theorem nodup_interfacesOf (hnames : (r.interfaces.map (·.name)).Nodup) : (r.interfacesOf a).Nodup :=
  hnames.sublist (List.filter_sublist.map _)

section

variable (hname : i.name = t.contract) (hkind : t.kind = .addInterface ∨ t.kind = .updInterface)

include hname hkind

/-- The label of an accepted snapshot is put behind the others. -/
theorem relabelledTypes_of_accepts (haccepts : i.accepts a = true) :
    relabelledTypes t (some i) a = (a.types.filter fun c => decide (c ≠ t.contract)) ++ [t.contract] := by
  have hselects : (accountFilter t (some i)).selects a = true := by
    rcases hkind with hkind | hkind <;> simp [accountFilter, AccountFilter.selects, hkind, haccepts]
  rw [relabelledTypes, if_pos hselects]
  simp [retyped, Option.filter, haccepts, hname]

omit hname in
/-- Any other snapshot loses the label, unless the interface is new. -/
theorem relabelledTypes_of_not_accepts (haccepts : ¬ i.accepts a = true) :
    relabelledTypes t (some i) a =
      if t.kind = .addInterface then a.types else a.types.filter fun c => decide (c ≠ t.contract) := by
  have hretyped : retyped t (some i) a = a.types.filter fun c => decide (c ≠ t.contract) := by
    simp [retyped, Option.filter, haccepts]
  rw [relabelledTypes, hretyped]
  rcases hkind with hkind | hkind
  · simp [accountFilter, AccountFilter.selects, hkind, haccepts]
  · by_cases hmem : t.contract ∈ a.types
    · simp [accountFilter, AccountFilter.selects, AccountState.hasInterface, hkind, hmem]
    · rw [filter_ne_eq_self hmem]
      simp

/-- The labels that the task leaves are those of a fetch exactly where it makes no difference. -/
theorem relabelledTypes_eq_determined (hi : i ∈ r.interfaces) (hnames : (r.interfaces.map (·.name)).Nodup)
    (hothers : UpToDateBut r t.contract a) :
    relabelledTypes t (some i) a = r.determined a ↔ Unaffected r i t a := by
  unfold Unaffected
  split
  · rename_i haccepts
    rw [relabelledTypes_of_accepts hname hkind haccepts, hothers, hname]
    cases hactive : a.isActive with
    | false => simp [Registry.determined, hactive]
    | true =>
      rw [Registry.determined, if_pos hactive, filter_append_singleton_eq_self (nodup_interfacesOf hnames)]
      simp
  · rename_i haccepts
    have hnot : t.contract ∉ r.determined a := fun hmem =>
      haccepts ((mem_determined hi hnames).1 (hname ▸ hmem)).2
    have hothers : (a.types.filter fun c => decide (c ≠ t.contract)) = r.determined a :=
      Eq.trans hothers (filter_ne_eq_self hnot)
    rw [relabelledTypes_of_not_accepts hkind haccepts, hname]
    split
    · rename_i hnew
      constructor
      · exact fun hsame _ hmem => hnot (hsame ▸ hmem)
      · exact fun hfresh => (filter_ne_eq_self (hfresh hnew)).symm.trans hothers
    · rename_i hchanged
      exact iff_of_true hothers fun hnew => absurd hnew hchanged

end

/-! ## Finished tasks -/

section

variable {batch : UInt32} {s₀ : Store} {t₀ : RescanTask} {first last : UInt32} {w : Context Registry}
  {es : List Entry}

/-- A task for a new or changed interface is finished. Where the other labels of a snapshot of the history were
up to date, its labels are those that a fetch determines now, except for the snapshots that the interface accepts
though the account is not active or though an interface was registered later that accepts it as well, and,
with a new interface, for those that have had the label although the interface does not accept them. -/
theorem Course.account_labels (hp : Pending s₀ t₀ first last)
    (hkind : t₀.kind = .addInterface ∨ t₀.kind = .updInterface)
    (hi : s₀.interface? t₀.contract = some i) (hregistered : i ∈ r.interfaces)
    (hnames : (r.interfaces.map (·.name)).Nodup)
    (h : Course registry (Canned r) batch s₀ t₀ w es) (ht : w.store.task? t₀.id = some t)
    (hfinished : t.finished = true) :
    List.Forall₂ (fun a b => b.chain = a.chain ∧
      (first ≤ a.masterSeqno → a.masterSeqno ≤ last → UpToDateBut r t₀.contract a →
        (b.types = r.determined b ↔ Unaffected r i t₀ a))) s₀.accounts w.store.accounts := by
  have hname : i.name = t₀.contract := by
    simpa using List.find?_some hi
  have hinterface : interfaceOf s₀ t₀ = .ok (some i) := by
    unfold interfaceOf
    rcases hkind with hkind | hkind <;> rw [hkind] <;> simp [hi]
  refine (h.relabels (registry_determined r) hp (hkind.imp_right .inl) hinterface ht hfinished).imp ?_
  rintro a b ⟨hchain, htypes⟩
  refine ⟨hchain, fun hfirst hlast hothers => ?_⟩
  rw [htypes hfirst hlast, determined_of_chain r hchain]
  exact relabelledTypes_eq_determined hname hkind hregistered hnames hothers

end

/-! ## A sample -/

namespace Sample

/-- An item that is frozen, and one that goes by its address as well. -/
def frozenItem : AccountState :=
  { mintedItem with status := .frozen }

def royaltyItem : AccountState :=
  { mintedItem with address := ⟨0, 3⟩, types := ["nft_item", "royalty"] }

def royaltyRegistry : Registry where
  interfaces := [itemInterface, { name := "royalty", addresses := [royaltyItem.address] }]

def royaltyStore : Store :=
  { mintedStore with accounts := [minter, frozenItem, royaltyItem] }

def royaltyStop : Context Registry × List Entry :=
  next (next ({ mintedStart with store := royaltyStore, parser := royaltyRegistry }, []))

theorem pending_royaltyStore : Pending royaltyStore interfaceTask 5 6 where
  keyed := ⟨by decide +kernel, by decide +kernel, by decide +kernel⟩
  task := rfl
  firstMaster := by decide +kernel
  lastMaster := by decide +kernel
  fresh := ⟨rfl, fun p _ => by cases p <;> rfl, fun p _ => by cases p <;> rfl⟩

theorem course_royaltyStop :
    Course registry (Canned royaltyRegistry) 2 royaltyStore interfaceTask royaltyStop.1 royaltyStop.2 := by
  have hstart : Course registry (Canned royaltyRegistry) 2 royaltyStore interfaceTask
      { mintedStart with store := royaltyStore, parser := royaltyRegistry } [] :=
    .start rfl ⟨fun _ h => h, fun _ _ h => h⟩ rfl ⟨rfl, rfl, rfl, rfl⟩
  have haccounts := hstart.step (t := interfaceTask) (by decide +kernel) rfl
  exact haccounts.step (t := { interfaceTask with
    accountsMaster := some 6, accountsDone := true }) (by cbv) rfl

theorem finished_royaltyStop :
    ∃ t, royaltyStop.1.store.task? interfaceTask.id = some t ∧ t.finished = true :=
  ⟨{ interfaceTask with
    accountsMaster := some 6, accountsDone := true, messagesMaster := some 6, messagesDone := true
    finished := true }, by cbv, rfl⟩

end Sample

/-- The task puts the label of the minter right, and so it does by the theorem. -/
theorem Course.account_labels_sample :
    Pending Sample.royaltyStore Sample.interfaceTask 5 6 ∧
      Sample.royaltyStore.interface? Sample.interfaceTask.contract = some Sample.itemInterface ∧
      Sample.itemInterface ∈ Sample.royaltyRegistry.interfaces ∧
      (Sample.royaltyRegistry.interfaces.map (·.name)).Nodup ∧
      Course registry (Canned Sample.royaltyRegistry) 2 Sample.royaltyStore Sample.interfaceTask
        Sample.royaltyStop.1 Sample.royaltyStop.2 ∧
      (∃ t, Sample.royaltyStop.1.store.task? Sample.interfaceTask.id = some t ∧ t.finished = true) ∧
      ∃ b ∈ Sample.royaltyStop.1.store.accounts, b.chain = Sample.minter.chain ∧
        b.types = Sample.royaltyRegistry.determined b := by
  have hi : Sample.royaltyStore.interface? Sample.interfaceTask.contract = some Sample.itemInterface := by
    decide +kernel
  have hregistered : Sample.itemInterface ∈ Sample.royaltyRegistry.interfaces := by decide +kernel
  have hnames : (Sample.royaltyRegistry.interfaces.map (·.name)).Nodup := by decide +kernel
  obtain ⟨t, ht, hfinished⟩ := Sample.finished_royaltyStop
  have hlabels := Course.account_labels Sample.pending_royaltyStore (.inl rfl) hi hregistered hnames
    Sample.course_royaltyStop ht hfinished
  obtain ⟨b, rest, ⟨hchain, hiff⟩, -, hstop⟩ := List.forall₂_cons_left_iff.1 hlabels
  refine ⟨Sample.pending_royaltyStore, hi, hregistered, hnames, Sample.course_royaltyStop,
    ⟨t, ht, hfinished⟩, b, hstop ▸ List.mem_cons_self, hchain, ?_⟩
  refine (hiff (by decide) (by decide) ?_).2 ?_
  · unfold UpToDateBut
    decide +kernel
  · have haccepts : Sample.itemInterface.accepts Sample.minter = true := by decide +kernel
    rw [Unaffected, if_pos haccepts]
    decide +kernel

/-- The other labels of all three snapshots are up to date. Once the task is finished, the frozen item has a
label, and the royalty item has its labels in another order than a fetch puts them. -/
theorem Course.account_labels_differ :
    Pending Sample.royaltyStore Sample.interfaceTask 5 6 ∧
      Sample.royaltyStore.interface? Sample.interfaceTask.contract = some Sample.itemInterface ∧
      Sample.itemInterface ∈ Sample.royaltyRegistry.interfaces ∧
      (Sample.royaltyRegistry.interfaces.map (·.name)).Nodup ∧
      Course registry (Canned Sample.royaltyRegistry) 2 Sample.royaltyStore Sample.interfaceTask
        Sample.royaltyStop.1 Sample.royaltyStop.2 ∧
      (∃ t, Sample.royaltyStop.1.store.task? Sample.interfaceTask.id = some t ∧ t.finished = true) ∧
      (∀ a ∈ Sample.royaltyStore.accounts, 5 ≤ a.masterSeqno ∧ a.masterSeqno ≤ 6 ∧
        UpToDateBut Sample.royaltyRegistry Sample.interfaceTask.contract a) ∧
      Sample.royaltyStop.1.store.accounts.map (·.types) =
        [["nft_item"], ["nft_item"], ["royalty", "nft_item"]] ∧
      Sample.royaltyStop.1.store.accounts.map Sample.royaltyRegistry.determined =
        [["nft_item"], [], ["nft_item", "royalty"]] := by
  refine ⟨Sample.pending_royaltyStore, by decide +kernel, by decide +kernel, by decide +kernel,
    Sample.course_royaltyStop, Sample.finished_royaltyStop, ?_, by cbv, by cbv⟩
  unfold UpToDateBut
  decide +kernel

end Rescan

end ShardIndex
