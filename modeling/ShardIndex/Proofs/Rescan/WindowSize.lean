import Mathlib
import ShardIndex.Proofs.Rescan.Course
/-!
# Interface tasks and the size of windows

An interface task rewrites labels, and reading an account may look labels up. Whether such a lookup finds
an account before or after it was rewritten depends on the windows, and it shows
(`window_size_shows`): an item is a fake if its minter is found without labels.

This is all that shows. The task leaves the same labels in any case (`retyped`), so messages come out the
same, and of a snapshot nothing but the flag `fake` can differ. The flag differs only if a canned result
names a minter whose snapshot is rewritten from having no labels to having some or the other way around,
in an earlier master block (`Swayed`). Runs with any two sizes come to an end and agree in everything else
(`window_size`).
-/
namespace ShardIndex

/-- Findings without the flag. -/
def AccountData.unfaked (d : AccountData) : AccountData :=
  { d with fake := false }

/-- The snapshot without the flag. -/
def AccountState.unfaked (s : AccountState) : AccountState :=
  { s with fake := false }

/-- No answer is a fault. -/
structure Answers.Faultless (answers : Answers) : Prop where
  readAccount : ∀ s types labels fault, answers.readAccount s types labels ≠ .error (.other fault)
  callMethod : ∀ s contract method labels fault,
    answers.callMethod s contract method labels ≠ .error (.other fault)
  readPayload : ∀ m fault, answers.readPayload m ≠ .error (.other fault)

namespace Rescan

/-! ## Faults -/

theorem cannedMethod_ne_other (r : Registry) (s : AccountState) (contract : ContractName)
    (method : String) (labels : Labels) (fault : Fault) :
    cannedMethod r s contract method labels ≠ .error (.other fault) := by
  unfold cannedMethod
  split <;> simp

theorem cannedAnswers_faultless (r : Registry) : (cannedAnswers r).Faultless where
  readAccount s types labels fault := by
    unfold cannedAnswers
    dsimp only
    split <;> simp
  callMethod s contract method labels fault := cannedMethod_ne_other r s contract method labels fault
  readPayload m fault := by
    unfold cannedAnswers Registry.decode
    dsimp only
    split
    · simp
    · split <;> simp

theorem absorbAccount_ok (s : AccountState) {outcome : Except ParseFault AccountData}
    (h : ∀ fault, outcome ≠ .error (.other fault)) : ∃ b, s.absorb outcome = .ok b := by
  match outcome, h with
  | .ok data, _ => exact ⟨_, rfl⟩
  | .error .notAvailable, _ => exact ⟨_, rfl⟩
  | .error (.impossible reason), _ => exact ⟨_, rfl⟩
  | .error (.other fault), h => exact absurd rfl (h fault)

theorem absorbMessage_ok (m : Message) {outcome : Except ParseFault Decoded}
    (h : ∀ fault, outcome ≠ .error (.other fault)) : ∃ b, m.absorb outcome = .ok b := by
  match outcome, h with
  | .ok data, _ => exact ⟨_, rfl⟩
  | .error .notAvailable, _ => exact ⟨_, rfl⟩
  | .error (.impossible reason), _ => exact ⟨_, rfl⟩
  | .error (.other fault), h => exact absurd rfl (h fault)

theorem exists_changedRows {ρ : Type} [DecidableEq ρ] {image : ρ → Except Fault ρ}
    (h : ∀ r, ∃ b, image r = .ok b) : ∀ rows : List ρ, ∃ out, changedRows image rows = .ok out
  | [] => ⟨[], rfl⟩
  | r :: rows => by
    obtain ⟨b, hb⟩ := h r
    obtain ⟨out, hout⟩ := exists_changedRows h rows
    exact ⟨_, by rw [changedRows, hb, hout]; rfl⟩

/-- The task is about an interface. -/
def InterfaceKind (kind : RescanKind) : Prop :=
  kind = .addInterface ∨ kind = .updInterface ∨ kind = .delInterface

variable {answers : Answers} {t : RescanTask}

/-- An interface task reads again what its interface accepts, and forgets the label of everything else. -/
theorem accountImage_of_interfaceKind (hkind : InterfaceKind t.kind) {s : Store}
    {i : Option ContractInterface} (hi : interfaceOf s t = .ok i) (answers : Answers) (labels : Labels)
    (a : AccountState) :
    accountImage answers labels t i a = match i.filter (·.accepts a) with
      | some i => interfaceImage answers labels i a
      | none => .ok (a.clearContract t.contract []) := by
  unfold accountImage
  unfold interfaceOf at hi
  rcases hkind with hkind | hkind | hkind
  · cases i.filter (·.accepts a) <;> simp [hkind]
  · cases i.filter (·.accepts a) <;> simp [hkind]
  · rw [hkind] at hi
    obtain rfl := Except.ok.inj hi
    simp [hkind]

/-- With the interface defined and a parser that does not fail, every plan of an interface task has an
image. -/
theorem exists_planImage (hanswers : answers.Faultless) (hkind : InterfaceKind t.kind) {s : Store}
    (hdefined : t.kind ≠ .delInterface → (s.interface? t.contract).isSome) (pl : Plan) :
    ∃ rows, planImage answers s t pl = .ok rows := by
  have hinterface : ∃ i, interfaceOf s t = .ok i := by
    unfold interfaceOf
    rcases hkind with hkind | hkind | hkind
    · obtain ⟨i, hi⟩ := Option.isSome_iff_exists.1 (hdefined (by simp [hkind]))
      exact ⟨some i, by simp [hkind, hi]⟩
    · obtain ⟨i, hi⟩ := Option.isSome_iff_exists.1 (hdefined (by simp [hkind]))
      exact ⟨some i, by simp [hkind, hi]⟩
    · exact ⟨none, by simp [hkind]⟩
  have haccount : ∀ i, interfaceOf s t = .ok i → ∀ a, ∃ b, accountImage answers s.labels t i a = .ok b := by
    intro i hi a
    rw [accountImage_of_interfaceKind hkind hi]
    cases i.filter (·.accepts a) with
    | some i => exact absorbAccount_ok _ (hanswers.readAccount _ _ _)
    | none => exact ⟨_, rfl⟩
  have hmessage : ∀ m, ∃ m', messageImage answers s.labels t m = .ok m' := by
    intro m
    have hrelabel : ∃ m', relabelImage answers s.labels t.contract m = .ok m' := by
      unfold relabelImage
      dsimp only
      split
      · exact ⟨_, rfl⟩
      · exact absorbMessage_ok _ (hanswers.readPayload _)
    unfold messageImage
    rcases hkind with hkind | hkind | hkind <;> rw [hkind] <;> exact hrelabel
  have hfilter : messageFilter s t = .ok {} := by
    unfold messageFilter
    rcases hkind with hkind | hkind | hkind <;> rw [hkind]
  match pl with
  | .accounts (some (start, stop)) =>
    obtain ⟨i, hi⟩ := hinterface
    obtain ⟨rows, hrows⟩ := exists_changedRows (haccount i hi)
      (s.statesInRange (accountFilter t i) start stop)
    refine ⟨(rows, []), ?_⟩
    rw [planImage, accountsImage, hi]
    change (changedRows _ _ >>= _) = _
    rw [hrows]
    rfl
  | .messages (some (start, stop)) =>
    obtain ⟨rows, hrows⟩ := exists_changedRows hmessage (s.messagesInRange {} start stop)
    refine ⟨([], rows), ?_⟩
    rw [planImage, messagesImage, hfilter]
    change (changedRows _ _ >>= _) = _
    rw [hrows]
    rfl
  | .accounts none => exact ⟨_, rfl⟩
  | .messages none => exact ⟨_, rfl⟩
  | .nothing => exact ⟨_, rfl⟩

/-! ## Runs to the end -/

section

variable {σ : Type} {parser : Parser (RescanM σ)} {P : σ → Prop} {faults : Prop}
  {visible : AccountState → Labels → Prop} {batch : UInt32} {s₀ : Store} {t₀ : RescanTask}
  {first last : UInt32}

theorem exec_steps_succ (n : Nat) (w : Context σ) :
    exec (steps parser batch (n + 1)) w =
      match exec (step parser batch).run w with
      | (.error fault, v) => (([], some fault), v)
      | (.ok none, v) => (([], none), v)
      | (.ok (some t), v) =>
        if t.finished then (([t], none), v)
        else ((t :: (exec (steps parser batch n) v).1.1, (exec (steps parser batch n) v).1.2),
          (exec (steps parser batch n) v).2) := by
  rw [steps, exec_bind]
  rcases exec (step parser batch).run w with ⟨fault | _ | t, v⟩
  · rfl
  · rfl
  · dsimp only
    split <;> rfl

/-- If nothing fails, enough steps finish the task. -/
theorem Reached.steps (hd : Determined parser P answers faults) (hp : Pending s₀ t₀ first last)
    (hvisible : ∀ (s : Store) (stop : Nat) (a : AccountState),
      AccountsReworked answers visible s₀ t₀ first.toNat stop s.accounts →
        stop ≤ a.masterSeqno.toNat → visible a s.labels)
    (hfaults : ¬ faults) : ∀ (n : Nat) {w : Context σ} {es : List Entry} {t : RescanTask},
      Reached P answers visible batch s₀ t₀ first last w es t → t.finished = false →
      w.store.refusals = 0 →
      (∀ s : Store, s.interfaces = w.store.interfaces → ∀ t' : RescanTask, t'.subject = t₀.subject →
        ∀ pl, ∃ rows, planImage answers s t' pl = .ok rows) →
      Phase.count t₀.kind * ((last.toNat + 1 - first.toNat) ⌈/⌉ width batch) ≤ es.length + n →
      (exec (Rescan.steps parser batch n) w).1.2 = none ∧ ∃ es' t', t'.finished = true ∧
        Reached P answers visible batch s₀ t₀ first last (exec (Rescan.steps parser batch n) w).2 es' t'
  | 0, w, es, t, h, hunfinished, _, _, hn => by
    have hle := hp.le
    have hshare := h.progress.finished_iff (n := last.toNat + 1 - first.toNat) (by omega)
      fun e he => by rw [h.last e he]; omega
    rw [h.kind_eq] at hshare
    have hfinished := hshare.1.2 (by omega)
    simp [hunfinished] at hfinished
  | n + 1, w, es, t, h, hunfinished, hrefusals, himages, hn => by
    rw [exec_steps_succ]
    rcases h.step hd hp (fun a => hvisible _ _ a h.accounts) hunfinished with
      ⟨t', e, accounts, messages, hr, hstore, -, hnext⟩ | ⟨fault, -, -, hwhy⟩
    · rcases hexec : exec (Rescan.step parser batch).run w with ⟨r, v⟩
      rw [hexec] at hr hstore hnext
      obtain rfl : r = .ok (some t') := hr
      rw [committed_writes] at hstore
      dsimp only at hstore hnext ⊢
      cases hfinished : t'.finished with
      | true => exact ⟨rfl, _, t', hfinished, hnext⟩
      | false =>
        refine Reached.steps hd hp hvisible hfaults n hnext hfinished ?_ ?_ ?_
        · rw [hstore]
        · rw [hstore]
          exact himages
        · rw [List.length_append, List.length_singleton]
          omega
    · obtain ⟨rows, hrows⟩ := himages w.store rfl (skipPhases t) h.subject
        (plan batch (skipPhases t) first last)
      rcases hwhy with hwhy | hwhy | hwhy
      · exact absurd hwhy hfaults
      · exact absurd hrefusals hwhy
      · rw [hrows] at hwhy
        cases hwhy

end

/-! ## Labels that an interface task leaves -/

/-- The labels of a snapshot once the task has rewritten it. -/
def retyped (t : RescanTask) (interface : Option ContractInterface) (a : AccountState) :
    List ContractName :=
  match interface.filter (·.accepts a) with
  | some i => a.types.filter (fun c => decide (c ≠ i.name)) ++ [i.name]
  | none => a.types.filter fun c => decide (c ≠ t.contract)

variable {labels labels' : Labels}

theorem types_of_interfaceImage {i : ContractInterface} {a b : AccountState}
    (h : interfaceImage answers labels i a = .ok b) :
    b.types = a.types.filter (fun c => decide (c ≠ i.name)) ++ [i.name] := by
  have hfresh : (a.clearContract i.name i.methods).hasInterface i.name = false := by
    simp [AccountState.hasInterface, AccountState.types_clearContract]
  rw [(AccountState.of_absorb h).2, AccountState.addInterface, hfresh]
  simp [AccountState.types_clearContract]

/-- What labels a snapshot gets does not depend on what is looked up. -/
theorem types_eq_retyped (hkind : InterfaceKind t.kind) {s : Store} {i : Option ContractInterface}
    (hi : interfaceOf s t = .ok i) {a b : AccountState}
    (h : accountImage answers labels t i a = .ok b) : b.types = retyped t i a := by
  rw [accountImage_of_interfaceKind hkind hi] at h
  unfold retyped
  cases hf : i.filter (·.accepts a) with
  | some j =>
    rw [hf] at h
    exact types_of_interfaceImage h
  | none =>
    rw [hf] at h
    obtain rfl := Except.ok.inj h
    exact a.types_clearContract _ _

/-! ## What lookups may find -/

/-- The snapshot `m` belongs to an earlier master block than `a`, and the task gives it the labels
`types`. -/
def RelabelledBefore (s₀ : Store) (t : RescanTask) (first : UInt32) (a m : AccountState)
    (types : List ContractName) : Prop :=
  ∃ i, interfaceOf s₀ t = .ok i ∧ (accountFilter t i).selects m = true ∧ types = retyped t i m ∧
    first ≤ m.masterSeqno ∧ m.masterSeqno < a.masterSeqno

/-- What lookups for the snapshot `a` may find: accounts with their original labels, or with those that
the task has given them in earlier master blocks. -/
def Seen (s₀ : Store) (t : RescanTask) (first : UInt32) (a : AccountState) (labels : Labels) : Prop :=
  ∃ f : AccountState → List ContractName,
    (∀ address beforeLt, labels address beforeLt = (s₀.stateBefore address beforeLt).map f) ∧
      ∀ m ∈ s₀.accounts, f m = m.types ∨ RelabelledBefore s₀ t first a m (f m)

theorem seen_of_reworked (hkind : InterfaceKind t.kind) {s₀ s : Store} {first : UInt32} {stop : Nat}
    {a : AccountState}
    (h : AccountsReworked answers (Seen s₀ t first) s₀ t first.toNat stop s.accounts)
    (ha : stop ≤ a.masterSeqno.toNat) : Seen s₀ t first a s.labels := by
  obtain ⟨g, hs, hg⟩ := h
  have hrow : ∀ m ∈ s₀.accounts, (g m).chain = m.chain ∧
      ((g m).types = m.types ∨ RelabelledBefore s₀ t first a m (g m).types) := by
    intro m hm
    by_cases hcovered : Between accountHeight first.toNat stop m ∧ SelectsAccount s₀ t m
    · obtain ⟨i, labels, hi, -, himage⟩ := (hg m hm).covered hcovered.1 hcovered.2
      obtain ⟨n, hn, hge, hlt⟩ := hcovered.1
      obtain rfl := Option.some.inj hn
      obtain ⟨j, hj, hselects⟩ := hcovered.2
      rw [hi] at hj
      obtain rfl := Except.ok.inj hj
      exact ⟨chain_of_accountImage himage, .inr ⟨i, hi, hselects, types_eq_retyped hkind hi himage,
        UInt32.le_iff_toNat_le.2 hge, UInt32.lt_iff_toNat_lt.2 (by omega)⟩⟩
    · rw [(hg m hm).other hcovered]
      exact ⟨rfl, .inl rfl⟩
  exact ⟨fun m => (g m).types, fun address beforeLt =>
    Store.labels_map hs (fun m hm => (hrow m hm).1) address beforeLt, fun m hm => (hrow m hm).2⟩

/-! ## Findings that agree but for the flag -/

section

variable {r : Registry} {s : AccountState}

theorem unfaked_add (d e : AccountData) : (d.add e).unfaked = (d.unfaked.add e.unfaked).unfaked := rfl

theorem unfaked_applyData (s : AccountState) (d : AccountData) :
    (s.applyData d).unfaked = (s.applyData d.unfaked).unfaked := rfl

/-- Whatever labels are looked up, findings agree but for the flag. -/
theorem unfaked_cannedMethods : ∀ (calls : List (ContractName × String)) {found found' : Option AccountData},
    found.map (·.unfaked) = found'.map (·.unfaked) →
      (cannedMethods r s labels calls found).map (·.unfaked) =
        (cannedMethods r s labels' calls found').map (·.unfaked)
  | [], _, _, h => h
  | (contract, method) :: calls, found, found', h => by
    rw [cannedMethods, cannedMethods, cannedMethod, cannedMethod]
    cases r.methodResults.get? (contract, method) with
    | none => exact unfaked_cannedMethods calls h
    | some data =>
      refine unfaked_cannedMethods calls (congrArg some ?_)
      have hbefore : (found.getD {}).unfaked = (found'.getD {}).unfaked := by
        cases found <;> cases found' <;> simp_all
      dsimp only
      rw [unfaked_add, hbefore, unfaked_add (found'.getD {})]
      rfl

theorem cannedMethods_congr : ∀ (calls : List (ContractName × String)) (found : Option AccountData),
    (∀ call ∈ calls, cannedMethod r s call.1 call.2 labels = cannedMethod r s call.1 call.2 labels') →
      cannedMethods r s labels calls found = cannedMethods r s labels' calls found
  | [], _, _ => rfl
  | (contract, method) :: calls, found, h => by
    obtain ⟨hcall, hcalls⟩ := List.forall_mem_cons.1 h
    rw [cannedMethods, cannedMethods, hcall]
    cases cannedMethod r s contract method labels' with
    | ok data => exact cannedMethods_congr calls _ hcalls
    | error fault => exact cannedMethods_congr calls _ hcalls

theorem unfaked_interfaceImage {i : ContractInterface} {a b b' : AccountState}
    (h : interfaceImage (cannedAnswers r) labels i a = .ok b)
    (h' : interfaceImage (cannedAnswers r) labels' i a = .ok b') : b.unfaked = b'.unfaked := by
  have hfound : ∀ calls, (cannedMethods r a.chain labels calls none).map (·.unfaked) =
      (cannedMethods r a.chain labels' calls none).map (·.unfaked) :=
    fun calls => unfaked_cannedMethods calls rfl
  unfold interfaceImage cannedAnswers at h h'
  dsimp only at h h'
  have hcalls := hfound ([i.name].flatMap fun contract => (r.methodsOf contract).map (contract, ·))
  cases hd : cannedMethods r a.chain labels
      ([i.name].flatMap fun contract => (r.methodsOf contract).map (contract, ·)) none with
  | none =>
    rw [hd, Option.map_none, eq_comm, Option.map_eq_none_iff] at hcalls
    rw [hd] at h
    rw [hcalls] at h'
    obtain rfl := Except.ok.inj h
    obtain rfl := Except.ok.inj h'
    rfl
  | some d =>
    rw [hd, Option.map_some, eq_comm, Option.map_eq_some_iff] at hcalls
    obtain ⟨d', hd', hunfaked⟩ := hcalls
    rw [hd] at h
    rw [hd'] at h'
    obtain rfl := Except.ok.inj h
    obtain rfl := Except.ok.inj h'
    rw [unfaked_applyData, ← hunfaked, ← unfaked_applyData]

end

/-! ## Two runs -/

/-- The snapshot is read again, and one of the findings for it depends on whether an earlier snapshot has
labels, which the task decides: a canned result names a minter that gets its first label or loses its last one
in an earlier master block. -/
def Swayed (r : Registry) (s₀ : Store) (t : RescanTask) (first last : UInt32) (a : AccountState) :
    Prop :=
  ∃ i, interfaceOf s₀ t = .ok (some i) ∧ i.accepts a = true ∧ a.masterSeqno ≤ last ∧
    ∃ method ∈ r.methodsOf i.name, ∃ data minter m types,
      r.methodResults.get? (i.name, method) = some data ∧ data.minter = some minter ∧
        s₀.stateBefore minter a.lastTxLt = some m ∧ RelabelledBefore s₀ t first a m types ∧
          types.isEmpty ≠ m.types.isEmpty

theorem Swayed.of_chain {r : Registry} {s₀ : Store} {first last : UInt32} {a b : AccountState}
    (h : Swayed r s₀ t first last a) (hb : b.chain = a.chain) : Swayed r s₀ t first last b := by
  have hchain : Swayed r s₀ t first last a.chain := h
  rw [← hb] at hchain
  exact hchain

/-- Labels that may be found without swaying the snapshot come to the same findings. -/
theorem cannedMethod_eq {r : Registry} {s₀ : Store} {first last : UInt32} {a : AccountState}
    {i : ContractInterface} (hi : interfaceOf s₀ t = .ok (some i)) (haccepts : i.accepts a = true)
    (hlast : a.masterSeqno ≤ last) (hseen : Seen s₀ t first a labels) (hnot : ¬ Swayed r s₀ t first last a)
    {method : String} (hmethod : method ∈ r.methodsOf i.name) :
    cannedMethod r a.chain i.name method labels = cannedMethod r a.chain i.name method s₀.labels := by
  obtain ⟨f, hf, hseen⟩ := hseen
  unfold cannedMethod
  cases hdata : r.methodResults.get? (i.name, method) with
  | none => rfl
  | some data =>
    cases hminter : data.minter with
    | none => simp only [hminter]
    | some minter =>
      have hsame : (labels minter a.chain.lastTxLt).all List.isEmpty =
          (s₀.labels minter a.chain.lastTxLt).all List.isEmpty := by
        rw [hf, Store.labels]
        cases hfound : s₀.stateBefore minter a.chain.lastTxLt with
        | none => rfl
        | some m =>
          rcases hseen m (Store.mem_of_stateBefore hfound).1 with htypes | hrelabelled
          · simp [htypes]
          · by_contra hne
            refine hnot ⟨i, hi, haccepts, hlast, method, hmethod, data, minter, m, f m, hdata, hminter, hfound,
              hrelabelled, ?_⟩
            simpa using hne
      simp only [hminter, hsame]

/-- Two images of a snapshot agree but for the flag, and in the flag unless the snapshot is swayed. -/
theorem alike_of_images {r : Registry} {s₀ : Store} {first last : UInt32} (hkind : InterfaceKind t.kind)
    {a b b' : AccountState} (hlast : a.masterSeqno ≤ last)
    (h : ImagesAccount (cannedAnswers r) (Seen s₀ t first) s₀ t a b)
    (h' : ImagesAccount (cannedAnswers r) (Seen s₀ t first) s₀ t a b') :
    b.unfaked = b'.unfaked ∧ (b.fake ≠ b'.fake → Swayed r s₀ t first last b) := by
  obtain ⟨i, labels, hi, hseen, himage⟩ := h
  obtain ⟨i', labels', hi', hseen', himage'⟩ := h'
  rw [hi] at hi'
  obtain rfl := Except.ok.inj hi'
  have hchain := chain_of_accountImage himage
  rw [accountImage_of_interfaceKind hkind hi] at himage himage'
  cases hf : i.filter (·.accepts a) with
  | none =>
    rw [hf] at himage himage'
    obtain rfl := Except.ok.inj himage
    obtain rfl := Except.ok.inj himage'
    exact ⟨rfl, fun hne => absurd rfl hne⟩
  | some j =>
    obtain ⟨rfl, haccepts⟩ := Option.filter_eq_some_iff.1 hf
    rw [hf] at himage himage'
    dsimp only at himage himage'
    refine ⟨unfaked_interfaceImage himage himage', fun hne => ?_⟩
    by_contra hnot
    have hnot' : ¬ Swayed r s₀ t first last a := fun hswayed => hnot (hswayed.of_chain hchain)
    have hcalls : cannedMethods r a.chain labels
          ([j.name].flatMap fun contract => (r.methodsOf contract).map (contract, ·)) none =
        cannedMethods r a.chain labels'
          ([j.name].flatMap fun contract => (r.methodsOf contract).map (contract, ·)) none := by
      refine cannedMethods_congr _ _ fun call hcall => ?_
      obtain ⟨method, hmethod, rfl⟩ : ∃ method ∈ r.methodsOf j.name, (j.name, method) = call := by
        simpa using hcall
      exact (cannedMethod_eq hi haccepts hlast hseen hnot' hmethod).trans
        (cannedMethod_eq hi haccepts hlast hseen' hnot' hmethod).symm
    have hread : interfaceImage (cannedAnswers r) labels j a =
        interfaceImage (cannedAnswers r) labels' j a := by
      unfold interfaceImage cannedAnswers
      dsimp only
      rw [hcalls]
    rw [himage, himage'] at hread
    exact hne (congrArg AccountState.fake (Except.ok.inj hread))

/-- The labels in the end are the same. -/
theorem labels_eq_of_reworked (hkind : InterfaceKind t.kind) {s₀ s s' : Store}
    {visible : AccountState → Labels → Prop} {first stop : Nat}
    (h : AccountsReworked answers visible s₀ t first stop s.accounts)
    (h' : AccountsReworked answers visible s₀ t first stop s'.accounts) : s.labels = s'.labels := by
  obtain ⟨g, hs, hg⟩ := h
  obtain ⟨g', hs', hg'⟩ := h'
  have himages : ∀ a b b', ImagesAccount answers visible s₀ t a b →
      ImagesAccount answers visible s₀ t a b' → b.types = b'.types := by
    rintro a b b' ⟨i, labels, hi, -, himage⟩ ⟨i', labels', hi', -, himage'⟩
    rw [hi] at hi'
    obtain rfl := Except.ok.inj hi'
    rw [types_eq_retyped hkind hi himage, types_eq_retyped hkind hi himage']
  have hchain : ∀ {g : AccountState → AccountState}, (∀ r ∈ s₀.accounts, Rewritten accountHeight
      (SelectsAccount s₀ t) (ImagesAccount answers visible s₀ t) first stop r (g r)) →
      ∀ a ∈ s₀.accounts, (g a).chain = a.chain := by
    intro g hg a ha
    by_cases hcovered : Between accountHeight first stop a ∧ SelectsAccount s₀ t a
    · obtain ⟨i, labels, -, -, himage⟩ := (hg a ha).covered hcovered.1 hcovered.2
      exact chain_of_accountImage himage
    · rw [(hg a ha).other hcovered]
  funext address beforeLt
  rw [Store.labels_map hs (hchain hg), Store.labels_map hs' (hchain hg')]
  cases hfound : s₀.stateBefore address beforeLt with
  | none => rfl
  | some a =>
    have ha := (Store.mem_of_stateBefore hfound).1
    refine congrArg some ?_
    dsimp only
    by_cases hcovered : Between accountHeight first stop a ∧ SelectsAccount s₀ t a
    · exact himages a _ _ ((hg a ha).covered hcovered.1 hcovered.2)
        ((hg' a ha).covered hcovered.1 hcovered.2)
    · rw [(hg a ha).other hcovered, (hg' a ha).other hcovered]

/-- A run over the store `s₀` begins: the registry has no script, and no window is kept yet. -/
structure Begins (r : Registry) (s₀ : Store) (w : Context Registry) : Prop where
  store : w.store = s₀
  windows : ∃ depth, w.snapshots = .empty depth
  parser : w.parser = r
  script : r.script = []

/-- Steps with the window size `batch` bring the task `k` to its end, and no step fails. -/
def Completes (batch : UInt32) (n k : Nat) (w v : Context Registry) : Prop :=
  (exec (steps registry batch n) w).1.2 = none ∧ (exec (steps registry batch n) w).2 = v ∧
    ∃ t, v.store.task? k = some t ∧ t.finished = true

section

variable {r : Registry} {s₀ : Store} {t₀ : RescanTask} {first last : UInt32} {w w' : Context Registry}

theorem Begins.completes (hw : Begins r s₀ w) (hp : Pending s₀ t₀ first last)
    (hkind : InterfaceKind t₀.kind)
    (hdefined : t₀.kind ≠ .delInterface → (s₀.interface? t₀.contract).isSome) (hrefusals : s₀.refusals = 0)
    (batch : UInt32) {n : Nat} (hn : 2 * (last.toNat + 1 - first.toNat) ≤ n) :
    ∃ v es t, Completes batch n t₀.id w v ∧ t.finished = true ∧
      Reached (Canned r) (cannedAnswers r) (Seen s₀ t₀ first) batch s₀ t₀ first last v es t := by
  obtain ⟨depth, hwindows⟩ := hw.windows
  have hstart : Reached (Canned r) (cannedAnswers r) (Seen s₀ t₀ first) batch s₀ t₀ first last w []
      t₀ := by
    refine .start hp ?_ ?_ hwindows ?_
    · rw [hw.store]
      rfl
    · rw [hw.store]
      exact ⟨fun _ h => h, fun _ _ h => h⟩
    · rw [hw.parser]
      exact ⟨rfl, rfl, rfl, hw.script⟩
  have himages : ∀ s : Store, s.interfaces = w.store.interfaces → ∀ t' : RescanTask,
      t'.subject = t₀.subject → ∀ pl, ∃ rows, planImage (cannedAnswers r) s t' pl = .ok rows := by
    intro s hs t' ht' pl
    have hkind' : t'.kind = t₀.kind := (congrArg RescanTask.kind ht' :)
    have hcontract : t'.contract = t₀.contract := (congrArg RescanTask.contract ht' :)
    refine exists_planImage (cannedAnswers_faultless r) (hkind' ▸ hkind) (fun hne => ?_) pl
    rw [hkind'] at hne
    rw [Store.interface?, hs, hw.store, hcontract]
    exact hdefined hne
  have hcount : Phase.count t₀.kind * ((last.toNat + 1 - first.toNat) ⌈/⌉ width batch) ≤
      ([] : List Entry).length + n := by
    have hceil : (last.toNat + 1 - first.toNat) ⌈/⌉ width batch ≤ last.toNat + 1 - first.toNat := by
      rw [ceilDiv_le_iff_le_mul (one_le_width batch)]
      exact Nat.le_mul_of_pos_left _ (one_le_width batch)
    have htwo : Phase.count t₀.kind = 2 := by
      rcases hkind with hkind | hkind | hkind <;> rw [hkind] <;> rfl
    rw [htwo, List.length_nil, Nat.zero_add]
    exact Nat.le_trans (Nat.mul_le_mul_left 2 hceil) hn
  obtain ⟨hnone, es, t, hfinished, hreached⟩ := hstart.steps (registry_determined r) hp
    (fun s stop a => seen_of_reworked hkind) not_false n hp.fresh.finished (by rw [hw.store, hrefusals])
    himages hcount
  exact ⟨_, es, t, ⟨hnone, rfl, t, hreached.task?_eq hp, hfinished⟩, hfinished, hreached⟩

/-- Two runs of an interface task with windows of any two sizes come to an end. They leave the same messages,
and snapshots that agree in everything but the flag `fake`, and in the flag unless the snapshot is swayed. -/
theorem window_size (hw : Begins r s₀ w) (hw' : Begins r s₀ w') (hp : Pending s₀ t₀ first last)
    (hkind : InterfaceKind t₀.kind)
    (hdefined : t₀.kind ≠ .delInterface → (s₀.interface? t₀.contract).isSome) (hrefusals : s₀.refusals = 0)
    (batch batch' : UInt32) {n n' : Nat} (hn : 2 * (last.toNat + 1 - first.toNat) ≤ n)
    (hn' : 2 * (last.toNat + 1 - first.toNat) ≤ n') :
    ∃ v v', Completes batch n t₀.id w v ∧ Completes batch' n' t₀.id w' v' ∧
      v.store.messages = v'.store.messages ∧
      List.Forall₂ (fun b b' => b.unfaked = b'.unfaked ∧
        (b.fake ≠ b'.fake → Swayed r s₀ t₀ first last b)) v.store.accounts v'.store.accounts := by
  obtain ⟨v, es, t, hcompletes, hfinished, h⟩ := hw.completes hp hkind hdefined hrefusals batch hn
  obtain ⟨v', es', t', hcompletes', hfinished', h'⟩ := hw'.completes hp hkind hdefined hrefusals batch' hn'
  have hphase : ∀ p : Phase, p.required t₀.kind = true := by
    intro p
    rcases hkind with hkind | hkind | hkind <;> rw [hkind] <;> cases p <;> rfl
  have haccounts := h.accounts
  have haccounts' := h'.accounts
  have hmessages := h.messages
  have hmessages' := h'.messages
  rw [h.reach_of_finished hfinished _ (hphase _)] at haccounts hmessages
  rw [h'.reach_of_finished hfinished' _ (hphase _)] at haccounts' hmessages'
  rw [← labels_eq_of_reworked hkind haccounts haccounts'] at hmessages'
  refine ⟨v, v', hcompletes, hcompletes', ?_, ?_⟩
  · rw [← List.forall₂_eq_eq_eq]
    refine hmessages.forall₂ hmessages' (fun _ => rfl) fun m b b' _ hb hb' => ?_
    rw [hb] at hb'
    exact Except.ok.inj hb'
  · refine haccounts.forall₂ haccounts' (fun _ => ⟨rfl, fun hne => absurd rfl hne⟩)
      fun a b b' hbetween hb hb' => ?_
    obtain ⟨m, hm, -, hlast⟩ := between_iff.1 hbetween
    obtain rfl := Option.some.inj hm
    exact alike_of_images hkind hlast hb hb'

end

/-! ## Samples -/

namespace Sample

def itemHash : Hash := 12

/-- A minter without labels in the first master block, and an item in the next. Both are accepted. -/
def minter : AccountState :=
  { wallet 10 5 with types := [], codeHash := some itemHash }

def mintedItem : AccountState :=
  { wallet 20 6 with address := ⟨0, 2⟩, types := [], codeHash := some itemHash }

def interfaceTask : RescanTask where
  id := 1
  kind := .addInterface
  contract := "nft_item"

def itemInterface : ContractInterface where
  name := "nft_item"
  codeHash := some itemHash
  methods := ["get_nft_data"]

def itemRegistry : Registry where
  interfaces := [itemInterface]
  methodResults := [(("nft_item", "get_nft_data"), { minter := some minter.address })]

def mintedStore : Store where
  blocks := [master 5, master 6]
  accounts := [minter, mintedItem]
  tasks := [interfaceTask]
  interfaces := [itemInterface]

def mintedStart : Context Registry where
  store := mintedStore
  snapshots := .empty 4
  parser := itemRegistry
  evictions := fun _ _ => false

theorem begins_mintedStart : Begins itemRegistry mintedStore mintedStart :=
  ⟨rfl, ⟨4, rfl⟩, rfl, rfl⟩

theorem pending_interfaceTask : Pending mintedStore interfaceTask 5 6 where
  keyed := ⟨by decide +kernel, by decide +kernel, by decide +kernel⟩
  task := rfl
  firstMaster := by decide +kernel
  lastMaster := by decide +kernel
  fresh := ⟨rfl, fun p _ => by cases p <;> rfl, fun p _ => by cases p <;> rfl⟩

end Sample

/-- The two sizes leave different snapshots, and it is the item that is swayed. -/
theorem window_size_sample :
    Begins Sample.itemRegistry Sample.mintedStore Sample.mintedStart ∧
      Pending Sample.mintedStore Sample.interfaceTask 5 6 ∧
      InterfaceKind Sample.interfaceTask.kind ∧
      (Sample.mintedStore.interface? Sample.interfaceTask.contract).isSome ∧
      Sample.mintedStore.refusals = 0 ∧
      ∃ v v', Completes 1 4 Sample.interfaceTask.id Sample.mintedStart v ∧
        Completes 2 4 Sample.interfaceTask.id Sample.mintedStart v' ∧
        v.store.messages = v'.store.messages ∧
        List.Forall₂ (fun b b' => b.unfaked = b'.unfaked ∧
          (b.fake ≠ b'.fake → Swayed Sample.itemRegistry Sample.mintedStore Sample.interfaceTask 5 6 b))
          v.store.accounts v'.store.accounts := by
  have hdefined : (Sample.mintedStore.interface? Sample.interfaceTask.contract).isSome := by
    decide +kernel
  have hsteps : 2 * ((6 : UInt32).toNat + 1 - (5 : UInt32).toNat) ≤ 4 := by decide
  exact ⟨Sample.begins_mintedStart, Sample.pending_interfaceTask, .inl rfl, hdefined, rfl,
    window_size Sample.begins_mintedStart Sample.begins_mintedStart Sample.pending_interfaceTask
      (.inl rfl) (fun _ => hdefined) rfl 1 2 hsteps hsteps⟩

/-- The size of windows shows in the snapshots: with windows of one master block the item is no fake, because
its minter has got a label in the window before; with windows of two it is a fake. -/
theorem window_size_shows : ∃ v v',
    Begins Sample.itemRegistry Sample.mintedStore Sample.mintedStart ∧
      Completes 1 4 Sample.interfaceTask.id Sample.mintedStart v ∧
      Completes 2 4 Sample.interfaceTask.id Sample.mintedStart v' ∧
      v.store.accounts.map (·.fake) = [true, false] ∧ v'.store.accounts.map (·.fake) = [true, true] ∧
      v.store.accounts ≠ v'.store.accounts := by
  have hend : ∀ t : Option RescanTask, (t.map fun t => t.finished) = some true →
      ∃ r, t = some r ∧ r.finished = true := by
    rintro (_ | t) ht
    · cases ht
    · exact ⟨t, rfl, Option.some.inj ht⟩
  have hone : (exec (steps registry 1 4) Sample.mintedStart).2.store.accounts.map (·.fake) =
      [true, false] := by cbv
  have htwo : (exec (steps registry 2 4) Sample.mintedStart).2.store.accounts.map (·.fake) =
      [true, true] := by cbv
  refine ⟨_, _, Sample.begins_mintedStart, ⟨?_, rfl, hend _ ?_⟩, ⟨?_, rfl, hend _ ?_⟩, hone, htwo, ?_⟩
  · cbv
  · cbv
  · cbv
  · cbv
  · intro hsame
    rw [hsame, htwo] at hone
    simp at hone

end Rescan

end ShardIndex
