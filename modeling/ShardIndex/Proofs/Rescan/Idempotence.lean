import ShardIndex.Proofs.Account.Repeating
import ShardIndex.Proofs.Rescan.Origins
import ShardIndex.Proofs.Rescan.Pointwise
import ShardIndex.Proofs.Rescan.WindowSize
/-!
# Get-method tasks are idempotent

A get-method task that executes its method leaves snapshots that the same task maps to themselves. So a
second task of this kind, worked on over the same history, finds nothing to rewrite: each of its steps
commits the task alone, and only a refused commit can stop it (`Course.repeats_nothing`).

A row that was mapped is mapped again to itself for two reasons. The outcome is the same: what the chain
says about the row stays, and the labels that are looked up are those of the first store, which a
get-method task does not change (`labels_of_reworked`). And taking the same outcome over again changes
nothing (`AccountState.absorb_twice`), as long as each finding is of one execution of the method
(`Answers.Executes`).
-/
namespace ShardIndex

/-- What is found by calling a get-method was found by one execution of it. -/
def Answers.Executes (answers : Answers) : Prop :=
  ∀ s contract method labels d,
    answers.callMethod s contract method labels = .ok d → d.IsOf contract method

/-- The task executes a get-method again. -/
def RescanTask.ExecutesMethod (t : RescanTask) : Prop :=
  t.kind = .addMethod ∨ t.kind = .updMethod

/-- The tasks are about the same get-method. -/
structure RescanTask.SameMethod (t t' : RescanTask) : Prop where
  contract : t'.contract = t.contract
  method : t'.method = t.method

/-- The rows and the history are those of the other store. -/
structure Store.SameHistory (s s' : Store) : Prop where
  accounts : s'.accounts = s.accounts
  messages : s'.messages = s.messages
  blocks : s'.blocks = s.blocks

namespace Rescan

theorem cannedAnswers_executes (r : Registry) : (cannedAnswers r).Executes := by
  intro s contract method labels d h
  change cannedMethod r s contract method labels = .ok d at h
  unfold cannedMethod at h
  split at h
  · cases h
  · obtain rfl := Except.ok.inj h
    exact ⟨{ method := method }, rfl, rfl⟩

/-! ## One snapshot -/

section

variable {answers : Answers} {labels : Labels} {t t' : RescanTask} {a b : AccountState}

/-- Forgetting a get-method and executing it again, done twice, is done once. -/
theorem methodImage_twice (hanswers : answers.Executes) {contract : ContractName} {method : String}
    (h : methodImage answers labels contract method a = .ok b) :
    methodImage answers labels contract method b = .ok b := by
  have hchain := (of_methodImage h).1
  unfold methodImage at h ⊢
  rw [hchain]
  exact AccountState.absorb_twice (fun d hd => hanswers _ _ _ _ _ hd) h

theorem rowwiseKind_of_executesMethod (ht : t.ExecutesMethod) : RowwiseKind t.kind := by
  rcases ht with ht | ht <;> rw [ht] <;> trivial

theorem accountImage_of_executesMethod (ht : t.ExecutesMethod) (i : Option ContractInterface)
    (a : AccountState) : accountImage answers labels t i a =
      methodOf t >>= fun method => methodImage answers labels t.contract method a := by
  unfold accountImage
  rcases ht with ht | ht <;> rw [ht]

/-- What one task has made of a snapshot, another one about the same get-method leaves as it is. -/
theorem accountImage_twice (hanswers : answers.Executes) (ht : t.ExecutesMethod)
    (ht' : t'.ExecutesMethod) (hsame : t.SameMethod t') {i j : Option ContractInterface}
    (h : accountImage answers labels t i a = .ok b) : accountImage answers labels t' j b = .ok b := by
  rw [accountImage_of_executesMethod ht] at h
  obtain ⟨method, hmethod, h⟩ := exists_of_bind_eq_ok h
  have hmethod' : methodOf t' = .ok method := by
    rw [methodOf, hsame.method, methodOf_eq_ok hmethod]
  rw [accountImage_of_executesMethod ht', hmethod', hsame.contract]
  exact methodImage_twice hanswers h

theorem exists_methodImage (hanswers : answers.Faultless) (labels : Labels) (contract : ContractName)
    (method : String) (a : AccountState) : ∃ b, methodImage answers labels contract method a = .ok b :=
  absorbAccount_ok _ (hanswers.callMethod _ _ _ _)

variable {σ : Type} {parser : Parser (RescanM σ)} {P : σ → Prop} {faults : Prop}

theorem rereadMethod_ends (hd : Determined parser P answers faults) (s : Store)
    (contract : ContractName) (method : String) (a : AccountState) :
    Ends (Sound s P) (rereadMethod parser Snapshots.lookup contract method a).run
      (Comes faults (methodImage answers s.labels contract method a)) := by
  refine absorbAccount_ends _ ?_
  have h := (hd.calls_lookup s).callMethod (a.clearMethod contract method) contract method
  rwa [AccountState.chain_clearMethod] at h

end

/-! ## A store without anything to rewrite -/

section

variable {answers : Answers} {s : Store} {t t' : RescanTask} {first last : UInt32}

/-- The task leaves every snapshot that it bears on as it is. -/
def Settled (answers : Answers) (s : Store) (t : RescanTask) (first last : UInt32) : Prop :=
  ∀ a ∈ s.accounts, first ≤ a.masterSeqno → a.masterSeqno ≤ last → a.hasInterface t.contract = true →
    accountImage answers s.labels t none a = .ok a

theorem Settled.congr {s' : Store} (h : Settled answers s t first last)
    (haccounts : s'.accounts = s.accounts) (hsubject : t'.subject = t.subject) :
    Settled answers s' t' first last := by
  have himage : ∀ labels, accountImage answers labels t' none = accountImage answers labels t none :=
    fun labels => (congrArg (fun r => accountImage answers labels r none) hsubject :)
  have hcontract : t'.contract = t.contract := (congrArg RescanTask.contract hsubject :)
  intro a ha hfirst hlast hlabel
  rw [haccounts] at ha
  rw [hcontract] at hlabel
  rw [himage, labels_congr haccounts]
  exact h a ha hfirst hlast hlabel

theorem changedRows_eq_nil {ρ : Type} [DecidableEq ρ] {image : ρ → Except Fault ρ} :
    ∀ {rows : List ρ}, (∀ r ∈ rows, image r = .ok r) → changedRows image rows = .ok []
  | [], _ => rfl
  | r :: rows, h => by
    rw [changedRows, h r List.mem_cons_self,
      changedRows_eq_nil fun r' hr' => h r' (List.mem_cons_of_mem _ hr')]
    exact congrArg Except.ok (if_pos rfl)

theorem Settled.accountsImage (h : Settled answers s t first last) (ht : t.ExecutesMethod)
    {start stop : UInt32} (hfirst : first ≤ start) (hlast : stop ≤ last) :
    accountsImage answers s t start stop = .ok [] := by
  have hinterface : interfaceOf s t = .ok none := by
    unfold interfaceOf
    rcases ht with ht | ht <;> rw [ht]
  have hkept : ∀ a ∈ s.statesInRange (accountFilter t none) start stop,
      accountImage answers s.labels t none a = .ok a := by
    intro a ha
    have hpick : a ∈ s.accounts.filter (picksAccount (accountFilter t none) start stop) :=
      (List.mergeSort_perm _ _).mem_iff.1 ha
    obtain ⟨hmem, hpick⟩ := List.mem_filter.1 hpick
    obtain ⟨hbetween, hselects⟩ := (picksAccount_iff _ _ _ _).1 hpick
    obtain ⟨n, hn, hge, hle⟩ := between_iff.1 hbetween
    obtain rfl := Option.some.inj hn
    have hlabel := (selectsAccount_iff (ht.imp_right .inl) a).1
      ((selectsAccount_of_ok hinterface a).2 hselects)
    exact h a hmem (UInt32.le_trans hfirst hge) (UInt32.le_trans hle hlast) hlabel
  rw [Rescan.accountsImage, hinterface]
  exact changedRows_eq_nil hkept

/-- No plan of the task changes a row. -/
theorem Settled.planImage (h : Settled answers s t first last) (ht : t.ExecutesMethod)
    (batch : UInt32) : planImage answers s t (plan batch t first last) = .ok ([], []) := by
  have hmessage : messageImage answers s.labels t = Except.ok := by
    funext m
    unfold messageImage
    rcases ht with ht | ht <;> rw [ht]
  have hfilter : messageFilter s t = .ok {} := by
    unfold messageFilter
    rcases ht with ht | ht <;> rw [ht]
  match hpl : plan batch t first last with
  | .accounts (some (start, stop)) =>
    have hwindow : (plan batch t first last).window? = some (start, stop) := by rw [hpl]; rfl
    obtain ⟨hfirst, hlast⟩ := window_within hwindow
    rw [Rescan.planImage, h.accountsImage ht hfirst hlast]
    rfl
  | .messages (some (start, stop)) =>
    rw [Rescan.planImage, messagesImage, hfilter, hmessage]
    change (changedRows _ _ >>= _) = _
    rw [changedRows_ok]
    rfl
  | .accounts none => rfl
  | .messages none => rfl
  | .nothing => rfl

end

/-! ## The second task -/

section

variable {σ : Type} {parser : Parser (RescanM σ)} {P : σ → Prop} {answers : Answers} {faults : Prop}
  {batch : UInt32} {s₀ s₁ : Store} {t₀ t₁ t : RescanTask} {first last : UInt32} {w v : Context σ}
  {es : List Entry}

/-- What is looked up in the course of a get-method task are the original labels. -/
theorem Course.reached_original (hd : Determined parser P answers faults)
    (hp : Pending s₀ t₀ first last) (ht₀ : t₀.ExecutesMethod) (h : Course parser P batch s₀ t₀ w es) :
    ∃ t, Reached P answers (fun _ l => l = s₀.labels) batch s₀ t₀ first last w es t :=
  h.reached hd hp fun _ _ _ hs _ => labels_of_reworked (rowwiseKind_of_executesMethod ht₀) hs

/-- A finished task leaves nothing to do for another one about the same get-method. -/
theorem Course.settled (hd : Determined parser P answers faults) (hanswers : answers.Executes)
    (hp : Pending s₀ t₀ first last) (ht₀ : t₀.ExecutesMethod) (ht₁ : t₁.ExecutesMethod)
    (hsame : t₀.SameMethod t₁) (h : Course parser P batch s₀ t₀ w es)
    (ht : w.store.task? t₀.id = some t) (hfinished : t.finished = true) :
    Settled answers w.store t₁ first last := by
  obtain ⟨t', hreached⟩ := h.reached_original hd hp ht₀
  obtain rfl := hreached.eq_of_task? hp ht
  have hrequired : Phase.accounts.required t₀.kind = true := by
    rcases ht₀ with ht₀ | ht₀ <;> rw [ht₀] <;> rfl
  have hlabels : w.store.labels = s₀.labels := labels_of_reworked (rowwiseKind_of_executesMethod ht₀) hreached.accounts
  have haccounts := hreached.accounts
  rw [hreached.reach_of_finished hfinished .accounts hrequired] at haccounts
  obtain ⟨g, hg, hrows⟩ := haccounts
  intro b hb hfirst hlast hlabel
  rw [hg] at hb
  obtain ⟨a, ha, rfl⟩ := List.mem_map.1 hb
  by_cases hcovered : Between accountHeight first.toNat (last.toNat + 1) a ∧ SelectsAccount s₀ t₀ a
  · obtain ⟨i, labels, -, rfl, himage⟩ := (hrows a ha).covered hcovered.1 hcovered.2
    rw [hlabels]
    exact accountImage_twice hanswers ht₀ ht₁ hsame himage
  · have hkept := (hrows a ha).other hcovered
    rw [hkept] at hfirst hlast hlabel
    refine absurd ⟨between_iff.2 ⟨_, rfl, hfirst, hlast⟩, ?_⟩ hcovered
    rw [hsame.contract] at hlabel
    exact (selectsAccount_iff (ht₀.imp_right .inl) a).2 hlabel

/-- The plan of the next step changes no row. -/
def ChangesNothing (parser : Parser (RescanM σ)) (batch : UInt32) (v : Context σ) : Prop :=
  ∃ t first last, job v.store = some (t, first, last) ∧
    (exec (carryOut parser t (plan batch t first last)).run v).1 = .ok ([], [])

/-- The step finds no row to change and commits its task alone, unless the commit is refused. -/
inductive TaskAlone (parser : Parser (RescanM σ)) (batch : UInt32) (v : Context σ) :
    Except Fault (Option RescanTask) × Context σ → Prop
  | committed {t : RescanTask} {u : Context σ} (hnone : ChangesNothing parser batch v)
      (h : Rewrites v.store ([], []) t u.store) : TaskAlone parser batch v (.ok (some t), u)
  | refused {u : Context σ} (hnone : ChangesNothing parser batch v) (hrefusals : v.store.refusals ≠ 0)
      (h : v.store.KeepsRows u.store) : TaskAlone parser batch v (.error .commitRefused, u)

/-- Nothing but a refused commit stops a step in a settled store. -/
theorem taskAlone_step (hd : Determined parser P answers faults) (hfaults : ¬ faults)
    (hv : Sound v.store P v) (hjob : job v.store = some (t, first, last)) (ht : t.ExecutesMethod)
    (hsettled : Settled answers v.store t first last) :
    TaskAlone parser batch v (exec (step parser batch).run v) := by
  have hplan := hsettled.planImage ht batch
  have hends := carryOut_ends hd v.store t (plan batch t first last)
  rw [hplan] at hends
  have hnone : ChangesNothing parser batch v :=
    ⟨t, first, last, hjob, (hends v hv).1.resolve_right fun h => hfaults h.1⟩
  have hstep := step_attempted hends hv.1.2 hv.2 hjob
  generalize exec (step parser batch).run v = r at hstep
  cases hstep with
  | @failed fault u hstore hcoherent hparser hfault =>
    rcases hfault with (hnone | ⟨hyes, -⟩) | ⟨hrefusals, rfl⟩
    · cases hnone
    · exact absurd hyes hfaults
    · refine .refused hnone hrefusals ?_
      rw [hstore]
      rfl
  | @committed rows u hrows hu =>
    obtain rfl : rows = ([], []) := Except.ok.inj (hrows.resolve_right fun h => hfaults h.1)
    refine .committed hnone ?_
    rw [rewrites_iff, Context.store_commit, hu.1.1]

/-- As long as the snapshots are those of a settled store, the steps of the task commit it alone. -/
theorem Course.taskAlone (hd : Determined parser P answers faults) (hfaults : ¬ faults)
    (hp : Pending s₁ t₁ first last) (ht₁ : t₁.ExecutesMethod)
    (hsettled : Settled answers s₁ t₁ first last) (h : Course parser P batch s₁ t₁ v es)
    (haccounts : v.store.accounts = s₁.accounts) (ht : v.store.task? t₁.id = some t)
    (hunfinished : t.finished = false) :
    TaskAlone parser batch v (exec (Rescan.step parser batch).run v) := by
  obtain ⟨t', hreached⟩ := h.reached_original hd hp ht₁
  obtain rfl := hreached.eq_of_task? hp ht
  have hsubject : (skipPhases t').subject = t₁.subject := hreached.subject
  have hkind : (skipPhases t').kind = t₁.kind := (congrArg RescanTask.kind hsubject :)
  refine taskAlone_step hd hfaults ⟨⟨rfl, hreached.coherent⟩, hreached.parser⟩
    (hreached.job_eq hp hunfinished) ?_ (hsettled.congr haccounts hsubject)
  rw [RescanTask.ExecutesMethod, hkind]
  exact ht₁

/-- In a settled store no row is rewritten. -/
theorem Course.rows_kept (hd : Determined parser P answers faults) (hfaults : ¬ faults)
    (hp : Pending s₁ t₁ first last) (ht₁ : t₁.ExecutesMethod)
    (hsettled : Settled answers s₁ t₁ first last) (h : Course parser P batch s₁ t₁ v es) :
    v.store.accounts = s₁.accounts ∧ v.store.messages = s₁.messages := by
  induction h with
  | start hstore hdefines hwindows hparser =>
    rw [hstore]
    exact ⟨rfl, rfl⟩
  | @step v es t h ht hunfinished ih =>
    have halone := h.taskAlone hd hfaults hp ht₁ hsettled ih.1 ht hunfinished
    generalize exec (Rescan.step parser batch).run v = r at halone
    cases halone with
    | committed _ hstore => exact ⟨hstore.accounts.trans ih.1, hstore.messages.trans ih.2⟩
    | refused _ hrefusals hstore =>
      rw [hstore]
      exact ih
  | between h hstore hdefines hdepth hwindows hparser ih =>
    rw [hstore]
    exact ih

end

/-! ## Get-method tasks of the registry -/

section

variable {r : Registry} {batch batch' : UInt32} {s₀ s₁ : Store} {t₀ t₁ t : RescanTask}
  {first last : UInt32} {w : Context Registry} {es : List Entry}

/-- Forgetting a get-method and executing it again, done twice, is done once. After a task that does so
is finished, a second one over the same history leaves all rows as they are, and each of its steps
finds no row to change and commits the task alone. -/
theorem Course.repeats_nothing (hp : Pending s₀ t₀ first last) (ht₀ : t₀.ExecutesMethod)
    (h : Course registry (Canned r) batch s₀ t₀ w es) (ht : w.store.task? t₀.id = some t)
    (hfinished : t.finished = true) (hrows : w.store.SameHistory s₁) (hp₁ : Pending s₁ t₁ first last)
    (ht₁ : t₁.ExecutesMethod) (hsame : t₀.SameMethod t₁) :
    (∀ (s : Store) (u v : Context Registry), Sound s (Canned r) u → Sound s (Canned r) v →
      ∀ (contract : ContractName) (method : String) (a : AccountState), ∃ b,
        (exec (rereadMethod registry Snapshots.lookup contract method a).run u).1 = .ok b ∧
        (exec (rereadMethod registry Snapshots.lookup contract method b).run v).1 = .ok b) ∧
    ∀ (v : Context Registry) (es' : List Entry), Course registry (Canned r) batch' s₁ t₁ v es' →
      v.store.accounts = w.store.accounts ∧ v.store.messages = w.store.messages ∧
      ∀ t', v.store.task? t₁.id = some t' → t'.finished = false →
        TaskAlone registry batch' v (exec (Rescan.step registry batch').run v) := by
  have hd := registry_determined r
  have hanswers := cannedAnswers_executes r
  constructor
  · intro s u v hu hv contract method a
    obtain ⟨b, hb⟩ := exists_methodImage (cannedAnswers_faultless r) s.labels contract method a
    refine ⟨b, ?_, ?_⟩
    · rw [((rereadMethod_ends hd s contract method a u hu).1).resolve_right (by simp), hb]
    · rw [((rereadMethod_ends hd s contract method b v hv).1).resolve_right (by simp)]
      exact methodImage_twice hanswers hb
  · intro v es' hv
    have hsettled : Settled (cannedAnswers r) s₁ t₁ first last :=
      (h.settled hd hanswers hp ht₀ ht₁ hsame ht hfinished).congr hrows.accounts rfl
    obtain ⟨haccounts, hmessages⟩ := hv.rows_kept hd (by simp) hp₁ ht₁ hsettled
    refine ⟨haccounts.trans hrows.accounts, hmessages.trans hrows.messages, fun t' ht' hunfinished => ?_⟩
    exact hv.taskAlone hd (by simp) hp₁ ht₁ hsettled haccounts ht' hunfinished

end

/-! The task of `Course.pointwise_sample`, and the same once more with a refused commit in between. -/

namespace Sample

def secondTask : RescanTask :=
  { methodTask with id := 2 }

def secondStore : Store :=
  { methodStop.1.store with tasks := methodStop.1.store.tasks ++ [secondTask], refusals := 1 }

def secondStart : Context Registry where
  store := secondStore
  snapshots := .empty 1
  parser := itemMethods
  evictions := fun _ _ => false

def again (r : Context Registry × List Entry) : Context Registry × List Entry :=
  ((exec (step registry 2).run r.1).2,
    r.2 ++ logged 2 2 r.1.store (exec (step registry 2).run r.1).1)

/-- After the refused commit and the first window. -/
def secondHalf : Context Registry × List Entry :=
  again (again (secondStart, []))

theorem course_methodStop : Course registry (Canned itemMethods) 2 itemStore methodTask methodStop.1
    methodStop.2 := by
  have hstart : Course registry (Canned itemMethods) 2 itemStore methodTask methodStart [] :=
    .start rfl ⟨fun _ h => h, fun _ _ h => h⟩ rfl ⟨rfl, rfl, rfl, rfl⟩
  have hrefused := hstart.step (t := methodTask) (by decide +kernel) rfl
  have hfirst := hrefused.step (t := methodTask) (by decide +kernel) rfl
  exact hfirst.step (t := { methodTask with accountsMaster := some 6, messagesDone := true })
    (by decide +kernel) rfl

theorem finished_methodStop : ∃ t, methodStop.1.store.task? methodTask.id = some t ∧
    t.finished = true :=
  ⟨{ methodTask with
    accountsMaster := some 7, accountsDone := true, messagesDone := true, finished := true },
    by decide +kernel, rfl⟩

theorem pending_secondTask : Pending secondStore secondTask 5 7 where
  keyed := ⟨by decide +kernel, by decide +kernel, by decide +kernel⟩
  task := by decide +kernel
  firstMaster := by decide +kernel
  lastMaster := by decide +kernel
  fresh := ⟨rfl, fun p _ => by cases p <;> rfl, fun p _ => by cases p <;> rfl⟩

theorem course_secondHalf : Course registry (Canned itemMethods) 2 secondStore secondTask secondHalf.1
    secondHalf.2 := by
  have hstart : Course registry (Canned itemMethods) 2 secondStore secondTask secondStart [] :=
    .start rfl ⟨fun _ h => h, fun _ _ h => h⟩ rfl ⟨rfl, rfl, rfl, rfl⟩
  have hrefused := hstart.step (t := secondTask) (by decide +kernel) rfl
  exact hrefused.step (t := secondTask) (by decide +kernel) rfl

end Sample

open Rescan.Sample in
/-- The item has its minter already when the second task comes to it. -/
theorem Course.repeats_nothing_sample :
    Pending itemStore methodTask 5 7 ∧ methodTask.ExecutesMethod ∧
      Course registry (Canned itemMethods) 2 itemStore methodTask methodStop.1 methodStop.2 ∧
      methodStop.1.store.SameHistory secondStore ∧ Pending secondStore secondTask 5 7 ∧
      secondTask.ExecutesMethod ∧ methodTask.SameMethod secondTask ∧
      Course registry (Canned itemMethods) 2 secondStore secondTask secondHalf.1 secondHalf.2 ∧
      secondHalf.1.store.accounts.map (·.minter) = [none, some collection.address] ∧
      secondHalf.1.store.accounts = methodStop.1.store.accounts ∧
      secondHalf.1.store.messages = methodStop.1.store.messages ∧
      TaskAlone registry 2 secondHalf.1 (exec (Rescan.step registry 2).run secondHalf.1) := by
  obtain ⟨t, ht, hfinished⟩ := finished_methodStop
  have hrows : methodStop.1.store.SameHistory secondStore := ⟨rfl, rfl, rfl⟩
  have hkept := (course_methodStop.repeats_nothing pending_methodTask (.inl rfl) ht
    hfinished hrows pending_secondTask (.inl rfl) ⟨rfl, rfl⟩).2 _ _ course_secondHalf
  refine ⟨pending_methodTask, .inl rfl, course_methodStop, hrows, pending_secondTask, .inl rfl,
    ⟨rfl, rfl⟩, course_secondHalf, by decide +kernel, hkept.1, hkept.2.1, ?_⟩
  exact hkept.2.2 { secondTask with accountsMaster := some 6, messagesDone := true }
    (by decide +kernel) rfl

end Rescan

end ShardIndex
