import ShardIndex.Proofs.Rescan.Course
/-!
# Get-method and operation tasks are maps

A task for a get-method or for an operation changes no label (`types_of_accountImage`). So whatever a
window looks up, it finds the labels of the original store, and how rows are grouped into windows does not
matter: a finished task has mapped every row on its own (`Course.pointwise`).
-/
namespace ShardIndex.Rescan

/-! ## The map -/

/-- What a get-method task makes of a snapshot that is labelled with the contract: what the method has
produced is forgotten and, unless it was deleted, the method is executed against the store `s₀`. -/
def MethodResult (answers : Answers) (s₀ : Store) (t : RescanTask) (a b : AccountState) : Prop :=
  ∃ method, t.method = some method ∧
    if t.kind = .delMethod then b = a.clearMethod t.contract method
    else (a.clearMethod t.contract method).absorb
      (answers.callMethod a.chain t.contract method s₀.labels) = .ok b

/-- What an operation task makes of a message of the operation: what reading its body has produced is
forgotten and, unless the operation was deleted, the body is read again. -/
def PayloadResult (answers : Answers) (t : RescanTask) (m m' : Message) : Prop :=
  if t.kind = .delOperation then m' = m.clearPayload
  else m.clearPayload.absorb (answers.readPayload m.chain) = .ok m'

/-- The message goes by the operation of the task: by its id, its kind and its direction. For an updated
operation the kind is the one in the definition, unless the task has its own. -/
def OfOperation (s₀ : Store) (t : RescanTask) (m : Message) : Prop :=
  ∃ id kind, t.operationId = some id ∧ operationKind s₀ t id = .ok kind ∧ m.operationId = some id ∧
    kind.all (fun k => m.kind == k) = true ∧ (m.side t.direction).tx.isSome = true

open Classical in
/-- The store `s` has the rows of `s₀`, mapped one by one. -/
structure Mapped (answers : Answers) (s₀ : Store) (t₀ t : RescanTask) (first last : UInt32) (s : Store) :
    Prop where
  accounts : List.Forall₂ (fun a b =>
    if t₀.kind.rescansAccounts ∧ first ≤ a.masterSeqno ∧ a.masterSeqno ≤ last ∧
        a.hasInterface t₀.contract
    then MethodResult answers s₀ t₀ a b else b = a) s₀.accounts s.accounts
  messages : List.Forall₂ (fun m m' =>
    if t₀.kind.rescansMessages ∧ (∃ n, m.masterSeqno? = some n ∧ first ≤ n ∧ n ≤ last) ∧
        OfOperation s₀ t₀ m ∧ sideConcerned s₀.labels (m.side t₀.direction) t₀.contract
    then PayloadResult answers t₀ m m' else m' = m) s₀.messages s.messages
  blocks : s.blocks = s₀.blocks
  transactions : s.transactions = s₀.transactions
  commits : s.commits = s₀.commits
  tasks : s.tasks = s₀.tasks.map fun r => if r.id = t₀.id then t else r

/-- The task is about a get-method or about an operation. -/
def RowwiseKind : RescanKind → Prop
  | .addInterface | .updInterface | .delInterface => False
  | _ => True

/-! ## Labels -/

variable {answers : Answers} {labels : Labels} {t : RescanTask}

/-- Labels stay but for interface tasks. -/
theorem types_of_accountImage (hkind : RowwiseKind t.kind) {interface : Option ContractInterface}
    {a b : AccountState} (h : accountImage answers labels t interface a = .ok b) : b.types = a.types := by
  unfold accountImage at h
  cases hk : t.kind with
  | addInterface | updInterface | delInterface => simp [hk, RowwiseKind] at hkind
  | updOperation | delOperation =>
    rw [hk] at h
    obtain rfl := Except.ok.inj h
    rfl
  | addMethod | updMethod =>
    rw [hk] at h
    obtain ⟨method, -, h⟩ := exists_of_bind_eq_ok h
    exact (of_methodImage h).2
  | delMethod =>
    rw [hk] at h
    obtain ⟨method, -, h⟩ := exists_of_bind_eq_ok h
    obtain rfl := Except.ok.inj h
    exact a.types_clearMethod _ _

/-- However far the rows of a get-method or of an operation are rewritten, labels are those of the
original store. -/
theorem labels_of_reworked {s₀ s : Store} (hkind : RowwiseKind t.kind) {visible : AccountState → Labels → Prop}
    {first stop : Nat} (h : AccountsReworked answers visible s₀ t first stop s.accounts) :
    s.labels = s₀.labels := by
  obtain ⟨g, hs, hg⟩ := h
  have hkept : ∀ a ∈ s₀.accounts, (g a).chain = a.chain ∧ (g a).types = a.types := by
    intro a ha
    by_cases hcovered : Between accountHeight first stop a ∧ SelectsAccount s₀ t a
    · obtain ⟨i, labels, -, -, himage⟩ := (hg a ha).covered hcovered.1 hcovered.2
      exact ⟨chain_of_accountImage himage, types_of_accountImage hkind himage⟩
    · rw [(hg a ha).other hcovered]
      exact ⟨rfl, rfl⟩
  funext address beforeLt
  rw [Store.labels_map hs fun a ha => (hkept a ha).1, Store.labels]
  cases hfound : s₀.stateBefore address beforeLt with
  | none => rfl
  | some a => exact congrArg some (hkept a (Store.mem_of_stateBefore hfound).1).2

/-! ## Images -/

theorem methodOf_eq_ok {method : String} (h : methodOf t = .ok method) : t.method = some method := by
  unfold methodOf at h
  split at h
  · rename_i m hsome
    obtain rfl := Except.ok.inj h
    exact hsome
  · cases h

theorem operationIdOf_eq_ok {id : UInt32} (h : operationIdOf t = .ok id) : t.operationId = some id := by
  unfold operationIdOf at h
  split at h
  · rename_i i hsome
    obtain rfl := Except.ok.inj h
    exact hsome
  · cases h

/-- The task is about a get-method. -/
theorem rowwise_accounts (hkind : RowwiseKind t.kind) (h : t.kind.rescansAccounts = true) :
    t.kind = .addMethod ∨ t.kind = .updMethod ∨ t.kind = .delMethod := by
  cases hk : t.kind <;> simp_all [RowwiseKind, RescanKind.rescansAccounts]

/-- The task is about an operation. -/
theorem rowwise_messages (hkind : RowwiseKind t.kind) (h : t.kind.rescansMessages = true) :
    t.kind = .updOperation ∨ t.kind = .delOperation := by
  cases hk : t.kind <;> simp_all [RowwiseKind, RescanKind.rescansMessages]

variable {s₀ : Store}

/-- A get-method task bears on the snapshots that are labelled with the contract. -/
theorem selectsAccount_iff (hkind : t.kind = .addMethod ∨ t.kind = .updMethod ∨ t.kind = .delMethod)
    (a : AccountState) : SelectsAccount s₀ t a ↔ a.hasInterface t.contract = true := by
  unfold SelectsAccount interfaceOf accountFilter AccountFilter.selects
  rcases hkind with hkind | hkind | hkind <;> simp [hkind]

theorem methodResult_of_image
    (hkind : t.kind = .addMethod ∨ t.kind = .updMethod ∨ t.kind = .delMethod)
    {a b : AccountState} {i : Option ContractInterface}
    (h : accountImage answers s₀.labels t i a = .ok b) : MethodResult answers s₀ t a b := by
  unfold accountImage at h
  rcases hkind with hkind | hkind | hkind
  all_goals
    rw [hkind] at h
    obtain ⟨method, hm, h⟩ := exists_of_bind_eq_ok h
    refine ⟨method, methodOf_eq_ok hm, ?_⟩
    rw [hkind]
  · exact h
  · exact h
  · exact (Except.ok.inj h).symm

/-- An operation task bears on the messages that go by the operation. -/
theorem selectsMessage_iff (hkind : t.kind = .updOperation ∨ t.kind = .delOperation) (m : Message) :
    SelectsMessage s₀ t m ↔ OfOperation s₀ t m := by
  have hfilter : messageFilter s₀ t = operationIdOf t >>= fun id => operationKind s₀ t id >>= fun kind =>
      .ok { operationId := some id, kind := kind, direction := some t.direction } := by
    unfold messageFilter
    rcases hkind with hkind | hkind <;> rw [hkind]
  unfold SelectsMessage OfOperation
  rw [hfilter]
  constructor
  · rintro ⟨f, hf, hm⟩
    obtain ⟨id, hid, hf⟩ := exists_of_bind_eq_ok hf
    obtain ⟨kind, hk, hf⟩ := exists_of_bind_eq_ok hf
    obtain rfl := Except.ok.inj hf
    simp only [MessageFilter.selects, Option.all_some, Bool.and_eq_true, beq_iff_eq] at hm
    exact ⟨id, kind, operationIdOf_eq_ok hid, hk, hm.1.1, hm.1.2, hm.2⟩
  · rintro ⟨id, kind, hid, hk, hop, hall, htx⟩
    refine ⟨{ operationId := some id, kind := kind, direction := some t.direction }, ?_, ?_⟩
    · rw [operationIdOf, hid]
      change (operationKind s₀ t id >>= _) = _
      rw [hk]
      rfl
    · simp only [MessageFilter.selects, Option.all_some, Bool.and_eq_true, beq_iff_eq]
      exact ⟨⟨hop, hall⟩, htx⟩

theorem payloadResult_of_image (hkind : t.kind = .updOperation ∨ t.kind = .delOperation) {m m' : Message}
    (h : messageImage answers labels t m = .ok m') :
    if sideConcerned labels (m.side t.direction) t.contract then PayloadResult answers t m m'
    else m' = m := by
  unfold messageImage operationImage at h
  split
  · rename_i hside
    rw [if_pos hside] at h
    unfold PayloadResult
    rcases hkind with hkind | hkind
    · rw [hkind] at h ⊢
      exact h
    · rw [hkind] at h ⊢
      exact (Except.ok.inj h).symm
  · rename_i hside
    rw [if_neg hside] at h
    rcases hkind with hkind | hkind
    · rw [hkind] at h
      exact (Except.ok.inj h).symm
    · rw [hkind] at h
      exact (Except.ok.inj h).symm

/-! ## Finished tasks -/

section

variable {σ : Type} {parser : Parser (RescanM σ)} {P : σ → Prop} {faults : Prop} {batch : UInt32}
  {t₀ : RescanTask} {first last : UInt32} {w : Context σ} {es : List Entry}

/-- Whatever the windows are, which of them are kept in memory and which steps have failed: once the
task is finished, its rows are mapped one by one, and nothing else has changed. -/
theorem Course.pointwise (hd : Determined parser P answers faults) (hp : Pending s₀ t₀ first last)
    (hkind : RowwiseKind t₀.kind) (h : Course parser P batch s₀ t₀ w es)
    (ht : w.store.task? t₀.id = some t) (hfinished : t.finished = true) :
    Mapped answers s₀ t₀ t first last w.store := by
  have hvisible : ∀ (s : Store) (stop : Nat) (a : AccountState),
      AccountsReworked answers (fun _ l => l = s₀.labels) s₀ t₀ first.toNat stop s.accounts →
        stop ≤ a.masterSeqno.toNat → s.labels = s₀.labels :=
    fun _ _ _ hs _ => labels_of_reworked hkind hs
  obtain ⟨t', hreached⟩ := h.reached hd hp hvisible
  obtain rfl : t' = t := by
    rw [hreached.task?_eq hp] at ht
    exact Option.some.inj ht
  refine ⟨?_, ?_, hreached.blocks, hreached.transactions, hreached.commits, hreached.tasks⟩
  · have haccounts := hreached.accounts
    cases hreq : t₀.kind.rescansAccounts with
    | false =>
      have hskipped : Phase.accounts.required t'.kind = false := by
        rw [hreached.kind_eq]
        exact hreq
      rw [reach_of_skipped hskipped] at haccounts
      rw [haccounts.eq_of_empty]
      refine List.forall₂_same.2 fun a _ => ?_
      rw [if_neg fun hsel => Bool.false_ne_true hsel.1]
    | true =>
      have hmethod := rowwise_accounts hkind hreq
      rw [hreached.reach_of_finished hfinished .accounts hreq] at haccounts
      obtain ⟨g, hg, hrows⟩ := haccounts
      rw [hg, List.forall₂_map_right_iff]
      refine List.forall₂_same.2 fun a ha => ?_
      split
      · rename_i hsel
        obtain ⟨i, labels, -, rfl, himage⟩ := (hrows a ha).covered
          (between_iff.2 ⟨_, rfl, hsel.2.1, hsel.2.2.1⟩) ((selectsAccount_iff hmethod a).2 hsel.2.2.2)
        exact methodResult_of_image hmethod himage
      · rename_i hsel
        refine (hrows a ha).other fun ⟨hbetween, hselects⟩ => hsel ⟨rfl, ?_⟩
        obtain ⟨n, hn, hge, hle⟩ := between_iff.1 hbetween
        obtain rfl := Option.some.inj hn
        exact ⟨hge, hle, (selectsAccount_iff hmethod a).1 hselects⟩
  · have hmessages := hreached.messages
    have hlabels : w.store.labels = s₀.labels := labels_of_reworked hkind hreached.accounts
    cases hreq : t₀.kind.rescansMessages with
    | false =>
      have hskipped : Phase.messages.required t'.kind = false := by
        rw [hreached.kind_eq]
        exact hreq
      rw [reach_of_skipped hskipped] at hmessages
      rw [hmessages.eq_of_empty]
      refine List.forall₂_same.2 fun m _ => ?_
      rw [if_neg fun hsel => Bool.false_ne_true hsel.1]
    | true =>
      have hoperation := rowwise_messages hkind hreq
      rw [hreached.reach_of_finished hfinished .messages hreq, hlabels] at hmessages
      obtain ⟨g, hg, hrows⟩ := hmessages
      rw [hg, List.forall₂_map_right_iff]
      refine List.forall₂_same.2 fun m hm => ?_
      by_cases hcovered : Between Message.masterSeqno? first.toNat (last.toNat + 1) m ∧
          SelectsMessage s₀ t₀ m
      · have hresult := payloadResult_of_image hoperation ((hrows m hm).covered hcovered.1 hcovered.2)
        have hof := (selectsMessage_iff hoperation m).1 hcovered.2
        have hwindow := between_iff.1 hcovered.1
        split
        · rename_i hsel
          rwa [if_pos hsel.2.2.2] at hresult
        · rename_i hsel
          rwa [if_neg fun hside => hsel ⟨rfl, hwindow, hof, hside⟩] at hresult
      · rw [(hrows m hm).other hcovered, if_neg]
        rintro ⟨-, hwindow, hof, -⟩
        exact hcovered ⟨between_iff.2 hwindow, (selectsMessage_iff hoperation m).2 hof⟩

end

/-! ## A sample -/

namespace Sample

def collection : AccountState :=
  { wallet 10 5 with types := ["nft_collection"] }

def item : AccountState :=
  { wallet 30 7 with address := ⟨0, 2⟩, types := ["nft_item"] }

def methodTask : RescanTask where
  id := 1
  kind := .addMethod
  contract := "nft_item"
  method := some "get_nft_data"

def itemMethods : Registry where
  methodResults := [(("nft_item", "get_nft_data"), { minter := some collection.address })]

/-- A collection and its item, and a store that refuses the first commit. -/
def itemStore : Store where
  blocks := [master 5, master 6, master 7]
  accounts := [collection, item]
  tasks := [methodTask]
  refusals := 1

/-- Every other look at the windows finds them lost. -/
def methodStart : Context Registry where
  store := itemStore
  snapshots := .empty 1
  parser := itemMethods
  evictions := fun n _ => n % 2 == 0

def methodStop : Context Registry × List Entry :=
  next (next (next (methodStart, [])))

theorem pending_methodTask : Pending itemStore methodTask 5 7 where
  keyed := ⟨by decide +kernel, by decide +kernel, by decide +kernel⟩
  task := rfl
  firstMaster := by decide +kernel
  lastMaster := by decide +kernel
  fresh := ⟨rfl, fun p _ => by cases p <;> rfl, fun p _ => by cases p <;> rfl⟩

end Sample

/-- The item gets its minter in the second window, after the refused commit and the first window. -/
theorem Course.pointwise_sample :
    Determined registry (Canned Sample.itemMethods) (cannedAnswers Sample.itemMethods) False ∧
      Pending Sample.itemStore Sample.methodTask 5 7 ∧ RowwiseKind Sample.methodTask.kind ∧
      Course registry (Canned Sample.itemMethods) 2 Sample.itemStore Sample.methodTask
        Sample.methodStop.1 Sample.methodStop.2 ∧
      (∃ t, Sample.methodStop.1.store.task? Sample.methodTask.id = some t ∧ t.finished = true ∧
        Mapped (cannedAnswers Sample.itemMethods) Sample.itemStore Sample.methodTask t 5 7
          Sample.methodStop.1.store) ∧
      Sample.methodStop.1.store.accounts.map (·.minter) = [none, some Sample.collection.address] := by
  have hcourse : Course registry (Canned Sample.itemMethods) 2 Sample.itemStore Sample.methodTask
      Sample.methodStop.1 Sample.methodStop.2 := by
    have hstart : Course registry (Canned Sample.itemMethods) 2 Sample.itemStore Sample.methodTask
        Sample.methodStart [] :=
      .start rfl ⟨fun _ h => h, fun _ _ h => h⟩ rfl ⟨rfl, rfl, rfl, rfl⟩
    have hrefused := hstart.step (t := Sample.methodTask) (by decide +kernel) rfl
    have hfirst := hrefused.step (t := Sample.methodTask) (by decide +kernel) rfl
    exact hfirst.step (t := { Sample.methodTask with
      accountsMaster := some 6, messagesDone := true }) (by decide +kernel) rfl
  obtain ⟨t, ht, hfinished⟩ : ∃ t, Sample.methodStop.1.store.task? Sample.methodTask.id = some t ∧
      t.finished = true :=
    ⟨{ Sample.methodTask with
      accountsMaster := some 7, accountsDone := true, messagesDone := true, finished := true },
      by decide +kernel, rfl⟩
  exact ⟨registry_determined _, Sample.pending_methodTask, trivial, hcourse,
    ⟨t, ht, hfinished, hcourse.pointwise (registry_determined _) Sample.pending_methodTask trivial ht
      hfinished⟩, by decide +kernel⟩

end ShardIndex.Rescan
