import ShardIndex.Proofs.Rescan.Coverage
import ShardIndex.Proofs.Rescan.Rework
/-!
# The course of a task

A task is worked on over a fixed history, with a parser that is determined by answers (`Course`). Any step
may fail. Between steps commits may be refused, windows may get lost and definitions may be missing.

After any number of steps the tables are rewritten exactly up to the checkpoints (`Reached`), and once the
task is finished up to the last master block (`Reached.reach_of_finished`). What snapshots become depends
on the labels that were looked up when they were rewritten. It is enough to know of these labels what all
stores that have not come to the snapshot yet have in common (the predicate `visible`).
-/
namespace ShardIndex

/-- What a task is about: all but its progress. -/
def RescanTask.subject (t : RescanTask) : RescanTask :=
  { t with
    finished := false, accountsMaster := none, accountsDone := false, messagesMaster := none
    messagesDone := false }

namespace Store

/-- Nothing has changed but definitions and the commits that are going to be refused. -/
def KeepsRows (s s' : Store) : Prop :=
  s' = { s with
    interfaces := s'.interfaces, operations := s'.operations, refusals := s'.refusals }

/-- The definitions that a task uses are those of `s₀`, as far as they are there. -/
structure DefinesWithin (s₀ : Store) (t : RescanTask) (s : Store) : Prop where
  interface : ∀ i, s.interface? t.contract = some i → s₀.interface? t.contract = some i
  operation : ∀ id o, s.operation? t.contract t.direction id = some o →
    s₀.operation? t.contract t.direction id = some o

end Store

namespace Rescan

variable {σ : Type}

theorem DefinesWithin.interfaceOf {s₀ s : Store} {t : RescanTask} (h : s₀.DefinesWithin t s)
    {i : Option ContractInterface} (hi : interfaceOf s t = .ok i) : interfaceOf s₀ t = .ok i := by
  unfold Rescan.interfaceOf at hi ⊢
  cases hkind : t.kind with
  | addInterface | updInterface =>
    rw [hkind] at hi
    dsimp only at hi ⊢
    split at hi
    · rename_i j hj
      rw [h.interface j hj]
      exact hi
    · cases hi
  | _ =>
    rw [hkind] at hi
    exact hi

theorem DefinesWithin.messageFilter {s₀ s : Store} {t : RescanTask} (h : s₀.DefinesWithin t s)
    {f : MessageFilter} (hf : messageFilter s t = .ok f) : messageFilter s₀ t = .ok f := by
  have hoperation : ∀ id k, operationKind s t id = .ok k → operationKind s₀ t id = .ok k := by
    intro id k hk
    unfold operationKind at hk ⊢
    cases hkind : t.kind with
    | updOperation =>
      rw [hkind] at hk
      dsimp only at hk ⊢
      split at hk
      · rename_i o ho
        rw [h.operation id o ho]
        exact hk
      · cases hk
    | _ =>
      rw [hkind] at hk
      exact hk
  unfold Rescan.messageFilter at hf ⊢
  cases hkind : t.kind with
  | updOperation | delOperation =>
    rw [hkind] at hf
    obtain ⟨id, hid, hf⟩ := exists_of_bind_eq_ok hf
    obtain ⟨k, hk, hf⟩ := exists_of_bind_eq_ok hf
    dsimp only
    rw [hid, ← hf]
    change (operationKind s₀ t id >>= _) = _
    rw [hoperation id k hk]
    rfl
  | _ =>
    rw [hkind] at hf
    exact hf

/-! ## Courses -/

/-- The store `s₀` over whose history the fresh task `t₀` is going to be worked on. -/
structure Pending (s₀ : Store) (t₀ : RescanTask) (first last : UInt32) : Prop where
  keyed : s₀.Keyed
  task : s₀.unfinishedTask = some t₀
  firstMaster : s₀.firstMaster.map (·.id.seqno) = some first
  lastMaster : s₀.lastMaster.map (·.id.seqno) = some last
  fresh : Fresh first t₀

/-- The contexts in which the task `t₀` may find itself until it is finished, with the entries of the
steps that committed it. -/
inductive Course (parser : Parser (RescanM σ)) (P : σ → Prop) (batch : UInt32) (s₀ : Store)
    (t₀ : RescanTask) : Context σ → List Entry → Prop
  | start {w : Context σ} {depth : Nat} (hstore : s₀.KeepsRows w.store)
      (hdefines : s₀.DefinesWithin t₀ w.store) (hwindows : w.snapshots = .empty depth)
      (hparser : P w.parser) : Course parser P batch s₀ t₀ w []
  | step {w : Context σ} {es : List Entry} {t : RescanTask} (h : Course parser P batch s₀ t₀ w es)
      (ht : w.store.task? t₀.id = some t) (hunfinished : t.finished = false) :
      Course parser P batch s₀ t₀ (exec (step parser batch).run w).2
        (es ++ logged batch t₀.id w.store (exec (step parser batch).run w).1)
  | between {w v : Context σ} {es : List Entry} (h : Course parser P batch s₀ t₀ w es)
      (hstore : w.store.KeepsRows v.store) (hdefines : s₀.DefinesWithin t₀ v.store)
      (hdepth : 1 ≤ v.snapshots.depth)
      (hwindows : ∀ address history, v.snapshots.histories.get? address = some history →
        w.snapshots.histories.get? address = some history)
      (hparser : P v.parser) : Course parser P batch s₀ t₀ v es

/-! ## What a course has reached -/

/-- The height up to which a phase has rewritten its table. -/
def reach (p : Phase) (t : RescanTask) (first : UInt32) : Nat :=
  if p.required t.kind then resumeAt (p.checkpoint t) first else first.toNat

/-- The task bears on the snapshot. -/
def SelectsAccount (s₀ : Store) (t : RescanTask) (a : AccountState) : Prop :=
  ∃ i, interfaceOf s₀ t = .ok i ∧ (accountFilter t i).selects a = true

/-- The task can make `b` of the snapshot `a` by labels that are visible when `a` is rewritten. -/
def ImagesAccount (answers : Answers) (visible : AccountState → Labels → Prop) (s₀ : Store) (t : RescanTask)
    (a b : AccountState) : Prop :=
  ∃ i labels, interfaceOf s₀ t = .ok i ∧ visible a labels ∧ accountImage answers labels t i a = .ok b

/-- The task bears on the message. -/
def SelectsMessage (s₀ : Store) (t : RescanTask) (m : Message) : Prop :=
  ∃ f, messageFilter s₀ t = .ok f ∧ f.selects m = true

theorem selectsAccount_of_ok {s₀ : Store} {t : RescanTask} {i : Option ContractInterface}
    (hi : interfaceOf s₀ t = .ok i) (a : AccountState) :
    SelectsAccount s₀ t a ↔ (accountFilter t i).selects a = true := by
  constructor
  · rintro ⟨j, hj, ha⟩
    rw [hi] at hj
    obtain rfl := Except.ok.inj hj
    exact ha
  · exact fun ha => ⟨i, hi, ha⟩

theorem selectsMessage_of_ok {s₀ : Store} {t : RescanTask} {f : MessageFilter}
    (hf : messageFilter s₀ t = .ok f) (m : Message) : SelectsMessage s₀ t m ↔ f.selects m = true := by
  constructor
  · rintro ⟨f', hf', hm⟩
    rw [hf] at hf'
    obtain rfl := Except.ok.inj hf'
    exact hm
  · exact fun hm => ⟨f, hf, hm⟩

/-- Snapshots rewritten up to a height. -/
abbrev AccountsReworked (answers : Answers) (visible : AccountState → Labels → Prop) (s₀ : Store) (t : RescanTask)
    (first stop : Nat) (accounts : List AccountState) : Prop :=
  Reworked accountHeight (SelectsAccount s₀ t) (ImagesAccount answers visible s₀ t) first stop
    s₀.accounts accounts

/-- Messages rewritten up to a height, by the labels of the store. -/
abbrev MessagesReworked (answers : Answers) (labels : Labels) (s₀ : Store) (t : RescanTask)
    (first stop : Nat) (messages : List Message) : Prop :=
  Reworked Message.masterSeqno? (SelectsMessage s₀ t)
    (fun m m' => messageImage answers labels t m = .ok m') first stop s₀.messages messages

/-- What is known of the history and of the task `t₀`, which has become `t`, whatever has become of the
rows. -/
structure Underway (batch : UInt32) (s₀ : Store) (t₀ : RescanTask) (first last : UInt32) (s : Store)
    (es : List Entry) (t : RescanTask) : Prop where
  blocks : s.blocks = s₀.blocks
  tasks : s.tasks = s₀.tasks.map fun r => if r.id = t₀.id then t else r
  subject : t.subject = t₀.subject
  progress : Progress batch first es t
  last : ∀ e ∈ es, e.last = last.toNat

/-- What is known in the course of the task `t₀`, which has become `t`. -/
structure Reached (P : σ → Prop) (answers : Answers) (visible : AccountState → Labels → Prop) (batch : UInt32)
    (s₀ : Store) (t₀ : RescanTask) (first last : UInt32) (w : Context σ) (es : List Entry)
    (t : RescanTask) : Prop where
  parser : P w.parser
  coherent : w.snapshots.Coherent w.store
  defines : s₀.DefinesWithin t₀ w.store
  blocks : w.store.blocks = s₀.blocks
  transactions : w.store.transactions = s₀.transactions
  commits : w.store.commits = s₀.commits
  tasks : w.store.tasks = s₀.tasks.map fun r => if r.id = t₀.id then t else r
  subject : t.subject = t₀.subject
  progress : Progress batch first es t
  last : ∀ e ∈ es, e.last = last.toNat
  accounts : AccountsReworked answers visible s₀ t₀ first.toNat (reach .accounts t first)
    w.store.accounts
  messages : MessagesReworked answers w.store.labels s₀ t₀ first.toNat (reach .messages t first)
    w.store.messages

theorem subject_finish (t : RescanTask) (last : UInt32) (pl : Plan) :
    (finish (advance (skipPhases t) last pl)).subject = t.subject := by
  unfold advance
  split <;> rfl

theorem labels_congr {s s' : Store} (h : s'.accounts = s.accounts) : s'.labels = s.labels := by
  funext address beforeLt
  simp only [Store.labels, Store.stateBefore, Store.statesBefore, h]

theorem reach_of_fresh {t : RescanTask} {first : UInt32} (h : Fresh first t) (p : Phase) :
    reach p t first = first.toNat := by
  unfold reach
  split
  · rename_i hreq
    exact h.checkpoint p hreq
  · rfl

theorem reach_of_skipped {p : Phase} {t : RescanTask} (hreq : p.required t.kind = false)
    (first : UInt32) : reach p t first = first.toNat :=
  if_neg (by simp [hreq])

theorem le_reach (p : Phase) (t : RescanTask) (first : UInt32) : first.toNat ≤ reach p t first := by
  unfold reach
  split
  · exact le_resumeAt _ _
  · exact Nat.le_refl _

section

variable {batch : UInt32} {s₀ s s' : Store} {t₀ t : RescanTask} {first last : UInt32} {es : List Entry}

/-- The history does not end before it starts. -/
theorem Pending.le (hp : Pending s₀ t₀ first last) : first.toNat ≤ last.toNat := by
  obtain ⟨f, hf, rfl⟩ := Option.map_eq_some_iff.1 hp.firstMaster
  obtain ⟨l, hl, rfl⟩ := Option.map_eq_some_iff.1 hp.lastMaster
  exact (Store.lastMaster_spec hl).2 _ (Store.firstMaster_mem hf)

namespace Underway

theorem start (hp : Pending s₀ t₀ first last) (hstore : s₀.KeepsRows s) :
    Underway batch s₀ t₀ first last s [] t₀ := by
  have htasks : s₀.tasks.map (fun r => if r.id = t₀.id then t₀ else r) = s₀.tasks := by
    refine (List.map_congr_left fun r hr => ?_).trans (List.map_id' _)
    split
    · rename_i hid
      have hnodup : (s₀.tasks.map (·.id)).Nodup := hp.keyed.tasks.imp Nat.ne_of_lt
      exact (List.inj_on_of_nodup_map hnodup hr (List.mem_of_find?_eq_some hp.task) hid).symm
    · rfl
  constructor
  case tasks =>
    rw [htasks, hstore]
  case progress => exact .of_fresh hp.fresh
  case last => simp
  case subject => rfl
  case blocks => rw [hstore]

theorem congr (h : Underway batch s₀ t₀ first last s es t) (hstore : s.KeepsRows s') :
    Underway batch s₀ t₀ first last s' es t := by
  constructor
  case blocks => rw [hstore]; exact h.blocks
  case tasks => rw [hstore]; exact h.tasks
  case subject => exact h.subject
  case progress => exact h.progress
  case last => exact h.last

theorem id_eq (h : Underway batch s₀ t₀ first last s es t) : t.id = t₀.id :=
  (congrArg RescanTask.id h.subject :)

theorem kind_eq (h : Underway batch s₀ t₀ first last s es t) : t.kind = t₀.kind :=
  (congrArg RescanTask.kind h.subject :)

theorem sorted (hp : Pending s₀ t₀ first last)
    (h : Underway batch s₀ t₀ first last s es t) : s.TasksSorted := by
  have hids : s.tasks.map (·.id) = s₀.tasks.map (·.id) := by
    rw [h.tasks, List.map_map]
    refine List.map_congr_left fun r _ => ?_
    by_cases hr : r.id = t₀.id
    · simp [hr, h.id_eq]
    · simp [hr]
  rw [Store.TasksSorted, hids]
  exact hp.keyed.tasks

/-- The task is found under its id. -/
theorem task?_eq (hp : Pending s₀ t₀ first last)
    (h : Underway batch s₀ t₀ first last s es t) :
    s.task? t₀.id = some t := by
  have hfind : s₀.tasks.find? ((fun r : RescanTask => r.id == t₀.id) ∘
      fun r => if r.id = t₀.id then t else r) = some t₀ := by
    rw [← (task?_of_unfinishedTask hp.keyed.tasks hp.task).1, Store.task?]
    congr 1
    funext r
    by_cases hr : r.id = t₀.id
    · simp [hr, h.id_eq]
    · simp [hr]
  rw [Store.task?, h.tasks, List.find?_map, hfind, Option.map_some, if_pos rfl]

/-- What is found under its id is the task. -/
theorem eq_of_task? (hp : Pending s₀ t₀ first last) (h : Underway batch s₀ t₀ first last s es t)
    {r : RescanTask} (hr : s.task? t₀.id = some r) : t = r := by
  rw [h.task?_eq hp] at hr
  exact Option.some.inj hr

/-- As long as it is not finished, steps work on the task. -/
theorem job_eq (hp : Pending s₀ t₀ first last)
    (h : Underway batch s₀ t₀ first last s es t) (hunfinished : t.finished = false) :
    job s = some (skipPhases t, first, last) := by
  have htask : s.unfinishedTask = some t := by
    obtain ⟨-, before, after, hsplit, hbefore⟩ := List.find?_eq_some_iff_append.1 hp.task
    have hsorted := hp.keyed.tasks
    rw [Store.TasksSorted, hsplit, List.map_append, List.map_cons] at hsorted
    rw [Store.unfinishedTask, h.tasks, hsplit, List.map_append, List.map_cons, if_pos rfl,
      List.find?_append]
    have hnone : (before.map fun r => if r.id = t₀.id then t else r).find? (fun r => !r.finished) =
        none := by
      refine List.find?_eq_none.2 fun r hr => ?_
      obtain ⟨r', hr', rfl⟩ := List.mem_map.1 hr
      have hlt := (List.pairwise_append.1 hsorted).2.2 r'.id (List.mem_map_of_mem hr') t₀.id
        List.mem_cons_self
      rw [if_neg (Nat.ne_of_lt hlt)]
      simpa using hbefore r' hr'
    rw [hnone, Option.none_or, List.find?_cons_of_pos (by simp [hunfinished])]
  have hfirst : s.firstMaster.map (·.id.seqno) = some first := by
    rw [← hp.firstMaster, Store.firstMaster, h.blocks, Store.firstMaster]
  have hlast : s.lastMaster.map (·.id.seqno) = some last := by
    rw [← hp.lastMaster, Store.lastMaster_congr h.blocks]
  obtain ⟨f, hf, rfl⟩ := Option.map_eq_some_iff.1 hfirst
  obtain ⟨l, hl, rfl⟩ := Option.map_eq_some_iff.1 hlast
  simp [job, htask, hf, hl]

variable {p : Phase} {start stop : UInt32} {pl : Plan} {t' : RescanTask}

/-- The task takes its own place among the tasks. -/
theorem tasks_insertInto (hp : Pending s₀ t₀ first last)
    (h : Underway batch s₀ t₀ first last s es t) (hid : t'.id = t₀.id) :
    t'.insertInto s.tasks = s₀.tasks.map fun r => if r.id = t₀.id then t' else r := by
  have hmem : t'.id ∈ s.tasks.map (·.id) := by
    rw [hid, ← h.id_eq]
    exact List.mem_map_of_mem (List.mem_of_find?_eq_some (h.task?_eq hp))
  rw [RescanTask.insertInto_eq_map t' (h.sorted hp) hmem, h.tasks, List.map_map]
  refine List.map_congr_left fun r _ => ?_
  by_cases hr : r.id = t₀.id
  · simp [hr, hid, h.id_eq]
  · simp [hr, hid]

/-- The task is committed with rewritten rows. -/
theorem commit (hp : Pending s₀ t₀ first last) (h : Underway batch s₀ t₀ first last s es t)
    (turn : Turn batch first last t p start stop pl t') (hsubject : t'.subject = t.subject)
    (masters : List Nat) (accounts : List AccountState) (messages : List Message) :
    Underway batch s₀ t₀ first last (s.committed (writes accounts messages t'))
      (es ++ [⟨t', pl, masters, last.toNat⟩]) t' := by
  have hwrites := committed_writes s accounts messages t'
  constructor
  case blocks => rw [hwrites]; exact h.blocks
  case tasks => rw [hwrites]; exact h.tasks_insertInto hp (turn.id.trans h.id_eq)
  case subject => exact hsubject.trans h.subject
  case progress => exact h.progress.extend turn masters hp.le fun e he => Nat.le_of_eq (h.last e he)
  case last =>
    intro e he
    rcases List.mem_append.1 he with he | he
    · exact h.last e he
    · obtain rfl := List.mem_singleton.1 he
      rfl

/-- Some phase has its turn as long as the task is not finished. -/
theorem exists_turn (hp : Pending s₀ t₀ first last) (h : Underway batch s₀ t₀ first last s es t)
    (hunfinished : t.finished = false) : ∃ p start stop,
      Turn batch first last t p start stop (plan batch (skipPhases t) first last)
        (finish (advance (skipPhases t) last (plan batch (skipPhases t) first last))) :=
  Rescan.exists_turn batch (h.progress.left hunfinished)
    (h.progress.room hp.le fun e he => Nat.le_of_eq (h.last e he))

/-- A finished task has covered the history for each phase of its kind. -/
theorem reach_of_finished (h : Underway batch s₀ t₀ first last s es t)
    (hfinished : t.finished = true) (p : Phase) (hreq : p.required t₀.kind = true) :
    reach p t first = last.toNat + 1 := by
  rw [← h.kind_eq] at hreq
  have hdone : p.done t = true := by
    rw [h.progress.finished, Bool.and_eq_true] at hfinished
    cases p with
    | accounts => exact hfinished.1
    | messages => exact hfinished.2
  obtain ⟨e, he, hresume, -⟩ := h.progress.done p hreq hdone
  rw [reach, if_pos hreq, hresume, h.last e (List.mem_of_find?_eq_some he)]

end Underway

variable {p : Phase} {start stop : UInt32} {pl : Plan} {t' : RescanTask}

/-- Only the phase whose turn it is gets further. -/
theorem reach_eq (turn : Turn batch first last t p start stop pl t') (q : Phase) :
    reach q t' first = if q = p then stop.toNat + 1 else reach q t first := by
  unfold reach
  rw [turn.kind]
  by_cases hq : q = p
  · subst hq
    rw [if_pos rfl, if_pos turn.required, turn.resumeAt_eq]
  · rw [if_neg hq, turn.sameCheckpoint q hq]

theorem reach_eq_start (turn : Turn batch first last t p start stop pl t') :
    reach p t first = start.toNat := by
  rw [reach, if_pos turn.required, turn.start_eq]

theorem start_le_stop (turn : Turn batch first last t p start stop pl t') :
    start.toNat ≤ stop.toNat + 1 := by
  have := turn.start_eq
  have := turn.stop_eq
  have := turn.le_last
  have := one_le_width batch
  omega

end

section

variable {parser : Parser (RescanM σ)} {P : σ → Prop} {answers : Answers} {faults : Prop}
  {visible : AccountState → Labels → Prop} {batch : UInt32} {s₀ : Store} {t₀ : RescanTask} {first last : UInt32}
  {w v : Context σ} {es : List Entry} {t : RescanTask}

namespace Reached

theorem underway (h : Reached P answers visible batch s₀ t₀ first last w es t) :
    Underway batch s₀ t₀ first last w.store es t :=
  ⟨h.blocks, h.tasks, h.subject, h.progress, h.last⟩

theorem start (hp : Pending s₀ t₀ first last) {depth : Nat} (hstore : s₀.KeepsRows w.store)
    (hdefines : s₀.DefinesWithin t₀ w.store) (hwindows : w.snapshots = .empty depth)
    (hparser : P w.parser) : Reached P answers visible batch s₀ t₀ first last w [] t₀ := by
  have hunderway : Underway batch s₀ t₀ first last w.store [] t₀ := .start hp hstore
  constructor
  case parser => exact hparser
  case coherent =>
    rw [hwindows]
    exact .empty depth _
  case defines => exact hdefines
  case tasks => exact hunderway.tasks
  case progress => exact hunderway.progress
  case last => exact hunderway.last
  case subject => rfl
  case accounts =>
    rw [reach_of_fresh hp.fresh, hstore]
    exact .start _ _ _ _ _
  case messages =>
    rw [reach_of_fresh hp.fresh, hstore]
    exact .start _ _ _ _ _
  all_goals rw [hstore]

theorem between (h : Reached P answers visible batch s₀ t₀ first last w es t)
    (hstore : w.store.KeepsRows v.store) (hdefines : s₀.DefinesWithin t₀ v.store)
    (hcoherent : v.snapshots.Coherent w.store) (hparser : P v.parser) :
    Reached P answers visible batch s₀ t₀ first last v es t := by
  have haccounts : v.store.accounts = w.store.accounts := by rw [hstore]
  have hmessages : v.store.messages = w.store.messages := by rw [hstore]
  constructor
  case parser => exact hparser
  case coherent => exact hcoherent.congr haccounts
  case defines => exact hdefines
  case blocks => rw [hstore]; exact h.blocks
  case transactions => rw [hstore]; exact h.transactions
  case commits => rw [hstore]; exact h.commits
  case tasks => rw [hstore]; exact h.tasks
  case subject => exact h.subject
  case progress => exact h.progress
  case last => exact h.last
  case accounts => rw [haccounts]; exact h.accounts
  case messages => rw [hmessages, labels_congr haccounts]; exact h.messages

theorem id_eq (h : Reached P answers visible batch s₀ t₀ first last w es t) : t.id = t₀.id :=
  h.underway.id_eq

theorem kind_eq (h : Reached P answers visible batch s₀ t₀ first last w es t) : t.kind = t₀.kind :=
  h.underway.kind_eq

/-- The task is found under its id. -/
theorem task?_eq (hp : Pending s₀ t₀ first last)
    (h : Reached P answers visible batch s₀ t₀ first last w es t) : w.store.task? t₀.id = some t :=
  h.underway.task?_eq hp

theorem eq_of_task? (hp : Pending s₀ t₀ first last)
    (h : Reached P answers visible batch s₀ t₀ first last w es t) {r : RescanTask}
    (hr : w.store.task? t₀.id = some r) : t = r :=
  h.underway.eq_of_task? hp hr

/-- As long as it is not finished, steps work on the task. -/
theorem job_eq (hp : Pending s₀ t₀ first last)
    (h : Reached P answers visible batch s₀ t₀ first last w es t) (hunfinished : t.finished = false) :
    job w.store = some (skipPhases t, first, last) :=
  h.underway.job_eq hp hunfinished

/-- A finished task has covered the history for each phase of its kind. -/
theorem reach_of_finished (h : Reached P answers visible batch s₀ t₀ first last w es t)
    (hfinished : t.finished = true) (p : Phase) (hreq : p.required t₀.kind = true) :
    reach p t first = last.toNat + 1 :=
  h.underway.reach_of_finished hfinished p hreq

end Reached

/-! ## Steps of a course -/

namespace Reached

variable {p : Phase} {start stop : UInt32} {pl : Plan} {t' : RescanTask}

/-- The rewritten rows of a window and the task take what is reached further. -/
theorem commit (hp : Pending s₀ t₀ first last)
    (h : Reached P answers visible batch s₀ t₀ first last w es t) {u : Context σ}
    (hu : Sound w.store P u) (turn : Turn batch first last t p start stop pl t')
    (hsubject : t'.subject = t.subject) (masters : List Nat) {accounts : List AccountState}
    {messages : List Message}
    (hsame : ∀ address beforeLt, (∀ r ∈ accounts, r.address ≠ address) →
      (w.store.committed (writes accounts messages t')).stateBefore address beforeLt =
        w.store.stateBefore address beforeLt)
    (haccounts : AccountsReworked answers visible s₀ t₀ first.toNat (reach .accounts t' first)
      (accounts.foldl Store.putAccount w.store.accounts))
    (hmessages : MessagesReworked answers
      (w.store.committed (writes accounts messages t')).labels s₀ t₀ first.toNat
      (reach .messages t' first) (messages.foldl Store.putMessage w.store.messages)) :
    Reached P answers visible batch s₀ t₀ first last (u.commit accounts messages t')
      (es ++ [⟨t', pl, masters, last.toNat⟩]) t' := by
  obtain ⟨⟨hstore, hcoherent⟩, hparser⟩ := hu
  have hstore' : (u.commit accounts messages t').store =
      w.store.committed (writes accounts messages t') := by
    rw [Context.store_commit, hstore]
  have hwrites := committed_writes w.store accounts messages t'
  have hunderway := h.underway.commit hp turn hsubject masters accounts messages
  constructor
  case parser =>
    rw [Context.parser_commit]
    exact hparser
  case coherent =>
    rw [hstore']
    rw [← hstore] at hcoherent hsame ⊢
    exact Context.coherent_commit hcoherent hsame
  case defines =>
    rw [hstore', hwrites]
    exact ⟨h.defines.interface, h.defines.operation⟩
  case blocks => rw [hstore']; exact hunderway.blocks
  case transactions => rw [hstore', hwrites]; exact h.transactions
  case commits => rw [hstore', hwrites]; exact h.commits
  case tasks => rw [hstore']; exact hunderway.tasks
  case subject => exact hunderway.subject
  case progress => exact hunderway.progress
  case last => exact hunderway.last
  case accounts => rw [hstore', hwrites]; exact haccounts
  case messages =>
    rw [hstore']
    have htable : (w.store.committed (writes accounts messages t')).messages =
        messages.foldl Store.putMessage w.store.messages := by rw [hwrites]
    rw [htable]
    exact hmessages

/-- The rows of a window of snapshots are images by the interface of the original store. -/
theorem exists_accounts_window (hp : Pending s₀ t₀ first last)
    (h : Reached P answers visible batch s₀ t₀ first last w es t) {rows : List AccountState}
    (hrows : accountsImage answers w.store (skipPhases t) start stop = .ok rows) :
    ∃ i, ∃ g : AccountState → AccountState, interfaceOf s₀ t₀ = .ok i ∧
      (∀ a ∈ w.store.accounts, picksAccount (accountFilter t₀ i) start stop a = true →
        accountImage answers w.store.labels t₀ i a = .ok (g a)) ∧
      rows.foldl Store.putAccount w.store.accounts = w.store.accounts.map (fun a =>
        if picksAccount (accountFilter t₀ i) start stop a then g a else a) ∧
      ∀ a ∈ w.store.accounts, picksAccount (accountFilter t₀ i) start stop a = true → g a ≠ a →
        g a ∈ rows := by
  have hkeys : (w.store.accounts.map Store.accountKey).Nodup := by
    have hkept : w.store.accounts.map Store.accountKey = s₀.accounts.map Store.accountKey := by
      refine h.accounts.map_eq ?_
      rintro a b ⟨i, labels, -, -, himage⟩
      exact (congrArg Store.accountKey (chain_of_accountImage himage) :)
    rw [hkept]
    exact hp.keyed.accounts
  obtain ⟨i, g, hi, himage, htable, hchanged⟩ := accounts_committed hkeys hrows
  have hfilter : accountFilter (skipPhases t) i = accountFilter t₀ i :=
    (congrArg (fun r => accountFilter r i) h.subject :)
  have himage₀ : accountImage answers w.store.labels (skipPhases t) i =
      accountImage answers w.store.labels t₀ i :=
    (congrArg (fun r => accountImage answers w.store.labels r i) h.subject :)
  rw [hfilter] at himage htable hchanged
  rw [himage₀] at himage
  refine ⟨i, g, DefinesWithin.interfaceOf h.defines ?_, himage, htable, hchanged⟩
  rw [← hi]
  exact (congrArg (interfaceOf w.store) h.subject).symm

/-- Snapshots after a window of them was committed. -/
theorem accounts_window (hp : Pending s₀ t₀ first last)
    (h : Reached P answers visible batch s₀ t₀ first last w es t)
    (hvisible : ∀ a : AccountState, start.toNat ≤ a.masterSeqno.toNat → visible a w.store.labels)
    (turn : Turn batch first last t .accounts start stop pl t') {rows : List AccountState}
    (hrows : accountsImage answers w.store (skipPhases t) start stop = .ok rows) :
    AccountsReworked answers visible s₀ t₀ first.toNat (stop.toNat + 1)
      (rows.foldl Store.putAccount w.store.accounts) := by
  obtain ⟨i, g, hi, himage, htable, -⟩ := h.exists_accounts_window hp hrows
  have haccounts := h.accounts
  rw [reach_eq_start turn] at haccounts
  rw [htable]
  refine haccounts.extend (fun a b hab => ?_) ?_ (start_le_stop turn) (fun r => ?_) fun r hr hpick => ?_
  · obtain ⟨j, labels, -, -, hab⟩ := hab
    exact (congrArg accountHeight (chain_of_accountImage hab) :)
  · rw [← reach_eq_start turn]
    exact le_reach _ _ _
  · rw [picksAccount_iff, selectsAccount_of_ok hi]
  · obtain ⟨n, hn, hge, -⟩ := ((picksAccount_iff _ _ _ _).1 hpick).1
    obtain rfl := Option.some.inj hn
    exact ⟨i, w.store.labels, hi, hvisible r hge, himage r hr hpick⟩

/-- Accounts without rewritten rows have the states that they had. -/
theorem stateBefore_window (hp : Pending s₀ t₀ first last)
    (h : Reached P answers visible batch s₀ t₀ first last w es t) {rows : List AccountState}
    (hrows : accountsImage answers w.store (skipPhases t) start stop = .ok rows) {s : Store}
    (hs : s.accounts = rows.foldl Store.putAccount w.store.accounts) {address : Address}
    (hne : ∀ r ∈ rows, r.address ≠ address) (beforeLt : UInt64) :
    s.stateBefore address beforeLt = w.store.stateBefore address beforeLt := by
  obtain ⟨i, g, -, himage, htable, hchanged⟩ := h.exists_accounts_window hp hrows
  have hkept : ∀ a ∈ w.store.accounts, (if picksAccount (accountFilter t₀ i) start stop a then g a
      else a).chain = a.chain := by
    intro a ha
    split
    · rename_i hpick
      exact chain_of_accountImage (himage a ha hpick)
    · rfl
  refine Store.stateBefore_of_kept (hs.trans htable) (fun a ha => ?_) (fun a ha haddress => ?_) beforeLt
  · exact ⟨(congrArg AccountState.address (hkept a ha) :), (congrArg AccountState.lastTxLt (hkept a ha) :)⟩
  · split
    · -- a row that has changed is written, and rows of the account are not
      rename_i hpick
      by_contra hga
      have hsame := hkept a ha
      rw [if_pos hpick] at hsame
      exact hne (g a) (hchanged a ha hpick hga)
        ((congrArg AccountState.address hsame :).trans haddress)
    · rfl

/-- Messages after a window of them was committed. -/
theorem messages_window (hp : Pending s₀ t₀ first last)
    (h : Reached P answers visible batch s₀ t₀ first last w es t)
    (turn : Turn batch first last t .messages start stop pl t') {rows : List Message}
    (hrows : messagesImage answers w.store (skipPhases t) start stop = .ok rows) :
    MessagesReworked answers w.store.labels s₀ t₀ first.toNat (stop.toNat + 1)
      (rows.foldl Store.putMessage w.store.messages) := by
  have hkeys : (w.store.messages.map (·.hash)).Nodup := by
    have hkept : w.store.messages.map (·.hash) = s₀.messages.map (·.hash) :=
      h.messages.map_eq fun a b hab => (congrArg Message.hash (chain_of_messageImage hab) :)
    rw [hkept]
    exact hp.keyed.messages
  obtain ⟨f, g, hf, himage, htable⟩ := messages_committed hkeys hrows
  have hf₀ : messageFilter s₀ t₀ = .ok f := by
    refine DefinesWithin.messageFilter h.defines ?_
    rw [← hf]
    exact (congrArg (messageFilter w.store) h.subject).symm
  have himage₀ : messageImage answers w.store.labels (skipPhases t) =
      messageImage answers w.store.labels t₀ :=
    (congrArg (messageImage answers w.store.labels) h.subject :)
  rw [htable]
  have hmessages := h.messages
  rw [reach_eq_start turn] at hmessages
  refine hmessages.extend (fun a b hab => (congrArg Message.masterSeqno? (chain_of_messageImage hab) :)) ?_
    (start_le_stop turn) (fun m => ?_) fun m hm hpick => ?_
  · rw [← reach_eq_start turn]
    exact le_reach _ _ _
  · rw [picksMessage_iff, selectsMessage_of_ok hf₀]
  · rw [← himage₀]
    exact himage m hm hpick

/-- Snapshots do not change by windows of messages, and no message is covered before the accounts are
done. -/
theorem carried (hp : Pending s₀ t₀ first last)
    (h : Reached P answers visible batch s₀ t₀ first last w es t)
    (hvisible : ∀ a : AccountState,
      reach .accounts t first ≤ a.masterSeqno.toNat → visible a w.store.labels) {u : Context σ} (hu : Sound w.store P u)
    (turn : Turn batch first last t p start stop pl t') (hsubject : t'.subject = t.subject)
    (masters : List Nat) {rows : List AccountState × List Message}
    (hrows : planImage answers w.store (skipPhases t) pl = .ok rows) :
    Reached P answers visible batch s₀ t₀ first last (u.commit rows.1 rows.2 t')
      (es ++ [⟨t', pl, masters, last.toNat⟩]) t' := by
  cases p with
  | accounts =>
    obtain rfl : pl = .accounts (some (start, stop)) := by
      have hwindow := turn.window
      cases pl <;> simp_all [Phase.window?]
    obtain ⟨accounts, haccounts, hrows⟩ := exists_of_bind_eq_ok hrows
    obtain rfl := Except.ok.inj hrows
    rw [reach_eq_start turn] at hvisible
    have hempty : reach .messages t first = first.toNat := by
      unfold reach
      split
      · rename_i hreq
        exact h.progress.resumeAt_of_waits hreq turn.required turn.undone
      · rfl
    refine h.commit hp hu turn hsubject masters ?_ ?_ ?_
    · intro address beforeLt hne
      exact h.stateBefore_window hp haccounts (by rw [committed_writes]) hne beforeLt
    · rw [reach_eq turn, if_pos rfl]
      exact h.accounts_window hp hvisible turn haccounts
    · have hmessages := h.messages
      rw [hempty] at hmessages
      rw [reach_eq turn, if_neg (by decide), hempty, hmessages.eq_of_empty]
      exact .start _ _ _ _ _
  | messages =>
    obtain rfl : pl = .messages (some (start, stop)) := by
      have hwindow := turn.window
      cases pl <;> simp_all [Phase.window?]
    obtain ⟨messages, hmessages, hrows⟩ := exists_of_bind_eq_ok hrows
    obtain rfl := Except.ok.inj hrows
    have hkept : (w.store.committed (writes [] messages t')).accounts = w.store.accounts := by
      rw [committed_writes]
      rfl
    refine h.commit hp hu turn hsubject masters ?_ ?_ ?_
    · intro address beforeLt _
      simp only [Store.stateBefore, Store.statesBefore, hkept]
    · rw [reach_eq turn, if_neg (by decide)]
      exact h.accounts
    · rw [labels_congr hkept, reach_eq turn, if_pos rfl]
      exact h.messages_window hp turn hmessages

/-- A step takes one window further what is reached, or fails and leaves it as it is. It fails only if the
parser does, if the commit is refused, or if a row has no image. -/
theorem step (hd : Determined parser P answers faults) (hp : Pending s₀ t₀ first last)
    (h : Reached P answers visible batch s₀ t₀ first last w es t)
    (hvisible : ∀ a : AccountState,
      reach .accounts t first ≤ a.masterSeqno.toNat → visible a w.store.labels)
    (hunfinished : t.finished = false) :
    (∃ t' e accounts messages, (exec (Rescan.step parser batch).run w).1 = .ok (some t') ∧
      (exec (Rescan.step parser batch).run w).2.store =
        w.store.committed (writes accounts messages t') ∧
      es ++ logged batch t₀.id w.store (exec (Rescan.step parser batch).run w).1 = es ++ [e] ∧
      Reached P answers visible batch s₀ t₀ first last (exec (Rescan.step parser batch).run w).2
        (es ++ [e]) t') ∨
    (∃ fault, (exec (Rescan.step parser batch).run w).1 = .error fault ∧
      Reached P answers visible batch s₀ t₀ first last (exec (Rescan.step parser batch).run w).2 es t ∧
      (faults ∨ w.store.refusals ≠ 0 ∨
        planImage answers w.store (skipPhases t) (plan batch (skipPhases t) first last) =
          .error fault)) := by
  have hjob := h.job_eq hp hunfinished
  have hstep := step_attempted (carryOut_ends hd w.store (skipPhases t) (plan batch (skipPhases t) first last))
    h.coherent h.parser hjob
  generalize exec (Rescan.step parser batch).run w = r at hstep
  cases hstep with
  | @failed fault v hstore hcoherent hparser hfault =>
    refine .inr ⟨fault, rfl, h.between ?_ ?_ hcoherent hparser, ?_⟩
    · rw [hstore]
      rfl
    · rw [hstore]
      exact ⟨h.defines.interface, h.defines.operation⟩
    · rcases hfault with (himage | ⟨hfaults, -⟩) | ⟨hrefusals, -⟩
      · exact .inr (.inr himage.symm)
      · exact .inl hfaults
      · exact .inr (.inl hrefusals)
  | @committed rows u hrows hu =>
    have himage : planImage answers w.store (skipPhases t) (plan batch (skipPhases t) first last) =
        .ok rows := by
      rcases hrows with hrows | ⟨-, fault, hfault⟩
      · exact hrows.symm
      · cases hfault
    obtain ⟨p, start, stop, turn⟩ := h.underway.exists_turn hp hunfinished
    refine .inl ⟨_, ⟨_, _, w.store.masterNumbers, last.toNat⟩, rows.1, rows.2, rfl, ?_, ?_,
      h.carried hp hvisible hu turn (subject_finish t last _) _ himage⟩
    · rw [Context.store_commit, hu.1.1]
    · simp only [logged, hjob]
      rw [if_pos (turn.id.trans h.id_eq)]

end Reached

/-- Whatever happened in its course, the task has reached something. -/
theorem Course.reached (hd : Determined parser P answers faults) (hp : Pending s₀ t₀ first last)
    (hvisible : ∀ (s : Store) (stop : Nat) (a : AccountState),
      AccountsReworked answers visible s₀ t₀ first.toNat stop s.accounts →
        stop ≤ a.masterSeqno.toNat → visible a s.labels)
    (h : Course parser P batch s₀ t₀ w es) :
    ∃ t, Reached P answers visible batch s₀ t₀ first last w es t := by
  induction h with
  | start hstore hdefines hwindows hparser => exact ⟨t₀, .start hp hstore hdefines hwindows hparser⟩
  | @step w es t _ ht hunfinished ih =>
    obtain ⟨t', hreached⟩ := ih
    obtain rfl := hreached.eq_of_task? hp ht
    rcases hreached.step hd hp (fun a => hvisible _ _ a hreached.accounts) hunfinished with
      ⟨t'', e, -, -, -, -, hlogged, hnext⟩ | ⟨fault, hfault, hnext, -⟩
    · rw [hlogged]
      exact ⟨t'', hnext⟩
    · have hnothing : logged batch t₀.id w.store (.error fault) = [] := rfl
      rw [hfault, hnothing, List.append_nil]
      exact ⟨t', hnext⟩
  | between _ hstore hdefines hdepth hwindows hparser ih =>
    obtain ⟨t, hreached⟩ := ih
    exact ⟨t, hreached.between hstore hdefines (hreached.coherent.lose hdepth hwindows) hparser⟩

end

end Rescan

end ShardIndex
