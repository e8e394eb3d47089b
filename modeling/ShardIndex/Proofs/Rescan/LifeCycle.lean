import ShardIndex.Proofs.Rescan.Coverage
import ShardIndex.Proofs.Rescan.Course
import ShardIndex.Proofs.Rescan.Pointwise
/-!
# The life cycle of tasks

The scheduler serves a queue of tasks while new ones are created and the history changes (`Serves`). Each
task only ever goes forward (`RescanTask.Follows`), and a step that succeeds takes the task that it works on
strictly further (`RescanTask.Advances`), whatever its kind and whatever the history is. Since new tasks
queue up behind the others, the one that is under way is the first that is not finished
(`Store.Orderly`), so no two tasks are under way at once (`Serves.life_cycle`).
-/
namespace ShardIndex

/-! ## Tasks -/

/-- The stages of a task in their order. -/
def RescanState.rank : RescanState → Nat
  | .pending => 0
  | .accountsRescanning => 1
  | .messagesRescanning => 2
  | .finished => 3

namespace RescanTask

open Rescan (Phase Plan)

/-- The task `t'` is what has become of the task `t`: no stage, no checkpoint and no mark is taken back, and
a finished task stays as it is. -/
structure Follows (t t' : RescanTask) : Prop where
  subject : t'.subject = t.subject
  state : t.state.rank ≤ t'.state.rank
  checkpoint : ∀ (p : Phase) n, p.checkpoint t = some n → ∃ n', p.checkpoint t' = some n' ∧ n ≤ n'
  done : ∀ p : Phase, p.done t = true → p.done t' = true
  finished : t.finished = true → t' = t

/-- The checkpoint of a phase has grown. -/
def Grows (p : Phase) (t t' : RescanTask) : Prop :=
  ∃ n', p.checkpoint t' = some n' ∧ ∀ n, p.checkpoint t = some n → n < n'

/-- A step has carried out the plan `pl` for the task `t`, and has made `t'` of it. -/
structure Advances (pl : Plan) (t t' : RescanTask) : Prop where
  follows : t.Follows t'
  unfinished : t.finished = false
  /-- A window takes the checkpoint of its phase further. -/
  window : ∀ (p : Phase) start stop, p.window? pl = some (start, stop) →
    p.checkpoint t' = some stop ∧ t.Grows p t'
  finished : t'.finished = true ↔ t'.accountsDone = true ∧ t'.messagesDone = true
  forward : (∃ p : Phase, p.done t = false ∧ p.done t' = true) ∨ (∃ p : Phase, t.Grows p t') ∨
    t'.finished = true

/-- A task is finished when both phases are done, and no message is covered before the accounts are done. -/
structure Orderly (t : RescanTask) : Prop where
  finished : t.finished = (t.accountsDone && t.messagesDone)
  waits : ∀ n, t.messagesMaster = some n → t.accountsDone = true

/-- The task has made progress and is not finished. -/
def UnderWay (t : RescanTask) : Prop :=
  t.finished = false ∧ t.subject ≠ t

variable {t t' t'' : RescanTask}

theorem Follows.refl (t : RescanTask) : t.Follows t :=
  ⟨rfl, Nat.le_refl _, fun _ n hn => ⟨n, hn, UInt32.le_refl n⟩, fun _ h => h, fun _ => rfl⟩

theorem Follows.trans (h : t.Follows t') (h' : t'.Follows t'') : t.Follows t'' where
  subject := h'.subject.trans h.subject
  state := Nat.le_trans h.state h'.state
  checkpoint p n hn := by
    obtain ⟨n', hn', hle⟩ := h.checkpoint p n hn
    obtain ⟨n'', hn'', hle'⟩ := h'.checkpoint p n' hn'
    exact ⟨n'', hn'', UInt32.le_trans hle hle'⟩
  done p hp := h'.done p (h.done p hp)
  finished hf := by
    obtain rfl := h.finished hf
    exact h'.finished hf

/-- The stage goes by the marks and the checkpoint of the accounts. -/
theorem rank_le_rank (hdone : t.accountsDone = true → t'.accountsDone = true)
    (hcheckpoint : ∀ n, t.accountsMaster = some n → ∃ n', t'.accountsMaster = some n')
    (hunfinished : t.finished = false) : t.state.rank ≤ t'.state.rank := by
  unfold state
  rw [hunfinished]
  cases hfin : t'.finished with
  | true => cases t.accountsDone <;> cases t.accountsMaster <;> simp [RescanState.rank]
  | false =>
    cases ha : t.accountsDone with
    | true => simp [hdone ha]
    | false =>
      cases hm : t.accountsMaster with
      | none => simp [RescanState.rank]
      | some n =>
        obtain ⟨n', hn'⟩ := hcheckpoint n hm
        cases t'.accountsDone <;> simp [hn', RescanState.rank]

theorem Orderly.of_fresh (h : t.subject = t) : t.Orderly := by
  rw [← h]
  exact ⟨rfl, fun n hn => by cases hn⟩

end RescanTask

namespace Rescan

/-! ## Plans -/

variable {batch first last : UInt32} {t : RescanTask}

/-- A window ends beyond the checkpoint that it goes on from. -/
theorem lt_stop_of_nextWindow {checkpoint : Option UInt32} {start stop : UInt32}
    (h : nextWindow batch checkpoint first last = some (start, stop)) :
    ∀ n, checkpoint = some n → n < stop := by
  rintro n rfl
  cases h ▸ nextWindow_spec batch first last (some n) with
  | window hstart hstop hle =>
    have hresume : n.toNat < resumeAt (some n) first := by
      by_cases hlt : n < first
      · rw [resumeAt, if_pos hlt]
        exact UInt32.lt_iff_toNat_lt.1 hlt
      · rw [resumeAt, if_neg hlt]
        exact Nat.lt_succ_self _
    have hwidth := one_le_width batch
    rw [UInt32.lt_iff_toNat_lt]
    omega

/-- What becomes of a phase by a plan for it. -/
def Phase.Turned (p : Phase) (pl : Plan) (t t' : RescanTask) : Prop :=
  (∃ start stop, p.window? pl = some (start, stop) ∧ p.checkpoint t' = some stop ∧
    ∀ n, p.checkpoint t = some n → n < stop) ∨
  p.window? pl = none ∧ p.checkpoint t' = p.checkpoint t ∧ p.done t = false ∧ p.done t' = true

/-- What a plan does to a phase that it is not about. -/
structure Phase.Passed (p : Phase) (pl : Plan) (t t' : RescanTask) : Prop where
  window : p.window? pl = none
  checkpoint : p.checkpoint t' = p.checkpoint t
  done : p.done t = true → p.done t' = true

/-- What becomes of a task by a plan: a phase has its turn, or the task is finished. -/
structure Planned (pl : Plan) (t t' : RescanTask) : Prop where
  subject : t'.subject = t.subject
  finished : t'.finished = (t'.accountsDone && t'.messagesDone)
  phases : ∀ p : Phase, p.Passed pl t t' ∨ p.done t = false ∧ p.Turned pl t t'
  forward : (∃ p : Phase, p.done t = false ∧ p.Turned pl t t') ∨ t'.finished = true
  waits : (∀ n, t.messagesMaster = some n → t.accountsDone = true) →
    ∀ n, t'.messagesMaster = some n → t'.accountsDone = true

theorem planned_accounts {window : Option (UInt32 × UInt32)} (hundone : t.accountsDone = false)
    (hwindow : window = nextWindow batch t.accountsMaster first last) :
    Planned (.accounts window) t (finish (advance (skipPhases t) last (.accounts window))) := by
  have hturned : Phase.accounts.Turned (.accounts window) t
      (finish (advance (skipPhases t) last (.accounts window))) := by
    cases window with
    | none => exact .inr ⟨rfl, rfl, hundone, rfl⟩
    | some window => exact .inl ⟨window.1, window.2, rfl, rfl, lt_stop_of_nextWindow hwindow.symm⟩
  have hpassed : Phase.messages.Passed (.accounts window) t
      (finish (advance (skipPhases t) last (.accounts window))) := by
    cases window <;> exact ⟨rfl, rfl, fun h => by simp_all [Phase.done, finish, advance, skipPhases]⟩
  refine ⟨subject_finish _ _ _, rfl, fun p => ?_, .inl ⟨.accounts, hundone, hturned⟩, fun hwaits n hn => ?_⟩
  · cases p with
    | accounts => exact .inr ⟨hundone, hturned⟩
    | messages => exact .inl hpassed
  · rw [hwaits n (hpassed.checkpoint.symm.trans hn)] at hundone
    cases hundone

theorem planned_messages {window : Option (UInt32 × UInt32)} (hundone : t.messagesDone = false)
    (haccounts : (skipPhases t).accountsDone = true)
    (hwindow : window = nextWindow batch t.messagesMaster first last) :
    Planned (.messages window) t (finish (advance (skipPhases t) last (.messages window))) := by
  have hdone : (finish (advance (skipPhases t) last (.messages window))).accountsDone = true := by
    cases window <;> exact haccounts
  have hturned : Phase.messages.Turned (.messages window) t
      (finish (advance (skipPhases t) last (.messages window))) := by
    cases window with
    | none => exact .inr ⟨rfl, rfl, hundone, rfl⟩
    | some window => exact .inl ⟨window.1, window.2, rfl, rfl, lt_stop_of_nextWindow hwindow.symm⟩
  refine ⟨subject_finish _ _ _, rfl, fun p => ?_, .inl ⟨.messages, hundone, hturned⟩, fun _ _ _ => hdone⟩
  cases p with
  | accounts =>
    refine .inl ⟨rfl, ?_, fun _ => hdone⟩
    cases window <;> rfl
  | messages => exact .inr ⟨hundone, hturned⟩

theorem planned_nothing (haccounts : (skipPhases t).accountsDone = true)
    (hmessages : (skipPhases t).messagesDone = true) :
    Planned .nothing t (finish (advance (skipPhases t) last .nothing)) := by
  refine ⟨subject_finish _ _ _, rfl, fun p => .inl ?_, .inr ?_, fun _ _ _ => haccounts⟩
  · cases p with
    | accounts => exact ⟨rfl, rfl, fun _ => haccounts⟩
    | messages => exact ⟨rfl, rfl, fun _ => hmessages⟩
  · simp [finish, advance, haccounts, hmessages]

/-- Whatever the committed history is, the plan of a step is carried out like this. -/
theorem planned (batch first last : UInt32) (t : RescanTask) :
    Planned (plan batch (skipPhases t) first last) t
      (finish (advance (skipPhases t) last (plan batch (skipPhases t) first last))) := by
  unfold plan
  cases ha : (skipPhases t).accountsDone with
  | false =>
    have hundone : t.accountsDone = false := (Bool.or_eq_false_iff.1 ha).1
    exact planned_accounts hundone rfl
  | true =>
    cases hm : (skipPhases t).messagesDone with
    | false =>
      have hundone : t.messagesDone = false := (Bool.or_eq_false_iff.1 hm).1
      exact planned_messages hundone ha rfl
    | true => exact planned_nothing ha hm

namespace Planned

variable {pl : Plan} {t' : RescanTask} (h : Planned pl t t')

include h

theorem done (p : Phase) (hp : p.done t = true) : p.done t' = true := by
  rcases h.phases p with hpassed | ⟨hundone, -⟩
  · exact hpassed.done hp
  · rw [hundone] at hp
    cases hp

theorem checkpoint (p : Phase) (n : UInt32) (hn : p.checkpoint t = some n) :
    ∃ n', p.checkpoint t' = some n' ∧ n ≤ n' := by
  rcases h.phases p with hpassed | ⟨-, ⟨_, stop, -, hstop, hlt⟩ | ⟨-, hsame, -⟩⟩
  · exact ⟨n, hpassed.checkpoint.trans hn, UInt32.le_refl n⟩
  · exact ⟨stop, hstop, UInt32.le_of_lt (hlt n hn)⟩
  · exact ⟨n, hsame.trans hn, UInt32.le_refl n⟩

theorem orderly (ht : t.Orderly) : t'.Orderly :=
  ⟨h.finished, h.waits ht.waits⟩

/-- A step takes an unfinished task strictly further. -/
theorem advances (hunfinished : t.finished = false) : t.Advances pl t' := by
  refine ⟨⟨h.subject, ?_, h.checkpoint, h.done, fun hfin => ?_⟩, hunfinished, fun p start stop hp => ?_, ?_, ?_⟩
  · refine RescanTask.rank_le_rank (h.done .accounts) (fun n hn => ?_) hunfinished
    exact (h.checkpoint .accounts n hn).imp fun _ => And.left
  · rw [hunfinished] at hfin
    cases hfin
  · rcases h.phases p with hpassed | ⟨-, ⟨_, _, hwindow, hstop, hlt⟩ | ⟨hnone, -⟩⟩
    · rw [hpassed.window] at hp
      cases hp
    · rw [hwindow] at hp
      obtain ⟨rfl, rfl⟩ := Prod.mk.inj (Option.some.inj hp)
      exact ⟨hstop, _, hstop, hlt⟩
    · rw [hnone] at hp
      cases hp
  · rw [h.finished, Bool.and_eq_true]
  · rcases h.forward with ⟨p, hundone, ⟨_, stop, -, hstop, hlt⟩ | ⟨-, -, -, hdone⟩⟩ | hfin
    · exact .inr (.inl ⟨p, stop, hstop, hlt⟩)
    · exact .inl ⟨p, hundone, hdone⟩
    · exact .inr (.inr hfin)

end Planned

end Rescan

/-! ## Queues -/

/-- The tasks of the store are orderly, and one that is under way is not behind an unfinished one. -/
structure Store.Orderly (s : Store) : Prop where
  sorted : s.TasksSorted
  tasks : ∀ t ∈ s.tasks, t.Orderly
  first : ∀ t ∈ s.tasks, t.UnderWay → ∀ r ∈ s.tasks, r.finished = false → t.id ≤ r.id

namespace Store.Orderly

variable {s s' : Store} {t t' : RescanTask}

theorem of_tasks (h : s.Orderly) (htasks : s'.tasks = s.tasks) : s'.Orderly := by
  obtain ⟨hsorted, htask, hfirst⟩ := h
  rw [TasksSorted, ← htasks] at hsorted
  rw [← htasks] at htask hfirst
  exact ⟨hsorted, htask, hfirst⟩

theorem of_fresh (hsorted : s.TasksSorted) (hfresh : ∀ t ∈ s.tasks, t.subject = t) : s.Orderly where
  sorted := hsorted
  tasks t ht := .of_fresh (hfresh t ht)
  first t ht hunder := absurd (hfresh t ht) hunder.2

theorem eq_of_id (h : s.Orderly) (ht : t ∈ s.tasks) (ht' : t' ∈ s.tasks) (hid : t.id = t'.id) : t = t' :=
  List.inj_on_of_nodup_map (h.sorted.imp Nat.ne_of_lt) ht ht' hid

/-- No two tasks are under way. -/
theorem exclusive (h : s.Orderly) (ht : t ∈ s.tasks) (hunder : t.UnderWay) (ht' : t' ∈ s.tasks)
    (hunder' : t'.UnderWay) : t = t' :=
  h.eq_of_id ht ht' (Nat.le_antisymm (h.first t ht hunder t' ht' hunder'.1)
    (h.first t' ht' hunder' t ht hunder.1))

/-- A task that is created queues up behind the others. -/
theorem create (h : s.Orderly) (hfresh : t.subject = t) (hid : ∀ r ∈ s.tasks, r.id < t.id) :
    (s.addTask t).Orderly := by
  have hmem : ∀ r ∈ (s.addTask t).tasks, r = t ∨ r ∈ s.tasks := fun r hr => RescanTask.mem_insertInto hr
  refine ⟨RescanTask.sorted_insertInto t h.sorted, fun r hr => ?_, fun r hr hunder r' hr' hunfinished => ?_⟩
  · rcases hmem r hr with rfl | hr
    · exact .of_fresh hfresh
    · exact h.tasks r hr
  · rcases hmem r hr with rfl | hstored
    · exact absurd hfresh hunder.2
    · rcases hmem r' hr' with rfl | hstored'
      · exact Nat.le_of_lt (hid r hstored)
      · exact h.first r hstored hunder r' hstored' hunfinished

/-- The task that a step works on is the first one that is not finished. -/
theorem le_of_unfinishedTask (hsorted : s.TasksSorted) (hu : s.unfinishedTask = some t) {r : RescanTask}
    (hr : r ∈ s.tasks) (hunfinished : r.finished = false) : t.id ≤ r.id := by
  obtain ⟨-, before, after, htasks, hbefore⟩ := List.find?_eq_some_iff_append.1 hu
  rw [htasks] at hr
  rw [TasksSorted, htasks, List.map_append, List.map_cons] at hsorted
  rcases List.mem_append.1 hr with hr | hr
  · simpa [hunfinished] using hbefore r hr
  · rcases List.mem_cons.1 hr with rfl | hr
    · exact Nat.le_refl _
    · have hafter := (List.pairwise_cons.1 (List.pairwise_append.1 hsorted).2.1).1
      exact Nat.le_of_lt (hafter _ (List.mem_map_of_mem hr))

/-- A step puts the task that it works on in the place of what it was. -/
theorem replace (h : s.Orderly) (hu : s.unfinishedTask = some t) (hid : t'.id = t.id)
    (ht' : t'.Orderly) (htasks : s'.tasks = s.tasks.map fun r => if r.id = t.id then t' else r) :
    s'.Orderly := by
  have hmem : ∀ r ∈ s'.tasks, r = t' ∨ r ∈ s.tasks ∧ r.id ≠ t.id := by
    intro r hr
    rw [htasks] at hr
    obtain ⟨x, hx, rfl⟩ := List.mem_map.1 hr
    split
    · exact .inl rfl
    · rename_i hne
      exact .inr ⟨hx, hne⟩
  have hids : s'.tasks.map (·.id) = s.tasks.map (·.id) := by
    rw [htasks, List.map_map]
    refine List.map_congr_left fun r _ => ?_
    by_cases hr : r.id = t.id
    · simp [hr, hid]
    · simp [hr]
  have htask : t ∈ s.tasks := List.mem_of_find?_eq_some hu
  -- whatever is not finished comes after the task
  have hleast : ∀ r ∈ s'.tasks, r.finished = false → t.id ≤ r.id := by
    intro r hr hunfinished
    rcases hmem r hr with rfl | ⟨hr, -⟩
    · exact Nat.le_of_eq hid.symm
    · exact le_of_unfinishedTask h.sorted hu hr hunfinished
  refine ⟨?_, fun r hr => ?_, fun r hr hunder r' hr' hunfinished => ?_⟩
  · rw [TasksSorted, hids]
    exact h.sorted
  · rcases hmem r hr with rfl | ⟨hr, -⟩
    · exact ht'
    · exact h.tasks r hr
  · rcases hmem r hr with rfl | ⟨hr, hne⟩
    · exact hid.symm ▸ hleast r' hr' hunfinished
    · -- no other task was under way
      have hunfinishedTask : t.finished = false := (by simpa using List.find?_some hu)
      have hle := h.first r hr hunder t htask hunfinishedTask
      exact absurd (Nat.le_antisymm hle (le_of_unfinishedTask h.sorted hu hr hunder.1)) hne

end Store.Orderly

namespace Rescan

/-! ## Steps -/

variable {σ : Type} {parser : Parser (RescanM σ)}

/-- What a step does to the queue: nothing, unless it succeeds; then it takes the first unfinished task
further. -/
inductive Served (batch : UInt32) (s : Store) : Except Fault (Option RescanTask) × Context σ → Prop
  | idle {v : Context σ} (h : v.store.tasks = s.tasks) : Served batch s (.ok none, v)
  | failed {fault : Fault} {v : Context σ} (h : v.store.tasks = s.tasks) : Served batch s (.error fault, v)
  | advanced {t t' : RescanTask} {first last : UInt32} {v : Context σ} (ht : s.unfinishedTask = some t)
      (hjob : job s = some (skipPhases t, first, last))
      (hadvances : t.Advances (plan batch (skipPhases t) first last) t')
      (htasks : v.store.tasks = s.tasks.map fun r => if r.id = t.id then t' else r) :
      Served batch s (.ok (some t'), v)

theorem step_served (hparser : LeavesStore parser) (batch : UInt32) {w : Context σ}
    (hw : w.store.Orderly) :
    Served batch w.store (exec (step parser batch).run w) ∧
      (exec (step parser batch).run w).2.store.Orderly ∧
      ∀ t ∈ w.store.tasks, ∃ t' ∈ (exec (step parser batch).run w).2.store.tasks, t.Follows t' := by
  generalize hr : exec (step parser batch).run w = r
  cases hr ▸ step_leaves hparser batch w with
  | idle h => exact ⟨.idle rfl, hw, fun t ht => ⟨t, ht, .refl t⟩⟩
  | @failed fault v h =>
    have htasks : v.store.tasks = w.store.tasks := (congrArg Store.tasks h :)
    exact ⟨.failed htasks, hw.of_tasks htasks, fun t ht => ⟨t, htasks ▸ ht, .refl t⟩⟩
  | @committed t t' first last rows u v hjob hrows hu ht hcheckpoint hv =>
    obtain ⟨task, f, l, hunfinished, hf, hl, rfl, rfl, rfl⟩ := job_eq_some hjob
    have hplanned := ht ▸ planned batch f.id.seqno l.id.seqno task
    have hid : t'.id = task.id := (congrArg RescanTask.id hplanned.subject :)
    have htask : task ∈ w.store.tasks := List.mem_of_find?_eq_some hunfinished
    have hadvances := hplanned.advances (by simpa using List.find?_some hunfinished)
    have htasks : v.store.tasks = w.store.tasks.map fun r => if r.id = task.id then t' else r := by
      rw [hv.tasks, RescanTask.insertInto_eq_map t' hw.sorted (hid ▸ List.mem_map_of_mem htask), hid]
    refine ⟨.advanced hunfinished hjob hadvances htasks,
      hw.replace hunfinished hid (hplanned.orderly (hw.tasks task htask)) htasks, fun r hr => ?_⟩
    by_cases hrid : r.id = task.id
    · obtain rfl := hw.eq_of_id hr htask hrid
      exact ⟨t', htasks ▸ List.mem_map.2 ⟨r, hr, if_pos rfl⟩, hadvances.follows⟩
    · exact ⟨r, htasks ▸ List.mem_map.2 ⟨r, hr, if_neg hrid⟩, .refl r⟩

/-! ## Runs -/

/-- What becomes of a context by steps with any windows, and by fresh tasks that are created with a greater id
than the others. In between everything but the tasks may change: master blocks are appended, definitions
and rows change, commits are refused, windows get lost. -/
inductive Serves (parser : Parser (RescanM σ)) (w : Context σ) : Context σ → Prop
  | start : Serves parser w w
  | step {u : Context σ} (h : Serves parser w u) (batch : UInt32) :
      Serves parser w (exec (step parser batch).run u).2
  | create {u : Context σ} (h : Serves parser w u) {t : RescanTask} (hfresh : t.subject = t)
      (hid : ∀ r ∈ u.store.tasks, r.id < t.id) :
      Serves parser w { u with store := u.store.addTask t }
  | between {u v : Context σ} (h : Serves parser w u) (htasks : v.store.tasks = u.store.tasks) :
      Serves parser w v

theorem Serves.orderly (hparser : LeavesStore parser) {w v : Context σ} (hw : w.store.Orderly)
    (h : Serves parser w v) : v.store.Orderly := by
  induction h with
  | start => exact hw
  | step _ batch ih => exact (step_served hparser batch ih).2.1
  | create _ hfresh hid ih => exact ih.create hfresh hid
  | between _ htasks ih => exact ih.of_tasks htasks

/-- Each task is found again later, as what has become of it. -/
theorem Serves.follows (hparser : LeavesStore parser) {w v : Context σ} (hw : w.store.Orderly)
    (h : Serves parser w v) : ∀ t ∈ w.store.tasks, ∃ t' ∈ v.store.tasks, t.Follows t' := by
  intro t ht
  induction h with
  | start => exact ⟨t, ht, .refl t⟩
  | @step u h batch ih =>
    obtain ⟨r, hr, hfollows⟩ := ih
    obtain ⟨t', ht', hfollows'⟩ := (step_served hparser batch (h.orderly hparser hw)).2.2 r hr
    exact ⟨t', ht', hfollows.trans hfollows'⟩
  | create h hfresh hid ih =>
    obtain ⟨r, hr, hfollows⟩ := ih
    exact ⟨r, RescanTask.mem_insertInto_of_mem (Nat.ne_of_lt (hid r hr)) hr, hfollows⟩
  | between _ htasks ih =>
    rw [htasks]
    exact ih

/-- Wherever the scheduler has got to, starting with fresh tasks: from there on each task goes forward only;
every task is orderly; at most one is under way; and the next step either leaves the tasks alone or succeeds
and takes the first unfinished one strictly further. -/
theorem Serves.life_cycle (hparser : LeavesStore parser) {w u v : Context σ}
    (hsorted : w.store.TasksSorted) (hfresh : ∀ t ∈ w.store.tasks, t.subject = t)
    (h : Serves parser w u) (h' : Serves parser u v) :
    (∀ t ∈ u.store.tasks, ∃ t' ∈ v.store.tasks, t.Follows t') ∧
      (∀ t ∈ v.store.tasks, t.Orderly) ∧
      (∀ t ∈ v.store.tasks, ∀ t' ∈ v.store.tasks, t.UnderWay → t'.UnderWay → t = t') ∧
      ∀ batch, Served batch v.store (exec (Rescan.step parser batch).run v) := by
  have hu := h.orderly hparser (.of_fresh hsorted hfresh)
  have hv := h'.orderly hparser hu
  exact ⟨h'.follows hparser hu, hv.tasks, fun t ht t' ht' hunder hunder' =>
    hv.exclusive ht hunder ht' hunder', fun batch => (step_served hparser batch hv).1⟩

namespace Sample

def payloadTask : RescanTask where
  id := 2
  kind := .delOperation
  contract := "nft_item"
  operationId := some 7

/-- The first commit is refused, and the first window of the first task is done. -/
def begun : Context Registry :=
  (exec (step registry 2).run (exec (step registry 2).run methodStart).2).2

def created : Context Registry :=
  { begun with store := begun.store.addTask payloadTask }

/-- Another master block arrives, and the scheduler goes on. -/
def served : Nat → Context Registry
  | 0 => { created with store := { created.store with blocks := created.store.blocks ++ [master 8] } }
  | n + 1 => (exec (step registry 2).run (served n)).2

end Sample

/-- The first task goes through its stages while the second one waits, and then the second one does. -/
theorem Serves.life_cycle_sample :
    LeavesStore registry ∧ Sample.methodStart.store.TasksSorted ∧
      (∀ t ∈ Sample.methodStart.store.tasks, t.subject = t) ∧
      Serves registry Sample.methodStart Sample.created ∧
      Serves registry Sample.created (Sample.served 2) ∧
      (∀ t ∈ Sample.created.store.tasks, ∃ t' ∈ (Sample.served 2).store.tasks, t.Follows t') ∧
      Sample.created.store.tasks.map (·.state) = [.accountsRescanning, .pending] ∧
      (Sample.served 2).store.tasks.map (·.state) = [.finished, .messagesRescanning] ∧
      (Sample.served 3).store.tasks.map (·.state) = [.finished, .finished] := by
  have hsorted : Sample.methodStart.store.TasksSorted := by decide +kernel
  have hfresh : ∀ t ∈ Sample.methodStart.store.tasks, t.subject = t := by decide +kernel
  have hbegun : Serves registry Sample.methodStart Sample.begun := (Serves.start.step 2).step 2
  have hid : ∀ r ∈ Sample.begun.store.tasks, r.id < Sample.payloadTask.id := by decide +kernel
  have hcreated : Serves registry Sample.methodStart Sample.created := hbegun.create rfl hid
  have hgrown : Serves registry Sample.created (Sample.served 0) := Serves.start.between rfl
  have hserved : Serves registry Sample.created (Sample.served 2) := (hgrown.step 2).step 2
  exact ⟨registry_leavesStore, hsorted, hfresh, hcreated, hserved,
    (Serves.life_cycle registry_leavesStore hsorted hfresh hcreated hserved).1,
    by decide +kernel, by decide +kernel, by decide +kernel⟩

end Rescan

end ShardIndex
