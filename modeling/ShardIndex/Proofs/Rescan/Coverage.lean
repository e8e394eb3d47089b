import ShardIndex.Proofs.Forward.Tables
import ShardIndex.Proofs.Rescan.Commits
import ShardIndex.Proofs.Rescan.Phases
import ShardIndex.Proofs.Rescan.Registry
/-!
# A rescan covers history once

`Run` follows one task through any number of steps of the rescan. Any step may fail. Between steps the
history may grow, and everything else may change, the definitions as well as the other tasks
(`Store.GrowsInto`). The steps that committed the task are logged, each with its plan and the master
blocks that there were.

`Run.tracked` carries `Progress` from step to step, so a task covers the history up to the block at which
a phase was done once and without gaps (`Run.covered_once`).
-/
namespace ShardIndex

/-! ## Histories -/

namespace Store

/-- The numbers of the committed master blocks. -/
def masterNumbers (s : Store) : List Nat :=
  (s.blocks.filter (·.isMasterchain)).map (·.id.seqno.toNat)

/-- The committed history starts with the master block `first`, if there is one. -/
def StartsAt (s : Store) (first : UInt32) : Prop :=
  ∀ b, s.firstMaster = some b → b.id.seqno = first

instance (s : Store) (first : UInt32) : Decidable (s.StartsAt first) :=
  decidable_of_iff (s.firstMaster.all fun b => b.id.seqno == first) (by
    cases h : s.firstMaster <;> simp [StartsAt, h])

/-- What may happen to the store while nobody works on the task `k`. -/
structure GrowsInto (k : Nat) (first : UInt32) (s s' : Store) : Prop where
  sorted : s'.TasksSorted
  startsAt : s'.StartsAt first
  task : s'.task? k = s.task? k
  last : ∀ b, s.lastMaster = some b → ∃ b', s'.lastMaster = some b' ∧ b.id.seqno ≤ b'.id.seqno

variable {s s' : Store} {b : Block}

theorem StartsAt.of_blocks {first : UInt32} (h : s.StartsAt first) (hblocks : s'.blocks = s.blocks) :
    s'.StartsAt first := by
  unfold StartsAt firstMaster
  rw [hblocks]
  exact h

theorem lastMaster_congr (hblocks : s'.blocks = s.blocks) : s'.lastMaster = s.lastMaster := by
  rw [lastMaster, hblocks, lastMaster]

theorem lastMaster_spec (h : s.lastMaster = some b) :
    b.id.seqno.toNat ∈ s.masterNumbers ∧ ∀ n ∈ s.masterNumbers, n ≤ b.id.seqno.toNat := by
  obtain ⟨hmem, hmax⟩ := lastGreatest_spec (fun _ _ => UInt32.lt_iff_toNat_lt) h
  refine ⟨List.mem_map_of_mem hmem, ?_⟩
  intro n hn
  obtain ⟨x, hx, rfl⟩ := List.mem_map.1 hn
  exact hmax x hx

theorem firstMaster_mem (h : s.firstMaster = some b) : b.id.seqno.toNat ∈ s.masterNumbers :=
  List.mem_map_of_mem (firstLeast_spec (fun _ _ => UInt32.lt_iff_toNat_lt) h).1

theorem lastMaster_eq_none (h : s.firstMaster = none) : s.lastMaster = none :=
  lastGreatest_eq_none.2 (firstLeast_eq_none.1 h)

end Store

namespace Rescan

variable {σ : Type} {parser : Parser (RescanM σ)} {batch first : UInt32} {k : Nat} {kind : RescanKind}

theorem job_eq_none {s : Store} (h : job s = none) : s.unfinishedTask = none ∨ s.lastMaster = none := by
  unfold job at h
  cases hu : s.unfinishedTask with
  | none => exact .inl rfl
  | some t =>
    cases hf : s.firstMaster with
    | none => exact .inr (Store.lastMaster_eq_none hf)
    | some b =>
      cases hl : s.lastMaster with
      | none => exact .inr rfl
      | some b' => simp [hu, hf, hl] at h

theorem job_eq_some {s : Store} {t : RescanTask} {first last : UInt32}
    (h : job s = some (t, first, last)) : ∃ task f l, s.unfinishedTask = some task ∧
      s.firstMaster = some f ∧ s.lastMaster = some l ∧
      t = skipPhases task ∧ first = f.id.seqno ∧ last = l.id.seqno := by
  unfold job at h
  cases hu : s.unfinishedTask with
  | none => simp [hu] at h
  | some task =>
    cases hf : s.firstMaster with
    | none => simp [hu, hf] at h
    | some f =>
      cases hl : s.lastMaster with
      | none => simp [hu, hf, hl] at h
      | some l =>
        simp only [hu, hf, hl, Option.pure_def, Option.bind_eq_bind, Option.bind_some, Option.some.injEq,
          Prod.mk.injEq] at h
        exact ⟨task, f, l, rfl, rfl, rfl, h.1.symm, h.2.1.symm, h.2.2.symm⟩

/-! ## Steps -/

/-- What a step may leave behind. A step that fails leaves everything as it is. One that succeeds shows all the
rows that it rewrote and the task together, and the checkpoint of the task is the end of the window that the
rows are of. -/
inductive Leaves (parser : Parser (RescanM σ)) (batch : UInt32) (w : Context σ) :
    Except Fault (Option RescanTask) × Context σ → Prop
  | idle (h : w.store.unfinishedTask = none ∨ w.store.lastMaster = none) :
      Leaves parser batch w (.ok none, w)
  | failed {fault : Fault} {v : Context σ} (h : v.store.data = w.store.data) :
      Leaves parser batch w (.error fault, v)
  | committed {t t' : RescanTask} {first last : UInt32} {rows : List AccountState × List Message}
      {u v : Context σ} (hjob : job w.store = some (t, first, last))
      (hrows : exec (carryOut parser t (plan batch t first last)).run w = (.ok rows, u))
      (hu : u.store = w.store) (ht : t' = finish (advance t last (plan batch t first last)))
      (hcheckpoint : ∀ (p : Phase) start stop, p.window? (plan batch t first last) = some (start, stop) →
        p.checkpoint t' = some stop)
      (hv : Rewrites w.store rows t' v.store) : Leaves parser batch w (.ok (some t'), v)

theorem checkpoint_finish_advance {t : RescanTask} {pl : Plan} {p : Phase} {last start stop : UInt32}
    (h : p.window? pl = some (start, stop)) : p.checkpoint (finish (advance t last pl)) = some stop := by
  cases p <;> cases pl <;> cases h <;> rfl

theorem step_leaves (hparser : LeavesStore parser) (batch : UInt32) (w : Context σ) :
    Leaves parser batch w (exec (step parser batch).run w) := by
  have hkeeps : ∀ {t : RescanTask} {pl : Plan} {r : Except Fault (List AccountState × List Message)}
      {v : Context σ}, exec (carryOut parser t pl).run w = (r, v) → v.store = w.store := by
    intro t pl r v hv
    have hstore := carryOut_keeps (hparser w.store) (lookup_leavesStore w.store) t pl w rfl
    rw [hv] at hstore
    exact hstore
  generalize hr : exec (step parser batch).run w = r
  cases hr ▸ step_spec parser batch w with
  | idle h => exact .idle (job_eq_none h)
  | stuck _ h => exact .failed (by rw [hkeeps h])
  | @refused t first last rows v n _ h hrefusals =>
    refine .failed ?_
    rw [← hkeeps h]
    rfl
  | @committed t first last rows v hjob h _ =>
    refine .committed hjob h (hkeeps h) rfl (fun p start stop => checkpoint_finish_advance) ?_
    rw [rewrites_iff, Context.store_commit, hkeeps h]

/-! ## Runs -/

/-- The entry of a step, if it committed the task `k`. -/
def logged (batch : UInt32) (k : Nat) (s : Store) : Except Fault (Option RescanTask) → List Entry
  | .ok (some t') =>
    match job s with
    | some (t, first, last) =>
      if t'.id = k then [⟨t', plan batch t first last, s.masterNumbers, last.toNat⟩] else []
    | none => []
  | _ => []

/-- What becomes of a fresh task `k` whose history starts with the master block `first`, with the
entries of the steps that committed it. -/
inductive Run (parser : Parser (RescanM σ)) (batch : UInt32) (k : Nat) (first : UInt32)
    (kind : RescanKind) : Context σ → List Entry → Prop
  | start {w : Context σ} {t : RescanTask} (hsorted : w.store.TasksSorted)
      (hstart : w.store.StartsAt first) (ht : w.store.task? k = some t) (hkind : t.kind = kind)
      (hfresh : Fresh first t) : Run parser batch k first kind w []
  | step {w : Context σ} {es : List Entry} (h : Run parser batch k first kind w es) :
      Run parser batch k first kind (exec (step parser batch).run w).2
        (es ++ logged batch k w.store (exec (step parser batch).run w).1)
  | between {w v : Context σ} {es : List Entry} (h : Run parser batch k first kind w es)
      (hgrows : w.store.GrowsInto k first v.store) : Run parser batch k first kind v es

/-- What is known of the store after the steps `es` for the task `k`. -/
structure Tracked (batch : UInt32) (k : Nat) (first : UInt32) (kind : RescanKind) (s : Store)
    (es : List Entry) : Prop where
  sorted : s.TasksSorted
  startsAt : s.StartsAt first
  task : ∃ t, s.task? k = some t ∧ t.kind = kind ∧ Progress batch first es t
  last : ∀ e ∈ es, ∃ b, s.lastMaster = some b ∧ e.last ≤ b.id.seqno.toNat
  greatest : ∀ e ∈ es, e.last ∈ e.masters ∧ ∀ n ∈ e.masters, n ≤ e.last

namespace Tracked

variable {s s' : Store} {es : List Entry}

theorem grow (h : Tracked batch k first kind s es) (hg : s.GrowsInto k first s') :
    Tracked batch k first kind s' es where
  sorted := hg.sorted
  startsAt := hg.startsAt
  task := by rw [hg.task]; exact h.task
  last e he := by
    obtain ⟨b, hb, hle⟩ := h.last e he
    obtain ⟨b', hb', hle'⟩ := hg.last b hb
    exact ⟨b', hb', Nat.le_trans hle (UInt32.le_iff_toNat_le.1 hle')⟩
  greatest := h.greatest

theorem of_data_eq (h : Tracked batch k first kind s es) (hd : s'.data = s.data) :
    Tracked batch k first kind s' es := by
  have htasks : s'.tasks = s.tasks := (congrArg Store.tasks hd :)
  have hblocks : s'.blocks = s.blocks := (congrArg Store.blocks hd :)
  refine h.grow ⟨?_, ?_, ?_, fun b hb => ⟨b, ?_, UInt32.le_refl _⟩⟩
  · rw [Store.TasksSorted, htasks]
    exact h.sorted
  · exact h.startsAt.of_blocks hblocks
  · rw [Store.task?, htasks, Store.task?]
  · exact (Store.lastMaster_congr hblocks).trans hb

/-- A commit for another task leaves this one alone. -/
theorem commit_other (h : Tracked batch k first kind s es) (accounts : List AccountState)
    (messages : List Message) {t' : RescanTask} (hk : t'.id ≠ k) :
    Tracked batch k first kind (s.committed (writes accounts messages t')) es := by
  have hblocks := blocks_committed s accounts messages t'
  refine h.grow ⟨sorted_committed h.sorted _ _ _, h.startsAt.of_blocks hblocks, ?_, fun b hb => ?_⟩
  · rw [task?_committed h.sorted, if_neg hk]
  · exact ⟨b, (Store.lastMaster_congr hblocks).trans hb, UInt32.le_refl _⟩

/-- A commit for the task takes it one window further. -/
theorem commit_self (h : Tracked batch k first kind s es) {task : RescanTask}
    (htask : s.task? k = some task) (hunfinished : task.finished = false) {l : Block}
    (hl : s.lastMaster = some l) (hle : first.toNat ≤ l.id.seqno.toNat) (accounts : List AccountState)
    (messages : List Message) {pl : Plan} (hpl : pl = plan batch (skipPhases task) first l.id.seqno)
    {t' : RescanTask} (ht' : t' = finish (advance (skipPhases task) l.id.seqno pl)) (hk : t'.id = k) :
    Tracked batch k first kind (s.committed (writes accounts messages t'))
      (es ++ [⟨t', pl, s.masterNumbers, l.id.seqno.toNat⟩]) := by
  have hblocks := blocks_committed s accounts messages t'
  have hmore : ∀ e ∈ es, e.last ≤ l.id.seqno.toNat := by
    intro e he
    obtain ⟨b, hb, hbe⟩ := h.last e he
    rw [hl] at hb
    exact Option.some.inj hb ▸ hbe
  obtain ⟨r, hr, hkind, hprogress⟩ := h.task
  obtain rfl : r = task := by
    rw [htask] at hr
    exact (Option.some.inj hr).symm
  obtain ⟨p, start, stop, turn⟩ := exists_turn batch (hprogress.left hunfinished)
    (hprogress.room hle hmore)
  rw [← hpl, ← ht'] at turn
  refine ⟨sorted_committed h.sorted _ _ _, h.startsAt.of_blocks hblocks, ⟨t', ?_, turn.kind.trans hkind,
    hprogress.extend turn s.masterNumbers hle hmore⟩, ?_, ?_⟩
  · rw [task?_committed h.sorted, if_pos hk]
  · intro e he
    rw [Store.lastMaster_congr hblocks, hl]
    rcases List.mem_append.1 he with he | he
    · exact ⟨l, rfl, hmore e he⟩
    · obtain rfl := List.mem_singleton.1 he
      exact ⟨l, rfl, Nat.le_refl _⟩
  · intro e he
    rcases List.mem_append.1 he with he | he
    · exact h.greatest e he
    · obtain rfl := List.mem_singleton.1 he
      exact Store.lastMaster_spec hl

/-- A commit either takes the task one window further or leaves it alone. -/
theorem commit (h : Tracked batch k first kind s es) {t : RescanTask} {first' last : UInt32}
    (hjob : job s = some (t, first', last)) (accounts : List AccountState) (messages : List Message)
    {t' : RescanTask} (ht' : t' = finish (advance t last (plan batch t first' last))) :
    Tracked batch k first kind (s.committed (writes accounts messages t'))
      (es ++ logged batch k s (.ok (some t'))) := by
  obtain ⟨task, f, l, hu, hf, hl, rfl, rfl, rfl⟩ := job_eq_some hjob
  obtain ⟨htask, hunfinished⟩ := task?_of_unfinishedTask h.sorted hu
  have hfirst : f.id.seqno = first := h.startsAt f hf
  have hle : first.toNat ≤ l.id.seqno.toNat := by
    rw [← hfirst]
    exact (Store.lastMaster_spec hl).2 _ (Store.firstMaster_mem hf)
  have hid : t'.id = task.id := by
    subst ht'
    unfold finish advance
    split <;> rfl
  have hlogged : logged batch k s (.ok (some t')) = if t'.id = k then
      [⟨t', plan batch (skipPhases task) f.id.seqno l.id.seqno, s.masterNumbers, l.id.seqno.toNat⟩]
      else [] := by
    simp only [logged, hjob]
  rw [hlogged, hfirst]
  by_cases hk : t'.id = k
  · rw [if_pos hk]
    rw [hfirst] at ht'
    rw [← hid, hk] at htask
    exact h.commit_self htask hunfinished hl hle accounts messages rfl ht' hk
  · rw [if_neg hk, List.append_nil]
    exact h.commit_other accounts messages hk

end Tracked

theorem Run.tracked (hparser : LeavesStore parser) {w : Context σ} {es : List Entry}
    (h : Run parser batch k first kind w es) : Tracked batch k first kind w.store es := by
  induction h with
  | start hsorted hstart ht hkind hfresh =>
    exact ⟨hsorted, hstart, ⟨_, ht, hkind, .of_fresh hfresh⟩, by simp, by simp⟩
  | @step w es _ ih =>
    generalize hr : exec (Rescan.step parser batch).run w = r
    cases hr ▸ step_leaves hparser batch w with
    | idle _ => simpa [logged] using ih
    | failed hd => simpa [logged] using ih.of_data_eq hd
    | @committed t t' first last rows u v hjob hrows hu ht hcheckpoint hv =>
      rw [rewrites_iff.1 hv]
      exact ih.commit hjob rows.1 rows.2 ht
  | between _ hgrows ih => exact ih.grow hgrows

/-! ## Coverage -/

/-- The windows of a phase list the history once, in order and without gaps: up to the checkpoint, and
once the phase is done up to the block that was the last one at the step which marked it. -/
structure Covers (p : Phase) (batch first : UInt32) (es : List Entry) (t : RescanTask) : Prop where
  sized : ∀ window ∈ p.windows es,
    window.1.toNat ≤ window.2.toNat ∧ window.2.toNat < window.1.toNat + width batch
  skipped : p.required t.kind = false → p.windows es = []
  covered : p.required t.kind = true → (p.windows es).flatMap heights =
    List.range' first.toNat (resumeAt (p.checkpoint t) first - first.toNat)
  done : p.required t.kind = true → p.done t = true →
    ∃ e, p.doneBy es = some e ∧ (e.last ∈ e.masters ∧ ∀ n ∈ e.masters, n ≤ e.last) ∧
      (p.windows es).flatMap heights = List.range' first.toNat (e.last + 1 - first.toNat)

/-- A step shows in the store as a whole or not at all; the windows that were committed for a phase
cover the history exactly once, messages at least as far as accounts; and in a history of `n`
consecutive master blocks a task is finished after exactly as many committed steps as its phases have
full or started windows. -/
theorem Run.covered_once (hparser : LeavesStore parser) {w : Context σ} {es : List Entry}
    (h : Run parser batch k first kind w es) :
    Leaves parser batch w (exec (Rescan.step parser batch).run w) ∧
      ∃ t, w.store.task? k = some t ∧ t.kind = kind ∧
        (∀ p, Covers p batch first es t) ∧
        (Phase.messages.required kind = true → ∀ a m,
          Phase.accounts.doneBy es = some a → Phase.messages.doneBy es = some m → a.last ≤ m.last) ∧
        ∀ n, 0 < n → (∀ e ∈ es, e.masters.Perm (List.range' first.toNat n)) →
          (t.finished = true ↔ es.length = Phase.count kind * (n ⌈/⌉ width batch)) ∧
            es.length ≤ Phase.count kind * (n ⌈/⌉ width batch) := by
  have htracked := h.tracked hparser
  obtain ⟨t, ht, rfl, hprogress⟩ := htracked.task
  refine ⟨step_leaves hparser batch w, t, ht, rfl, ?_, ?_, ?_⟩
  · intro p
    refine ⟨hprogress.sized p, fun hreq => (hprogress.skipped p hreq).1, hprogress.covered p, ?_⟩
    intro hreq hdone
    obtain ⟨e, he, hresume, -⟩ := hprogress.done p hreq hdone
    refine ⟨e, he, htracked.greatest e (List.mem_of_find?_eq_some he), ?_⟩
    rw [hprogress.covered p hreq, hresume]
  · intro hreq a m ha hm
    exact hprogress.last_le_last hreq ha hm
  · intro n hn hfix
    refine hprogress.finished_iff hn ?_
    intro e he
    obtain ⟨hmem, hmax⟩ := htracked.greatest e he
    have hlast : first.toNat + (n - 1) ∈ e.masters := by
      rw [(hfix e he).mem_iff, List.mem_range'_1]
      omega
    rw [(hfix e he).mem_iff, List.mem_range'_1] at hmem
    have := hmax _ hlast
    omega

/-! ## A sample -/

namespace Sample

def master (seqno : UInt32) : Block where
  id := ⟨.masterchain, seqno, 0, 0⟩
  masterRef := none
  genTime := 0
  startLt := 0
  endLt := 0
  transactions := []

/-- A snapshot of an account that is labelled as a wallet. -/
def wallet (lt : UInt64) (seqno : UInt32) : AccountState where
  address := ⟨0, 1⟩
  block := ⟨.basechain, seqno⟩
  masterSeqno := seqno
  updatedAt := 0
  status := .active
  balance := 0
  lastTxLt := lt
  lastTxHash := 0
  types := ["wallet"]

/-- A message that the wallet sends. -/
def sent : Message where
  hash := 1
  kind := .externalOut
  source := { address := some ⟨0, 1⟩, tx := some ⟨0, 10, ⟨.basechain, 5⟩, 5⟩, contract := some "wallet" }

/-- Three master blocks, and a store that refuses the first commit. -/
def start : Context Registry where
  store := {
    blocks := [master 5, master 6, master 7]
    accounts := [wallet 10 5, wallet 30 7]
    messages := [sent]
    tasks := [{ id := 1, kind := .delInterface, contract := "wallet" }]
    refusals := 1 }
  snapshots := .empty 4
  parser := {}
  evictions := fun _ _ => false

def next (r : Context Registry × List Entry) : Context Registry × List Entry :=
  ((exec (step registry 2).run r.1).2,
    r.2 ++ logged 2 1 r.1.store (exec (step registry 2).run r.1).1)

/-- Another master block is committed. -/
def grow (w : Context Registry) : Context Registry :=
  { w with store := { w.store with blocks := w.store.blocks ++ [master 8] } }

/-- The accounts are done when the fourth master block arrives. -/
def stop : Context Registry × List Entry :=
  let r := next (next (next (start, [])))
  next (next (grow r.1, r.2))

/-- The labels of snapshots, those of the senders of messages, and the checkpoints of tasks. -/
def shown (w : Context Registry) : List (List ContractName) × List (Option ContractName) ×
    List (Option UInt32 × Option UInt32) :=
  (w.store.accounts.map (·.types), w.store.messages.map (·.source.contract),
    w.store.tasks.map fun t => (t.accountsMaster, t.messagesMaster))

end Sample

/-- The refused step leaves no trace. After the next one the first snapshot has lost its label and the task has
its checkpoint; in the end the messages are covered further than the accounts. -/
theorem Run.covered_once_sample :
    LeavesStore registry ∧ Run registry 2 1 5 .delInterface Sample.stop.1 Sample.stop.2 ∧
      Leaves registry 2 Sample.stop.1 (exec (Rescan.step registry 2).run Sample.stop.1) ∧
      Sample.shown (Sample.next (Sample.start, [])).1 =
        ([["wallet"], ["wallet"]], [some "wallet"], [(none, none)]) ∧
      Sample.shown (Sample.next (Sample.next (Sample.start, []))).1 =
        ([[], ["wallet"]], [some "wallet"], [(some 6, none)]) ∧
      Sample.shown Sample.stop.1 = ([[], []], [none], [(some 7, some 8)]) ∧
      (∃ t, Sample.stop.1.store.task? 1 = some t ∧ t.finished = true ∧
        ∀ p, Covers p 2 5 Sample.stop.2 t) ∧
      Phase.accounts.windows Sample.stop.2 = [(5, 6), (7, 7)] ∧
      Phase.messages.windows Sample.stop.2 = [(5, 6), (7, 8)] := by
  have hstart : Run registry 2 1 5 .delInterface Sample.start [] := by
    refine .start (by decide +kernel) (by decide +kernel) rfl rfl ⟨rfl, ?_, ?_⟩
    · intro p _
      cases p <;> rfl
    · intro p _
      cases p <;> rfl
  have hgrown : Run registry 2 1 5 .delInterface
      (Sample.grow (Sample.next (Sample.next (Sample.next (Sample.start, [])))).1)
      (Sample.next (Sample.next (Sample.next (Sample.start, [])))).2 := by
    refine .between hstart.step.step.step ⟨by decide +kernel, by decide +kernel, rfl, ?_⟩
    intro b hb
    refine ⟨Sample.master 8, by decide +kernel, ?_⟩
    obtain rfl : Sample.master 7 = b := by
      rw [← Option.some.injEq, ← hb]
      decide +kernel
    decide
  have hstop : Run registry 2 1 5 .delInterface Sample.stop.1 Sample.stop.2 := hgrown.step.step
  obtain ⟨hleaves, t, ht, -, hcovers, -⟩ := Run.covered_once registry_leavesStore hstop
  have hfin : (Sample.stop.1.store.task? 1).map (·.finished) = some true := by decide +kernel
  rw [ht] at hfin
  exact ⟨registry_leavesStore, hstop, hleaves, by decide +kernel, by decide +kernel, by decide +kernel,
    ⟨t, ht, Option.some.inj hfin, hcovers⟩, by decide +kernel, by decide +kernel⟩

end Rescan

end ShardIndex
