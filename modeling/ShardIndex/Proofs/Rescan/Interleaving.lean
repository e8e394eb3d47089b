import ShardIndex.Proofs.Rescan.Registry
import ShardIndex.Proofs.Rescan.Traces
/-!
# A rescan next to the forward path

The store is shared: before each single access of a step to it, any number of batches may arrive (`Traffic`).
The steps are those of the scheduler, run over such a store; commits are logged in their order, those of the
rescan with all that their step has read (`Shared`).

A step reads the last master block before any rows, so what arrives in the meantime is not in its window, and
the rows that it writes back are still as it has read them (`step_traced`). So the log of any run is a lawful
trace (`Interleaved.traced`), and no update is lost (`Interleaved.no_lost_update`).
-/
namespace ShardIndex.Rescan

/-! ## The shared store -/

/-- Batches that arrive one after the other, each at the store that those before it have left. -/
inductive Arrivals : Store → List (List Write) → Prop
  | nil (s : Store) : Arrivals s []
  | cons {s : Store} {ws : List Write} {rest : List (List Write)} (h : s.Arrival ws)
      (hrest : Arrivals (s.commit ws).2 rest) : Arrivals s (ws :: rest)

/-- The batches that the forward path commits before each access of the rescan to the store. -/
structure Traffic where
  batches : Nat → Store → List (List Write)
  arrivals : ∀ n s, Arrivals s (batches n s)

/-- What goes with a shared store. -/
structure Shared where
  traffic : Traffic
  /-- The accesses so far. -/
  accesses : Nat := 0
  /-- What the step that is being taken has read. -/
  reads : List Store := []
  log : List Event := []

/-- Commits batches one after the other. -/
def receive (s : Store) : List (List Write) → Store × List Event
  | [] => (s, [])
  | ws :: rest =>
    let (s', es) := receive (s.commit ws).2 rest
    (s', .arrival s (s.commit ws).2 :: es)

variable {σ : Type}

namespace Context

/-- Lets the batches in that arrive before the next access. -/
def arrived (w : Context (σ × Shared)) : Context (σ × Shared) :=
  let (p, shared) := w.parser
  let (s, es) := receive w.store (shared.traffic.batches shared.accesses w.store)
  { w with
    store := s
    parser := (p, { shared with accesses := shared.accesses + 1, log := shared.log ++ es }) }

/-- Notes what was read. -/
def note (w : Context (σ × Shared)) : Context (σ × Shared) :=
  { w with parser := (w.parser.1, { w.parser.2 with reads := w.parser.2.reads ++ [w.store] }) }

/-- Logs a commit of the rescan. -/
def rescan (w : Context (σ × Shared)) (s : Store) : Context (σ × Shared) :=
  { w with
    store := s
    parser := (w.parser.1,
      { w.parser.2 with log := w.parser.2.log ++ [.rescan w.parser.2.reads w.store s] }) }

/-- Nothing was read yet. -/
def begin (w : Context (σ × Shared)) : Context (σ × Shared) :=
  { w with parser := (w.parser.1, { w.parser.2 with reads := [] }) }

end Context

/-- Each access to a shared store lets batches in first. -/
instance : MonadStateOf Store (RescanM (σ × Shared)) where
  get w := (w.arrived.store, w.arrived.note)
  set s w := ((), w.arrived.rescan s)
  modifyGet f w := ((f w.arrived.store).1, w.arrived.rescan (f w.arrived.store).2)

theorem exec_run_read (w : Context (σ × Shared)) :
    exec (getThe Store : ExceptT Fault (RescanM (σ × Shared)) Store).run w =
      (.ok w.arrived.store, w.arrived.note) := rfl

theorem exec_run_rescan (ws : List Write) (w : Context (σ × Shared)) :
    exec (ExceptT.mk (modifyGetThe Store (·.commit ws)) :
      ExceptT Fault (RescanM (σ × Shared)) Unit).run w =
        ((w.arrived.store.commit ws).1, w.arrived.rescan (w.arrived.store.commit ws).2) := rfl

/-! ## Between two accesses -/

/-- From `c` on the context `w` was reached by reads and arrivals. -/
structure Proceeds (batch : UInt32) (c w : Context (σ × Shared)) : Prop where
  store : c.store.Extends w.store
  keyed : w.store.Keyed
  log : ∃ es, w.parser.2.log = c.parser.2.log ++ es ∧ Trace batch c.store es w.store
  reads : ∃ rs, w.parser.2.reads = c.parser.2.reads ++ rs ∧
    ∀ s ∈ rs, c.store.Extends s ∧ s.Extends w.store

section

variable {batch : UInt32} {c w v : Context (σ × Shared)}

theorem receive_traced : ∀ {batches : List (List Write)} {s : Store}, Arrivals s batches → s.Keyed →
    s.Extends (receive s batches).1 ∧ (receive s batches).1.Keyed ∧
      Trace batch s (receive s batches).2 (receive s batches).1
  | [], s, _, hkeyed => ⟨.refl s, hkeyed, .nil (.refl s)⟩
  | ws :: rest, s, .cons h hrest, hkeyed => by
    obtain ⟨hextends, hkeyed', htrace⟩ := receive_traced hrest (hkeyed.commit ws)
    have harrival : Event.Lawful batch (.arrival s (s.commit ws).2) := h.extended
    exact ⟨h.extended.trans hextends, hkeyed', .cons (.refl s) harrival htrace⟩

namespace Proceeds

theorem refl (hkeyed : c.store.Keyed) : Proceeds batch c c :=
  ⟨.refl _, hkeyed, ⟨[], by simp, .nil (.refl _)⟩, [], by simp, by simp⟩

theorem arrived (h : Proceeds batch c w) : Proceeds batch c w.arrived := by
  obtain ⟨hextends, hkeyed, ⟨es, hlog, htrace⟩, rs, hreads, hrs⟩ := h
  obtain ⟨hnew, hkeyed', htrace'⟩ :=
    receive_traced (w.parser.2.traffic.arrivals w.parser.2.accesses w.store) hkeyed
  refine ⟨hextends.trans hnew, hkeyed', ⟨es ++ _, ?_, htrace.append htrace'⟩, rs, hreads, fun s hs =>
    ⟨(hrs s hs).1, (hrs s hs).2.trans hnew⟩⟩
  rw [← List.append_assoc, ← hlog]
  rfl

theorem note (h : Proceeds batch c w) : Proceeds batch c w.note := by
  obtain ⟨hextends, hkeyed, hlog, rs, hreads, hrs⟩ := h
  refine ⟨hextends, hkeyed, hlog, rs ++ [w.store], ?_, fun s hs => ?_⟩
  · rw [← List.append_assoc, ← hreads]
    rfl
  · rcases List.mem_append.1 hs with hs | hs
    · exact hrs s hs
    · obtain rfl := List.mem_singleton.1 hs
      exact ⟨hextends, .refl _⟩

/-- A read finds a store that has grown by arrivals only. -/
theorem read :
    Ends (Within (Proceeds batch c) fun _ => True) (getThe Store : RescanM (σ × Shared) Store)
      fun s => c.store.Extends s := by
  intro w hw
  exact ⟨hw.1.arrived.store, hw.1.arrived.note, trivial⟩

theorem indifferent : Indifferent (Proceeds batch c) :=
  fun _ _ h => ⟨h.store, h.keyed, h.log, h.reads⟩

theorem lookup (address : Address) (beforeLt : UInt64) :
    Keeps (Within (Proceeds batch c) fun _ => True)
      ((Snapshots.lookup : Lookup (RescanM (σ × Shared))) address beforeLt).run := by
  intro w hw
  have h := hw.1.arrived.note
  exact ⟨⟨h.store, h.keyed, h.log, h.reads⟩, trivial⟩

end Proceeds

end

/-! ## Steps -/

section

variable {parser : Parser (RescanM (σ × Shared))} {batch : UInt32}

/-- The rows that a step has made of rows of its window are written back over these very rows: whatever has
arrived in the meantime is later. -/
theorem Origins.settle {s s' : Store} {t : RescanTask} {first last : UInt32}
    {rows : List AccountState × List Message} (hlast : ¬ s.Before last) (hs : s.Extends s')
    (h : Origins s.Extends t (plan batch t first last) rows) :
    Origins (· = s') t (plan batch t first last) rows := by
  have hbefore : ∀ n, (plan batch t first last).Covers n → ¬ s.Before n := by
    intro n hn hlater
    exact hlast fun b hb => UInt32.lt_of_lt_of_le (hlater b hb) hn.within.2
  refine ⟨fun b hb => ?_, fun b hb => ?_, h.noAccounts, h.noMessages⟩
  · obtain ⟨u, hu, a, ha, hchain, htypes, hcovers⟩ := h.accounts b hb
    have ha := (hu.accounts.mem_or ha).resolve_right (hbefore _ hcovers)
    exact ⟨s', rfl, a, hs.accounts.subset ha, hchain, htypes, hcovers⟩
  · obtain ⟨u, hu, a, ha, hchain, n, hn, hcovers⟩ := h.messages b hb
    have ha := (hu.messages.mem_or ha).resolve_right fun hall => hbefore n hcovers (hall n hn)
    exact ⟨s', rfl, a, hs.messages.subset ha, hchain, n, hn, hcovers⟩

/-- A checkpoint of a task that a plan was carried out for is the end of the plan's window, or as it was. -/
theorem checkpoint_advance {t : RescanTask} {last n : UInt32} {pl : Plan} {p : Phase}
    (h : p.checkpoint (finish (advance (skipPhases t) last pl)) = some n) :
    p.checkpoint t = some n ∨ ∃ start, pl.window? = some (start, n) := by
  match pl, p with
  | .accounts (some (start, _)), .accounts => exact .inr ⟨start, congrArg (Option.map (start, ·)) h⟩
  | .messages (some (start, _)), .messages => exact .inr ⟨start, congrArg (Option.map (start, ·)) h⟩
  | .accounts (some _), .messages | .messages (some _), .accounts => exact .inl h
  | .accounts none, .accounts | .messages none, .accounts | .nothing, .accounts => exact .inl h
  | .accounts none, .messages | .messages none, .messages | .nothing, .messages => exact .inl h

/-- What the commit of a step does, by what it has read: the task, the ends of the history, and from then on
stores that have grown by arrivals only. -/
theorem rescanned_commit {s₀ s₁ s before : Store} {rs : List Store} {task : RescanTask}
    {first last : UInt32} {rows : List AccountState × List Message} (hkeyed : before.Keyed)
    (htask : task ∈ before.tasks)
    (hjob : jobOf (s₀ :: s₁ :: s :: rs) = some (skipPhases task, first, last)) (hlast : ¬ s.Before last)
    (hs : s.Extends before) (hrs : ∀ r ∈ rs, s.Extends r ∧ r.Extends before)
    (h : Origins s.Extends (skipPhases task) (plan batch (skipPhases task) first last) rows) :
    Rescanned batch (s₀ :: s₁ :: s :: rs) before
      (before.commit (writes rows.1 rows.2
        (finish (advance (skipPhases task) last (plan batch (skipPhases task) first last))))).2 := by
  have hwindow : windowOf batch (s₀ :: s₁ :: s :: rs) =
      (plan batch (skipPhases task) first last).window? := by
    rw [windowOf, hjob]
    rfl
  constructor
  case visible =>
    intro start stop hw r hr
    rw [hwindow] at hw
    have hstop : ¬ s.Before stop := by
      intro hlater
      exact hlast fun b hb => UInt32.lt_of_lt_of_le (hlater b hb) (window_within hw).2
    rcases List.mem_cons.1 hr with rfl | hr
    · exact ⟨.of_extends hs, hstop⟩
    · exact ⟨.of_extends (hrs r hr).2, fun hlater => hstop ((hrs r hr).1.lastGrows.before hlater)⟩
  case revises =>
    cases hrefusals : before.refusals with
    | succ n =>
      rw [Sink.commit_of_refusals hrefusals]
      exact .of_same rfl rfl rfl rfl rfl
    | zero =>
      rw [Sink.commit_of_no_refusals hrefusals]
      refine ((h.settle hlast hs).revises hkeyed _).widen ?_
      rintro n ⟨start, stop, hw, hn⟩
      exact ⟨start, stop, hwindow.trans hw, hn⟩
  case checkpoint =>
    intro t' ht' hnew p n hn
    cases hrefusals : before.refusals with
    | succ k =>
      rw [Sink.commit_of_refusals hrefusals] at ht'
      exact absurd ht' hnew
    | zero =>
      rw [Sink.commit_of_no_refusals hrefusals, committed_writes] at ht'
      obtain rfl := (RescanTask.mem_insertInto ht').resolve_right hnew
      have hid := congrArg RescanTask.id
        (subject_finish task last (plan batch (skipPhases task) first last))
      rcases checkpoint_advance hn with hold | ⟨start, hw⟩
      · exact .inl ⟨task, htask, hid.symm, hold⟩
      · exact .inr ⟨start, hwindow.trans hw⟩

/-- From the context `w` on, `v` was reached by lawful commits, which are logged. -/
structure Traced (batch : UInt32) (w v : Context (σ × Shared)) : Prop where
  keyed : v.store.Keyed
  log : ∃ es, v.parser.2.log = w.parser.2.log ++ es ∧ Trace batch w.store es v.store

theorem Proceeds.traced {w v : Context (σ × Shared)} (h : Proceeds batch w v) : Traced batch w v :=
  ⟨h.keyed, h.log⟩

theorem Proceeds.trans_traced {w u v : Context (σ × Shared)} (h : Proceeds batch w u)
    (h' : Traced batch u v) : Traced batch w v := by
  obtain ⟨es, hlog, htrace⟩ := h.log
  obtain ⟨es', hlog', htrace'⟩ := h'.log
  exact ⟨h'.keyed, es ++ es', by rw [hlog', hlog, List.append_assoc], htrace.append htrace'⟩

/-- Rows are rewritten by what was read since `c`. -/
theorem carryOut_proceeds (hparser : Confined parser) (c : Context (σ × Shared)) (t : RescanTask)
    (pl : Plan) : Ends (Within (Proceeds batch c) fun _ => True) (carryOut parser t pl).run
      (Yields (Origins c.store.Extends t pl)) :=
  carryOut_origins (hparser.callsKeep Proceeds.indifferent Proceeds.lookup) Proceeds.lookup Proceeds.read t pl

/-- The commit of a step that has read the last master block in the context `c` and its rows since. -/
theorem Proceeds.rescanned {c v : Context (σ × Shared)} {s₀ s₁ : Store} {task : RescanTask}
    {first last : Block} {rows : List AccountState × List Message} (h : Proceeds batch c v)
    (hreads : c.parser.2.reads = [s₀, s₁, c.store]) (hu : s₀.unfinishedTask = some task)
    (hf : s₁.firstMaster = some first) (hl : c.store.lastMaster = some last)
    (htask : c.store.tasks = s₀.tasks)
    (horigins : Origins c.store.Extends (skipPhases task)
      (plan batch (skipPhases task) first.id.seqno last.id.seqno) rows) :
    Rescanned batch v.parser.2.reads v.store (v.store.commit (writes rows.1 rows.2 (finish
      (advance (skipPhases task) last.id.seqno
        (plan batch (skipPhases task) first.id.seqno last.id.seqno))))).2 := by
  obtain ⟨rs, hrs, hextends⟩ := h.reads
  have hstored : task ∈ v.store.tasks := by
    rw [h.store.tasks, htask]
    exact List.mem_of_find?_eq_some hu
  have hjob : jobOf (s₀ :: s₁ :: c.store :: rs) =
      some (skipPhases task, first.id.seqno, last.id.seqno) := by
    simp [jobOf, hu, hf, hl]
  have hlast : ¬ c.store.Before last.id.seqno :=
    fun hlater => UInt32.lt_irrefl _ (hlater last hl)
  rw [hrs, hreads]
  exact rescanned_commit h.keyed hstored hjob hlast h.store hextends horigins

/-- What the three reads that a step begins with leave behind. -/
structure Opened (batch : UInt32) (w c : Context (σ × Shared)) : Prop where
  proceeds : Proceeds batch w c
  reads : c.parser.2.reads = [w.arrived.store, w.arrived.note.arrived.store, c.store]
  tasks : c.store.tasks = w.arrived.store.tasks

theorem opened {w : Context (σ × Shared)} (hkeyed : w.store.Keyed) (hreads : w.parser.2.reads = []) :
    Opened batch w w.arrived.note.arrived.note.arrived.note := by
  have hfirst : Proceeds batch w w.arrived.note := (Proceeds.refl hkeyed).arrived.note
  have hothers : Proceeds batch w.arrived.note w.arrived.note.arrived.note.arrived.note :=
    (Proceeds.refl hfirst.keyed).arrived.note.arrived.note
  refine ⟨hfirst.arrived.note.arrived.note, ?_, hothers.store.tasks⟩
  change ((w.parser.2.reads ++ [_]) ++ [_]) ++ [_] = _
  rw [hreads]
  rfl

/-- What a step leaves behind once its rows are committed, or refused. -/
theorem Opened.committed {w c v : Context (σ × Shared)} {task : RescanTask} {first last : Block}
    {rows : List AccountState × List Message} (h : Opened batch w c) (hv : Proceeds batch c v)
    (hu : w.arrived.store.unfinishedTask = some task) (hf : w.arrived.note.arrived.store.firstMaster = some first)
    (hl : c.store.lastMaster = some last)
    (horigins : Origins c.store.Extends (skipPhases task)
      (plan batch (skipPhases task) first.id.seqno last.id.seqno) rows)
    {r : Except Fault Unit} {s : Store}
    (hr : v.store.commit (writes rows.1 rows.2 (finish (advance (skipPhases task) last.id.seqno
      (plan batch (skipPhases task) first.id.seqno last.id.seqno)))) = (r, s))
    (snapshots : Snapshots) (evictions : Nat → Address → Bool) :
    Traced batch w { v.rescan s with snapshots := snapshots, evictions := evictions } := by
  have hkeyed := hv.keyed.commit (writes rows.1 rows.2 (finish (advance (skipPhases task) last.id.seqno
    (plan batch (skipPhases task) first.id.seqno last.id.seqno))))
  have hrescanned := hv.rescanned h.reads hu hf hl h.tasks horigins
  rw [hr] at hkeyed hrescanned
  have hlawful : Event.Lawful batch (.rescan v.parser.2.reads v.store s) := hrescanned
  exact h.proceeds.trans_traced (hv.trans_traced ⟨hkeyed, _, rfl, Trace.single hlawful⟩)

/-- Whatever arrives while a step is taken, all that is committed in the meantime is lawful. -/
theorem step_traced (hparser : Confined parser) {w : Context (σ × Shared)} (hkeyed : w.store.Keyed)
    (hreads : w.parser.2.reads = []) :
    Traced batch w (exec (step parser batch).run w).2 := by
  have hopened : Opened batch w w.arrived.note.arrived.note.arrived.note := opened hkeyed hreads
  unfold step stepBy
  simp only [exec_run_bind, exec_run_read]
  cases hu : w.arrived.store.unfinishedTask with
  | none =>
    have hread : Proceeds batch w w.arrived.note := (Proceeds.refl hkeyed).arrived.note
    exact hread.traced
  | some task =>
    simp only [exec_run_bind, exec_run_read]
    cases hf : w.arrived.note.arrived.store.firstMaster with
    | none => exact hopened.proceeds.traced
    | some first =>
      cases hl : w.arrived.note.arrived.note.arrived.store.lastMaster with
      | none => exact hopened.proceeds.traced
      | some last =>
        simp only [exec_run_bind]
        -- from the third read on, the step goes by the context `c`
        obtain ⟨c, hc⟩ : ∃ c, c = w.arrived.note.arrived.note.arrived.note := ⟨_, rfl⟩
        have hclast : c.store.lastMaster = some last := hc ▸ hl
        rw [← hc] at hopened ⊢
        have hcarry : Ends (Within (Proceeds batch c) fun _ => True) _ _ :=
          carryOut_proceeds hparser c (skipPhases task)
            (plan batch (skipPhases task) first.id.seqno last.id.seqno)
        obtain ⟨horigins, hproceeds, -⟩ := hcarry c ⟨.refl hopened.proceeds.keyed, trivial⟩
        rcases hv : exec (carryOut parser (skipPhases task)
          (plan batch (skipPhases task) first.id.seqno last.id.seqno)).run c with ⟨fault | rows, v⟩
        · rw [hv] at hproceeds
          exact hopened.proceeds.trans_traced hproceeds.traced
        · rw [hv] at horigins hproceeds
          have harrived : Proceeds batch c v.arrived := hproceeds.arrived
          have horigins := horigins rows rfl
          simp only [exec_run_rescan]
          rcases hr : v.arrived.store.commit (writes rows.1 rows.2 (finish
            (advance (skipPhases task) last.id.seqno
              (plan batch (skipPhases task) first.id.seqno last.id.seqno)))) with ⟨fault | ⟨⟩, s⟩
          · exact hopened.committed harrived hu hf hclast horigins hr _ _
          · simp only [exec_run_modifySnapshots]
            split
            · exact hopened.committed harrived hu hf hclast horigins hr _ _
            · exact hopened.committed harrived hu hf hclast horigins hr _ _

/-! ## Runs -/

/-- What becomes of a shared store by steps of the rescan with windows of at most `batch` master blocks, while
batches arrive. Between steps tasks may be created, definitions may change, commits may be refused, windows may
get lost, and the parser may change its state. -/
inductive Interleaved (parser : Parser (RescanM (σ × Shared))) (batch : UInt32) :
    Context (σ × Shared) → Prop
  | start {w : Context (σ × Shared)} (hkeyed : w.store.Keyed) (hlog : w.parser.2.log = []) :
      Interleaved parser batch w
  | step {w : Context (σ × Shared)} (h : Interleaved parser batch w) :
      Interleaved parser batch (exec (step parser batch).run w.begin).2
  | arrive {w : Context (σ × Shared)} (h : Interleaved parser batch w) : Interleaved parser batch w.arrived
  | between {w v : Context (σ × Shared)} (h : Interleaved parser batch w) (hrests : w.store.Rests v.store)
      (hsorted : v.store.TasksSorted) (hlog : v.parser.2.log = w.parser.2.log) :
      Interleaved parser batch v

/-- The log of a run is a lawful trace. -/
theorem Interleaved.traced (hparser : Confined parser) {w : Context (σ × Shared)}
    (h : Interleaved parser batch w) :
    w.store.Keyed ∧ ∃ s, Trace batch s w.parser.2.log w.store := by
  have hextend : ∀ {w v : Context (σ × Shared)} {s : Store}, Trace batch s w.parser.2.log w.store →
      Traced batch w v → v.store.Keyed ∧ ∃ s, Trace batch s v.parser.2.log v.store := by
    rintro w v s htrace ⟨hkeyed, es, hlog, htrace'⟩
    exact ⟨hkeyed, s, hlog ▸ htrace.append htrace'⟩
  induction h with
  | @start w hkeyed hlog => exact ⟨hkeyed, w.store, hlog ▸ .nil (.refl _)⟩
  | @step w _ ih =>
    obtain ⟨hkeyed, s, htrace⟩ := ih
    exact hextend (w := w.begin) htrace (step_traced hparser hkeyed rfl)
  | arrive _ ih =>
    obtain ⟨hkeyed, s, htrace⟩ := ih
    exact hextend htrace (Proceeds.refl hkeyed).arrived.traced
  | between _ hrests hsorted hlog ih =>
    obtain ⟨hkeyed, s, htrace⟩ := ih
    refine ⟨⟨hrests.accounts ▸ hkeyed.accounts, hrests.messages ▸ hkeyed.messages, hsorted⟩, s, ?_⟩
    have happended := htrace.append (.nil hrests)
    rwa [List.append_nil, ← hlog] at happended

/-- Every row that was written by one of the commits of the log is still stored in `s`, unless a later step
has replaced it; and what a step has covered was shown to it. -/
structure Intact (batch : UInt32) (log : List Event) (s : Store) : Prop where
  blocks : ∀ es e later, log = es ++ e :: later → ∀ b ∈ e.after.blocks, b ∈ s.blocks
  transactions : ∀ es e later, log = es ++ e :: later → ∀ t ∈ e.after.transactions, t ∈ s.transactions
  /-- Snapshots and messages are replaced by steps whose windows have their master blocks. -/
  accounts : ∀ es e later, log = es ++ e :: later → ∀ a ∈ e.after.accounts, a ∈ s.accounts ∨
    ∃ x ∈ later, x.Replaces batch a.masterSeqno ∧ a ∈ x.before.accounts ∧ a ∉ x.after.accounts
  messages : ∀ es e later, log = es ++ e :: later → ∀ m ∈ e.after.messages, m ∈ s.messages ∨
    ∃ x ∈ later, (∃ n, m.masterSeqno? = some n ∧ x.Replaces batch n) ∧
      m ∈ x.before.messages ∧ m ∉ x.after.messages
  tasks : ∀ es e later, log = es ++ e :: later → ∀ t ∈ e.after.tasks, t ∈ s.tasks ∨
    ∃ x ∈ later, x.IsRescan ∧ t ∈ x.before.tasks ∧ t ∉ x.after.tasks
  /-- The last committed master block never goes back. -/
  last : ∀ e ∈ log, e.before.LastGrows e.after ∧ e.after.LastGrows s
  /-- A checkpoint is the one that the task had before, or the step that has committed it was shown all rows up
  to it that have ever been stored: by its third read and by each one after it. -/
  checkpoint : ∀ reads before after, .rescan reads before after ∈ log →
    ∀ t ∈ after.tasks, t ∉ before.tasks → ∀ (p : Phase) n, p.checkpoint t = some n →
      (∃ t₀ ∈ before.tasks, t₀.id = t.id ∧ p.checkpoint t₀ = some n) ∨
        ∀ r ∈ reads.drop 2, r.Shows n s

theorem Trace.intact {s s' : Store} {log : List Event} (h : Trace batch s log s') :
    Intact batch log s' := by
  have hsplit : ∀ es e later, log = es ++ e :: later → e.Lawful batch ∧ Trace batch e.after later s' := by
    rintro es e later rfl
    exact h.split.2
  constructor
  case blocks => exact fun es e later hlog b hb => (hsplit es e later hlog).2.block_kept hb
  case transactions => exact fun es e later hlog t ht => (hsplit es e later hlog).2.transaction_kept ht
  case accounts => exact fun es e later hlog a ha => (hsplit es e later hlog).2.account_kept ha
  case messages => exact fun es e later hlog m hm => (hsplit es e later hlog).2.message_kept hm
  case tasks => exact fun es e later hlog t ht => (hsplit es e later hlog).2.task_kept ht
  case last =>
    intro e he
    obtain ⟨es, later, hlog⟩ := List.append_of_mem he
    obtain ⟨hlawful, htrace⟩ := hsplit es e later hlog
    exact ⟨(Trace.grows_of_lawful hlawful).last, htrace.grows.last⟩
  case checkpoint =>
    intro reads before after he t ht hnew p n hn
    obtain ⟨es, later, hlog⟩ := List.append_of_mem he
    obtain ⟨hlawful, htrace⟩ := hsplit es _ later hlog
    have hrescanned : Rescanned batch reads before after := hlawful
    refine (hrescanned.checkpoint t ht hnew p n hn).imp_right ?_
    rintro ⟨start, hwindow⟩ r hr
    obtain ⟨hgrows, hlast⟩ := hrescanned.visible start n hwindow r hr
    exact ((hgrows.trans (Trace.grows_of_lawful hlawful)).trans htrace.grows).shows hlast

/-- No update is lost between the rescan and the forward path, however batches fall between the accesses of
the steps. -/
theorem Interleaved.no_lost_update (hparser : Confined parser) {w : Context (σ × Shared)}
    (h : Interleaved parser batch w) : Intact batch w.parser.2.log w.store := by
  obtain ⟨-, s, htrace⟩ := h.traced hparser
  exact htrace.intact

end

/-! ## A sample -/

namespace Sample

/-- The fourth master block, with a snapshot. -/
def late : List Write :=
  [.blocks [master 8], .accounts [wallet 50 8]]

/-- The batch arrives after the second step has read the last master block, and before its range query. -/
def traffic : Traffic where
  batches n s := if n = 10 ∧ s.Arrival late then [late] else []
  arrivals n s := by
    split
    · rename_i h
      exact .cons h.2 (.nil _)
    · exact .nil _

def shared : Context (Registry × Shared) where
  store := { start.store with refusals := 0 }
  snapshots := .empty 4
  parser := ({}, { traffic := traffic })
  evictions := fun _ _ => false

def interleaved : Nat → Context (Registry × Shared)
  | 0 => shared
  | n + 1 => (exec (step Registry.parser 2).run (interleaved n).begin).2

end Sample

/-- The snapshot that arrives in the middle of the second step is not touched by it: the step covers the three
master blocks that it has read, though its range query finds four. -/
theorem Interleaved.no_lost_update_sample :
    Confined (Registry.parser : Parser (RescanM (Registry × Shared))) ∧
      Interleaved Registry.parser 2 (Sample.interleaved 4) ∧
      Intact 2 (Sample.interleaved 4).parser.2.log (Sample.interleaved 4).store ∧
      (Sample.interleaved 2).parser.2.log.map (fun e => (e.before.masterNumbers, e.after.masterNumbers)) =
        [([5, 6, 7], [5, 6, 7]), ([5, 6, 7], [5, 6, 7, 8]), ([5, 6, 7, 8], [5, 6, 7, 8])] ∧
      (Sample.interleaved 4).store.accounts.map (fun a => (a.masterSeqno, a.types)) =
        [(5, []), (7, []), (8, ["wallet"])] ∧
      (Sample.interleaved 4).store.tasks.map (fun t => (t.accountsMaster, t.messagesMaster)) =
        [(some 7, some 8)] := by
  have hstart : Interleaved Registry.parser 2 Sample.shared :=
    .start ⟨by decide +kernel, by decide +kernel, by decide +kernel⟩ rfl
  have hstop : Interleaved Registry.parser 2 (Sample.interleaved 4) := hstart.step.step.step.step
  exact ⟨registry_confined, hstop, Interleaved.no_lost_update registry_confined hstop, by decide +kernel,
    by decide +kernel, by decide +kernel⟩

end ShardIndex.Rescan
