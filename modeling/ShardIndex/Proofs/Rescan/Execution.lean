import ShardIndex.Proofs.Forward.Sink
import ShardIndex.Proofs.Rescan.Congruence
/-!
# What a step of the rescan can do

A rescan runs against a store, windows of snapshots and a parser with a state of its own
(`Rescan.Context`). Windows may get lost whenever they are looked at: `evictions` says which ones, so
nothing that is proved here depends on how many windows are kept.

A step has one of four outcomes (`Rescan.Stepped`): there was nothing to do; the rows could not be
rewritten; the commit was refused; or the rewritten rows and the task were committed together. Where
parsers have no access to the store (`Rescan.LeavesStore`), only the last one shows in it.
-/
namespace ShardIndex

variable {σ α β : Type}

/-- The store but for the commits that it is going to refuse. -/
def Store.data (s : Store) : Store :=
  { s with refusals := 0 }

namespace Rescan

/-! ## Executions -/

/-- What a rescan works on. -/
structure Context (σ : Type) where
  store : Store
  snapshots : Snapshots
  /-- The state of the parser. -/
  parser : σ
  /-- The accounts whose windows get lost before the next looks at the windows, look by look. -/
  evictions : Nat → Address → Bool

/-- The context after windows got lost. -/
def Context.evict (w : Context σ) : Context σ :=
  { w with
    snapshots := { w.snapshots with
      histories := w.snapshots.histories.filter fun e => !w.evictions 0 e.1 }
    evictions := fun n => w.evictions (n + 1) }

/-- Programs of the rescan. -/
abbrev RescanM (σ : Type) := StateM (Context σ)

instance : MonadStateOf Store (RescanM σ) where
  get w := (w.store, w)
  set s w := ((), { w with store := s })
  modifyGet f w := ((f w.store).1, { w with store := (f w.store).2 })

instance : MonadStateOf Snapshots (RescanM σ) where
  get w := (w.evict.snapshots, w.evict)
  set c w := ((), { w.evict with snapshots := c })
  modifyGet f w := ((f w.evict.snapshots).1, { w.evict with snapshots := (f w.evict.snapshots).2 })

/-- The state of the parser is that of the program. -/
@[reducible] def parserState : MonadStateOf σ (RescanM σ) where
  get w := (w.parser, w)
  set p w := ((), { w with parser := p })
  modifyGet f w := ((f w.parser).1, { w with parser := (f w.parser).2 })

/-- Runs a program in a context. -/
def exec (x : RescanM σ α) (w : Context σ) : α × Context σ :=
  x w

@[simp] theorem exec_pure (a : α) (w : Context σ) : exec (pure a : RescanM σ α) w = (a, w) := rfl

@[simp] theorem exec_bind (x : RescanM σ α) (f : α → RescanM σ β) (w : Context σ) :
    exec (x >>= f) w = exec (f (exec x w).1) (exec x w).2 := rfl

@[simp] theorem exec_getStore (w : Context σ) :
    exec (getThe Store : RescanM σ Store) w = (w.store, w) := rfl

@[simp] theorem exec_modifyGetStore (f : Store → α × Store) (w : Context σ) :
    exec (modifyGetThe Store f : RescanM σ α) w =
      ((f w.store).1, { w with store := (f w.store).2 }) := rfl

@[simp] theorem exec_modifyGetSnapshots (f : Snapshots → α × Snapshots) (w : Context σ) :
    exec (modifyGetThe Snapshots f : RescanM σ α) w =
      ((f w.evict.snapshots).1, { w.evict with snapshots := (f w.evict.snapshots).2 }) := rfl

@[simp] theorem exec_modifySnapshots (f : Snapshots → Snapshots) (w : Context σ) :
    exec (modifyThe Snapshots f : RescanM σ Unit) w =
      ((), { w.evict with snapshots := f w.evict.snapshots }) := rfl

/-- A program that may fault: what follows a fault is not run. -/
theorem exec_run_bind {ε : Type} (x : ExceptT ε (RescanM σ) α) (f : α → ExceptT ε (RescanM σ) β)
    (w : Context σ) :
    exec (x >>= f).run w =
      match exec x.run w with
      | (.ok a, v) => exec (f a).run v
      | (.error e, v) => (.error e, v) := by
  rw [ExceptT.run_bind, exec_bind]
  rcases exec x.run w with ⟨e | a, v⟩ <;> rfl

theorem exec_run_getStore (w : Context σ) :
    exec (getThe Store : ExceptT Fault (RescanM σ) Store).run w = (.ok w.store, w) := rfl

theorem exec_run_commit (writes : List Write) (w : Context σ) :
    exec (ExceptT.mk (modifyGetThe Store (·.commit writes)) : ExceptT Fault (RescanM σ) Unit).run w =
      ((w.store.commit writes).1, { w with store := (w.store.commit writes).2 }) := rfl

theorem exec_run_modifySnapshots (f : Snapshots → Snapshots) (w : Context σ) :
    exec (modifyThe Snapshots f : ExceptT Fault (RescanM σ) Unit).run w =
      (.ok (), { w.evict with snapshots := f w.evict.snapshots }) := rfl

/-! ## What programs keep -/

/-- The program keeps a property of the context, whatever it ends with. -/
def Keeps (I : Context σ → Prop) (x : RescanM σ α) : Prop :=
  ∀ w, I w → I (exec x w).2

namespace Keeps

variable {I : Context σ → Prop} {ε : Type}

theorem run_pure (a : α) : Keeps I (Pure.pure a : ExceptT ε (RescanM σ) α).run := fun _ h => h

theorem run_mk (r : Except ε α) : Keeps I (ExceptT.mk (Pure.pure r) : ExceptT ε (RescanM σ) α).run :=
  fun _ h => h

theorem run_getStore : Keeps I (getThe Store : ExceptT ε (RescanM σ) Store).run := fun _ h => h

theorem run_bind {x : ExceptT ε (RescanM σ) α} {f : α → ExceptT ε (RescanM σ) β}
    (hx : Keeps I x.run) (hf : ∀ a, Keeps I (f a).run) : Keeps I (x >>= f).run := by
  intro w h
  have hw := hx w h
  rw [exec_run_bind]
  cases hr : exec x.run w with
  | mk r v =>
    rw [hr] at hw
    cases r with
    | error e => exact hw
    | ok a => exact hf a v hw

theorem run_lift {x : RescanM σ α} (hx : Keeps I x) :
    Keeps I (ExceptT.lift x : ExceptT ε (RescanM σ) α).run := by
  intro w h
  exact hx w h

end Keeps

/-- The calls to the parser that a rescan makes keep a property of the context. -/
structure ParserKeeps (I : Context σ → Prop) (parser : Parser (RescanM σ)) : Prop where
  readAccount : ∀ s types, Keeps I (parser.readAccount s types Snapshots.lookup).run
  callMethod : ∀ s contract method, Keeps I (parser.callMethod s contract method Snapshots.lookup).run
  readPayload : ∀ m, Keeps I (parser.readPayload m).run

/-- The same for calls that look accounts up in some other way. -/
structure CallsKeep (I : Context σ → Prop) (parser : Parser (RescanM σ)) (lookup : Lookup (RescanM σ)) :
    Prop where
  readAccount : ∀ s types, Keeps I (parser.readAccount s types lookup).run
  callMethod : ∀ s contract method, Keeps I (parser.callMethod s contract method lookup).run
  readPayload : ∀ m, Keeps I (parser.readPayload m).run

theorem ParserKeeps.calls {I : Context σ → Prop} {parser : Parser (RescanM σ)} (h : ParserKeeps I parser) :
    CallsKeep I parser Snapshots.lookup :=
  ⟨h.readAccount, h.callMethod, h.readPayload⟩

theorem keeps_congruence (I : Context σ → Prop) :
    Congruence fun {α} (x _ : ExceptT Fault (RescanM σ) α) => Keeps I x.run where
  result := Keeps.run_mk
  bind := Keeps.run_bind
  getStore := Keeps.run_getStore

section

variable {I : Context σ → Prop} {parser : Parser (RescanM σ)} {lookup : Lookup (RescanM σ)}
  (hp : CallsKeep I parser lookup) (hl : ∀ address beforeLt, Keeps I (lookup address beforeLt).run)

include hp

theorem CallsKeep.relates :
    RelatesCalls (fun {α} (x _ : ExceptT Fault (RescanM σ) α) => Keeps I x.run)
      parser lookup parser lookup where
  readAccount s types := .run_lift (hp.readAccount s types)
  callMethod s contract method := .run_lift (hp.callMethod s contract method)
  readPayload m := .run_lift (hp.readPayload m)

theorem accounts_keeps (t : RescanTask) (first last : UInt32) :
    Keeps I (accounts parser lookup t first last).run :=
  (keeps_congruence I).accounts hp.relates t first last

include hl

theorem messages_keeps (t : RescanTask) (first last : UInt32) :
    Keeps I (messages parser lookup t first last).run :=
  (keeps_congruence I).messages hp.relates hl t first last

/-- Nothing that a plan does touches what lookups and the parser keep. -/
theorem carryOutWith_keeps (t : RescanTask) (plan : Plan) :
    Keeps I (carryOutWith parser lookup t plan).run :=
  (keeps_congruence I).carryOutWith hp.relates hl t plan

end

theorem carryOut_keeps {I : Context σ → Prop} {parser : Parser (RescanM σ)} (hp : ParserKeeps I parser)
    (hl : ∀ address beforeLt, Keeps I ((Snapshots.lookup : Lookup (RescanM σ)) address beforeLt).run)
    (t : RescanTask) (plan : Plan) : Keeps I (carryOut parser t plan).run :=
  carryOutWith_keeps hp.calls hl t plan

/-! ## Steps -/

/-- The task that a step works on, without the phases that its kind does without, and the numbers of
the first and the last committed master block. -/
def job (s : Store) : Option (RescanTask × UInt32 × UInt32) := do
  let task ← s.unfinishedTask
  let first ← s.firstMaster
  let last ← s.lastMaster
  return (skipPhases task, first.id.seqno, last.id.seqno)

/-- The context after the rows and the task were committed: the windows of the rewritten accounts are
forgotten, and with the task all of them. -/
def Context.commit (w : Context σ) (accounts : List AccountState) (messages : List Message)
    (task : RescanTask) : Context σ :=
  let w := { w with store := w.store.committed (writes accounts messages task) }
  let w := { w.evict with
    snapshots := accounts.foldl (fun c s => c.invalidate s.address) w.evict.snapshots }
  if task.finished then { w.evict with snapshots := w.evict.snapshots.clear } else w

theorem Context.store_commit (w : Context σ) (accounts : List AccountState) (messages : List Message)
    (t : RescanTask) :
    (w.commit accounts messages t).store = w.store.committed (writes accounts messages t) := by
  unfold Context.commit
  dsimp only
  split <;> rfl

theorem Context.parser_commit (w : Context σ) (accounts : List AccountState)
    (messages : List Message) (t : RescanTask) : (w.commit accounts messages t).parser = w.parser := by
  unfold Context.commit
  dsimp only
  split <;> rfl

variable {act : RescanTask → Plan → ExceptT Fault (RescanM σ) (List AccountState × List Message)}

/-- What a step can end with. -/
inductive Stepped
    (act : RescanTask → Plan → ExceptT Fault (RescanM σ) (List AccountState × List Message))
    (batch : UInt32) (w : Context σ) :
    Except Fault (Option RescanTask) × Context σ → Prop
  | idle (h : job w.store = none) : Stepped act batch w (.ok none, w)
  | stuck {task : RescanTask} {first last : UInt32} {fault : Fault} {v : Context σ}
      (hjob : job w.store = some (task, first, last))
      (h : exec (act task (plan batch task first last)).run w = (.error fault, v)) :
      Stepped act batch w (.error fault, v)
  | refused {task : RescanTask} {first last : UInt32} {rows : List AccountState × List Message}
      {v : Context σ} {n : Nat} (hjob : job w.store = some (task, first, last))
      (h : exec (act task (plan batch task first last)).run w = (.ok rows, v))
      (hr : v.store.refusals = n + 1) :
      Stepped act batch w
        (.error .commitRefused, { v with store := { v.store with refusals := n } })
  | committed {task : RescanTask} {first last : UInt32} {rows : List AccountState × List Message}
      {v : Context σ} (hjob : job w.store = some (task, first, last))
      (h : exec (act task (plan batch task first last)).run w = (.ok rows, v))
      (hr : v.store.refusals = 0) :
      Stepped act batch w
        (.ok (some (finish (advance task last (plan batch task first last)))),
          v.commit rows.1 rows.2 (finish (advance task last (plan batch task first last))))

theorem stepBy_spec (batch : UInt32) (w : Context σ) :
    Stepped act batch w (exec (stepBy act batch).run w) := by
  unfold stepBy
  simp only [exec_run_bind, exec_run_getStore]
  cases hu : w.store.unfinishedTask with
  | none => exact .idle (by simp [job, hu])
  | some task =>
    simp only [exec_run_bind, exec_run_getStore]
    cases hf : w.store.firstMaster with
    | none => exact .idle (by simp [job, hu, hf])
    | some first =>
      cases hl : w.store.lastMaster with
      | none => exact .idle (by simp [job, hu, hf, hl])
      | some last =>
        have hjob : job w.store = some (skipPhases task, first.id.seqno, last.id.seqno) := by
          simp [job, hu, hf, hl]
        simp only [exec_run_bind]
        rcases hc : exec (act (skipPhases task)
          (plan batch (skipPhases task) first.id.seqno last.id.seqno)).run w with ⟨fault | rows, v⟩
        · exact .stuck hjob hc
        · simp only [exec_run_commit]
          cases hr : v.store.refusals with
          | succ n =>
            simp only [Sink.commit_of_refusals hr]
            exact .refused hjob hc hr
          | zero =>
            have hdone := Stepped.committed hjob hc hr
            simp only [Sink.commit_of_no_refusals hr, exec_run_modifySnapshots]
            unfold Context.commit at hdone
            split at hdone
            · rename_i hfin
              rw [if_pos hfin]
              exact hdone
            · rename_i hfin
              rw [if_neg hfin]
              exact hdone

theorem step_spec (parser : Parser (RescanM σ)) (batch : UInt32) (w : Context σ) :
    Stepped (carryOut parser) batch w (exec (step parser batch).run w) :=
  stepBy_spec batch w

/-! ## What a step does to the store -/

/-- The parser has no access to the store. -/
def LeavesStore (parser : Parser (RescanM σ)) : Prop :=
  ∀ s : Store, ParserKeeps (fun w => w.store = s) parser

theorem lookup_leavesStore (s : Store) (address : Address) (beforeLt : UInt64) :
    Keeps (fun w => w.store = s) ((Snapshots.lookup : Lookup (RescanM σ)) address beforeLt).run :=
  fun _ h => h

end Rescan

end ShardIndex
