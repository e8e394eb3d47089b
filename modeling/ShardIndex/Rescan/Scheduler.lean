import ShardIndex.Rescan.Accounts
import ShardIndex.Rescan.Messages
/-!
# The rescan scheduler

One step works on the unfinished task with the least id and brings one window of master blocks up
to date. The accounts phase comes first; the messages phase starts once it has covered the last
committed master block. Rewritten rows and the checkpoint of the task are committed together.

| here | in the indexer |
| --- | --- |
| `nextWindow` | `RescanScheduler.next_window` |
| `skipPhases`, `plan`, `advance`, `finish` | how `RescanScheduler.step` goes through the phases |
| `writes` | the transaction that it commits |
| `step` | `RescanScheduler.step` |
-/
namespace ShardIndex.Rescan

/-- The next window of at most `batch` master blocks after a checkpoint, within the committed range
from `first` to `last`. A checkpoint before the range counts as none. -/
def nextWindow (batch : UInt32) (checkpoint : Option UInt32) (first last : UInt32) :
    Option (UInt32 × UInt32) :=
  let top := UInt32.ofNat (UInt32.size - 1)
  let start : Option UInt32 :=
    match checkpoint with
    | some c => if c < first then some first else if c = top then none else some (c + 1)
    | none => some first
  match start with
  | none => none
  | some start =>
    if last < start then none
    else
      let size := max batch 1 - 1
      let stop := if top - start < size then top else start + size
      some (start, min stop last)

/-- The task with the phases that its kind does without marked as done. -/
def skipPhases (t : RescanTask) : RescanTask :=
  { t with
    accountsDone := t.accountsDone || !t.kind.rescansAccounts
    messagesDone := t.messagesDone || !t.kind.rescansMessages }

/-- What a step is going to do. -/
inductive Plan where
  | accounts (window : Option (UInt32 × UInt32))
  | messages (window : Option (UInt32 × UInt32))
  | nothing
deriving DecidableEq, Inhabited

/-- The phase a task is in, with the window that comes next in it. -/
def plan (batch : UInt32) (t : RescanTask) (first last : UInt32) : Plan :=
  if !t.accountsDone then .accounts (nextWindow batch t.accountsMaster first last)
  else if !t.messagesDone then .messages (nextWindow batch t.messagesMaster first last)
  else .nothing

/-- The task once its plan was carried out. A phase without a window left is done. -/
def advance (t : RescanTask) (last : UInt32) : Plan → RescanTask
  | .accounts (some (_, stop)) =>
    { t with accountsMaster := some stop, accountsDone := decide (last ≤ stop) }
  | .accounts none => { t with accountsDone := true }
  | .messages (some (_, stop)) =>
    { t with messagesMaster := some stop, messagesDone := decide (last ≤ stop) }
  | .messages none => { t with messagesDone := true }
  | .nothing => t

/-- A task is finished when both phases are done. -/
def finish (t : RescanTask) : RescanTask :=
  { t with finished := t.accountsDone && t.messagesDone }

/-- The writes of a step: the changed rows, then the task. -/
def writes (accounts : List AccountState) (messages : List Message) (t : RescanTask) : List Write :=
  (if accounts.isEmpty then [] else [.accounts accounts]) ++
    (if messages.isEmpty then [] else [.messages messages]) ++ [.task t]

variable {M : Type → Type} [Monad M] [MonadStateOf Store M] [MonadStateOf Snapshots M]

/-- The rows that a plan changes, where accounts are looked up in some way. -/
def carryOutWith (parser : Parser M) (lookup : Lookup M) (t : RescanTask) :
    Plan → ExceptT Fault M (List AccountState × List Message)
  | .accounts (some (start, stop)) => do
    return (← accounts parser lookup t start stop, [])
  | .messages (some (start, stop)) => do
    return ([], ← messages parser lookup t start stop)
  | _ => return ([], [])

/-- The rows that a plan changes. Accounts are looked up in the windows of snapshots. -/
def carryOut (parser : Parser M) : RescanTask → Plan →
    ExceptT Fault M (List AccountState × List Message) :=
  carryOutWith parser Snapshots.lookup

/-- Works on the unfinished task for one window of master blocks, where plans are carried out in some
way. The result is the task as it was committed, or `none` when there is nothing to do. -/
def stepBy (act : RescanTask → Plan → ExceptT Fault M (List AccountState × List Message))
    (batch : UInt32) : ExceptT Fault M (Option RescanTask) := do
  match (← getThe Store).unfinishedTask with
  | none => return none
  | some task =>
    match (← getThe Store).firstMaster, (← getThe Store).lastMaster with
    | some first, some last =>
      let task := skipPhases task
      let plan := plan batch task first.id.seqno last.id.seqno
      let (accounts, messages) ← act task plan
      let task := finish (advance task last.id.seqno plan)
      ExceptT.mk (modifyGetThe Store (·.commit (writes accounts messages task)))
      modifyThe Snapshots fun c => accounts.foldl (fun c s => c.invalidate s.address) c
      if task.finished then
        modifyThe Snapshots (·.clear)
      return some task
    | _, _ => return none

/-- One step of the scheduler (`RescanScheduler.step`), which reads history through the windows of
snapshots. -/
def step (parser : Parser M) (batch : UInt32) : ExceptT Fault M (Option RescanTask) :=
  stepBy (carryOut parser) batch

/-- Works on until a task is finished, nothing is left to do, a step fails, or so many steps are
done. The result has the task as each step left it, and the fault of the step that failed. -/
def steps (parser : Parser M) (batch : UInt32) : Nat → M (List RescanTask × Option Fault)
  | 0 => return ([], none)
  | n + 1 => do
    match ← (step parser batch).run with
    | .error fault => return ([], some fault)
    | .ok none => return ([], none)
    | .ok (some task) =>
      if task.finished then
        return ([task], none)
      else do
        let (tasks, fault) ← steps parser batch n
        return (task :: tasks, fault)

end ShardIndex.Rescan
