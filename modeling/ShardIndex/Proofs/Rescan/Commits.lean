import ShardIndex.Proofs.Rescan.Execution
import ShardIndex.Proofs.Store.Transactions
/-!
# What a rescan commits

A commit of the rescan writes snapshots, messages and one task; nothing else in the store changes
(`Rewrites`, `rewrites_iff`). No commit makes a second row under a key (`Store.Keyed`).
-/
namespace ShardIndex

/-! ## Keys -/

namespace Store

/-- Tables have one row under a key, as commits make them. -/
structure Keyed (s : Store) : Prop where
  accounts : (s.accounts.map accountKey).Nodup
  messages : (s.messages.map (·.hash)).Nodup
  tasks : s.TasksSorted

namespace Keyed

variable {s : Store}

theorem committed (h : s.Keyed) (ws : List Write) : (s.committed ws).Keyed where
  accounts := StoreTable.snapshots.inOrder_written (s := { s with refusals := 0 }) h.accounts ws _
  messages := StoreTable.messages.inOrder_written (s := { s with refusals := 0 }) h.messages ws _
  tasks := StoreTable.tasks.inOrder_written (s := { s with refusals := 0 }) h.tasks ws _

/-- No commit makes a second row under a key. -/
theorem commit (h : s.Keyed) (ws : List Write) : (s.commit ws).2.Keyed where
  accounts := StoreTable.snapshots.inOrder_commit h.accounts ws
  messages := StoreTable.messages.inOrder_commit h.messages ws
  tasks := StoreTable.tasks.inOrder_commit h.tasks ws

end Keyed

end Store

namespace Rescan

/-- The task that a step works on is the one under its id. -/
theorem task?_of_unfinishedTask {s : Store} (hs : s.TasksSorted) {t : RescanTask}
    (h : s.unfinishedTask = some t) : s.task? t.id = some t ∧ t.finished = false := by
  have hmem := List.mem_of_find?_eq_some h
  refine ⟨?_, by simpa using List.find?_some h⟩
  cases hfind : s.task? t.id with
  | none => simpa using List.find?_eq_none.1 hfind t hmem
  | some r =>
    have hid : r.id = t.id := by simpa using List.find?_some hfind
    have hnodup : (s.tasks.map (·.id)).Nodup := hs.imp Nat.ne_of_lt
    rw [List.inj_on_of_nodup_map hnodup (List.mem_of_find?_eq_some hfind) hmem hid]

/-- What a commit of the rescan shows: every rewritten row in the place of the row with its key, and the task in
the place of the one under its id. The other tables are as they were. -/
structure Rewrites (s : Store) (rows : List AccountState × List Message) (t : RescanTask) (s' : Store) :
    Prop where
  accounts : s'.accounts = rows.1.foldl Store.putAccount s.accounts
  messages : s'.messages = rows.2.foldl Store.putMessage s.messages
  tasks : s'.tasks = t.insertInto s.tasks
  blocks : s'.blocks = s.blocks
  transactions : s'.transactions = s.transactions
  interfaces : s'.interfaces = s.interfaces
  operations : s'.operations = s.operations
  commits : s'.commits = s.commits
  refusals : s'.refusals = 0

/-- Nothing but the rows and the task that it writes changes by a commit of the rescan. -/
theorem committed_writes (s : Store) (accounts : List AccountState) (messages : List Message)
    (t : RescanTask) :
    s.committed (writes accounts messages t) =
      { s with
        accounts := accounts.foldl Store.putAccount s.accounts
        messages := messages.foldl Store.putMessage s.messages
        tasks := t.insertInto s.tasks
        refusals := 0 } := by
  unfold writes Store.committed
  cases accounts <;> cases messages <;> rfl

theorem rewrites_iff {s s' : Store} {rows : List AccountState × List Message} {t : RescanTask} :
    Rewrites s rows t s' ↔ s' = s.committed (writes rows.1 rows.2 t) := by
  rw [committed_writes]
  constructor
  · rintro ⟨haccounts, hmessages, htasks, hblocks, htransactions, hinterfaces, hoperations, hcommits, hrefusals⟩
    rw [← haccounts, ← hmessages, ← htasks, ← hblocks, ← htransactions, ← hinterfaces, ← hoperations,
      ← hcommits, ← hrefusals]
  · rintro rfl
    exact ⟨rfl, rfl, rfl, rfl, rfl, rfl, rfl, rfl, rfl⟩

theorem blocks_committed (s : Store) (accounts : List AccountState) (messages : List Message)
    (t : RescanTask) : (s.committed (writes accounts messages t)).blocks = s.blocks := by
  rw [committed_writes]

theorem sorted_committed {s : Store} (h : s.TasksSorted) (accounts : List AccountState)
    (messages : List Message) (t : RescanTask) :
    (s.committed (writes accounts messages t)).TasksSorted := by
  rw [committed_writes]
  exact RescanTask.sorted_insertInto t h

theorem task?_committed {s : Store} (h : s.TasksSorted) (accounts : List AccountState)
    (messages : List Message) (t : RescanTask) (k : Nat) :
    (s.committed (writes accounts messages t)).task? k = if t.id = k then some t else s.task? k := by
  rw [committed_writes]
  exact RescanTask.find?_insertInto t k h

end Rescan

end ShardIndex
