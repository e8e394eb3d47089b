import ShardIndex.Entity.Message
/-!
# Rescan tasks

A task records that contract definitions have changed and how far the indexed history was brought
up to date: account snapshots first, messages second. Each phase has a checkpoint, the last master
block it has covered, and is done or not.

| here | in the indexer |
| --- | --- |
| `RescanKind` | `RescanTaskType`, with its `rescans_accounts` and `rescans_messages` |
| `RescanTask.state` | `RescanTask.state` |
-/
namespace ShardIndex

/-- How the definitions of a contract have changed. -/
inductive RescanKind where
  | addInterface
  | updInterface
  | delInterface
  | addMethod
  | updMethod
  | delMethod
  | updOperation
  | delOperation
deriving DecidableEq, Repr, Inhabited

namespace RescanKind

/-- Whether the change bears on account snapshots. -/
def rescansAccounts : RescanKind → Bool
  | .updOperation | .delOperation => false
  | _ => true

/-- Whether the change bears on messages: interface changes relabel them, operation changes read
their payloads again. -/
def rescansMessages : RescanKind → Bool
  | .addInterface | .updInterface | .delInterface | .updOperation | .delOperation => true
  | .addMethod | .updMethod | .delMethod => false

end RescanKind

inductive RescanState where
  | pending
  | accountsRescanning
  | messagesRescanning
  | finished
deriving DecidableEq, Repr, Inhabited

/-- A durable mark of progress. -/
structure RescanTask where
  id : Nat
  finished : Bool := false
  kind : RescanKind
  contract : ContractName
  method : Option String := none
  messageKind : Option MessageKind := none
  direction : Direction := .incoming
  operationId : Option UInt32 := none
  /-- The last master block whose account snapshots were rescanned. -/
  accountsMaster : Option UInt32 := none
  accountsDone : Bool := false
  /-- The last master block whose messages were rescanned. -/
  messagesMaster : Option UInt32 := none
  messagesDone : Bool := false
deriving DecidableEq, Inhabited

/-- The stage that a task has reached. -/
def RescanTask.state (t : RescanTask) : RescanState :=
  if t.finished then .finished
  else if t.accountsDone then .messagesRescanning
  else if t.accountsMaster.isNone then .pending
  else .accountsRescanning

end ShardIndex
