import ShardIndex.Rescan.Task
import ShardIndex.Snapshot
/-!
# Rescan of messages

Interface tasks put the labels of messages right: a side whose label was or becomes the task's
contract takes the first label that its account had right after the side's transaction. A message
with a new label is read again. Operation tasks read again, or forget, the payloads of the messages
that go by the operation, provided that the account of their side has the contract's interface.

| here | in the indexer |
| --- | --- |
| `sideState`, `relabelSide` | `RescanScheduler.side_label` and what is done with its answer |
| `sideHasInterface` | `RescanScheduler.side_has_interface` |
| `rewriteOperations` | `RescanScheduler.rescan_operation` |
| `relabelAll` | `RescanScheduler.relabel_messages` |
| `messages` | `RescanScheduler.rescan_messages` |
-/
namespace ShardIndex.Rescan

/-- The operation id that a task is about. -/
def operationIdOf (t : RescanTask) : Except Fault UInt32 :=
  match t.operationId with
  | some id => .ok id
  | none => .error (.taskWithoutOperation t.id)

/-- The kind of messages that an operation task selects: the task's own, or else the one in the
definition, which an updated operation must have. -/
def operationKind (s : Store) (t : RescanTask) (id : UInt32) :
    Except Fault (Option MessageKind) :=
  match t.kind with
  | .updOperation =>
    match s.operation? t.contract t.direction id with
    | some o => .ok (some (t.messageKind.getD o.kind))
    | none => .error (.undefinedOperation t.contract id)
  | _ => .ok t.messageKind

/-- The account and the logical time that decide about one side of a message: the moment right
after the side's transaction. -/
def sideMoment (side : Side) : Option (Address × UInt64) := do
  let address ← side.address
  let tx ← side.tx
  return (address, if tx.lt = UInt64.ofNat (UInt64.size - 1) then tx.lt else tx.lt + 1)

variable {M : Type → Type} [Monad M]

/-- The state of a side's account right after the side's transaction, if both are known. -/
def sideState (lookup : Lookup M) (side : Side) : ExceptT Fault M (Option AccountState) :=
  match sideMoment side with
  | some (address, beforeLt) => lookup address beforeLt
  | none => return none

/-- Whether the account of a side has an interface; without a known state the side's label
decides. -/
def sideHasInterface (lookup : Lookup M) (side : Side) (contract : ContractName) :
    ExceptT Fault M Bool := do
  match sideMoment side with
  | none => return false
  | some (address, beforeLt) =>
    match ← lookup address beforeLt with
    | some state => return state.hasInterface contract
    | none => return side.contract == some contract

/-- The payload of a message, read again or forgotten. -/
def rewriteOperation (parser : Parser M) (t : RescanTask) (m : Message) :
    ExceptT Fault M Message :=
  match t.kind with
  | .updOperation => parser.fillMessage m.clearPayload
  | _ => return m.clearPayload

/-- Rewrites the messages of an operation and keeps the changed ones. -/
def rewriteOperations (parser : Parser M) (lookup : Lookup M) (t : RescanTask) :
    List Message → ExceptT Fault M (List Message)
  | [] => return []
  | m :: rest => do
    let concerned ← sideHasInterface lookup (m.side t.direction) t.contract
    let rewritten ← if concerned then rewriteOperation parser t m else pure m
    let changed ← rewriteOperations parser lookup t rest
    return if rewritten = m then changed else rewritten :: changed

/-- The message with the label of one side put right, if the task's contract has to do with it. -/
def relabelSide (lookup : Lookup M) (contract : ContractName) (m : Message) (d : Direction) :
    ExceptT Fault M Message := do
  match ← sideState lookup (m.side d) with
  | none => return m
  | some state =>
    let current := (m.side d).contract
    let label := state.types.head?
    if current = some contract ∨ label = some contract then
      return m.relabel d label
    else
      return m

/-- The message with the labels of both sides put right and, if one has changed, its payload read
again. -/
def relabel (parser : Parser M) (lookup : Lookup M) (contract : ContractName) (m : Message) :
    ExceptT Fault M (Option Message) := do
  let relabelled ← relabelSide lookup contract m .outgoing
  let relabelled ← relabelSide lookup contract relabelled .incoming
  if relabelled = m then
    return none
  else
    return some (← parser.fillMessage relabelled.clearPayload)

/-- Relabels messages and keeps the changed ones. -/
def relabelAll (parser : Parser M) (lookup : Lookup M) (contract : ContractName) :
    List Message → ExceptT Fault M (List Message)
  | [] => return []
  | m :: rest => do
    let changed ← relabel parser lookup contract m
    return changed.toList ++ (← relabelAll parser lookup contract rest)

/-- The changed messages of a range of master blocks. -/
def messages [MonadStateOf Store M] (parser : Parser M) (lookup : Lookup M) (t : RescanTask)
    (first last : UInt32) : ExceptT Fault M (List Message) := do
  match t.kind with
  | .updOperation | .delOperation =>
    let id ← ExceptT.mk (pure (operationIdOf t))
    let kind ← ExceptT.mk (pure (operationKind (← getThe Store) t id))
    let filter : MessageFilter :=
      { operationId := some id, kind := kind, direction := some t.direction }
    rewriteOperations parser lookup t ((← getThe Store).messagesInRange filter first last)
  | .addInterface | .updInterface | .delInterface =>
    relabelAll parser lookup t.contract ((← getThe Store).messagesInRange {} first last)
  | .addMethod | .updMethod | .delMethod => return []

end ShardIndex.Rescan
