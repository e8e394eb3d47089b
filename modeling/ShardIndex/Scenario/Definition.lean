import ShardIndex.Contract.Definition
import ShardIndex.Scenario.Value
import ShardIndex.Store.Query
/-!
# Definitions, tasks and filters in scenarios
-/
namespace ShardIndex.Scenario

def interface : Read ContractInterface := fun j => do
  return {
    name := ← required str j "name"
    addresses := ← list address j "addresses"
    codeHash := ← optional hash j "code_hash"
    methodHashes := ← list word32 j "get_method_hashes"
    methods := ← list str j "get_methods" }

def operation : Read ContractOperation := fun j => do
  return {
    contract := ← required str j "contract"
    kind := ← orElse messageKind j "message_type" .internal
    direction := ← orElse direction j "outgoing" .incoming
    operationId := ← required word32 j "operation_id"
    name := ← required str j "name" }

/-- The operation that a task is about, put into the task. -/
def taskOperation (t : RescanTask) : Read RescanTask := fun j => do
  return { t with
    messageKind := some (← required messageKind j "message_type")
    direction := ← required direction j "outgoing"
    operationId := some (← required word32 j "id") }

def task : Read RescanTask := fun j => do
  let t : RescanTask :=
    { id := ← required nat j "id"
      kind := ← required rescanKind j "type"
      contract := ← required str j "contract"
      method := ← optional str j "get_method" }
  let t ← orElse (taskOperation t) j "operation" t
  return { t with
    finished := ← orElse bool j "finished" false
    messageKind := ← clearable messageKind j "message_type" t.messageKind
    direction := ← orElse direction j "outgoing" t.direction
    operationId := ← clearable word32 j "operation_id" t.operationId
    accountsMaster := ← optional word32 j "accounts_last_master"
    accountsDone := ← orElse bool j "accounts_rescan_done" false
    messagesMaster := ← optional word32 j "messages_last_master"
    messagesDone := ← orElse bool j "messages_rescan_done" false }

def accountFilter : Read AccountFilter := fun j => do
  return {
    interface := ← optional interface j "interface"
    withType := ← optional str j "with_type" }

def messageFilter : Read MessageFilter := fun j => do
  return {
    operationId := ← optional word32 j "operation_id"
    kind := ← optional messageKind j "message_type"
    direction := ← optional direction j "outgoing" }

end ShardIndex.Scenario
