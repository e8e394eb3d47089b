import ShardIndex.Contract.Definition
import ShardIndex.Entity.Names
import ShardIndex.Report.Value
/-!
# Reports on definitions and rescan tasks
-/
namespace ShardIndex

open Json

/-- Whether the direction is the one of senders. -/
def Direction.toJson (d : Direction) : Json :=
  .bool (d == .outgoing)

def ContractInterface.toJson (i : ContractInterface) : Json :=
  .object
    [("name", .string i.name),
     ("addresses", ofList ofAddress i.addresses),
     ("code_hash", ofOption ofHash i.codeHash),
     ("get_method_hashes", ofList ofWord i.methodHashes),
     ("get_methods", ofList .string i.methods)]

def ContractOperation.toJson (o : ContractOperation) : Json :=
  .object
    [("contract", .string o.contract),
     ("message_type", .string o.kind.name),
     ("outgoing", o.direction.toJson),
     ("operation_id", ofWord o.operationId),
     ("name", .string o.name)]

def RescanTask.toJson (t : RescanTask) : Json :=
  .object
    [("id", ofNat t.id),
     ("type", .string t.kind.name),
     ("contract", .string t.contract),
     ("get_method", ofOption .string t.method),
     ("finished", .bool t.finished),
     ("message_type", ofOption (fun k => .string k.name) t.messageKind),
     ("outgoing", t.direction.toJson),
     ("operation_id", ofOption ofWord t.operationId),
     ("accounts_last_master", ofOption ofWord t.accountsMaster),
     ("accounts_rescan_done", .bool t.accountsDone),
     ("messages_last_master", ofOption ofWord t.messagesMaster),
     ("messages_rescan_done", .bool t.messagesDone),
     ("state", .string t.state.label),
     ("rescans_accounts", .bool t.kind.rescansAccounts),
     ("rescans_messages", .bool t.kind.rescansMessages)]

end ShardIndex
