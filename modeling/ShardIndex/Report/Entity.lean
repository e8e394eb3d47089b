import ShardIndex.Entity.Bundle
import ShardIndex.Report.Chain
/-!
# Reports on indexed entities

Messages, transactions, blocks and account snapshots with all their fields, and with what follows
from them: whether a message is resolved, which master block a row belongs to.
-/
namespace ShardIndex

open Json

def TransactionRef.toJson (t : TransactionRef) : Json :=
  .object
    [("hash", ofHash t.hash),
     ("lt", ofTime t.lt),
     ("block", ofRef t.block),
     ("master_seqno", ofWord t.masterSeqno)]

def Message.toJson (m : Message) : Json :=
  .object
    [("hash", ofHash m.hash),
     ("type", .string m.kind.name),
     ("src", ofOption ofAddress m.source.address),
     ("dst", ofOption ofAddress m.destination.address),
     ("src_tx", ofOption TransactionRef.toJson m.source.tx),
     ("dst_tx", ofOption TransactionRef.toJson m.destination.tx),
     ("src_contract", ofOption .string m.source.contract),
     ("dst_contract", ofOption .string m.destination.contract),
     ("bounce", .bool m.bounce),
     ("bounced", .bool m.bounced),
     ("amount", decimal m.amount),
     ("ihr_fee", decimal m.ihrFee),
     ("fwd_fee", decimal m.fwdFee),
     ("import_fee", decimal m.importFee),
     ("created_lt", ofTime m.createdLt),
     ("created_at", ofWord m.createdAt),
     ("init_code", ofOption ofBytes m.initCode),
     ("init_data", ofOption ofBytes m.initData),
     ("body", ofBytes m.body),
     ("op", ofOption ofWord m.operationId),
     ("operation_name", ofOption .string m.payload.operation),
     ("data_json", m.payload.data.getD .null),
     ("error", ofOption .string m.payload.error),
     ("resolved", .bool m.isResolved),
     ("master_seqno", ofOption ofWord m.masterSeqno?)]

/-- Messages in the order of their digests. -/
def ofMessages (ms : List Message) : Json :=
  ofList Message.toJson (ms.mergeSort fun a b => decide (a.hash ≤ b.hash))

def Transaction.toJson (t : Transaction) : Json :=
  .object
    [("address", ofAddress t.address),
     ("hash", ofHash t.hash),
     ("lt", ofTime t.lt),
     ("prev_tx_hash", ofHash t.prevHash),
     ("prev_tx_lt", ofTime t.prevLt),
     ("block", ofRef t.block),
     ("master_seqno", ofWord t.masterSeqno),
     ("created_at", ofWord t.createdAt),
     ("total_fees", decimal t.totalFees),
     ("orig_status", .string t.statusBefore.name),
     ("end_status", .string t.statusAfter.name),
     ("aborted", .bool t.aborted),
     ("compute_exit_code", ofOption ofExitCode t.exitCode),
     ("in_msg_hash", ofOption ofHash t.inMessageHash),
     ("out_msg_hashes", ofList ofHash t.outMessageHashes),
     ("in_msg", ofOption Message.toJson t.inMessage),
     ("out_msgs", ofList Message.toJson t.outMessages)]

def Block.toJson (b : Block) : Json :=
  .object
    [("id", ofId b.id),
     ("master_id", ofOption ofRef b.masterRef),
     ("gen_utime", ofWord b.genTime),
     ("start_lt", ofTime b.startLt),
     ("end_lt", ofTime b.endLt),
     ("is_masterchain", .bool b.isMasterchain),
     ("master_seqno", ofWord b.masterSeqno),
     ("txs", ofList Transaction.toJson b.transactions)]

def Content.toJson (c : Content) : Json :=
  .object
    [("uri", ofOption .string c.uri),
     ("name", ofOption .string c.name),
     ("description", ofOption .string c.description),
     ("image", ofOption .string c.image),
     ("image_data", ofOption ofBytes c.imageData),
     ("is_empty", .bool c.isEmpty)]

def Execution.toJson (e : Execution) : Json :=
  .object
    [("name", .string e.method), ("returns", .array e.returns), ("error", ofOption .string e.error)]

/-- Executions under the names of their contracts. -/
def ofExecutions (x : Executions) : Json :=
  .object (x.map fun entry => (entry.1, ofList Execution.toJson entry.2))

def AccountData.toJson (d : AccountData) : Json :=
  .object
    [("executed", ofExecutions d.executed),
     ("content", ofOption Content.toJson d.content),
     ("owner", ofOption ofAddress d.owner),
     ("minter", ofOption ofAddress d.minter),
     ("jetton_balance", ofOption decimal d.jettonBalance),
     ("fake", .bool d.fake)]

def AccountState.toJson (s : AccountState) : Json :=
  .object
    [("address", ofAddress s.address),
     ("last_tx_lt", ofTime s.lastTxLt),
     ("block", ofRef s.block),
     ("master_seqno", ofWord s.masterSeqno),
     ("updated_at", ofWord s.updatedAt),
     ("status", .string s.status.name),
     ("balance", decimal s.balance),
     ("last_tx_hash", ofHash s.lastTxHash),
     ("code", ofOption ofBytes s.code),
     ("code_hash", ofOption ofHash s.codeHash),
     ("data", ofOption ofBytes s.data),
     ("data_hash", ofOption ofHash s.dataHash),
     ("get_method_hashes", ofList ofWord s.methodHashes),
     ("types", ofList .string s.types),
     ("executed", ofExecutions s.executed),
     ("content", s.content.toJson),
     ("owner", ofOption ofAddress s.owner),
     ("minter", ofOption ofAddress s.minter),
     ("jetton_balance", ofOption decimal s.jettonBalance),
     ("fake", .bool s.fake),
     ("error", ofOption .string s.error)]

def BlockRecord.toJson (r : BlockRecord) : Json :=
  .object [("block", r.block.toJson), ("accounts", ofList AccountState.toJson r.accounts)]

def MasterBundle.toJson (b : MasterBundle) : Json :=
  .object
    [("seqno", ofWord b.seqno),
     ("master", b.master.toJson),
     ("shards", ofList BlockRecord.toJson b.shards),
     ("transactions_count", ofNat b.transactions.length)]

end ShardIndex
