import ShardIndex.Entity.Names
import ShardIndex.Report.Value
/-!
# Reports on chain objects

Headers, transactions, messages and accounts as a node serves them.
-/
namespace ShardIndex

open Json

def Header.toJson (h : Header) : Json :=
  .object
    [("id", ofId h.id),
     ("prev", ofList ofId h.parents),
     ("start_lt", ofTime h.startLt),
     ("end_lt", ofTime h.endLt),
     ("gen_utime", ofWord h.genTime),
     ("after_split", .bool h.afterSplit),
     ("after_merge", .bool h.afterMerge)]

def TransactionKey.toJson (k : TransactionKey) : Json :=
  .object [("account", ofHash k.account), ("lt", ofTime k.lt), ("hash", ofHash k.hash)]

/-- An envelope, under the name of its kind. -/
def Envelope.toJson : Envelope → Json
  | .internal src dst value ihrFee fwdFee bounce bounced createdLt createdAt =>
    .object
      [("internal",
        .object
          [("src", ofAddress src),
           ("dst", ofAddress dst),
           ("value", decimal value),
           ("ihr_fee", decimal ihrFee),
           ("fwd_fee", decimal fwdFee),
           ("bounce", .bool bounce),
           ("bounced", .bool bounced),
           ("created_lt", ofTime createdLt),
           ("created_at", ofWord createdAt)])]
  | .externalIn dst importFee =>
    .object [("external_in", .object [("dst", ofAddress dst), ("import_fee", decimal importFee)])]
  | .externalOut src createdLt createdAt =>
    .object
      [("external_out",
        .object
          [("src", ofAddress src), ("created_lt", ofTime createdLt),
           ("created_at", ofWord createdAt)])]

def WireMessage.toJson (m : WireMessage) : Json :=
  .object
    [("hash", ofHash m.hash),
     ("info", m.envelope.toJson),
     ("body", ofBytes m.body),
     ("op_code", ofOption ofWord m.operationId),
     ("init_code", ofOption ofBytes m.initCode),
     ("init_data", ofOption ofBytes m.initData)]

/-- The exit code of a computation. -/
def ofExitCode (code : Int32) : Json :=
  .number code.toInt 0

def WireTransaction.toJson (t : WireTransaction) : Json :=
  .object
    [("account", ofAddress t.account),
     ("lt", ofTime t.lt),
     ("hash", ofHash t.hash),
     ("prev_tx_hash", ofHash t.prevHash),
     ("prev_tx_lt", ofTime t.prevLt),
     ("now", ofWord t.now),
     ("total_fees", decimal t.totalFees),
     ("orig_status", .string t.statusBefore.name),
     ("end_status", .string t.statusAfter.name),
     ("aborted", .bool t.aborted),
     ("compute_exit_code", ofOption ofExitCode t.exitCode),
     ("in_msg", ofOption WireMessage.toJson t.inMessage),
     ("out_msgs", ofList WireMessage.toJson t.outMessages)]

def WireAccount.toJson (a : WireAccount) : Json :=
  .object
    [("address", ofAddress a.address),
     ("status", .string a.status.name),
     ("balance", decimal a.balance),
     ("last_tx_lt", ofTime a.lastTxLt),
     ("last_tx_hash", ofHash a.lastTxHash),
     ("code", ofOption ofBytes a.code),
     ("code_hash", ofOption ofHash a.codeHash),
     ("library_code", ofOption ofHash a.library),
     ("data", ofOption ofBytes a.data),
     ("data_hash", ofOption ofHash a.dataHash),
     ("get_method_hashes", ofList ofWord a.methodHashes)]

end ShardIndex
