import ShardIndex.Scenario.Value
/-!
# Chain objects in scenarios

Headers, transactions, messages and accounts for a simulated node. What is left out follows the
rules of synthetic objects.
-/
namespace ShardIndex.Scenario

def header : Read Header := fun j => do
  let d := Synthetic.header (← required blockId j "id") (← list blockId j "prev")
  return { d with
    startLt := ← orElse word64 j "start_lt" d.startLt
    endLt := ← orElse word64 j "end_lt" d.endLt
    genTime := ← orElse word32 j "gen_utime" d.genTime
    afterSplit := ← orElse bool j "after_split" d.afterSplit
    afterMerge := ← orElse bool j "after_merge" d.afterMerge }

def transactionKey : Read TransactionKey := fun j => do
  return {
    account := ← required hash j "account"
    lt := ← required word64 j "lt"
    hash := ← required hash j "hash" }

/-- The envelope of a message; a message is internal unless it says otherwise. -/
def envelope : Read Envelope := fun j => do
  match ← orElse messageKind j "kind" .internal with
  | .internal =>
    return .internal (← required address j "src") (← required address j "dst")
      (← orElse nat j "value" 1000000000) (← orElse nat j "ihr_fee" 0)
      (← orElse nat j "fwd_fee" 1000) (← orElse bool j "bounce" true)
      (← orElse bool j "bounced" false) (← orElse word64 j "created_lt" 0)
      (← orElse word32 j "created_at" Synthetic.genTimeBase)
  | .externalIn =>
    return .externalIn (← required address j "dst") (← orElse nat j "import_fee" 0)
  | .externalOut =>
    return .externalOut (← required address j "src") (← orElse word64 j "created_lt" 0)
      (← orElse word32 j "created_at" 0)

/-- The bytes of a word, the most significant one first. -/
def wordBytes (n : UInt32) : Bytes :=
  [(n >>> 24).toUInt8, (n >>> 16).toUInt8, (n >>> 8).toUInt8, n.toUInt8]

/-- A message. Its operation is both the operation id and the body, unless these are given. -/
def wireMessage : Read WireMessage := fun j => do
  let operation ← optional word32 j "op"
  return {
    hash := ← required hash j "hash"
    envelope := ← envelope j
    body := ← orElse bytes j "body" ((operation.map wordBytes).getD [])
    operationId := ← clearable word32 j "op_code" operation
    initCode := ← optional bytes j "init_code"
    initData := ← optional bytes j "init_data" }

def wireTransaction : Read WireTransaction := fun j => do
  let d := Synthetic.transaction (← required address j "account") (← required word64 j "lt")
  return { d with
    hash := ← orElse hash j "hash" d.hash
    inMessage := ← optional wireMessage j "in_msg"
    outMessages := ← list wireMessage j "out_msgs"
    prevHash := ← orElse hash j "prev_tx_hash" d.prevHash
    prevLt := ← orElse word64 j "prev_tx_lt" d.prevLt
    now := ← orElse word32 j "now" d.now
    totalFees := ← orElse nat j "total_fees" d.totalFees
    statusBefore := ← orElse status j "orig_status" d.statusBefore
    statusAfter := ← orElse status j "end_status" d.statusAfter
    aborted := ← orElse bool j "aborted" d.aborted
    exitCode := ← clearable int32 j "compute_exit_code" d.exitCode }

/-- An account. One that is said not to exist has nothing but its address. -/
def wireAccount : Read WireAccount := fun j => do
  let address ← required address j "address"
  if (field? j "non_exist").isSome then
    return .absent address
  else
    let d := Synthetic.account address (← orElse word64 j "last_tx_lt" 0)
    return { d with
      status := ← orElse status j "status" d.status
      balance := ← orElse nat j "balance" d.balance
      lastTxHash := ← orElse hash j "last_tx_hash" d.lastTxHash
      code := ← clearable bytes j "code" d.code
      codeHash := ← clearable hash j "code_hash" d.codeHash
      library := ← optional hash j "library_code"
      data := ← clearable bytes j "data" d.data
      dataHash := ← clearable hash j "data_hash" d.dataHash
      methodHashes := ← list word32 j "get_method_hashes" }

end ShardIndex.Scenario
