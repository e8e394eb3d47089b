import ShardIndex.Entity.Bundle
import ShardIndex.Entity.Mapping
import ShardIndex.Scenario.Chain
/-!
# Indexed entities in scenarios

Transactions and messages are described as chain objects and mapped; labels, sides and payloads can
be given on top of that.
-/
namespace ShardIndex.Scenario

/-- A transaction of a block and a master block. The labels of its messages may be given: those of
the inbound message's sides, and the one of the outbound messages' source. -/
def transaction (block : BlockId) (masterSeqno : UInt32) : Read Transaction := fun j => do
  let t := (← wireTransaction j).toTransaction block masterSeqno
  let label (m : Message) (d : Direction) (contract : Option ContractName) : Message :=
    if contract.isSome then m.relabel d contract else m
  let receiver ← optional str j "in_contract"
  let sender ← optional str j "in_src_contract"
  let source ← optional str j "out_contract"
  return { t with
    inMessage := t.inMessage.map fun m => label (label m .incoming receiver) .outgoing sender
    outMessages := t.outMessages.map fun m => label m .outgoing source }

def transactionRef : Read TransactionRef := fun j => do
  return {
    hash := ← required hash j "hash"
    lt := ← required word64 j "lt"
    block := ← required blockRef j "block"
    masterSeqno := ← required word32 j "master_seqno" }

def message : Read Message := fun j => do
  let m := (← wireMessage j).toMessage
  return { m with
    source := { m.source with
      tx := ← optional transactionRef j "src_tx"
      contract := ← optional str j "src_contract" }
    destination := { m.destination with
      tx := ← optional transactionRef j "dst_tx"
      contract := ← optional str j "dst_contract" }
    payload := {
      operation := ← optional str j "operation_name"
      data := field? j "data_json"
      error := ← optional str j "error" } }

/-- A block. Its transactions belong to the given master block, or else to the one that it names, or
else to itself. -/
def block (masterSeqno : Option UInt32) : Read Block := fun j => do
  let h ← header j
  let masterRef ← optional blockRef j "master_id"
  let seqno := masterSeqno.getD ((masterRef.map (·.seqno)).getD h.id.seqno)
  return {
    id := h.id
    masterRef := masterRef
    genTime := h.genTime
    startLt := h.startLt
    endLt := h.endLt
    transactions := ← list (transaction h.id seqno) j "txs" }

def execution : Read Execution := fun j => do
  return {
    method := ← required str j "name"
    returns := ← list json j "returns"
    error := ← optional str j "error" }

/-- Executions under the names of their contracts. -/
def executions : Read Executions := fun j =>
  (entries (items execution) j).map Executions.ofEntries

def content : Read Content := fun j => do
  return {
    uri := ← optional str j "uri"
    name := ← optional str j "name"
    description := ← optional str j "description"
    image := ← optional str j "image"
    imageData := ← optional bytes j "image_data" }

def accountData : Read AccountData := fun j => do
  return {
    executed := ← orElse executions j "executed" []
    content := ← optional content j "content"
    owner := ← optional address j "owner"
    minter := ← optional address j "minter"
    jettonBalance := ← optional nat j "jetton_balance"
    fake := ← orElse bool j "fake" false }

def accountState : Read AccountState := fun j => do
  let d := Synthetic.accountState (← required address j "address")
    (← orElse word64 j "last_tx_lt" 0)
  return { d with
    block := ← orElse blockRef j "block" d.block
    masterSeqno := ← orElse word32 j "master_seqno" d.masterSeqno
    updatedAt := ← orElse word32 j "updated_at" d.updatedAt
    status := ← orElse status j "status" d.status
    balance := ← orElse nat j "balance" d.balance
    lastTxHash := ← orElse hash j "last_tx_hash" d.lastTxHash
    code := ← optional bytes j "code"
    codeHash := ← optional hash j "code_hash"
    data := ← optional bytes j "data"
    dataHash := ← optional hash j "data_hash"
    methodHashes := ← list word32 j "get_method_hashes"
    types := ← list str j "types"
    executed := ← orElse executions j "executed" []
    content := ← orElse content j "content" {}
    owner := ← optional address j "owner"
    minter := ← optional address j "minter"
    jettonBalance := ← optional nat j "jetton_balance"
    fake := ← orElse bool j "fake" false
    error := ← optional str j "error" }

/-- The description of a block with its id filled in if it has none. -/
def withId (id : BlockId) (j : Json) : Json :=
  match j, field? j "id" with
  | .object fields, none => .object (("id", .string id.text) :: fields)
  | _, _ => j

/-- A block with the accounts that it touched. -/
def blockRecord (masterSeqno : UInt32) (default : BlockId) : Read BlockRecord := fun j => do
  return {
    block := ← block (some masterSeqno) (withId default j)
    accounts := ← list accountState j "accounts" }

/-- A master bundle. Its blocks have the number of the bundle unless they say otherwise. -/
def bundle : Read MasterBundle := fun j => do
  let seqno ← required word32 j "seqno"
  let shardId := Synthetic.blockId .basechain seqno
  return {
    seqno := seqno
    master := ← blockRecord seqno (Synthetic.masterId seqno)
      ((field? j "master").getD (.object []))
    shards := ← list (blockRecord seqno shardId) j "shards" }

end ShardIndex.Scenario
