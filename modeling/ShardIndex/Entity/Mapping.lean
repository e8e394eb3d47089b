import ShardIndex.Entity.Account
import ShardIndex.Entity.Block
/-!
# From chain objects to indexed entities

A transaction hands its own reference to its messages: the inbound message learns its destination,
each outbound one its source. An account becomes a snapshot without labels or derived fields.

| here | in the indexer |
| --- | --- |
| `WireMessage.toMessage` | `map_message` |
| `WireTransaction.toTransaction` | `map_transaction` |
| `Transaction.labelMessages` | the labels that `fetch_block` adds to it |
| `WireAccount.toState` | `map_account` |
-/
namespace ShardIndex

/-- The message without any transaction linked to it. -/
def WireMessage.toMessage (m : WireMessage) : Message :=
  let common : Message :=
    { hash := m.hash
      kind := .internal
      initCode := m.initCode
      initData := m.initData
      body := m.body
      operationId := m.operationId }
  match m.envelope with
  | .internal src dst value ihrFee fwdFee bounce bounced createdLt createdAt =>
    { common with
      source := { address := some src }
      destination := { address := some dst }
      amount := value
      ihrFee := ihrFee
      fwdFee := fwdFee
      bounce := bounce
      bounced := bounced
      createdLt := createdLt
      createdAt := createdAt }
  | .externalIn dst importFee =>
    { common with
      kind := .externalIn
      destination := { address := some dst }
      importFee := importFee }
  | .externalOut src createdLt createdAt =>
    { common with
      kind := .externalOut
      source := { address := some src }
      createdLt := createdLt
      createdAt := createdAt }

/-- The transaction with its messages, bound to a block and a master block. -/
def WireTransaction.toTransaction (t : WireTransaction) (block : BlockId) (masterSeqno : UInt32) :
    Transaction :=
  let ref : TransactionRef :=
    { hash := t.hash, lt := t.lt, block := block.ref, masterSeqno := masterSeqno }
  let inMessage := t.inMessage.map fun m =>
    let m := m.toMessage
    { m with destination := { m.destination with tx := some ref } }
  let outMessages := t.outMessages.map fun m =>
    let m := m.toMessage
    { m with source := { m.source with tx := some ref } }
  { address := t.account
    hash := t.hash
    lt := t.lt
    prevHash := t.prevHash
    prevLt := t.prevLt
    block := block.ref
    masterSeqno := masterSeqno
    createdAt := t.now
    totalFees := t.totalFees
    statusBefore := t.statusBefore
    statusAfter := t.statusAfter
    aborted := t.aborted
    exitCode := t.exitCode
    inMessageHash := inMessage.map (·.hash)
    outMessageHashes := outMessages.map (·.hash)
    inMessage := inMessage
    outMessages := outMessages }

/-- The same transaction, whose account carries a contract label that its messages take over. -/
def Transaction.labelMessages (t : Transaction) (contract : Option ContractName) : Transaction :=
  { t with
    inMessage := t.inMessage.map (·.relabel .incoming contract)
    outMessages := t.outMessages.map (·.relabel .outgoing contract) }

/-- The snapshot of an account as of a block. -/
def WireAccount.toState (a : WireAccount) (block : BlockId) (masterSeqno updatedAt : UInt32) :
    AccountState where
  address := a.address
  block := block.ref
  masterSeqno := masterSeqno
  updatedAt := updatedAt
  status := a.status
  balance := a.balance
  lastTxLt := a.lastTxLt
  lastTxHash := a.lastTxHash
  code := a.code
  codeHash := a.codeHash
  data := a.data
  dataHash := a.dataHash
  methodHashes := a.methodHashes

end ShardIndex
