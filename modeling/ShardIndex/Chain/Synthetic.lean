import ShardIndex.Entity.Account
/-!
# Synthetic chain objects

Chain objects of which only a name or a number is given; the other fields follow a rule. Blocks
fill a fixed span of logical time each, and digests spell out what they stand for.
-/
namespace ShardIndex.Synthetic

/-- The span of logical time of one block. -/
def ltPerBlock : UInt64 := 1000000

/-- The time at which block 0 was made. -/
def genTimeBase : UInt32 := 1700000000

/-- The root digest of a block: workchain, path and number, then zeros. -/
def rootHash (shard : Shard) (seqno : UInt32) : Hash :=
  shard.workchain.toBitVec ++ shard.path.toBitVec ++ seqno.toBitVec ++ 0#128

/-- The block with the name, whose file digest is the root digest with `0xff` as last byte. -/
def blockId (shard : Shard) (seqno : UInt32) : BlockId where
  shard := shard
  seqno := seqno
  rootHash := rootHash shard seqno
  fileHash := rootHash shard seqno ||| 0xff#256

/-- The master block with the number. -/
def masterId (seqno : UInt32) : BlockId :=
  blockId .masterchain seqno

/-- The header of a block, dated by its number. -/
def header (id : BlockId) (parents : List BlockId) : Header where
  id := id
  genTime := genTimeBase + id.seqno
  startLt := id.seqno.toUInt64 * ltPerBlock
  endLt := id.seqno.toUInt64 * ltPerBlock + ltPerBlock - 1
  parents := parents
  afterSplit := false
  afterMerge := decide (parents.length > 1)

/-- The digest of a transaction: its logical time, then the start of the account's identifier. -/
def transactionHash (account : Address) (lt : UInt64) : Hash :=
  lt.toBitVec ++ account.account.extractLsb' 64 192

/-- A transaction of an account without messages. -/
def transaction (account : Address) (lt : UInt64) : WireTransaction where
  hash := transactionHash account lt
  lt := lt
  account := account
  prevHash := 0
  prevLt := 0
  now := genTimeBase
  totalFees := 1000
  statusBefore := .active
  statusAfter := .active
  aborted := false
  exitCode := some 0
  inMessage := none
  outMessages := []

/-- An active account with some code and data. -/
def account (address : Address) (lastTxLt : UInt64) : WireAccount where
  address := address
  status := .active
  balance := 1000000000
  lastTxLt := lastTxLt
  lastTxHash := transactionHash address lastTxLt
  code := some [0x63, 0x6f, 0x64, 0x65]
  codeHash := some (Hash.repeated 0xc0)
  library := none
  data := some [0x64, 0x61, 0x74, 0x61]
  dataHash := some (Hash.repeated 0xda)
  methodHashes := []

/-- The snapshot of an active account, in the basechain block that its last transaction falls
into. -/
def accountState (address : Address) (lastTxLt : UInt64) : AccountState :=
  let seqno := (lastTxLt / ltPerBlock).toUInt32
  { address := address
    block := ⟨.basechain, seqno⟩
    masterSeqno := seqno
    updatedAt := genTimeBase + seqno
    status := .active
    balance := 1000000000
    lastTxLt := lastTxLt
    lastTxHash := transactionHash address lastTxLt }

end ShardIndex.Synthetic
