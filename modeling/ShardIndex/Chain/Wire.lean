import ShardIndex.Chain.Address
import ShardIndex.Chain.BlockId
/-!
# Chain objects as a node serves them

Headers, transactions, messages and accounts before they are indexed. Amounts are natural numbers,
logical times and sequence numbers are machine words.
-/
namespace ShardIndex

/-- The life cycle of an account. -/
inductive AccountStatus where
  | nonexistent
  | uninit
  | active
  | frozen
deriving DecidableEq, Repr, Inhabited

/-- A block header. A regular block has one parent, a merge block two. -/
structure Header where
  id : BlockId
  genTime : UInt32
  startLt : UInt64
  endLt : UInt64
  parents : List BlockId
  afterSplit : Bool
  afterMerge : Bool
deriving DecidableEq, Inhabited

/-- The name of a transaction inside its block, as listed by a node. -/
structure TransactionKey where
  account : Hash
  lt : UInt64
  hash : Hash
deriving DecidableEq, Inhabited

/-- The envelope of a message, by kind. -/
inductive Envelope where
  | internal (src dst : Address) (value ihrFee fwdFee : Nat) (bounce bounced : Bool)
      (createdLt : UInt64) (createdAt : UInt32)
  | externalIn (dst : Address) (importFee : Nat)
  | externalOut (src : Address) (createdLt : UInt64) (createdAt : UInt32)
deriving DecidableEq, Inhabited

/-- A message of a transaction. -/
structure WireMessage where
  hash : Hash
  envelope : Envelope
  body : Bytes := []
  /-- The first 32 bits of the body, when there are so many. -/
  operationId : Option UInt32 := none
  initCode : Option Bytes := none
  initData : Option Bytes := none
deriving DecidableEq, Inhabited

/-- A transaction with its messages. -/
structure WireTransaction where
  hash : Hash
  lt : UInt64
  account : Address
  prevHash : Hash
  prevLt : UInt64
  now : UInt32
  totalFees : Nat
  statusBefore : AccountStatus
  statusAfter : AccountStatus
  aborted : Bool
  exitCode : Option Int32
  inMessage : Option WireMessage
  outMessages : List WireMessage
deriving DecidableEq, Inhabited

/-- An account as of some block. -/
structure WireAccount where
  address : Address
  status : AccountStatus
  balance : Nat
  lastTxLt : UInt64
  lastTxHash : Hash
  code : Option Bytes
  codeHash : Option Hash
  /-- The digest of the library that holds the code, when the account only refers to it. -/
  library : Option Hash
  data : Option Bytes
  dataHash : Option Hash
  methodHashes : List UInt32
deriving DecidableEq, Inhabited

/-- What a node answers for an account it has never seen. -/
def WireAccount.absent (address : Address) : WireAccount where
  address := address
  status := .nonexistent
  balance := 0
  lastTxLt := 0
  lastTxHash := 0
  code := none
  codeHash := none
  library := none
  data := none
  dataHash := none
  methodHashes := []

end ShardIndex
