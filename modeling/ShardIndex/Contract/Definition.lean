import ShardIndex.Entity.Account
/-!
# Contract definitions

What an operator registers: interfaces, which label accounts, and operations, which name the
payloads of messages.
-/
namespace ShardIndex

/-- The definition of a contract interface. -/
structure ContractInterface where
  name : ContractName
  addresses : List Address := []
  codeHash : Option Hash := none
  methodHashes : List UInt32 := []
  methods : List String := []
deriving DecidableEq, Inhabited

/-- Whether an account implements the interface (`ContractInterface.matches`). A listed address
does; otherwise a code digest in the definition decides alone, and without one the account has to
expose every listed method, of which there must be one. -/
def ContractInterface.accepts (i : ContractInterface) (s : AccountState) : Bool :=
  i.addresses.contains s.address ||
    match i.codeHash with
    | some h => s.codeHash == some h
    | none => !i.methodHashes.isEmpty && i.methodHashes.all fun h => s.methodHashes.contains h

/-- The schema of the messages that a contract sends or receives under an operation id. -/
structure ContractOperation where
  contract : ContractName
  kind : MessageKind := .internal
  direction : Direction := .incoming
  operationId : UInt32
  name : String
deriving DecidableEq, Inhabited

end ShardIndex
