import ShardIndex.Entity.Message
import ShardIndex.Table
/-!
# Account snapshots

A snapshot is the state of an account right after a transaction. Besides what the chain says it
holds what contracts said about themselves: the interfaces the account is labelled with (`types`),
the get-methods that were executed, and the fields derived from them.

`populatedBy` says which fields a get-method derives. The edits below keep two rules by it:

* `applyData` merges what a parser found, execution by execution and field by field;
* `clearMethod` and `clearContract` forget executions together with the fields they populate.

| here | in the indexer |
| --- | --- |
| `DerivedField.populatedBy` | `DerivedField.populated_by` |
| `AccountState.applyData` | `AccountState.apply_data` |
| `AccountState.clearField` | `AccountState.clear_field` |
| `AccountState.clearMethod` | `AccountState.clear_get_method` |
| `AccountState.clearContract` | `AccountState.clear_contract` |
-/
namespace ShardIndex

/-- The off-chain description of a token or an item. -/
structure Content where
  uri : Option String := none
  name : Option String := none
  description : Option String := none
  image : Option String := none
  imageData : Option Bytes := none
deriving DecidableEq, Inhabited

def Content.isEmpty (c : Content) : Bool :=
  c == {}

/-- One execution of a get-method. -/
structure Execution where
  method : String
  returns : List Json := []
  error : Option String := none
deriving DecidableEq, Inhabited

/-- Executions by contract: at most one entry a contract, in increasing order of names. -/
abbrev Executions := List (ContractName × List Execution)

namespace Executions

/-- Rewrites the entry of a contract; a missing entry is made from the empty list, in its place by
the order of names. -/
def update (contract : ContractName) (f : List Execution → List Execution) :
    Executions → Executions
  | [] => [(contract, f [])]
  | (c, es) :: rest =>
    if c = contract then (c, f es) :: rest
    else if contract < c then (contract, f []) :: (c, es) :: rest
    else (c, es) :: update contract f rest

/-- The executions recorded for a contract. -/
def ofContract (x : Executions) (contract : ContractName) : List Execution :=
  (Table.get? x contract).getD []

/-- Drops the entry of a contract. -/
def erase (x : Executions) (contract : ContractName) : Executions :=
  x.filter fun e => decide (e.1 ≠ contract)

/-- Executions given entry by entry, in any order; a later entry of a contract wins. -/
def ofEntries (entries : List (ContractName × List Execution)) : Executions :=
  entries.foldl (fun x e => x.update e.1 fun _ => e.2) []

end Executions

/-- The fields of a snapshot that get-methods derive. -/
inductive DerivedField where
  | content
  | owner
  | minter
  | jettonBalance
  | fake
deriving DecidableEq, Repr, Inhabited

/-- The fields that a get-method derives. -/
def DerivedField.populatedBy : String → List DerivedField
  | "get_nft_data" => [.owner, .minter, .fake]
  | "get_wallet_data" => [.jettonBalance, .owner, .minter, .fake]
  | "get_collection_data" => [.content, .owner]
  | "get_jetton_data" => [.content, .owner]
  | "get_nft_content" => [.content]
  | _ => []

/-- What a parser found out about an account. -/
structure AccountData where
  executed : Executions := []
  content : Option Content := none
  owner : Option Address := none
  minter : Option Address := none
  jettonBalance : Option Nat := none
  fake : Bool := false
deriving DecidableEq, Inhabited

/-- The state of an account after the transaction with logical time `lastTxLt`. -/
structure AccountState where
  address : Address
  block : BlockRef
  masterSeqno : UInt32
  updatedAt : UInt32
  status : AccountStatus
  balance : Nat
  lastTxLt : UInt64
  lastTxHash : Hash
  code : Option Bytes := none
  codeHash : Option Hash := none
  data : Option Bytes := none
  dataHash : Option Hash := none
  methodHashes : List UInt32 := []
  types : List ContractName := []
  executed : Executions := []
  content : Content := {}
  owner : Option Address := none
  minter : Option Address := none
  jettonBalance : Option Nat := none
  fake : Bool := false
  error : Option String := none
deriving DecidableEq, Inhabited

/-- Puts one execution among those of a contract: in the place of the first one of the same method,
or at the end. -/
def Execution.mergeInto (es : List Execution) (e : Execution) : List Execution :=
  Rows.replaceOrAppend (fun old => old.method == e.method) e es

namespace AccountData

/-- Whether one of the executions derives the `fake` flag. -/
def derivesFake (d : AccountData) : Bool :=
  d.executed.any fun entry =>
    entry.2.any fun e => (DerivedField.populatedBy e.method).contains .fake

/-- Adds the findings of another execution: executions follow the ones that are there, a field is
taken over when it is present, and the flag stays raised once it is. -/
def add (d other : AccountData) : AccountData where
  executed := other.executed.foldl (fun x entry => x.update entry.1 (· ++ entry.2)) d.executed
  content := other.content <|> d.content
  owner := other.owner <|> d.owner
  minter := other.minter <|> d.minter
  jettonBalance := other.jettonBalance <|> d.jettonBalance
  fake := d.fake || other.fake

end AccountData

namespace AccountState

def isActive (s : AccountState) : Bool :=
  s.status == .active

def hasInterface (s : AccountState) (contract : ContractName) : Bool :=
  s.types.contains contract

/-- Labels the account with a contract, once. -/
def addInterface (s : AccountState) (contract : ContractName) : AccountState :=
  if s.hasInterface contract then s else { s with types := s.types ++ [contract] }

/-- Takes over what a parser found. Executions are merged contract by contract, a field is
overwritten when the parser has it, and the flag `fake` is reassigned when one of the executed
methods derives it and can only be raised otherwise. -/
def applyData (s : AccountState) (d : AccountData) : AccountState :=
  { s with
    executed := d.executed.foldl
      (fun x entry => x.update entry.1 fun es => entry.2.foldl Execution.mergeInto es) s.executed
    content := d.content.getD s.content
    owner := d.owner <|> s.owner
    minter := d.minter <|> s.minter
    jettonBalance := d.jettonBalance <|> s.jettonBalance
    fake := if d.derivesFake then d.fake else s.fake || d.fake }

/-- Resets a derived field. -/
def clearField (s : AccountState) : DerivedField → AccountState
  | .content => { s with content := {} }
  | .owner => { s with owner := none }
  | .minter => { s with minter := none }
  | .jettonBalance => { s with jettonBalance := none }
  | .fake => { s with fake := false }

/-- Resets every field that the method populates. -/
def clearFieldsOf (s : AccountState) (method : String) : AccountState :=
  (DerivedField.populatedBy method).foldl clearField s

/-- Forgets the executions of one get-method of a contract and every field it populates. A contract
whose last execution goes loses its entry. -/
def clearMethod (s : AccountState) (contract : ContractName) (method : String) : AccountState :=
  let executed := s.executed.filterMap fun entry =>
    if entry.1 = contract then
      match entry.2.filter fun e => decide (e.method ≠ method) with
      | [] => none
      | kept => some (entry.1, kept)
    else some entry
  { s with executed := executed }.clearFieldsOf method

/-- Removes a contract from the account: its executions, its label and every field populated by an
executed method or by one of `methods`. Without a label left the account is no fake. -/
def clearContract (s : AccountState) (contract : ContractName) (methods : List String) :
    AccountState :=
  let recorded := (s.executed.ofContract contract).map (·.method)
  let s := (recorded ++ methods).foldl clearFieldsOf
    { s with executed := s.executed.erase contract }
  let types := s.types.filter fun t => decide (t ≠ contract)
  { s with types := types, fake := if types.isEmpty then false else s.fake }

end AccountState

end ShardIndex
