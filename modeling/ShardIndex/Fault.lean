import ShardIndex.Chain.Address
/-!
# Faults

Everything that can go wrong, by cause. `Fault.message` is the only place with wording.

* A node may not know a block yet (`blockNotFound`, `blockNotApplied`); such a request may succeed
  later without any intervention (`Fault.isRetryable`).
* The last three causes stop the forward path: it has to start again from the last committed master
  block (`Fault.fatalMaster?` names the block at which it stopped).

| here | in the indexer |
| --- | --- |
| `Fault` | `ChainError`, `FatalError` and the errors with a text of their own |
| `Fault.isRetryable` | `ChainError.is_retryable` |
| `Fault.fatalMaster?` | `FatalError.master_seqno` |
| `ParseFault` | `ParseError` |
-/
namespace ShardIndex

/-- Why a request was not served. -/
inductive Fault where
  | blockNotFound
  | blockNotApplied
  /-- A collaborator's own words. -/
  | external (words : String)
  /-- The cursor of a transaction listing is not in the block. -/
  | unknownCursor
  /-- A transaction listing did not end within its page limit. -/
  | endlessListing
  | tooManyUnseen (master : UInt32)
  | libraryNotFound (library : Hash)
  | commitRefused
  | undefinedInterface (contract : String)
  | undefinedOperation (contract : String) (operation : UInt32)
  | taskWithoutMethod (task : Nat)
  | taskWithoutOperation (task : Nat)
  | unknownSource (master : UInt32) (message : Hash) (destination : Option Address)
  | commitFailed (master : UInt32) (attempts : Nat) (cause : Fault)
  | outOfOrder (seqno expected : UInt32)
deriving DecidableEq, Inhabited

namespace Fault

/-- Whether the request may succeed later without any intervention. -/
def isRetryable : Fault → Bool
  | .blockNotFound | .blockNotApplied => true
  | _ => false

/-- The master block at which the forward path stopped, for the faults that stop it. -/
def fatalMaster? : Fault → Option UInt32
  | .unknownSource master _ _ => some master
  | .commitFailed master _ _ => some master
  | .outOfOrder seqno _ => some seqno
  | _ => none

/-- The wording of a fault. -/
def message : Fault → String
  | .blockNotFound => "block not found"
  | .blockNotApplied => "block is not applied"
  | .external words => words
  | .unknownCursor => "unknown transaction cursor"
  | .endlessListing => "transaction listing does not end"
  | .tooManyUnseen master =>
    "too many unseen shard blocks for master block " ++ toString master.toNat
  | .libraryNotFound library => "library cell " ++ library.text ++ " not found"
  | .commitRefused => "connection reset"
  | .undefinedInterface contract => "contract interface `" ++ contract ++ "` is not defined"
  | .undefinedOperation contract operation =>
    "operation 0x" ++ hexText 8 operation.toNat ++ " of contract `" ++ contract ++
      "` is not defined"
  | .taskWithoutMethod task => "rescan task " ++ toString task ++ " has no get-method"
  | .taskWithoutOperation task => "rescan task " ++ toString task ++ " has no operation id"
  | .unknownSource master hash _ =>
    "source of message " ++ hash.text ++ " not found (master block " ++ toString master.toNat ++ ")"
  | .commitFailed master attempts _ =>
    "failed to commit batch up to master block " ++ toString master.toNat ++ " after "
      ++ toString attempts ++ " attempts"
  | .outOfOrder seqno expected =>
    "received master block " ++ toString seqno.toNat ++ " while expecting "
      ++ toString expected.toNat

end Fault

/-- Why a contract's data or a message's payload could not be read. -/
inductive ParseFault where
  /-- The contract does not expose the data. -/
  | notAvailable
  /-- The data does not match any known schema. -/
  | impossible (reason : String)
  | other (fault : Fault)
deriving DecidableEq, Inhabited

/-- The wording of a reading failure. -/
def ParseFault.message : ParseFault → String
  | .notAvailable => "not available"
  | .impossible reason => "impossible parsing: " ++ reason
  | .other fault => fault.message

/-- A reading failure where only faults can be reported: its words are kept. -/
def ParseFault.toFault : ParseFault → Fault
  | .other fault => fault
  | e => .external e.message

end ShardIndex
