import ShardIndex.Entity.Account
import ShardIndex.Fault
/-!
# Contract parsers

A parser labels accounts, executes get-methods and reads payloads. While it works on one account
it may look up others (`Lookup`); it is a record of operations in some monad `M`.

`AccountState.absorb` and `Message.absorb` record an outcome: a failure to read is kept on the
record as its error, only a fault is passed on.

| here | in the indexer |
| --- | --- |
| `Parser` | `determine_interfaces`, `parse_account_data`, `execute_get_method`, `parse_message_payload` |
| `AccountState.absorb` | `apply_parsed` of the rescan, and the same cases in the mapper |
| `Parser.fillAccount` | `parse_account_data` of the mapper |
| `Message.absorb`, `Parser.fillMessage` | `parse_message_payload` of the mapper |
-/
namespace ShardIndex

/-- Finds the latest state of an account before a logical time. -/
abbrev Lookup (M : Type → Type) :=
  Address → UInt64 → ExceptT Fault M (Option AccountState)

/-- What a message's body decodes to. -/
structure Decoded where
  operation : Option String := none
  data : Option Json := none
deriving DecidableEq, Inhabited

/-- Contract-specific reading. -/
structure Parser (M : Type → Type) where
  /-- The interfaces that an account implements. -/
  interfacesOf : AccountState → ExceptT Fault M (List ContractName)
  /-- Executes every get-method of the named interfaces. -/
  readAccount : AccountState → List ContractName → Lookup M → ExceptT ParseFault M AccountData
  /-- Executes one get-method of one interface. -/
  callMethod : AccountState → ContractName → String → Lookup M → ExceptT ParseFault M AccountData
  /-- Decodes the body of a message. -/
  readPayload : Message → ExceptT ParseFault M Decoded

/-- Records what reading an account came to. -/
def AccountState.absorb (s : AccountState) :
    Except ParseFault AccountData → Except Fault AccountState
  | .ok data => .ok (s.applyData data)
  | .error .notAvailable => .ok s
  | .error (.impossible reason) => .ok { s with error := some reason }
  | .error (.other fault) => .error fault

/-- Takes over what a body decodes to. -/
def Message.withDecoded (m : Message) (d : Decoded) : Message :=
  { m with payload :=
    { m.payload with
      operation := d.operation <|> m.payload.operation
      data := d.data <|> m.payload.data } }

/-- Records what reading a payload came to. -/
def Message.absorb (m : Message) : Except ParseFault Decoded → Except Fault Message
  | .ok d => .ok (m.withDecoded d)
  | .error .notAvailable => .ok m
  | .error (.impossible reason) => .ok { m with payload := { m.payload with error := some reason } }
  | .error (.other fault) => .error fault

namespace Parser

variable {M : Type → Type} [Monad M]

/-- Fills in what the contracts of an account say about it. Only active accounts with a label are
read. -/
def fillAccount (p : Parser M) (lookup : Lookup M) (s : AccountState) :
    ExceptT Fault M AccountState := do
  if !s.isActive || s.types.isEmpty then
    return s
  let outcome ← ExceptT.lift (p.readAccount s s.types lookup).run
  ExceptT.mk (pure (s.absorb outcome))

/-- Reads the body of a message. -/
def fillMessage (p : Parser M) (m : Message) : ExceptT Fault M Message := do
  let outcome ← ExceptT.lift (p.readPayload m).run
  ExceptT.mk (pure (m.absorb outcome))

end Parser

end ShardIndex
