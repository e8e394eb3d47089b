import ShardIndex.Contract.Definition
import ShardIndex.Contract.Parser
import ShardIndex.Script
/-!
# A parser driven by registered definitions

The registry labels accounts by its interfaces, in the order of their registration, and answers
get-methods and payloads from canned results. A result that names a minter looks the minter up: the
account is a fake when the minter is unknown or has no interfaces itself. A script may answer the
calls of the parser in the registry's place.

| here | in the indexer |
| --- | --- |
| `Registry.parser` | `TestParser` |
| `Registry.decode` | `TestParser.parse_message_payload` |
| `Registry.callMethod` | `TestParser.execute_get_method` |
| `Registry.readAccount` | `TestParser.parse_account_data` |
-/
namespace ShardIndex

/-- Registered definitions and canned results, with counts of the calls they served. -/
structure Registry where
  interfaces : List ContractInterface := []
  methodResults : Table (ContractName × String) AccountData := []
  operations : Table UInt32 String := []
  methodCalls : Nat := 0
  lookups : Nat := 0
  script : Script (Except ParseFault AccountData) := []

namespace Registry

/-- Registers an interface as the last one; an older definition of the name is dropped. -/
def addInterface (r : Registry) (i : ContractInterface) : Registry :=
  { r with interfaces := Rows.moveToEnd (fun old => old.name == i.name) i r.interfaces }

/-- Drops the definition of the name. -/
def removeInterface (r : Registry) (name : ContractName) : Registry :=
  { r with interfaces := r.interfaces.filter fun i => decide (i.name ≠ name) }

/-- The names of the interfaces that an account implements. -/
def interfacesOf (r : Registry) (s : AccountState) : List ContractName :=
  (r.interfaces.filter (·.accepts s)).map (·.name)

/-- The get-methods of an interface. -/
def methodsOf (r : Registry) (contract : ContractName) : List String :=
  match r.interfaces.find? fun i => i.name == contract with
  | some i => i.methods
  | none => []

/-- What a message's body decodes to: its operation has to be registered. -/
def decode (r : Registry) (m : Message) : Except ParseFault Decoded :=
  match m.operationId with
  | none => .error .notAvailable
  | some op =>
    match r.operations.get? op with
    | some name => .ok { operation := some name, data := some (.object [("op", .string name)]) }
    | none => .error (.impossible ("unknown operation 0x" ++ hexText 8 op.toNat))

section

variable {M : Type → Type} [Monad M] [MonadStateOf Registry M]

/-- Executes a get-method by its canned result. -/
def callMethod (s : AccountState) (contract : ContractName) (method : String) (lookup : Lookup M) :
    ExceptT ParseFault M AccountData := do
  let r ← getThe Registry
  match r.methodResults.get? (contract, method) with
  | none => throw .notAvailable
  | some data =>
    modifyThe Registry fun r => { r with methodCalls := r.methodCalls + 1 }
    let fake ← match data.minter with
      | none => pure data.fake
      | some minter => do
        modifyThe Registry fun r => { r with lookups := r.lookups + 1 }
        match ← ExceptT.lift (lookup minter s.lastTxLt).run with
        | .error fault => throw (.other fault)
        | .ok found => pure (found.all fun state => state.types.isEmpty)
    return { data with fake := fake, executed := [(contract, [{ method := method }])] }

/-- Executes methods one after the other and adds up their findings; `none` as long as no method
was available. -/
def callMethods (s : AccountState) (lookup : Lookup M) :
    List (ContractName × String) → Option AccountData → ExceptT ParseFault M (Option AccountData)
  | [], found => return found
  | (contract, method) :: rest, found => do
    match ← ExceptT.lift (callMethod s contract method lookup).run with
    | .ok data => callMethods s lookup rest (some ((found.getD {}).add data))
    | .error .notAvailable => callMethods s lookup rest found
    | .error e => throw e

/-- Executes every get-method of the named interfaces. -/
def readAccount (s : AccountState) (types : List ContractName) (lookup : Lookup M) :
    ExceptT ParseFault M AccountData := do
  let r ← getThe Registry
  let calls := types.flatMap fun contract => (r.methodsOf contract).map (contract, ·)
  match ← callMethods s lookup calls none with
  | some data => return data
  | none => throw .notAvailable

/-- The scripted answer to a call of the parser. -/
def consult (call key : String) : M (Option (Except ParseFault AccountData)) := do
  let (answer, script) := (← getThe Registry).script.consult call key
  modifyThe Registry fun r => { r with script := script }
  return answer

/-- The parser that the registry is. -/
def parser : Parser M where
  interfacesOf s := do
    match ← consult "determine" s.address.text with
    | some (.error e) => throw e.toFault
    | _ => return (← getThe Registry).interfacesOf s
  readAccount s types lookup := do
    match ← consult "parse_account" s.address.text with
    | some answer => ExceptT.mk (pure answer)
    | none => Registry.readAccount s types lookup
  callMethod s contract method lookup := do
    match ← consult "execute" s.address.text with
    | some answer => ExceptT.mk (pure answer)
    | none => Registry.callMethod s contract method lookup
  readPayload m := do
    match ← consult "payload" m.hash.text with
    | some (.error e) => throw e
    | _ => ExceptT.mk (pure ((← getThe Registry).decode m))

end

end Registry

end ShardIndex
