import ShardIndex.Contract.Definition
import ShardIndex.Rescan.Task
import ShardIndex.Snapshot
/-!
# Rescan of account snapshots

Each snapshot that a task bears on is rewritten on its own (`Rescan.rewriteAccount`): an interface
is read again or forgotten, a get-method is forgotten and, unless it was deleted, executed again.
Only snapshots that differ from what is stored are written back.

| here | in the indexer |
| --- | --- |
| `methodOf`, `interfaceOf` | `changed_get_method`, `load_interface` |
| `accountFilter`, `rewriteAccounts`, `accounts` | `RescanScheduler.rescan_accounts` |
| `rereadInterface` | `RescanScheduler.reparse_interface` |
-/
namespace ShardIndex.Rescan

/-- The get-method that a task is about. -/
def methodOf (t : RescanTask) : Except Fault String :=
  match t.method with
  | some method => .ok method
  | none => .error (.taskWithoutMethod t.id)

/-- The definition that an interface task works with; other tasks need none. -/
def interfaceOf (s : Store) (t : RescanTask) : Except Fault (Option ContractInterface) :=
  match t.kind with
  | .addInterface | .updInterface =>
    match s.interface? t.contract with
    | some i => .ok (some i)
    | none => .error (.undefinedInterface t.contract)
  | _ => .ok none

/-- The snapshots that a task bears on: those that the interface accepts, those that carry its
label, or both when a definition has changed. -/
def accountFilter (t : RescanTask) (interface : Option ContractInterface) : AccountFilter :=
  match t.kind with
  | .addInterface => { interface := interface }
  | .updInterface => { interface := interface, withType := some t.contract }
  | _ => { withType := some t.contract }

variable {M : Type → Type} [Monad M]

/-- Forgets everything that an interface has produced and reads it again. -/
def rereadInterface (parser : Parser M) (lookup : Lookup M) (i : ContractInterface)
    (s : AccountState) : ExceptT Fault M AccountState := do
  let s := (s.clearContract i.name i.methods).addInterface i.name
  let outcome ← ExceptT.lift (parser.readAccount s [i.name] lookup).run
  ExceptT.mk (pure (s.absorb outcome))

/-- Forgets what a get-method has produced and executes it again. -/
def rereadMethod (parser : Parser M) (lookup : Lookup M) (contract : ContractName)
    (method : String) (s : AccountState) : ExceptT Fault M AccountState := do
  let s := s.clearMethod contract method
  let outcome ← ExceptT.lift (parser.callMethod s contract method lookup).run
  ExceptT.mk (pure (s.absorb outcome))

/-- A snapshot as the changed definitions make it. -/
def rewriteAccount (parser : Parser M) (lookup : Lookup M) (t : RescanTask)
    (interface : Option ContractInterface) (s : AccountState) : ExceptT Fault M AccountState := do
  match t.kind with
  | .addInterface | .updInterface =>
    match interface.filter (·.accepts s) with
    | some i => rereadInterface parser lookup i s
    | none => return s.clearContract t.contract []
  | .delInterface => return s.clearContract t.contract []
  | .addMethod | .updMethod =>
    let method ← ExceptT.mk (pure (methodOf t))
    rereadMethod parser lookup t.contract method s
  | .delMethod =>
    let method ← ExceptT.mk (pure (methodOf t))
    return s.clearMethod t.contract method
  | .updOperation | .delOperation => return s

/-- Rewrites snapshots one after the other and keeps the changed ones. -/
def rewriteAccounts (parser : Parser M) (lookup : Lookup M) (t : RescanTask)
    (interface : Option ContractInterface) :
    List AccountState → ExceptT Fault M (List AccountState)
  | [] => return []
  | s :: rest => do
    let rewritten ← rewriteAccount parser lookup t interface s
    let changed ← rewriteAccounts parser lookup t interface rest
    return if rewritten = s then changed else rewritten :: changed

/-- The changed snapshots of a range of master blocks. -/
def accounts [MonadStateOf Store M] (parser : Parser M) (lookup : Lookup M) (t : RescanTask)
    (first last : UInt32) : ExceptT Fault M (List AccountState) := do
  let interface ← ExceptT.mk (pure (interfaceOf (← getThe Store) t))
  let states := (← getThe Store).statesInRange (accountFilter t interface) first last
  rewriteAccounts parser lookup t interface states

end ShardIndex.Rescan
