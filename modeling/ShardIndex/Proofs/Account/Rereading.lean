import ShardIndex.Proofs.Account.Dropping
import ShardIndex.Proofs.Rescan.Registry
/-!
# Reading an interface again

When an interface is read again (`reparse_interface`, here `Rescan.rereadInterface`), what an earlier reading of
it has produced is to make no difference: its executions, the fields that they or the get-methods of the
definition populate, and the error (`AccountState.stripped`). For all but the error it does not
(`Rescan.reread_but_for_error`). The contract is dropped first (`clear_contract`), and dropping a contract resets
no error; so the error of an earlier reading stays until another reading fails, and is still there after one that
succeeds (`Rescan.error_outlives_reading`).

Parsers may look at the snapshot, but not at what an earlier reading has produced (`Rescan.Unswayed`). The
registry is one that does not (`Rescan.registry_unswayed`).
-/
namespace ShardIndex

namespace AccountState

variable {s a b : AccountState} {i : ContractInterface}

/-! ## Snapshots and their errors -/

/-- The snapshot with another error. -/
def withError (s : AccountState) (error : Option String) : AccountState :=
  { s with error := error }

/-- The snapshot with an error to fall back on. -/
def orError (error : Option String) (s : AccountState) : AccountState :=
  s.withError (s.error <|> error)

@[simp] theorem withError_withError (s : AccountState) (e e' : Option String) :
    (s.withError e).withError e' = s.withError e' := rfl

theorem withError_error (s : AccountState) : s.withError s.error = s := rfl

theorem orError_none (s : AccountState) : s.orError none = s := by
  have herror : (s.error <|> none) = s.error := by cases s.error <;> rfl
  rw [orError, herror, withError_error]

theorem clearFindings_withError (s : AccountState) (e : Option String) (contract : ContractName)
    (methods : List String) :
    (s.withError e).clearFindings contract methods = (s.clearFindings contract methods).withError e := by
  have hrecorded : (s.withError e).recorded contract = s.recorded contract := rfl
  simp only [clearFindings, hrecorded, reset, foldl_clearField_eq]
  rfl

theorem clearContract_withError (s : AccountState) (e : Option String) (contract : ContractName)
    (methods : List String) :
    (s.withError e).clearContract contract methods = (s.clearContract contract methods).withError e := by
  rw [clearContract_eq, clearContract_eq, clearFindings_withError]
  rfl

theorem addInterface_withError (s : AccountState) (e : Option String) (contract : ContractName) :
    (s.withError e).addInterface contract = (s.addInterface contract).withError e := by
  have hlabel : (s.withError e).hasInterface contract = s.hasInterface contract := rfl
  rw [addInterface, addInterface, hlabel]
  split <;> rfl

/-- The error that is there has no part in what a reading comes to. It stays unless the reading has one. -/
theorem absorb_withError (s : AccountState) (e : Option String) (outcome : Except ParseFault AccountData) :
    (s.withError e).absorb outcome = ((s.withError none).absorb outcome).map (orError e) := by
  rcases outcome with (_ | _ | _) | _ <;> rfl

/-! ## What a reading has produced -/

/-- The snapshot without what reading the interface has produced: its executions, the fields that these or
the get-methods of the definition populate, and the error. -/
def stripped (s : AccountState) (i : ContractInterface) : AccountState :=
  (s.clearFindings i.name i.methods).withError none

/-- The snapshot that is read: the interface is dropped and labelled anew. -/
def prepared (s : AccountState) (i : ContractInterface) : AccountState :=
  (s.clearContract i.name i.methods).addInterface i.name

theorem stripped_withError (s : AccountState) (e : Option String) (i : ContractInterface) :
    (s.withError e).stripped i = s.stripped i := by
  rw [stripped, clearFindings_withError]
  rfl

theorem prepared_withError (s : AccountState) (e : Option String) (i : ContractInterface) :
    (s.withError e).prepared i = (s.prepared i).withError e := by
  rw [prepared, clearContract_withError, addInterface_withError]
  rfl

theorem error_prepared (s : AccountState) (i : ContractInterface) : (s.prepared i).error = s.error :=
  (congrArg AccountState.error (prepared_withError s s.error i) :)

/-- Dropping the interface strips the snapshot of everything but the error. -/
theorem prepared_stripped (s : AccountState) (i : ContractInterface) :
    (s.stripped i).prepared i = (s.prepared i).withError none := by
  rw [stripped, prepared_withError, prepared, clearContract_eq, clearFindings_twice, ← clearContract_eq]
  rfl

/-- The snapshots carry the label of the interface alone, and are the same but for what reading it has
produced. The flag is left open, since it goes with the last label. -/
structure DifferInReadings (i : ContractInterface) (a b : AccountState) : Prop where
  left : a.types = [i.name]
  right : b.types = [i.name]
  rest : (a.stripped i).clearField .fake = (b.stripped i).clearField .fake

theorem dropLabel_of_types {contract : ContractName} (h : s.types = [contract]) :
    s.dropLabel contract = { s.clearField .fake with types := [] } := by
  simp [dropLabel, h, clearField]

theorem DifferInReadings.prepared (h : DifferInReadings i a b) :
    (a.prepared i).withError none = (b.prepared i).withError none := by
  have hdropped : ∀ s : AccountState, s.types = [i.name] → (s.prepared i).withError none =
      AccountState.addInterface { (s.stripped i).clearField .fake with types := [] } i.name := by
    intro s htypes
    have hstripped : (s.stripped i).types = [i.name] := by
      rw [← htypes]
      exact (foldl_clearField _ s).2
    rw [← dropLabel_of_types hstripped, AccountState.prepared, ← addInterface_withError, clearContract_eq]
    rfl
  rw [hdropped a h.left, hdropped b h.right, h.rest]

end AccountState

namespace Rescan

variable {σ : Type} {parser : Parser (RescanM σ)} {lookup : Lookup (RescanM σ)} {i : ContractInterface}

/-! ## Reading again -/

/-- What the parser answers about the interface does not depend on what an earlier reading has produced. -/
def Unswayed (parser : Parser (RescanM σ)) (lookup : Lookup (RescanM σ)) (i : ContractInterface) : Prop :=
  ∀ a b : AccountState, a.stripped i = b.stripped i →
    parser.readAccount a [i.name] lookup = parser.readAccount b [i.name] lookup

theorem exec_rereadInterface (parser : Parser (RescanM σ)) (lookup : Lookup (RescanM σ))
    (i : ContractInterface) (s : AccountState) (w : Context σ) :
    exec (rereadInterface parser lookup i s).run w =
      ((s.prepared i).absorb (exec (parser.readAccount (s.prepared i) [i.name] lookup).run w).1,
        (exec (parser.readAccount (s.prepared i) [i.name] lookup).run w).2) := rfl

theorem Unswayed.readAccount (h : Unswayed parser lookup i) {a b : AccountState}
    (hab : a.withError none = b.withError none) :
    parser.readAccount a [i.name] lookup = parser.readAccount b [i.name] lookup :=
  h a b <| by rw [← a.stripped_withError none, hab, b.stripped_withError]

theorem Unswayed.reread_stripped (h : Unswayed parser lookup i) (s : AccountState) (w : Context σ) :
    exec (rereadInterface parser lookup i s).run w =
      Prod.map (Except.map (AccountState.orError s.error)) id
        (exec (rereadInterface parser lookup i (s.stripped i)).run w) := by
  have hread := h.readAccount (a := (s.stripped i).prepared i) (b := s.prepared i)
    (by rw [s.prepared_stripped, AccountState.withError_withError])
  have habsorb := (s.prepared i).absorb_withError s.error
    (exec (parser.readAccount (s.prepared i) [i.name] lookup).run w).1
  rw [← s.error_prepared i, AccountState.withError_error, s.error_prepared] at habsorb
  rw [exec_rereadInterface, exec_rereadInterface, hread, s.prepared_stripped, habsorb]
  rfl

/-- Reading an interface again makes of a snapshot what it makes of the snapshot without anything that an
earlier reading has produced, except that an error that was there stays unless the new reading fails: after
one that succeeds the snapshot has the error that it had before. Without an error there is no difference. So
snapshots that differ in earlier readings only come out the same if they had the same error, and otherwise as
their stripped forms do but for it. -/
theorem reread_but_for_error (hparser : Unswayed parser lookup i) (w : Context σ) :
    (∀ s : AccountState, exec (rereadInterface parser lookup i s).run w =
      Prod.map (Except.map (AccountState.orError s.error)) id
        (exec (rereadInterface parser lookup i (s.stripped i)).run w)) ∧
    (∀ s : AccountState, s.error = none → exec (rereadInterface parser lookup i s).run w =
      exec (rereadInterface parser lookup i (s.stripped i)).run w) ∧
    (∀ (s : AccountState) (d : AccountData) (v : Context σ),
      exec (parser.readAccount (s.prepared i) [i.name] lookup).run w = (.ok d, v) →
        ∃ b, exec (rereadInterface parser lookup i s).run w = (.ok b, v) ∧ b.error = s.error) ∧
    ∀ a b : AccountState, AccountState.DifferInReadings i a b →
      exec (rereadInterface parser lookup i (a.stripped i)).run w =
        exec (rereadInterface parser lookup i (b.stripped i)).run w ∧
      (a.error = b.error →
        exec (rereadInterface parser lookup i a).run w = exec (rereadInterface parser lookup i b).run w) := by
  refine ⟨fun s => hparser.reread_stripped s w, fun s herror => ?_, fun s d v hread => ?_, fun a b hab => ?_⟩
  · have hid : AccountState.orError none = id := funext AccountState.orError_none
    rw [hparser.reread_stripped s w, herror, hid, Except.map_id, Prod.map_id]
    rfl
  · refine ⟨(s.prepared i).applyData d, ?_, s.error_prepared i⟩
    rw [exec_rereadInterface, hread]
    rfl
  · have hsame : exec (rereadInterface parser lookup i (a.stripped i)).run w =
        exec (rereadInterface parser lookup i (b.stripped i)).run w := by
      rw [exec_rereadInterface, exec_rereadInterface, a.prepared_stripped, b.prepared_stripped, hab.prepared]
    refine ⟨hsame, fun herror => ?_⟩
    rw [hparser.reread_stripped a w, hparser.reread_stripped b w, hsame, herror]

/-! ## The registry -/

section

variable {M : Type → Type} [Monad M] [MonadStateOf Registry M] {lookup : Lookup M} {a b : AccountState}

/-- Of the snapshot a canned result needs the time from which minters are looked up. -/
theorem callMethod_congr (hlt : a.lastTxLt = b.lastTxLt) (contract : ContractName) (method : String) :
    Registry.callMethod a contract method lookup = Registry.callMethod b contract method lookup := by
  simp only [Registry.callMethod, hlt]

theorem callMethods_congr (hlt : a.lastTxLt = b.lastTxLt) :
    ∀ (calls : List (ContractName × String)) (found : Option AccountData),
      Registry.callMethods a lookup calls found = Registry.callMethods b lookup calls found
  | [], _ => rfl
  | (contract, method) :: rest, found => by
    simp only [Registry.callMethods, callMethod_congr hlt, callMethods_congr hlt rest]

end

theorem registry_unswayed (lookup : Lookup (RescanM Registry)) (i : ContractInterface) :
    Unswayed registry lookup i := by
  intro a b h
  have hchain : ∀ s : AccountState, (s.stripped i).chain = s.chain := fun s =>
    (AccountState.foldl_clearField _ s).1
  have hsame : a.chain = b.chain := by rw [← hchain a, h, hchain b]
  have haddress : a.address = b.address := (congrArg AccountState.address hsame :)
  have hlt : a.lastTxLt = b.lastTxLt := (congrArg AccountState.lastTxLt hsame :)
  simp only [Registry.parser, Registry.readAccount, callMethods_congr hlt, haddress]

/-! ## A sample -/

namespace Sample

/-- An item whose get-method was executed before an owner was known. -/
def rereadItem : AccountState where
  address := ⟨0, 7⟩
  block := ⟨.basechain, 3⟩
  masterSeqno := 3
  updatedAt := 0
  status := .active
  balance := 0
  lastTxLt := 30
  lastTxHash := 0
  types := ["nft_item"]
  executed := [("nft_item", [{ method := "get_nft_data" }])]
  minter := some ⟨0, 9⟩

def ownedInterface : ContractInterface where
  name := "nft_item"
  addresses := [rereadItem.address]
  methods := ["get_nft_data"]

/-- The item has an owner, and the first reading of it is impossible. -/
def ownedStart : Context Registry where
  store := {}
  snapshots := .empty 4
  parser := {
    interfaces := [ownedInterface]
    methodResults := [(("nft_item", "get_nft_data"), { owner := some ⟨0, 8⟩ })]
    script := [(("parse_account", rereadItem.address.text),
      { answer := .error (.impossible "bad cell"), times := some 1 })] }
  evictions := fun _ _ => false

/-- Reads the item again. -/
def rereadOwned (s : AccountState) (w : Context Registry) : Except Fault AccountState × Context Registry :=
  exec (rereadInterface registry Snapshots.lookup ownedInterface s).run w

/-- The item after the first reading. -/
def failedItem : AccountState :=
  { rereadItem with executed := [], minter := none, error := some "bad cell" }

/-- The item after a reading that succeeds. -/
def ownedItem : AccountState :=
  { rereadItem with minter := none, owner := some ⟨0, 8⟩ }

end Sample

open Rescan.Sample in
/-- The item and its stripped form differ in a reading and have the same error, none. -/
theorem reread_but_for_error_sample :
    Unswayed registry Snapshots.lookup ownedInterface ∧
      AccountState.DifferInReadings ownedInterface rereadItem (rereadItem.stripped ownedInterface) ∧
      rereadItem ≠ rereadItem.stripped ownedInterface ∧
      rereadOwned rereadItem ownedStart = rereadOwned (rereadItem.stripped ownedInterface) ownedStart := by
  have hparser := registry_unswayed Snapshots.lookup ownedInterface
  have hdiffer : AccountState.DifferInReadings ownedInterface rereadItem
      (rereadItem.stripped ownedInterface) := ⟨rfl, rfl, by decide +kernel⟩
  refine ⟨hparser, hdiffer, by decide +kernel, ?_⟩
  exact ((reread_but_for_error hparser ownedStart).2.2.2 _ _ hdiffer).2 rfl

open Rescan.Sample in
/-- The error of a reading that fails is still there after the next one, which succeeds; the same reading of
the stripped snapshot leaves none. -/
theorem error_outlives_reading : Unswayed registry Snapshots.lookup ownedInterface ∧ ∃ v,
    rereadOwned rereadItem ownedStart = (.ok failedItem, v) ∧
      failedItem.types = [ownedInterface.name] ∧ ownedInterface.accepts failedItem = true ∧
      (∃ d, (exec (registry.readAccount (failedItem.prepared ownedInterface) [ownedInterface.name]
        Snapshots.lookup).run v).1 = .ok d) ∧
      (rereadOwned failedItem v).1 = .ok { ownedItem with error := some "bad cell" } ∧
      (rereadOwned (failedItem.stripped ownedInterface) v).1 = .ok ownedItem ∧
      rereadOwned failedItem v ≠ rereadOwned (failedItem.stripped ownedInterface) v := by
  refine ⟨registry_unswayed _ _, _, rfl, rfl, by decide +kernel, ⟨_, rfl⟩, rfl, rfl, fun hsame => ?_⟩
  have herror : some "bad cell" = none :=
    congrArg AccountState.error (Except.ok.inj (congrArg Prod.fst hsame))
  cases herror

end Rescan

end ShardIndex
