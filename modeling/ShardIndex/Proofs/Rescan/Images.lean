import ShardIndex.Proofs.Store.Versions
import ShardIndex.Rescan.Scheduler
/-!
# What a task makes of a row

A parser may answer by what the chain says about a row (`AccountState.chain`, `Message.chain`), by the
names it is given and by the labels of the accounts that it looks up (`Labels`). For such answers a task
makes one image of each row (`accountImage`, `messageImage`), and what the chain says stays
(`chain_of_accountImage`). A list of rows has the images of those that change (`changedRows`).
-/
namespace ShardIndex

/-! ## What the chain says -/

/-- The snapshot without anything that contracts said. -/
def AccountState.chain (s : AccountState) : AccountState :=
  { s with
    types := [], executed := [], content := {}, owner := none, minter := none, jettonBalance := none
    fake := false, error := none }

/-- The message without labels and without what reading its body has produced. -/
def Message.chain (m : Message) : Message :=
  { m with
    source := { m.source with contract := none }
    destination := { m.destination with contract := none }
    payload := {} }

namespace AccountState

variable (s : AccountState)

/-- Resetting fields, field by field. -/
theorem foldl_clearField_eq : ∀ (fields : List DerivedField) (s : AccountState),
    fields.foldl clearField s = { s with
      content := if .content ∈ fields then {} else s.content
      owner := if .owner ∈ fields then none else s.owner
      minter := if .minter ∈ fields then none else s.minter
      jettonBalance := if .jettonBalance ∈ fields then none else s.jettonBalance
      fake := if .fake ∈ fields then false else s.fake }
  | [], s => by simp
  | f :: fields, s => by
    rw [List.foldl_cons, foldl_clearField_eq fields]
    cases f <;> simp [clearField]

theorem foldl_clearField (fields : List DerivedField) (s : AccountState) :
    (fields.foldl clearField s).chain = s.chain ∧ (fields.foldl clearField s).types = s.types := by
  rw [foldl_clearField_eq]
  exact ⟨rfl, rfl⟩

theorem chain_clearFieldsOf (method : String) : (s.clearFieldsOf method).chain = s.chain :=
  (foldl_clearField _ s).1

theorem types_clearFieldsOf (method : String) : (s.clearFieldsOf method).types = s.types :=
  (foldl_clearField _ s).2

theorem foldl_clearFieldsOf : ∀ (methods : List String) (s : AccountState),
    (methods.foldl clearFieldsOf s).chain = s.chain ∧ (methods.foldl clearFieldsOf s).types = s.types
  | [], _ => ⟨rfl, rfl⟩
  | m :: methods, s => by
    obtain ⟨hchain, htypes⟩ := foldl_clearFieldsOf methods (s.clearFieldsOf m)
    exact ⟨hchain.trans (chain_clearFieldsOf s m), htypes.trans (types_clearFieldsOf s m)⟩

theorem chain_clearMethod (contract : ContractName) (method : String) :
    (s.clearMethod contract method).chain = s.chain :=
  chain_clearFieldsOf _ _

theorem types_clearMethod (contract : ContractName) (method : String) :
    (s.clearMethod contract method).types = s.types :=
  types_clearFieldsOf _ _

theorem chain_clearContract (contract : ContractName) (methods : List String) :
    (s.clearContract contract methods).chain = s.chain :=
  (foldl_clearFieldsOf _ _).1

theorem types_clearContract (contract : ContractName) (methods : List String) :
    (s.clearContract contract methods).types = s.types.filter fun t => decide (t ≠ contract) := by
  unfold clearContract
  dsimp only
  rw [(foldl_clearFieldsOf _ _).2]

theorem chain_addInterface (contract : ContractName) : (s.addInterface contract).chain = s.chain := by
  unfold addInterface
  split <;> rfl

variable {s}

theorem of_absorb {outcome : Except ParseFault AccountData} {b : AccountState}
    (h : s.absorb outcome = .ok b) : b.chain = s.chain ∧ b.types = s.types := by
  cases outcome with
  | ok data =>
    obtain rfl := Except.ok.inj h
    exact ⟨rfl, rfl⟩
  | error fault =>
    cases fault with
    | notAvailable =>
      obtain rfl := Except.ok.inj h
      exact ⟨rfl, rfl⟩
    | impossible reason =>
      obtain rfl := Except.ok.inj h
      exact ⟨rfl, rfl⟩
    | other fault => cases h

end AccountState

namespace Message

variable {m b : Message}

/-- Reading a payload changes nothing but the payload. -/
theorem of_absorb {outcome : Except ParseFault Decoded} (h : m.absorb outcome = .ok b) :
    { b with payload := m.payload } = m := by
  cases outcome with
  | ok data =>
    obtain rfl := Except.ok.inj h
    rfl
  | error fault =>
    cases fault with
    | notAvailable =>
      obtain rfl := Except.ok.inj h
      rfl
    | impossible reason =>
      obtain rfl := Except.ok.inj h
      rfl
    | other fault => cases h

theorem chain_of_absorb {outcome : Except ParseFault Decoded} (h : m.absorb outcome = .ok b) :
    b.chain = m.chain := by
  rw [← of_absorb h]
  rfl

theorem chain_relabel (m : Message) (d : Direction) (label : Option ContractName) :
    (m.relabel d label).chain = m.chain := by
  cases d <;> rfl

end Message

/-! ## Answers -/

/-- The labels that accounts have before logical times, where their state is known. -/
abbrev Labels := Address → UInt64 → Option (List ContractName)

/-- The labels as the store has them. -/
def Store.labels (s : Store) : Labels := fun address beforeLt =>
  (s.stateBefore address beforeLt).map (·.types)

/-- A table whose rows keep what the chain says has the labels of the new rows at the old places. -/
theorem Store.labels_map {s s' : Store} {g : AccountState → AccountState}
    (hs : s'.accounts = s.accounts.map g) (hg : ∀ a ∈ s.accounts, (g a).chain = a.chain)
    (address : Address) (beforeLt : UInt64) :
    s'.labels address beforeLt = (s.stateBefore address beforeLt).map fun a => (g a).types := by
  rw [Store.labels, Store.stateBefore_map hs fun a ha =>
    ⟨(congrArg AccountState.address (hg a ha) :), (congrArg AccountState.lastTxLt (hg a ha) :)⟩,
    Option.map_map]
  rfl

/-- What a parser answers by the chain and by labels. -/
structure Answers where
  readAccount : AccountState → List ContractName → Labels → Except ParseFault AccountData
  callMethod : AccountState → ContractName → String → Labels → Except ParseFault AccountData
  readPayload : Message → Except ParseFault Decoded

namespace Rescan

variable (answers : Answers) (labels : Labels) (t : RescanTask)

/-- A snapshot with a get-method forgotten and executed again. -/
def methodImage (contract : ContractName) (method : String) (s : AccountState) :
    Except Fault AccountState :=
  (s.clearMethod contract method).absorb (answers.callMethod s.chain contract method labels)

/-- A snapshot with an interface forgotten and read again. -/
def interfaceImage (i : ContractInterface) (s : AccountState) : Except Fault AccountState :=
  ((s.clearContract i.name i.methods).addInterface i.name).absorb
    (answers.readAccount s.chain [i.name] labels)

/-- What a task makes of a snapshot that it bears on. -/
def accountImage (interface : Option ContractInterface) (s : AccountState) :
    Except Fault AccountState :=
  match t.kind with
  | .addInterface | .updInterface =>
    match interface.filter (·.accepts s) with
    | some i => interfaceImage answers labels i s
    | none => .ok (s.clearContract t.contract [])
  | .delInterface => .ok (s.clearContract t.contract [])
  | .addMethod | .updMethod => methodOf t >>= fun method => methodImage answers labels t.contract method s
  | .delMethod => methodOf t >>= fun method => .ok (s.clearMethod t.contract method)
  | .updOperation | .delOperation => .ok s

/-- Whether the account of a side has an interface, by its labels right after the side's transaction;
without a known state the side's own label decides. -/
def sideConcerned (side : Side) (contract : ContractName) : Bool :=
  match sideMoment side with
  | none => false
  | some (address, beforeLt) =>
    match labels address beforeLt with
    | some types => types.contains contract
    | none => side.contract == some contract

/-- A message of an operation, with its payload read again or forgotten. -/
def operationImage (m : Message) : Except Fault Message :=
  if sideConcerned labels (m.side t.direction) t.contract then
    match t.kind with
    | .updOperation => m.clearPayload.absorb (answers.readPayload m.chain)
    | _ => .ok m.clearPayload
  else .ok m

/-- A message with the label of one side put right. -/
def relabelled (contract : ContractName) (m : Message) (d : Direction) : Message :=
  match (sideMoment (m.side d)).bind fun moment => labels moment.1 moment.2 with
  | none => m
  | some types =>
    if (m.side d).contract = some contract ∨ types.head? = some contract then m.relabel d types.head?
    else m

/-- A message with its labels put right and, if one has changed, its payload read again. -/
def relabelImage (contract : ContractName) (m : Message) : Except Fault Message :=
  let r := relabelled labels contract (relabelled labels contract m .outgoing) .incoming
  if r = m then .ok m else r.clearPayload.absorb (answers.readPayload m.chain)

/-- The same with payloads that are read in any way from the message as it is then. -/
def relabelImageBy (read : Message → Except ParseFault Decoded) (labels : Labels) (contract : ContractName)
    (m : Message) : Except Fault Message :=
  let r := relabelled labels contract (relabelled labels contract m .outgoing) .incoming
  if r = m then .ok m else r.clearPayload.absorb (read r.clearPayload)

/-- What a task makes of a message that it bears on. -/
def messageImage (m : Message) : Except Fault Message :=
  match t.kind with
  | .updOperation | .delOperation => operationImage answers labels t m
  | .addInterface | .updInterface | .delInterface => relabelImage answers labels t.contract m
  | .addMethod | .updMethod | .delMethod => .ok m

variable {answers labels t}

theorem of_methodImage {contract : ContractName} {method : String} {a b : AccountState}
    (h : methodImage answers labels contract method a = .ok b) : b.chain = a.chain ∧ b.types = a.types := by
  obtain ⟨hchain, htypes⟩ := AccountState.of_absorb h
  exact ⟨hchain.trans (a.chain_clearMethod _ _), htypes.trans (a.types_clearMethod _ _)⟩

theorem chain_of_interfaceImage {i : ContractInterface} {a b : AccountState}
    (h : interfaceImage answers labels i a = .ok b) : b.chain = a.chain :=
  (AccountState.of_absorb h).1.trans
    ((AccountState.chain_addInterface _ _).trans (a.chain_clearContract _ _))

/-- What the chain says about a snapshot stays. -/
theorem chain_of_accountImage {interface : Option ContractInterface} {a b : AccountState}
    (h : accountImage answers labels t interface a = .ok b) : b.chain = a.chain := by
  unfold accountImage at h
  split at h
  · split at h
    · exact chain_of_interfaceImage h
    · obtain rfl := Except.ok.inj h
      exact a.chain_clearContract _ _
  · split at h
    · exact chain_of_interfaceImage h
    · obtain rfl := Except.ok.inj h
      exact a.chain_clearContract _ _
  · obtain rfl := Except.ok.inj h
    exact a.chain_clearContract _ _
  · unfold methodOf at h
    split at h
    · exact (of_methodImage h).1
    · cases h
  · unfold methodOf at h
    split at h
    · exact (of_methodImage h).1
    · cases h
  · unfold methodOf at h
    split at h
    · obtain rfl := Except.ok.inj h
      exact a.chain_clearMethod _ _
    · cases h
  · obtain rfl := Except.ok.inj h
    rfl
  · obtain rfl := Except.ok.inj h
    rfl

theorem chain_relabelled (contract : ContractName) (m : Message) (d : Direction) :
    (relabelled labels contract m d).chain = m.chain := by
  unfold relabelled
  split
  · rfl
  · split
    · exact Message.chain_relabel _ _ _
    · rfl

theorem payload_relabelled (contract : ContractName) (m : Message) (d : Direction) :
    (relabelled labels contract m d).payload = m.payload := by
  unfold relabelled
  split
  · rfl
  · split
    · cases d <;> rfl
    · rfl

/-- A message that got a new label does not become what it was by reading its payload again. -/
theorem ne_of_absorb_clearPayload {r m b : Message} {outcome : Except ParseFault Decoded}
    (hpayload : r.payload = m.payload) (hne : r ≠ m) (h : r.clearPayload.absorb outcome = .ok b) :
    b ≠ m := by
  rintro rfl
  refine hne ?_
  have hclear : { b with payload := {} } = r.clearPayload := Message.of_absorb h
  calc r = { r.clearPayload with payload := r.payload } := rfl
    _ = { b with payload := r.payload } := by rw [← hclear]
    _ = b := by rw [hpayload]

theorem relabelImage_eq (answers : Answers) (labels : Labels) (contract : ContractName) :
    relabelImage answers labels contract =
      relabelImageBy (fun m => answers.readPayload m.chain) labels contract := by
  funext m
  unfold relabelImage relabelImageBy
  have hchain : (relabelled labels contract (relabelled labels contract m .outgoing) .incoming).chain =
      m.chain := by
    rw [chain_relabelled, chain_relabelled]
  rw [← hchain]
  rfl

/-- What the chain says about a message stays, however payloads are read. -/
theorem chain_of_relabelImageBy {read : Message → Except ParseFault Decoded} {contract : ContractName}
    {a b : Message} (h : relabelImageBy read labels contract a = .ok b) : b.chain = a.chain := by
  unfold relabelImageBy at h
  dsimp only at h
  split at h
  · obtain rfl := Except.ok.inj h
    rfl
  · refine (Message.chain_of_absorb h).trans ?_
    exact (chain_relabelled _ _ _).trans (chain_relabelled _ _ _)

/-- What the chain says about a message stays. -/
theorem chain_of_messageImage {a b : Message} (h : messageImage answers labels t a = .ok b) :
    b.chain = a.chain := by
  have hop : operationImage answers labels t a = .ok b → b.chain = a.chain := by
    intro h
    unfold operationImage at h
    split at h
    · split at h
      · exact (Message.chain_of_absorb h).trans rfl
      · obtain rfl := Except.ok.inj h
        rfl
    · obtain rfl := Except.ok.inj h
      rfl
  have hrelabel : relabelImage answers labels t.contract a = .ok b → b.chain = a.chain := by
    rw [relabelImage_eq]
    exact chain_of_relabelImageBy
  unfold messageImage at h
  split at h
  all_goals
    first
    | exact hop h
    | exact hrelabel h
    | exact congrArg Message.chain (Except.ok.inj h).symm

/-! ## Changed rows -/

/-- A computation that succeeds has succeeded step by step. -/
theorem exists_of_bind_eq_ok {α β : Type} {x : Except Fault α} {f : α → Except Fault β} {b : β}
    (h : x >>= f = .ok b) : ∃ a, x = .ok a ∧ f a = .ok b := by
  cases x with
  | error fault => cases h
  | ok a => exact ⟨a, rfl, h⟩

/-- The images of the rows that change, unless an image cannot be made. -/
def changedRows {ρ : Type} [DecidableEq ρ] (image : ρ → Except Fault ρ) : List ρ → Except Fault (List ρ)
  | [] => .ok []
  | r :: rows => image r >>= fun b => changedRows image rows >>= fun rest =>
      .ok (if b = r then rest else b :: rest)

/-- The image of a row, or the row itself if an image cannot be made. -/
def imageOr {ρ : Type} (image : ρ → Except Fault ρ) (r : ρ) : ρ :=
  match image r with
  | .ok b => b
  | .error _ => r

theorem changedRows_eq_ok {ρ : Type} [DecidableEq ρ] {image : ρ → Except Fault ρ} :
    ∀ {rows out : List ρ}, changedRows image rows = .ok out →
      (∀ r ∈ rows, image r = .ok (imageOr image r)) ∧
        out = (rows.filter fun r => decide (imageOr image r ≠ r)).map (imageOr image)
  | [], out, h => by
    obtain rfl := Except.ok.inj h
    simp
  | r :: rows, out, h => by
    obtain ⟨b, hr, h⟩ := exists_of_bind_eq_ok h
    obtain ⟨rest, hrest, h⟩ := exists_of_bind_eq_ok h
    obtain rfl := Except.ok.inj h
    obtain ⟨himage, rfl⟩ := changedRows_eq_ok hrest
    have hb : imageOr image r = b := by rw [imageOr, hr]
    refine ⟨List.forall_mem_cons.2 ⟨by rw [hr, hb], himage⟩, ?_⟩
    by_cases hbr : b = r
    · simp [hb, hbr]
    · simp [hb, hbr]

theorem changedRows_ok {ρ : Type} [DecidableEq ρ] :
    ∀ rows : List ρ, changedRows (.ok : ρ → Except Fault ρ) rows = .ok []
  | [] => rfl
  | r :: rows => by
    rw [changedRows, changedRows_ok rows]
    exact congrArg Except.ok (if_pos rfl)

/-! ## What a plan changes -/

/-- The messages that a task bears on; the definition of an operation that was updated has to be
there. -/
def messageFilter (s : Store) (t : RescanTask) : Except Fault MessageFilter :=
  match t.kind with
  | .updOperation | .delOperation =>
    operationIdOf t >>= fun id => operationKind s t id >>= fun kind =>
      .ok { operationId := some id, kind := kind, direction := some t.direction }
  | _ => .ok {}

/-- The changed snapshots of a window. -/
def accountsImage (answers : Answers) (s : Store) (t : RescanTask) (start stop : UInt32) :
    Except Fault (List AccountState) :=
  interfaceOf s t >>= fun interface =>
    changedRows (accountImage answers s.labels t interface)
      (s.statesInRange (accountFilter t interface) start stop)

/-- The changed messages of a window. -/
def messagesImage (answers : Answers) (s : Store) (t : RescanTask) (start stop : UInt32) :
    Except Fault (List Message) :=
  messageFilter s t >>= fun filter =>
    changedRows (messageImage answers s.labels t) (s.messagesInRange filter start stop)

/-- The changed rows of a plan. -/
def planImage (answers : Answers) (s : Store) (t : RescanTask) :
    Plan → Except Fault (List AccountState × List Message)
  | .accounts (some (start, stop)) => accountsImage answers s t start stop >>= fun rows => .ok (rows, [])
  | .messages (some (start, stop)) => messagesImage answers s t start stop >>= fun rows => .ok ([], rows)
  | _ => .ok ([], [])

end Rescan

end ShardIndex
