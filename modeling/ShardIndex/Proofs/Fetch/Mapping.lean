import ShardIndex.Entity.Mapping
import ShardIndex.Proofs.Rescan.Images
/-!
# What a mapped record says

What the chain says of a transaction, of a message and of an account, field by field:

* `WireMessage.RecordedAs`: a message as its own transaction records it, with the name and the label of that
  transaction on its own side and neither of them on the other one;
* `WireTransaction.MappedTo`: a transaction bound to its block and its master block, with its messages;
* `WireAccount.ShownBy`: an account as of a block.

The lists of fields are complete: they hold of what the mapping makes and of nothing else
(`WireMessage.recordedAs_iff`, `WireTransaction.mappedTo_iff`, `WireAccount.shownBy_iff`).
-/
namespace ShardIndex

/-! ## Messages -/

/-- The record has kind, addresses, amounts and times of the envelope, and what the envelope does not have is
empty. -/
def Envelope.Shows (e : Envelope) (r : Message) : Prop :=
  match e with
  | .internal src dst value ihrFee fwdFee bounce bounced createdLt createdAt =>
    r.kind = .internal ∧ r.source.address = some src ∧ r.destination.address = some dst ∧
      r.amount = value ∧ r.ihrFee = ihrFee ∧ r.fwdFee = fwdFee ∧ r.importFee = 0 ∧
      r.bounce = bounce ∧ r.bounced = bounced ∧ r.createdLt = createdLt ∧ r.createdAt = createdAt
  | .externalIn dst importFee =>
    r.kind = .externalIn ∧ r.source.address = none ∧ r.destination.address = some dst ∧
      r.amount = 0 ∧ r.ihrFee = 0 ∧ r.fwdFee = 0 ∧ r.importFee = importFee ∧
      r.bounce = false ∧ r.bounced = false ∧ r.createdLt = 0 ∧ r.createdAt = 0
  | .externalOut src createdLt createdAt =>
    r.kind = .externalOut ∧ r.source.address = some src ∧ r.destination.address = none ∧
      r.amount = 0 ∧ r.ihrFee = 0 ∧ r.fwdFee = 0 ∧ r.importFee = 0 ∧
      r.bounce = false ∧ r.bounced = false ∧ r.createdLt = createdLt ∧ r.createdAt = createdAt

/-- The record that a transaction makes of a message, which it has received or sent. -/
structure WireMessage.RecordedAs (m : WireMessage) (d : Direction) (ref : TransactionRef)
    (label : Option ContractName) (r : Message) : Prop where
  hash : r.hash = m.hash
  envelope : m.envelope.Shows r
  body : r.body = m.body
  operationId : r.operationId = m.operationId
  initCode : r.initCode = m.initCode
  initData : r.initData = m.initData
  /-- The body was not read yet. -/
  unread : r.payload = {}
  own : (r.side d).tx = some ref ∧ (r.side d).contract = label
  other : ∀ d', d' ≠ d → (r.side d').tx = none ∧ (r.side d').contract = none

/-- The message with a transaction and its label on one side. -/
def Message.ownedBy (m : Message) (d : Direction) (ref : TransactionRef)
    (label : Option ContractName) : Message :=
  match d with
  | .outgoing => { m with source := { m.source with tx := some ref, contract := label } }
  | .incoming => { m with destination := { m.destination with tx := some ref, contract := label } }

namespace WireMessage

variable {m : WireMessage} {d : Direction} {ref : TransactionRef} {label : Option ContractName} {r r' : Message}

theorem shows_toMessage (m : WireMessage) : m.envelope.Shows m.toMessage := by
  unfold toMessage
  cases m.envelope <;> simp [Envelope.Shows]

/-- Neither side of a message is linked yet. -/
theorem side_toMessage (m : WireMessage) (d : Direction) :
    (m.toMessage.side d).tx = none ∧ (m.toMessage.side d).contract = none := by
  unfold toMessage
  cases m.envelope <;> cases d <;> exact ⟨rfl, rfl⟩

theorem recordedAs_ownedBy (m : WireMessage) (d : Direction) (ref : TransactionRef)
    (label : Option ContractName) : m.RecordedAs d ref label (m.toMessage.ownedBy d ref label) := by
  have hcontents : m.toMessage.hash = m.hash ∧ m.toMessage.body = m.body ∧
      m.toMessage.operationId = m.operationId ∧ m.toMessage.initCode = m.initCode ∧
      m.toMessage.initData = m.initData ∧ m.toMessage.payload = {} := by
    unfold toMessage
    cases m.envelope <;> exact ⟨rfl, rfl, rfl, rfl, rfl, rfl⟩
  have hshows : m.envelope.Shows (m.toMessage.ownedBy d ref label) := by
    have hshows := m.shows_toMessage
    cases d <;> cases he : m.envelope <;> rw [he] at hshows <;> exact hshows
  have hother : ∀ d', d' ≠ d → (m.toMessage.ownedBy d ref label).side d' = m.toMessage.side d' := by
    intro d' hd'
    cases d <;> cases d' <;> first | rfl | exact absurd rfl hd'
  obtain ⟨hhash, hbody, hoperation, hcode, hdata, hpayload⟩ := hcontents
  cases d
  all_goals
    refine ⟨hhash, hshows, hbody, hoperation, hcode, hdata, hpayload, ⟨rfl, rfl⟩, fun d' hd' => ?_⟩
    rw [hother d' hd']
    exact m.side_toMessage d'

/-- The fields say everything. -/
theorem RecordedAs.unique (h : m.RecordedAs d ref label r) (h' : m.RecordedAs d ref label r') : r = r' := by
  have hsides : ∀ d', (r.side d').tx = (r'.side d').tx ∧ (r.side d').contract = (r'.side d').contract := by
    intro d'
    by_cases hd : d' = d
    · subst hd
      exact ⟨h.own.1.trans h'.own.1.symm, h.own.2.trans h'.own.2.symm⟩
    · exact ⟨(h.other d' hd).1.trans (h'.other d' hd).1.symm, (h.other d' hd).2.trans (h'.other d' hd).2.symm⟩
  obtain ⟨hash, henvelope, hbody, hoperation, hcode, hdata, hunread, -, -⟩ := h
  obtain ⟨hash', henvelope', hbody', hoperation', hcode', hdata', hunread', -, -⟩ := h'
  obtain ⟨hsource, hdestination⟩ : _ ∧ _ := ⟨hsides .outgoing, hsides .incoming⟩
  rcases r with ⟨_, _, ⟨_, _, _⟩, ⟨_, _, _⟩, _, _, _, _, _, _, _, _, _, _, _, _, _⟩
  rcases r' with ⟨_, _, ⟨_, _, _⟩, ⟨_, _, _⟩, _, _, _, _, _, _, _, _, _, _, _, _, _⟩
  cases he : m.envelope <;> simp_all [Envelope.Shows, Message.side]

theorem recordedAs_iff : m.RecordedAs d ref label r ↔ r = m.toMessage.ownedBy d ref label := by
  constructor
  · intro h
    exact h.unique (m.recordedAs_ownedBy d ref label)
  · rintro rfl
    exact m.recordedAs_ownedBy d ref label

end WireMessage

/-! ## Transactions -/

/-- The name of a transaction of the block, under the master block with the number. -/
def WireTransaction.refIn (t : WireTransaction) (id : BlockId) (master : UInt32) : TransactionRef where
  hash := t.hash
  lt := t.lt
  block := ⟨id.shard, id.seqno⟩
  masterSeqno := master

/-- The transaction as it was mapped for the master block with the number: bound to its block, with the label
of its account's snapshot `a` on its own side of its messages. -/
structure WireTransaction.MappedTo (t : WireTransaction) (id : BlockId) (master : UInt32) (a : AccountState)
    (tx : Transaction) : Prop where
  account : a.address = t.account
  address : tx.address = t.account
  hash : tx.hash = t.hash
  lt : tx.lt = t.lt
  previous : tx.prevHash = t.prevHash ∧ tx.prevLt = t.prevLt
  block : tx.block = ⟨id.shard, id.seqno⟩
  masterSeqno : tx.masterSeqno = master
  createdAt : tx.createdAt = t.now
  totalFees : tx.totalFees = t.totalFees
  statuses : tx.statusBefore = t.statusBefore ∧ tx.statusAfter = t.statusAfter
  outcome : tx.aborted = t.aborted ∧ tx.exitCode = t.exitCode
  inMessageHash : tx.inMessageHash = t.inMessage.map (·.hash)
  outMessageHashes : tx.outMessageHashes = t.outMessages.map (·.hash)
  received : Option.Rel (fun m r => m.RecordedAs .incoming (t.refIn id master) a.types.head? r)
    t.inMessage tx.inMessage
  sent : List.Forall₂ (fun m r => m.RecordedAs .outgoing (t.refIn id master) a.types.head? r)
    t.outMessages tx.outMessages
  incoming : ∀ m ∈ tx.inMessage, m.destination.contract = a.types.head?
  outgoing : ∀ m ∈ tx.outMessages, m.source.contract = a.types.head?

namespace WireTransaction

variable {t : WireTransaction} {id : BlockId} {master : UInt32} {a : AccountState} {tx : Transaction}

/-- The messages of a mapped transaction are recorded one by one. -/
theorem MappedTo.messages (h : t.MappedTo id master a tx) :
    tx.inMessage = t.inMessage.map (·.toMessage.ownedBy .incoming (t.refIn id master) a.types.head?) ∧
      tx.outMessages = t.outMessages.map (·.toMessage.ownedBy .outgoing (t.refIn id master) a.types.head?) := by
  have hreceived := h.received
  have hsent := h.sent
  simp only [WireMessage.recordedAs_iff] at hreceived hsent
  constructor
  · generalize tx.inMessage = r at hreceived ⊢
    generalize t.inMessage = m at hreceived ⊢
    cases hreceived with
    | none => rfl
    | some hrecord => rw [hrecord, Option.map_some]
  · have hmade := List.forall₂_map_left_iff.2 (hsent.imp fun _ _ => Eq.symm)
    rw [List.forall₂_eq_eq_eq] at hmade
    exact hmade.symm

theorem messages_labelMessages (t : WireTransaction) (id : BlockId) (master : UInt32)
    (label : Option ContractName) :
    ((t.toTransaction id master).labelMessages label).inMessage =
        t.inMessage.map (·.toMessage.ownedBy .incoming (t.refIn id master) label) ∧
      ((t.toTransaction id master).labelMessages label).outMessages =
        t.outMessages.map (·.toMessage.ownedBy .outgoing (t.refIn id master) label) := by
  exact ⟨Option.map_map _ _ _, List.map_map⟩

theorem hashes_toTransaction (t : WireTransaction) (id : BlockId) (master : UInt32) :
    (t.toTransaction id master).inMessageHash = t.inMessage.map (·.hash) ∧
      (t.toTransaction id master).outMessageHashes = t.outMessages.map (·.hash) := by
  have hhash : ∀ m : WireMessage, m.toMessage.hash = m.hash := fun m =>
    (m.recordedAs_ownedBy .incoming (t.refIn id master) none).hash
  exact ⟨(Option.map_map _ _ _).trans (congrArg (t.inMessage.map ·) (funext hhash)),
    List.map_map.trans (congrArg (t.outMessages.map ·) (funext hhash))⟩

/-- The fields say everything. -/
theorem mappedTo_iff : t.MappedTo id master a tx ↔
    a.address = t.account ∧ tx = (t.toTransaction id master).labelMessages a.types.head? := by
  obtain ⟨hin, hout⟩ := t.messages_labelMessages id master a.types.head?
  obtain ⟨hinHash, houtHashes⟩ := t.hashes_toTransaction id master
  constructor
  · intro h
    refine ⟨h.account, ?_⟩
    obtain ⟨hin', hout'⟩ := h.messages
    rw [← hin] at hin'
    rw [← hout] at hout'
    obtain ⟨-, haddress, hhash, hlt, ⟨hprevHash, hprevLt⟩, hblock, hmaster, hnow, hfees,
      ⟨hbefore, hafter⟩, ⟨haborted, hexit⟩, hinHash', houtHashes', -, -, -, -⟩ := h
    rw [← hinHash] at hinHash'
    rw [← houtHashes] at houtHashes'
    cases tx
    simp_all [toTransaction, Transaction.labelMessages, BlockId.ref]
  · rintro ⟨haccount, rfl⟩
    refine {
      account := haccount, address := rfl, hash := rfl, lt := rfl, previous := ⟨rfl, rfl⟩, block := rfl
      masterSeqno := rfl, createdAt := rfl, totalFees := rfl, statuses := ⟨rfl, rfl⟩, outcome := ⟨rfl, rfl⟩
      inMessageHash := hinHash, outMessageHashes := houtHashes
      received := ?_, sent := ?_, incoming := fun m hm => ?_, outgoing := fun m hm => ?_ }
    · rw [hin]
      cases t.inMessage with
      | none => exact .none
      | some m => exact .some (m.recordedAs_ownedBy _ _ _)
    · rw [hout, List.forall₂_map_right_iff, List.forall₂_same]
      exact fun m _ => m.recordedAs_ownedBy _ _ _
    · rw [hin] at hm
      obtain ⟨m', -, rfl⟩ := Option.map_eq_some_iff.1 hm
      rfl
    · rw [hout] at hm
      obtain ⟨m', -, rfl⟩ := List.mem_map.1 hm
      rfl

end WireTransaction

/-! ## Accounts -/

/-- The snapshot says what the chain says of the account as of the block. -/
structure WireAccount.ShownBy (x : WireAccount) (id : BlockId) (master updatedAt : UInt32)
    (s : AccountState) : Prop where
  address : s.address = x.address
  block : s.block = ⟨id.shard, id.seqno⟩
  masterSeqno : s.masterSeqno = master
  updatedAt : s.updatedAt = updatedAt
  status : s.status = x.status
  balance : s.balance = x.balance
  lastTx : s.lastTxLt = x.lastTxLt ∧ s.lastTxHash = x.lastTxHash
  code : s.code = x.code ∧ s.codeHash = x.codeHash
  data : s.data = x.data ∧ s.dataHash = x.dataHash
  methodHashes : s.methodHashes = x.methodHashes

theorem WireAccount.shownBy_iff {x : WireAccount} {id : BlockId} {master updatedAt : UInt32}
    {s : AccountState} :
    x.ShownBy id master updatedAt s ↔ s.chain = x.toState id master updatedAt := by
  constructor
  · rintro ⟨haddress, hblock, hmaster, hupdated, hstatus, hbalance, ⟨hlt, hhash⟩, ⟨hcode, hcodeHash⟩,
      ⟨hdata, hdataHash⟩, hmethods⟩
    simp [AccountState.chain, toState, BlockId.ref, *]
  · intro h
    simp only [AccountState.chain, toState, BlockId.ref, AccountState.mk.injEq] at h
    constructor <;> simp [h]

/-! ## Readings -/

/-- What reading an account leaves of its snapshot: it takes over what was found, or the reason why nothing
can be found, or stays as it is. A fault leaves nothing. -/
inductive AccountState.TakesOver (s : AccountState) : Except ParseFault AccountData → AccountState → Prop
  | found (data : AccountData) : TakesOver s (.ok data) (s.applyData data)
  | notAvailable : TakesOver s (.error .notAvailable) s
  | impossible (reason : String) : TakesOver s (.error (.impossible reason)) { s with error := some reason }

theorem AccountState.takesOver_iff {s a : AccountState} {outcome : Except ParseFault AccountData} :
    s.TakesOver outcome a ↔ s.absorb outcome = .ok a := by
  constructor
  · rintro (_ | _ | _) <;> rfl
  · intro h
    match outcome, h with
    | .ok data, rfl => exact .found data
    | .error .notAvailable, rfl => exact .notAvailable
    | .error (.impossible reason), rfl => exact .impossible reason

end ShardIndex
