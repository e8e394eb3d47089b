import ShardIndex.Proofs.Supervision.Programs
import ShardIndex.Simulation.World
/-!
# What a fetch brings

A node is honest when blocks are what their names say (`Ledger.Honest`): a master block asked for by its
number has that number, shard blocks come from shard blocks. A cache is honest when it was told so, and a
script when it does not answer with the sink's own words. Honesty is all that is asked of what programs
share, and it is what they leave (`World.Kept`): nobody makes up blocks.

Then a fetch of a height brings a bundle of that height, whose only master block has the height as its
number (`World.reads_fetchMaster`), whatever else happens to the node, the parser, the cache and the store
while the fetch waits. It leaves the store alone, as every read does.
-/
namespace ShardIndex

/-! ## Honesty -/

/-- Anything but a master block that came out of order. -/
def Fault.InOrder (e : Fault) : Prop :=
  ∀ seqno expected, e ≠ .outOfOrder seqno expected

/-- The same of what a parser faults with. -/
def ParseFault.InOrder (e : ParseFault) : Prop :=
  ∀ fault, e = .other fault → fault.InOrder

/-- All answers of a script satisfy `P`. -/
def Script.Answers {ρ : Type} (P : ρ → Prop) (s : Script ρ) : Prop :=
  ∀ key rule, Table.get? s key = some rule → P rule.answer

/-- Blocks are what their names say. -/
structure Ledger.Honest (l : Ledger) : Prop where
  masters : ∀ n id, l.masters.get? n = some id → id.seqno = n ∧ id.isMasterchain = true
  shards : ∀ id tops, l.topShards.get? id = some tops → ∀ b ∈ tops, b.isMasterchain = false
  headers : ∀ id h, l.headers.get? id = some h → h.id = id
  parents : ∀ id h, l.headers.get? id = some h → id.isMasterchain = false →
    ∀ b ∈ h.parents, b.isMasterchain = false
  script : Script.Answers Fault.InOrder l.script

/-- What was remembered was told by an honest node. -/
structure ReadCache.Honest (c : ReadCache) : Prop where
  masters : ∀ n id, c.masters.get? n = some id → id.seqno = n ∧ id.isMasterchain = true
  shards : ∀ id tops, c.topShards.get? id = some tops → ∀ b ∈ tops, b.isMasterchain = false

/-- No scripted answer of the parser says that a master block is out of order. -/
def Registry.Honest (r : Registry) : Prop :=
  Script.Answers (fun answer => ∀ e, answer = .error e → e.InOrder) r.script

/-- The node and the parser are honest. -/
structure Site.Honest (s : Site) : Prop where
  ledger : s.ledger.Honest
  registry : s.registry.Honest

/-- The bundle holds one master block, with the number of the bundle. -/
def MasterBundle.Sound (b : MasterBundle) : Prop :=
  Store.mastersOf (.blocks (b.records.map (·.block.headerOnly))) = [b.seqno]

namespace Ledger.Honest

theorem empty : ({} : Ledger).Honest :=
  ⟨fun _ _ h => (nomatch h), fun _ _ h => (nomatch h), fun _ _ h => (nomatch h),
    fun _ _ h => (nomatch h), fun _ _ h => (nomatch h)⟩

variable {l : Ledger}

theorem addBlock (h : l.Honest) (header : Header)
    (hparents : header.id.isMasterchain = false → ∀ b ∈ header.parents, b.isMasterchain = false)
    (transactions : List WireTransaction) : (l.addBlock header transactions).Honest where
  masters := h.masters
  shards := h.shards
  headers := by
    intro id x hx
    rw [Ledger.addBlock, Table.get?_set] at hx
    split at hx
    · obtain rfl := Option.some.inj hx
      exact Eq.symm ‹_›
    · exact h.headers id x hx
  parents := by
    intro id x hx hid
    rw [Ledger.addBlock, Table.get?_set] at hx
    split at hx
    · rename_i heq
      obtain rfl := Option.some.inj hx
      exact hparents (heq ▸ hid)
    · exact h.parents id x hx hid
  script := h.script

theorem addMaster (h : l.Honest) {header : Header} (hmaster : header.id.isMasterchain = true)
    (transactions : List WireTransaction) {shards : List BlockId}
    (hshards : ∀ b ∈ shards, b.isMasterchain = false) :
    (l.addMaster header transactions shards).Honest := by
  have hblock := h.addBlock header (by simp [hmaster]) transactions
  refine { hblock with masters := fun n id hid => ?_, shards := fun id tops htops => ?_ }
  · rw [Ledger.addMaster, Table.get?_set] at hid
    split at hid
    · obtain rfl := Option.some.inj hid
      exact ⟨Eq.symm ‹_›, hmaster⟩
    · exact h.masters n id hid
  · rw [Ledger.addMaster, Table.get?_set] at htops
    split at htops
    · obtain rfl := Option.some.inj htops
      exact hshards
    · exact h.shards id tops htops

/-- A synthetic master block is what its name says. -/
theorem addSimpleMaster (h : l.Honest) (seqno : UInt32) (masterTxs shardTxs : List WireTransaction) :
    (l.addSimpleMaster seqno masterTxs shardTxs).Honest := by
  have hbasechain : ∀ n, ∀ b ∈ [Synthetic.blockId .basechain n], b.isMasterchain = false := by
    intro n b hb
    rw [List.mem_singleton.mp hb]
    rfl
  exact (h.addBlock _ (fun _ => hbasechain _) shardTxs).addMaster rfl masterTxs (hbasechain seqno)

end Ledger.Honest

namespace Script

variable {ρ : Type} {P : ρ → Prop} {s : Script ρ}

theorem Answers.consult (h : s.Answers P) (call key : String) :
    (∀ a, (s.consult call key).1 = some a → P a) ∧ (s.consult call key).2.Answers P := by
  unfold Script.consult
  cases hrule : Table.get? s (call, key) with
  | none => exact ⟨by simp, h⟩
  | some rule =>
    have hP := h _ rule hrule
    have hkeeps : rule.apply.2.answer = rule.answer := by
      unfold Rule.apply
      split
      · rfl
      · split <;> rfl
    refine ⟨?_, ?_⟩
    · intro a ha
      have hanswer : ∀ b, rule.apply.1 = some b → b = rule.answer := by
        intro b hb
        unfold Rule.apply at hb
        split at hb
        · cases hb
        · split at hb
          · exact (Option.some.inj hb).symm
          · cases hb
          · exact (Option.some.inj hb).symm
      rw [hanswer a ha]
      exact hP
    · intro k r hk
      rw [Table.get?_set] at hk
      split at hk
      · rw [← Option.some.inj hk, hkeeps]
        exact hP
      · exact h k r hk

end Script

namespace World

open Timed (Outcome outcome_trivial)

/-- The world of a program that relies on an honest node, and on `J` of the store. -/
structure Kept (J : Store → Prop) (w : World) : Prop where
  site : w.site.Honest
  cache : w.cache.Honest
  store : J w.site.store

/-- What a program gives in such a world. It does not touch `held`, which is read off the store. -/
abbrev Gives {α ε κ : Type} (J : Store → Prop) (held : Store → κ) (Q : α → Prop) (F : ε → Prop)
    (p : ExceptT ε (Timed World) α) : Prop :=
  Timed.Gives (Kept J) (fun w => held w.site.store) Q F p

variable {α ε κ : Type} {J : Store → Prop} {held : Store → κ} {Q : α → Prop} {E : ε → Prop}
  {F : Fault → Prop}

/-- A change of the world that keeps what is relied on. -/
theorem gives_access {f : World → α × World}
    (hf : ∀ w, Kept J w → (f w).2.site.store = w.site.store ∧ Kept J (f w).2 ∧ Q (f w).1) :
    Gives J held Q E (ExceptT.lift (Timed.access f) : ExceptT ε (Timed World) α) := by
  intro w hw
  obtain ⟨hstore, hkept, hQ⟩ := hf w hw
  exact ⟨congrArg held hstore, hkept, hQ⟩

theorem gives_wait (ms : Nat) :
    Gives J held (fun _ => True) E (Clock.wait ms : ExceptT ε (Timed World) Unit) :=
  fun _ hw => ⟨hw, fun _ hv => ⟨hv, trivial⟩⟩

/-! ## The node -/

theorem gives_getLedger :
    Gives J held Ledger.Honest E (getThe Ledger : ExceptT ε (Timed World) Ledger) :=
  fun _ hw => ⟨rfl, hw, hw.site.ledger⟩

theorem gives_modifyLedger {f : Ledger → Ledger} (hf : ∀ l : Ledger, l.Honest → (f l).Honest) :
    Gives J held (fun _ => True) E (modifyThe Ledger f : ExceptT ε (Timed World) PUnit) :=
  gives_access fun _ hw =>
    ⟨rfl, ⟨⟨hf _ hw.site.ledger, hw.site.registry⟩, hw.cache, hw.store⟩, trivial⟩

theorem gives_setLedger {l : Ledger} (hl : l.Honest) :
    Gives J held (fun _ => True) E (set l : ExceptT ε (Timed World) PUnit) :=
  fun _ hw => ⟨rfl, ⟨⟨hl, hw.site.registry⟩, hw.cache, hw.store⟩, trivial⟩

theorem gives_ask {f : Ledger → Except Fault α} (hf : ∀ l : Ledger, l.Honest → Outcome Q F (f l)) :
    Gives J held Q F (Ledger.ask f : ExceptT Fault (Timed World) α) :=
  gives_getLedger.bind fun l hl => .answer (hf l hl)

/-- A call is answered by the script or else by what follows. -/
theorem gives_serve (hF : ∀ e : Fault, e.InOrder → F e) (call key : String)
    {body : ExceptT Fault (Timed World) α} (h : Gives J held Q F body) :
    Gives J held Q F (Ledger.serve call key body) := by
  refine gives_getLedger.bind fun l hl => ?_
  have hanswers := hl.script.consult call key
  generalize l.script.consult call key = c at hanswers
  obtain ⟨answer, script⟩ := c
  have hscript : ∀ m : Ledger, m.Honest → { m with script := script }.Honest :=
    fun m hm => { hm with script := hanswers.2 }
  refine (gives_modifyLedger hscript).bind fun _ _ => ?_
  cases answer with
  | none => exact h
  | some fault => exact .throw (hF fault (hanswers.1 fault rfl))

theorem outcome_found {V : Type} {Q : V → Prop} {o : Option V} (hF : F .blockNotFound)
    (h : ∀ v, o = some v → Q v) : Outcome Q F (Ledger.found o) := by
  cases o with
  | none => exact hF
  | some v => exact h v rfl

/-- What is looked up in a table, or else not found. -/
theorem gives_askFound {V : Type} {Q : V → Prop} {f : Ledger → Option V} (hF : F .blockNotFound)
    (h : ∀ l : Ledger, l.Honest → ∀ v, f l = some v → Q v) :
    Gives J held Q F (Ledger.ask (fun l => Ledger.found (f l)) : ExceptT Fault (Timed World) V) :=
  gives_ask fun l hl => outcome_found hF (h l hl)

/-- Faults are of no interest to who tries again anyway. -/
abbrev Reads (J : Store → Prop) (held : Store → κ) (Q : α → Prop) (p : ExceptT Fault (Timed World) α) :
    Prop :=
  Gives J held Q (fun _ => True) p

theorem gives_lastMaster : Gives J held (fun _ => True) Fault.InOrder node.lastMaster := by
  refine gives_serve (fun _ he => he) _ _ (gives_ask fun l _ => ?_)
  unfold Ledger.lastMaster
  split
  · exact fun _ _ => Fault.noConfusion
  · trivial

theorem reads_masterBlock (n : UInt32) :
    Reads J held (fun id => id.seqno = n ∧ id.isMasterchain = true) (node.masterBlock n) := by
  refine gives_serve (fun _ _ => trivial) _ _ (gives_getLedger.bind fun l hl => ?_)
  have hanswer : Outcome (fun id : BlockId => id.seqno = n ∧ id.isMasterchain = true) (fun _ => True)
      (l.masterBlock n).1 ∧ (l.masterBlock n).2.Honest := by
    unfold Ledger.masterBlock
    split
    · exact ⟨trivial, { hl with }⟩
    · exact ⟨outcome_found trivial (hl.masters n), hl⟩
  generalize l.masterBlock n = c at hanswer
  obtain ⟨answer, m⟩ := c
  exact (gives_setLedger hanswer.2).bind fun _ _ => .answer hanswer.1

theorem reads_topShards (id : BlockId) :
    Reads J held (fun tops => ∀ b ∈ tops, b.isMasterchain = false) (node.topShards id) :=
  gives_serve (fun _ _ => trivial) _ _ (gives_askFound trivial fun _ hl => hl.shards id)

theorem reads_header (id : BlockId) :
    Reads J held (fun h => h.id = id ∧ (id.isMasterchain = false → ∀ b ∈ h.parents, b.isMasterchain = false))
      (node.header id) := by
  refine gives_serve (fun _ _ => trivial) _ _ (gives_getLedger.bind fun l _ => ?_)
  have hasked : Reads J held
      (fun h => h.id = id ∧ (id.isMasterchain = false → ∀ b ∈ h.parents, b.isMasterchain = false))
      (Ledger.ask fun l => Ledger.found (l.headers.get? id)) :=
    gives_askFound trivial fun m hm h hh => ⟨hm.headers id h hh, hm.parents id h hh⟩
  split
  · exact (gives_wait _).bind fun _ _ => hasked
  · exact hasked

theorem reads_transactionPage (id : BlockId) (after : Option TransactionKey) :
    Reads J held (fun _ => True) (node.transactionPage id after) :=
  gives_serve (fun _ _ => trivial) _ _ (gives_ask fun _ _ => outcome_trivial _)

theorem reads_transaction (id : BlockId) (address : Address) (lt : UInt64) :
    Reads J held (fun _ => True) (node.transaction id address lt) :=
  gives_serve (fun _ _ => trivial) _ _ (gives_ask fun _ _ => outcome_trivial _)

theorem reads_account (id : BlockId) (address : Address) :
    Reads J held (fun _ => True) (node.account id address) := by
  refine gives_serve (fun _ _ => trivial) _ _ ?_
  refine (gives_modifyLedger ?_).bind fun _ _ => gives_ask fun _ _ => outcome_trivial _
  exact fun l hl => { hl with }

theorem reads_libraries (hashes : List Hash) :
    Reads J held (fun _ => True) (node.libraries hashes) := by
  refine gives_serve (fun _ _ => trivial) _ _ ?_
  refine (gives_modifyLedger ?_).bind fun _ _ => gives_ask fun _ _ => outcome_trivial _
  exact fun l hl => { hl with }

/-! ## The parser -/

theorem gives_getRegistry :
    Gives J held Registry.Honest E (getThe Registry : ExceptT ε (Timed World) Registry) :=
  fun _ hw => ⟨rfl, hw, hw.site.registry⟩

theorem gives_modifyRegistry {f : Registry → Registry} (hf : ∀ r : Registry, r.Honest → (f r).Honest) :
    Gives J held (fun _ => True) E (modifyThe Registry f : ExceptT ε (Timed World) PUnit) :=
  gives_access fun _ hw =>
    ⟨rfl, ⟨⟨hw.site.ledger, hf _ hw.site.registry⟩, hw.cache, hw.store⟩, trivial⟩

/-- The scripted answers of the parser. -/
theorem gives_consult (call key : String) :
    Gives J held (fun answer => ∀ e : ParseFault, answer = some (.error e) → e.InOrder) E
      (liftM (Registry.consult call key : Timed World _) : ExceptT ε (Timed World) _) := by
  intro w hw
  have hanswers := Script.Answers.consult hw.site.registry call key
  exact ⟨rfl, rfl, ⟨⟨hw.site.ledger, hanswers.2⟩, hw.cache, hw.store⟩, fun e he => hanswers.1 _ he e rfl⟩

theorem reads_interfacesOf (s : AccountState) :
    Reads J held (fun _ => True) (parser.interfacesOf s) := by
  refine (gives_consult _ _).bind fun answer _ => ?_
  split
  · exact .throw trivial
  · exact gives_getRegistry.bind fun _ _ => .pure trivial

section

variable {lookup : Lookup (Timed World)}

theorem gives_callMethod (hlookup : ∀ address lt, Reads J held (fun _ => True) (lookup address lt))
    (s : AccountState) (contract : ContractName) (method : String) :
    Gives J held (fun _ => True) (fun _ => True) (Registry.callMethod s contract method lookup) := by
  refine gives_getRegistry.bind fun r _ => ?_
  split
  · exact .throw trivial
  · rename_i data _
    have hcount : ∀ r : Registry, r.Honest → { r with methodCalls := r.methodCalls + 1 }.Honest :=
      fun _ hr => hr
    refine (gives_modifyRegistry hcount).bind fun _ _ => ?_
    split
    · exact .pure trivial
    · rename_i minter _
      have hcount : ∀ r : Registry, r.Honest → { r with lookups := r.lookups + 1 }.Honest :=
        fun _ hr => hr
      refine (gives_modifyRegistry hcount).bind fun _ _ => ?_
      refine (hlookup minter s.lastTxLt).lift.bind fun found _ => ?_
      split
      · exact .throw trivial
      · exact .pure trivial

theorem gives_callMethods (hlookup : ∀ address lt, Reads J held (fun _ => True) (lookup address lt))
    (s : AccountState) (calls : List (ContractName × String)) (found : Option AccountData) :
    Gives J held (fun _ => True) (fun _ => True) (Registry.callMethods s lookup calls found) := by
  induction calls generalizing found with
  | nil => exact .pure trivial
  | cons call calls ih =>
    unfold Registry.callMethods
    refine (gives_callMethod hlookup s call.1 call.2).lift.bind fun answer _ => ?_
    split
    · exact ih _
    · exact ih _
    · exact .throw trivial

theorem gives_readAccount (hlookup : ∀ address lt, Reads J held (fun _ => True) (lookup address lt))
    (s : AccountState) (types : List ContractName) :
    Gives J held (fun _ => True) (fun _ => True) (parser.readAccount s types lookup) := by
  refine (gives_consult _ _).bind fun answer _ => ?_
  split
  · exact .answer (outcome_trivial _)
  · refine gives_getRegistry.bind fun r _ => ?_
    refine (gives_callMethods hlookup s _ none).bind fun data _ => ?_
    split
    · exact .pure trivial
    · exact .throw trivial

theorem reads_fillAccount (hlookup : ∀ address lt, Reads J held (fun _ => True) (lookup address lt))
    (s : AccountState) : Reads J held (fun _ => True) (parser.fillAccount lookup s) := by
  unfold Parser.fillAccount
  split
  · exact .pure trivial
  · exact (gives_readAccount hlookup s s.types).lift.bind fun _ _ => .answer (outcome_trivial _)

end

/-- A body that cannot be read is no reason to say that a master block is out of order. -/
theorem gives_fillMessage (m : Message) :
    Gives J held (fun _ => True) Fault.InOrder (parser.fillMessage m) := by
  have hpayload : Gives J held (fun _ => True) ParseFault.InOrder (parser.readPayload m) := by
    refine (gives_consult _ _).bind fun answer hanswer => ?_
    split
    · exact .throw (hanswer _ rfl)
    · refine gives_getRegistry.bind fun r _ => .answer ?_
      unfold Registry.decode
      split
      · exact fun _ => ParseFault.noConfusion
      · split
        · trivial
        · exact fun _ => ParseFault.noConfusion
  refine hpayload.lift.bind fun outcome houtcome => .answer ?_
  unfold Message.absorb
  split
  · trivial
  · trivial
  · trivial
  · exact houtcome _ rfl

/-! ## The reader -/

theorem gives_getCache :
    Gives J held ReadCache.Honest E (getThe ReadCache : ExceptT ε (Timed World) ReadCache) :=
  fun _ hw => ⟨rfl, hw, hw.cache⟩

theorem gives_modifyCache {f : ReadCache → ReadCache} (hf : ∀ c : ReadCache, c.Honest → (f c).Honest) :
    Gives J held (fun _ => True) E (modifyThe ReadCache f : ExceptT ε (Timed World) PUnit) :=
  gives_access fun _ hw => ⟨rfl, ⟨hw.site, hf _ hw.cache, hw.store⟩, trivial⟩

theorem reads_reader_masterBlock (n : UInt32) :
    Reads J held (fun id => id.seqno = n ∧ id.isMasterchain = true) (reader.masterBlock n) := by
  refine gives_getCache.bind fun c hc => ?_
  split
  · rename_i id hid
    exact .pure (hc.masters n id hid)
  · refine (reads_masterBlock n).bind fun id hid => ?_
    refine (gives_modifyCache ?_).bind fun _ _ => .pure hid
    refine fun c hc => { hc with masters := fun k x hx => ?_ }
    rw [Table.get?_set] at hx
    split at hx
    · obtain rfl := Option.some.inj hx
      exact ⟨Eq.symm ‹k = id.seqno›, hid.2⟩
    · exact hc.masters k x hx

theorem reads_reader_topShards (id : BlockId) :
    Reads J held (fun tops => ∀ b ∈ tops, b.isMasterchain = false) (reader.topShards id) := by
  refine gives_getCache.bind fun c hc => ?_
  split
  · rename_i tops htops
    exact .pure (hc.shards id tops htops)
  · refine (reads_topShards id).bind fun tops htops => ?_
    refine (gives_modifyCache ?_).bind fun _ _ => Timed.Gives.pure htops
    refine fun c hc => { hc with shards := fun k x hx => ?_ }
    rw [Table.get?_set] at hx
    split at hx
    · obtain rfl := Option.some.inj hx
      exact htops
    · exact hc.shards k x hx

theorem reads_libraryCode (hash : Hash) : Reads J held (fun _ => True) (reader.libraryCode hash) := by
  refine gives_getCache.bind fun c _ => ?_
  split
  · exact .pure trivial
  · refine (reads_libraries [hash]).bind fun answer _ => ?_
    refine (gives_modifyCache ?_).bind fun _ _ => ?_
    · exact fun c hc => { hc with }
    · split
      · exact .pure trivial
      · exact .throw trivial

theorem reads_resolveCode (a : WireAccount) : Reads J held (fun _ => True) (reader.resolveCode a) := by
  unfold Reader.resolveCode
  split
  · exact .pure trivial
  · exact (reads_libraryCode _).bind fun _ _ => .pure trivial

theorem reads_reader_account (header : Header) (masterSeqno : UInt32) (address : Address) :
    Reads J held (fun _ => True) (reader.account header masterSeqno address) := by
  have hkeep : ∀ state : AccountState, Reads J held (fun _ => True) (do
      modifyThe ReadCache fun c =>
        { c with accounts := c.accounts.set (header.id.ref, state.address) state }
      return state) := by
    intro state
    refine (gives_modifyCache ?_).bind fun _ _ => Timed.Gives.pure trivial
    exact fun c hc => { hc with }
  refine gives_getCache.bind fun c _ => ?_
  split
  · exact .pure trivial
  · refine (reads_account header.id address).bind fun raw _ => ?_
    refine (reads_resolveCode raw).bind fun raw _ => ?_
    dsimp only
    split
    · exact (reads_interfacesOf _).bind fun _ _ => hkeep _
    · exact hkeep _

theorem reads_lookupAt (master : Header) (address : Address) (lt : UInt64) :
    Reads J held (fun _ => True) (reader.lookupAt master address lt) :=
  (reads_reader_account master master.id.seqno address).bind fun _ _ => Timed.Gives.pure trivial

theorem reads_listTransactions (id : BlockId) (pages : Nat) (after : Option TransactionKey) :
    Reads J held (fun _ => True) (reader.listTransactions id pages after) := by
  induction pages generalizing after with
  | zero => exact .throw trivial
  | succ pages ih =>
    refine (reads_transactionPage id after).bind fun ⟨page, more⟩ _ => ?_
    dsimp only
    split
    · exact .pure trivial
    · split
      · exact (ih _).bind fun _ _ => .pure trivial
      · exact .pure trivial

/-- A block is fetched under its own name. -/
theorem reads_fetchBlock (header : Header) (masterRef : Option BlockRef) (master : Header) :
    Reads J held (fun record => record.block.id = header.id)
      (reader.fetchBlock header masterRef master) := by
  refine (reads_listTransactions header.id _ none).bind fun keys _ => ?_
  refine (Timed.Gives.mapM keys fun key _ => reads_transaction _ _ key.lt).bind fun raws _ => ?_
  have haccount : ∀ address, Reads J held (fun _ => True) (do
      let state ← reader.account header master.id.seqno address
      reader.parser.fillAccount (reader.lookupAt master) state) := fun address =>
    (reads_reader_account header _ address).bind fun state _ =>
      reads_fillAccount (reads_lookupAt master) state
  exact (Timed.Gives.mapM _ fun address _ => haccount address).bind fun accounts _ =>
    Timed.Gives.pure rfl

/-! ## Bundles -/

/-- From shard blocks the walk goes to shard blocks only. -/
theorem reads_walk (seen : Table Shard UInt32) (master : UInt32) (stack visited : List BlockId)
    (found : List Header) (hstack : ∀ b ∈ stack, b.isMasterchain = false)
    (hfound : ∀ h ∈ found, h.id.isMasterchain = false) :
    Reads J held (fun headers => ∀ h ∈ headers, h.id.isMasterchain = false)
      (Discovery.walk reader.node.header seen master stack visited found) := by
  fun_induction Discovery.walk reader.node.header seen master stack visited found with
  | case1 visited found => exact .pure hfound
  | case2 visited found id rest hvisited ih =>
    exact ih (fun b hb => hstack b (List.mem_cons_of_mem _ hb)) hfound
  | case3 visited found id rest hvisited hcovered ih =>
    exact ih (fun b hb => hstack b (List.mem_cons_of_mem _ hb)) hfound
  | case4 visited found id rest hvisited hcovered hroom ih =>
    have hid := hstack id List.mem_cons_self
    refine (reads_header id).bind fun h hh => ih h ?_ ?_
    · intro b hb
      rcases List.mem_append.mp hb with hb | hb
      · exact hh.2 hid b (List.mem_reverse.mp hb)
      · exact hstack b (List.mem_cons_of_mem _ hb)
    · intro x hx
      rcases List.mem_cons.mp hx with rfl | hx
      · rw [hh.1]
        exact hid
      · exact hfound x hx
  | case5 visited found id rest hvisited hcovered hfull => exact .throw trivial

theorem reads_unseenBlocks (n : UInt32) :
    Reads J held (fun u => u.master.id.seqno = n ∧ u.master.id.isMasterchain = true ∧
      ∀ h ∈ u.shards, h.id.isMasterchain = false) (reader.unseenBlocks n) := by
  refine (reads_reader_masterBlock n).bind fun id hid => ?_
  refine (reads_header id).bind fun master hmaster => ?_
  refine (reads_reader_topShards id).bind fun tops htops => ?_
  have hbefore : Reads J held (fun _ => True) (reader.coveredBefore n) := by
    unfold Reader.coveredBefore
    split
    · exact .pure trivial
    · refine (reads_reader_masterBlock (n - 1)).bind fun before _ => ?_
      exact (reads_reader_topShards before).bind fun _ _ => .pure trivial
  refine hbefore.bind fun seen _ => ?_
  refine (reads_walk seen n tops [] [] htops (by simp)).bind fun found hfound => .pure ?_
  refine ⟨by rw [hmaster.1]; exact hid.1, by rw [hmaster.1]; exact hid.2, ?_⟩
  intro h hh
  exact hfound h (List.mem_reverse.mp (List.mem_mergeSort.mp hh))

/-- A fetch of a height brings a bundle of that height, and no other master block. -/
theorem reads_fetchMaster (n : UInt32) :
    Reads J held (fun b => b.seqno = n ∧ b.Sound) (reader.fetchMaster n) := by
  refine (reads_unseenBlocks n).bind fun unseen hunseen => ?_
  obtain ⟨hseqno, hmaster, hshards⟩ := hunseen
  refine (reads_fetchBlock unseen.master none unseen.master).bind fun master hrecord => ?_
  have hfetched : ∀ h ∈ unseen.shards, Reads J held (fun record => record.block.isMasterchain = false)
      (reader.fetchBlock h (some unseen.master.id.ref) unseen.master) := by
    intro h hh
    refine (reads_fetchBlock h _ unseen.master).mono ?_ fun _ _ => trivial
    intro record hid
    rw [Block.isMasterchain, hid]
    exact hshards h hh
  refine (Timed.Gives.mapM unseen.shards hfetched).bind fun shards hall => .pure ⟨rfl, ?_⟩
  have hfirst : master.block.headerOnly.isMasterchain = true := by
    rw [Block.isMasterchain, Block.headerOnly, hrecord]
    exact hmaster
  have hrest : (shards.map (·.block.headerOnly)).filter (·.isMasterchain) = [] := by
    rw [List.filter_eq_nil_iff]
    intro b hb
    obtain ⟨record, hr, rfl⟩ := List.mem_map.mp hb
    have := hall record hr
    rw [Block.isMasterchain] at this
    rw [Block.isMasterchain, Block.headerOnly, this]
    exact Bool.false_ne_true
  rw [MasterBundle.Sound, Store.mastersOf, MasterBundle.records, List.map_cons,
    List.filter_cons_of_pos hfirst, hrest]
  show [master.block.id.seqno] = [n]
  rw [hrecord, hseqno]

end World

end ShardIndex
