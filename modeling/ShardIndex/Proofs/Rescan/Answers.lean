import ShardIndex.Proofs.Rescan.Execution
import ShardIndex.Proofs.Rescan.Images
/-!
# Rescans with a parser that answers by the chain and by labels

`Ends I x Q` says that a program keeps `I` and ends with a result that satisfies `Q`. A parser is
determined by answers (`Parser.Determined`) if each of its calls ends with the answer, whatever it looks up, as
long as the lookups find the labels that the answer depends on; where faults are allowed, a call may fail
instead. For such a parser every plan ends with the images of the rows that it reads
(`carryOut_ends`).
-/
namespace ShardIndex.Rescan

variable {σ α β : Type}

/-! ## What programs end with -/

/-- The program keeps a property of the context and ends with a result that satisfies `Q`. -/
def Ends (I : Context σ → Prop) (x : RescanM σ α) (Q : α → Prop) : Prop :=
  ∀ w, I w → Q (exec x w).1 ∧ I (exec x w).2

/-- The result is the expected one, or a fault where faults are allowed. -/
def Comes {ε : Type} (faults : Prop) (expected r : Except ε α) : Prop :=
  r = expected ∨ faults ∧ ∃ fault, r = .error fault

namespace Ends

variable {I : Context σ → Prop} {ε : Type} {faults : Prop}

theorem weaken {x : RescanM σ α} {Q R : α → Prop} (h : Ends I x Q) (hQ : ∀ a, Q a → R a) : Ends I x R :=
  fun w hw => ⟨hQ _ (h w hw).1, (h w hw).2⟩

theorem run_mk {r : Except ε α} {Q : Except ε α → Prop} (h : Q r) :
    Ends I (ExceptT.mk (pure r) : ExceptT ε (RescanM σ) α).run Q :=
  fun _ hw => ⟨h, hw⟩

theorem run_pure {a : α} {Q : Except ε α → Prop} (h : Q (.ok a)) :
    Ends I (pure a : ExceptT ε (RescanM σ) α).run Q :=
  fun _ hw => ⟨h, hw⟩

theorem run_lift {x : RescanM σ α} {Q : Except ε α → Prop} (h : Ends I x fun a => Q (.ok a)) :
    Ends I (ExceptT.lift x : ExceptT ε (RescanM σ) α).run Q := by
  intro w hw
  exact h w hw

theorem run_bind {x : ExceptT ε (RescanM σ) α} {f : α → ExceptT ε (RescanM σ) β}
    {Q : Except ε α → Prop} {R : Except ε β → Prop} (hx : Ends I x.run Q)
    (hok : ∀ a, Q (.ok a) → Ends I (f a).run R) (herror : ∀ e, Q (.error e) → R (.error e)) :
    Ends I (x >>= f).run R := by
  intro w hw
  rw [exec_run_bind]
  obtain ⟨hq, hv⟩ := hx w hw
  rcases hr : exec x.run w with ⟨e | a, v⟩
  · rw [hr] at hq hv
    exact ⟨herror e hq, hv⟩
  · rw [hr] at hq hv
    exact hok a hq v hv

/-- What follows an expected result is expected. -/
theorem comes_bind {x : ExceptT ε (RescanM σ) α} {f : α → ExceptT ε (RescanM σ) β}
    {r : Except ε α} {g : α → Except ε β} (hx : Ends I x.run (Comes faults r))
    (hf : ∀ a, Ends I (f a).run (Comes faults (g a))) :
    Ends I (x >>= f).run (Comes faults (r >>= g)) := by
  refine hx.run_bind (fun a ha => ?_) fun e he => ?_
  · rcases ha with rfl | ⟨-, fault, hfault⟩
    · exact hf a
    · cases hfault
  · rcases he with rfl | ⟨hfaults, -⟩
    · exact .inl rfl
    · exact .inr ⟨hfaults, e, rfl⟩

/-- What follows a known result. -/
theorem comes_then {x : ExceptT ε (RescanM σ) α} {f : α → ExceptT ε (RescanM σ) β} {a : α}
    {r : Except ε β} (hx : Ends I x.run (Comes faults (.ok a)))
    (hf : Ends I (f a).run (Comes faults r)) : Ends I (x >>= f).run (Comes faults r) := by
  refine hx.run_bind (fun b hb => ?_) fun e he => ?_
  · rcases hb with hb | ⟨-, fault, hfault⟩
    · obtain rfl := Except.ok.inj hb
      exact hf
    · cases hfault
  · rcases he with he | ⟨hfaults, -⟩
    · cases he
    · exact .inr ⟨hfaults, e, rfl⟩

theorem comes_pure (a : α) :
    Ends I (pure a : ExceptT ε (RescanM σ) α).run (Comes faults (.ok a)) :=
  .run_pure (.inl rfl)

theorem comes_mk (r : Except ε α) :
    Ends I (ExceptT.mk (pure r) : ExceptT ε (RescanM σ) α).run (Comes faults r) :=
  .run_mk (.inl rfl)

theorem comes_getStore {s : Store} (hI : ∀ w, I w → w.store = s) :
    Ends I (getThe Store : ExceptT ε (RescanM σ) Store).run (Comes faults (.ok s)) := by
  intro w hw
  obtain rfl := hI w hw
  exact ⟨.inl rfl, hw⟩

end Ends

/-! ## Parsers that are determined by answers -/

/-- The answer, or a fault where faults are allowed. -/
def Answered (faults : Prop) (expected r : Except ParseFault α) : Prop :=
  r = expected ∨ faults ∧ ∃ fault, r = .error (.other fault)

/-- Lookups find accounts with the labels `labels`. -/
def LooksUp (I : Context σ → Prop) (lookup : Lookup (RescanM σ)) (labels : Labels) : Prop :=
  ∀ address beforeLt, Ends I (lookup address beforeLt).run fun r =>
    ∃ found, r = .ok found ∧ found.map (·.types) = labels address beforeLt

/-- The calls of the parser end with the answers. -/
structure Calls (I : Context σ → Prop) (parser : Parser (RescanM σ)) (lookup : Lookup (RescanM σ))
    (answers : Answers) (labels : Labels) (faults : Prop) : Prop where
  readAccount : ∀ s types, Ends I (parser.readAccount s types lookup).run
    (Answered faults (answers.readAccount s.chain types labels))
  callMethod : ∀ s contract method, Ends I (parser.callMethod s contract method lookup).run
    (Answered faults (answers.callMethod s.chain contract method labels))
  readPayload : ∀ m, Ends I (parser.readPayload m).run
    (Answered faults (answers.readPayload m.chain))

/-- As long as its state satisfies `P`, the parser answers by the chain, by names and by the labels that
its lookups find, whatever else the lookups do. Where faults are allowed it may fail instead. -/
structure Determined (parser : Parser (RescanM σ)) (P : σ → Prop) (answers : Answers) (faults : Prop) :
    Prop where
  leavesStore : LeavesStore parser
  calls : ∀ (I : Context σ → Prop) (lookup : Lookup (RescanM σ)) (labels : Labels),
    (∀ w p, I w → I { w with parser := p }) → LooksUp (fun w => I w ∧ P w.parser) lookup labels →
      Calls (fun w => I w ∧ P w.parser) parser lookup answers labels faults

/-! ## Rewriting rows -/

section

variable {I : Context σ → Prop} {parser : Parser (RescanM σ)} {lookup : Lookup (RescanM σ)}
  {answers : Answers} {labels : Labels} {faults : Prop} (t : RescanTask)

theorem absorbAccount_ends {call : ExceptT ParseFault (RescanM σ) AccountData}
    {expected : Except ParseFault AccountData} (s : AccountState)
    (h : Ends I call.run (Answered faults expected)) :
    Ends I (do
        let outcome ← ExceptT.lift call.run
        ExceptT.mk (pure (s.absorb outcome)) : ExceptT Fault (RescanM σ) AccountState).run
      (Comes faults (s.absorb expected)) := by
  refine (Ends.run_lift (Q := fun r => ∃ a, r = .ok a ∧ Answered faults expected a)
    (h.weaken fun a ha => ⟨a, rfl, ha⟩)).run_bind ?_ (by simp)
  rintro outcome ⟨a, ha, hanswer⟩
  obtain rfl := Except.ok.inj ha
  rcases hanswer with rfl | ⟨hfaults, fault, rfl⟩
  · exact .comes_mk _
  · exact .run_mk (.inr ⟨hfaults, fault, rfl⟩)

theorem absorbMessage_ends {call : ExceptT ParseFault (RescanM σ) Decoded}
    {expected : Except ParseFault Decoded} (m : Message)
    (h : Ends I call.run (Answered faults expected)) :
    Ends I (do
        let outcome ← ExceptT.lift call.run
        ExceptT.mk (pure (m.absorb outcome)) : ExceptT Fault (RescanM σ) Message).run
      (Comes faults (m.absorb expected)) := by
  refine (Ends.run_lift (Q := fun r => ∃ a, r = .ok a ∧ Answered faults expected a)
    (h.weaken fun a ha => ⟨a, rfl, ha⟩)).run_bind ?_ (by simp)
  rintro outcome ⟨a, ha, hanswer⟩
  obtain rfl := Except.ok.inj ha
  rcases hanswer with rfl | ⟨hfaults, fault, rfl⟩
  · exact .comes_mk _
  · exact .run_mk (.inr ⟨hfaults, fault, rfl⟩)

section

variable (hl : LooksUp I lookup labels)

include hl

theorem sideHasInterface_ends (side : Side) (contract : ContractName) :
    Ends I (sideHasInterface lookup side contract).run
      (Comes faults (.ok (sideConcerned labels side contract))) := by
  unfold sideHasInterface sideConcerned
  cases sideMoment side with
  | none => exact .comes_pure _
  | some moment =>
    obtain ⟨address, beforeLt⟩ := moment
    refine (hl address beforeLt).run_bind ?_ (by simp)
    rintro found ⟨found', hfound, hlabels⟩
    obtain rfl := Except.ok.inj hfound
    dsimp only
    rw [← hlabels]
    cases found <;> exact .comes_pure _

theorem relabelSide_ends (contract : ContractName) (m : Message) (d : Direction) :
    Ends I (relabelSide lookup contract m d).run
      (Comes faults (.ok (relabelled labels contract m d))) := by
  unfold relabelSide sideState relabelled
  cases sideMoment (m.side d) with
  | none => exact .comes_pure _
  | some moment =>
    obtain ⟨address, beforeLt⟩ := moment
    refine (hl address beforeLt).run_bind ?_ (by simp)
    rintro found ⟨found', hfound, hlabels⟩
    obtain rfl := Except.ok.inj hfound
    simp only [Option.bind_some, ← hlabels]
    cases found with
    | none => exact .comes_pure _
    | some state =>
      dsimp only [Option.map_some]
      split <;> exact .comes_pure _

end

section

variable {read : Message → Except ParseFault Decoded}
  (hread : ∀ m, Ends I (parser.readPayload m).run (Answered faults (read m)))
  (hl : LooksUp I lookup labels)

include hread hl

/-- The message with new labels, if one has changed. -/
theorem relabel_ends (contract : ContractName) (m : Message) :
    Ends I (relabel parser lookup contract m).run
      (Comes faults (relabelImageBy read labels contract m >>= fun b =>
        .ok (if b = m then none else some b))) := by
  have hpayload : (relabelled labels contract (relabelled labels contract m .outgoing) .incoming).payload =
      m.payload := by
    rw [payload_relabelled, payload_relabelled]
  unfold relabel
  refine (relabelSide_ends hl contract m .outgoing).comes_then ?_
  refine (relabelSide_ends hl contract _ .incoming).comes_then ?_
  rw [relabelImageBy]
  generalize relabelled labels contract (relabelled labels contract m .outgoing) .incoming = r at hpayload
  by_cases hr : r = m
  · rw [if_pos hr, if_pos hr]
    refine .run_pure (.inl ?_)
    exact congrArg Except.ok (if_pos rfl).symm
  · rw [if_neg hr, if_neg hr]
    -- a message with a new label is changed, whatever its payload reads
    have hfill : (r.clearPayload.absorb (read r.clearPayload) >>= fun b =>
        (.ok (if b = m then none else some b) : Except Fault _)) =
        r.clearPayload.absorb (read r.clearPayload) >>= fun b => .ok (some b) := by
      cases h : r.clearPayload.absorb (read r.clearPayload) with
      | error fault => rfl
      | ok b => exact congrArg Except.ok (if_neg (ne_of_absorb_clearPayload hpayload hr h))
    rw [hfill]
    exact .comes_bind (absorbMessage_ends r.clearPayload (hread _)) fun b => .comes_pure _

theorem relabelAll_endsBy (contract : ContractName) : ∀ ms : List Message,
    Ends I (relabelAll parser lookup contract ms).run
      (Comes faults (changedRows (relabelImageBy read labels contract) ms))
  | [] => .comes_pure _
  | m :: rest => by
    have hrest := relabelAll_endsBy contract rest
    have hchanged : (relabelImageBy read labels contract m >>= fun b =>
          .ok (if b = m then none else some b)) >>= (fun changed : Option Message =>
          changedRows (relabelImageBy read labels contract) rest >>= fun rows =>
            .ok (changed.toList ++ rows)) =
        changedRows (relabelImageBy read labels contract) (m :: rest) := by
      rw [changedRows]
      cases relabelImageBy read labels contract m with
      | error fault => rfl
      | ok b =>
        change (changedRows (relabelImageBy read labels contract) rest >>= fun rows =>
            Except.ok ((if b = m then none else some b).toList ++ rows)) =
          changedRows (relabelImageBy read labels contract) rest >>= fun rows =>
            .ok (if b = m then rows else b :: rows)
        congr 1
        funext rows
        split <;> rfl
    rw [relabelAll, ← hchanged]
    exact (relabel_ends hread hl contract m).comes_bind fun changed =>
      .comes_bind hrest fun rows => .comes_pure _

end

variable (hc : Calls I parser lookup answers labels faults)

include hc

theorem rewriteAccount_ends (interface : Option ContractInterface) (s : AccountState) :
    Ends I (rewriteAccount parser lookup t interface s).run
      (Comes faults (accountImage answers labels t interface s)) := by
  have hinterface : ∀ i : ContractInterface, Ends I (rereadInterface parser lookup i s).run
      (Comes faults (interfaceImage answers labels i s)) := by
    intro i
    refine absorbAccount_ends _ ?_
    have h := hc.readAccount ((s.clearContract i.name i.methods).addInterface i.name) [i.name]
    rwa [AccountState.chain_addInterface, AccountState.chain_clearContract] at h
  have hmethod : ∀ method : String, Ends I (rereadMethod parser lookup t.contract method s).run
      (Comes faults (methodImage answers labels t.contract method s)) := by
    intro method
    refine absorbAccount_ends _ ?_
    have h := hc.callMethod (s.clearMethod t.contract method) t.contract method
    rwa [AccountState.chain_clearMethod] at h
  unfold rewriteAccount accountImage
  cases t.kind with
  | addInterface | updInterface =>
    cases interface.filter (·.accepts s) with
    | some i => exact hinterface i
    | none => exact .comes_pure _
  | delInterface | updOperation | delOperation => exact .comes_pure _
  | addMethod | updMethod => exact .comes_bind (.comes_mk _) hmethod
  | delMethod => exact .comes_bind (.comes_mk _) fun _ => .comes_pure _

theorem rewriteAccounts_ends (interface : Option ContractInterface) : ∀ states : List AccountState,
    Ends I (rewriteAccounts parser lookup t interface states).run
      (Comes faults (changedRows (accountImage answers labels t interface) states))
  | [] => .comes_pure _
  | s :: rest => by
    have hrest := rewriteAccounts_ends interface rest
    rw [rewriteAccounts, changedRows]
    exact .comes_bind (rewriteAccount_ends t hc interface s) fun b =>
      .comes_bind hrest fun changed => .comes_pure _

theorem fillMessage_ends (m : Message) :
    Ends I (parser.fillMessage m).run (Comes faults (m.absorb (answers.readPayload m.chain))) :=
  absorbMessage_ends m (hc.readPayload m)

variable (hl : LooksUp I lookup labels)

include hl

theorem rewriteOperations_ends (hkind : t.kind = .updOperation ∨ t.kind = .delOperation) :
    ∀ ms : List Message, Ends I (rewriteOperations parser lookup t ms).run
      (Comes faults (changedRows (operationImage answers labels t) ms))
  | [] => .comes_pure _
  | m :: rest => by
    have hrest := rewriteOperations_ends hkind rest
    have hrewrite : sideConcerned labels (m.side t.direction) t.contract = true →
        Ends I (rewriteOperation parser t m).run (Comes faults (operationImage answers labels t m)) := by
      intro hconcerned
      rw [rewriteOperation, operationImage, if_pos hconcerned]
      rcases hkind with hkind | hkind
      · rw [hkind]
        exact fillMessage_ends hc m.clearPayload
      · rw [hkind]
        exact .comes_pure _
    have hkept : sideConcerned labels (m.side t.direction) t.contract = false →
        operationImage answers labels t m = .ok m := by
      intro hunconcerned
      rw [operationImage, hunconcerned]
      rfl
    have hrewritten : ∀ b : Message, Ends I (do
          let changed ← rewriteOperations parser lookup t rest
          return if b = m then changed else b :: changed : ExceptT Fault (RescanM σ) _).run
        (Comes faults (changedRows (operationImage answers labels t) rest >>= fun changed =>
          .ok (if b = m then changed else b :: changed))) :=
      fun b => .comes_bind hrest fun _ => .comes_pure _
    rw [rewriteOperations, changedRows]
    refine (sideHasInterface_ends hl (m.side t.direction) t.contract).comes_then ?_
    cases hconcerned : sideConcerned labels (m.side t.direction) t.contract with
    | false =>
      rw [hkept hconcerned]
      exact .comes_bind (.comes_pure m) hrewritten
    | true => exact .comes_bind (hrewrite hconcerned) hrewritten

theorem relabelAll_ends (contract : ContractName) (ms : List Message) :
    Ends I (relabelAll parser lookup contract ms).run
      (Comes faults (changedRows (relabelImage answers labels contract) ms)) := by
  rw [relabelImage_eq]
  exact relabelAll_endsBy hc.readPayload hl contract ms

end

/-! ## Plans -/

/-- The store is `s`, the windows agree with it, and the parser is in a state in which it answers. -/
def Sound (s : Store) (P : σ → Prop) (w : Context σ) : Prop :=
  (w.store = s ∧ w.snapshots.Coherent s) ∧ P w.parser

theorem Context.evict_restOf (w : Context σ) : w.evict.snapshots.RestOf w.snapshots := by
  refine ⟨rfl, fun address history hh => ?_⟩
  have hget := Table.get?_filter_key (fun a => !w.evictions 0 a) address w.snapshots.histories
  rw [Context.evict, hget] at hh
  split at hh
  · exact hh
  · cases hh

/-- Windows that get lost leave the others as they are. -/
theorem Context.coherent_evict {w : Context σ} {s : Store} (h : w.snapshots.Coherent s) :
    w.evict.snapshots.Coherent s :=
  h.rest w.evict_restOf

/-- A commit forgets windows, and loads none. -/
theorem Context.commit_restOf (w : Context σ) (accounts : List AccountState) (messages : List Message)
    (t : RescanTask) : (w.commit accounts messages t).snapshots.RestOf w.snapshots := by
  have hrest := (Snapshots.RestOf.invalidate accounts w.evict.snapshots).1.trans w.evict_restOf
  unfold Context.commit
  dsimp only
  split
  · exact (Snapshots.RestOf.clear _).trans ((Context.evict_restOf _).trans hrest)
  · exact hrest

/-- The windows stay coherent if those that a commit leaves are about accounts without rewritten
rows. -/
theorem Context.coherent_commit {w : Context σ} {accounts : List AccountState} {messages : List Message}
    {t : RescanTask} (hcoherent : w.snapshots.Coherent w.store)
    (hsame : ∀ address beforeLt, (∀ r ∈ accounts, r.address ≠ address) →
      (w.store.committed (writes accounts messages t)).stateBefore address beforeLt =
        w.store.stateBefore address beforeLt) :
    (w.commit accounts messages t).snapshots.Coherent
      (w.store.committed (writes accounts messages t)) := by
  have hwritten := (Context.coherent_evict (w := { w with
    store := w.store.committed (writes accounts messages t) }) hcoherent).write accounts hsame
  unfold Context.commit
  dsimp only
  split
  · exact (Context.coherent_evict hwritten).rest (.clear _)
  · exact hwritten

theorem lookup_looksUp (s : Store) (P : σ → Prop) : LooksUp (Sound s P) Snapshots.lookup s.labels := by
  rintro address beforeLt w ⟨⟨rfl, hcoherent⟩, hparser⟩
  obtain ⟨hanswer, hafter⟩ := (Context.coherent_evict hcoherent).stateBefore address beforeLt
  refine ⟨⟨_, rfl, ?_⟩, ⟨rfl, hafter⟩, hparser⟩
  exact congrArg (Option.map (·.types)) hanswer

section

variable {parser : Parser (RescanM σ)} {P : σ → Prop} {answers : Answers} {faults : Prop}
  (hd : Determined parser P answers faults) (s : Store) (t : RescanTask)

include hd

theorem Determined.calls_lookup :
    Calls (Sound s P) parser Snapshots.lookup answers s.labels faults :=
  hd.calls (fun w => w.store = s ∧ w.snapshots.Coherent s) _ _ (fun _ _ h => h) (lookup_looksUp s P)

theorem accounts_ends (start stop : UInt32) :
    Ends (Sound s P) (accounts parser Snapshots.lookup t start stop).run
      (Comes faults (accountsImage answers s t start stop)) := by
  have hstore : ∀ w : Context σ, Sound s P w → w.store = s := fun w hw => hw.1.1
  refine .comes_then (.comes_getStore hstore) (.comes_bind (.comes_mk _) fun interface => ?_)
  refine .comes_then (.comes_getStore hstore) ?_
  exact rewriteAccounts_ends t (hd.calls_lookup s) interface _

theorem messages_ends (start stop : UInt32) :
    Ends (Sound s P) (messages parser Snapshots.lookup t start stop).run
      (Comes faults (messagesImage answers s t start stop)) := by
  have hstore : ∀ w : Context σ, Sound s P w → w.store = s := fun w hw => hw.1.1
  have hcalls := hd.calls_lookup s
  have hlookup := lookup_looksUp s P
  unfold messages messagesImage messageFilter
  cases hkind : t.kind with
  | updOperation | delOperation =>
    have himage : (messageImage answers s.labels t) = operationImage answers s.labels t := by
      funext m
      rw [messageImage, hkind]
    dsimp only
    rw [himage, bind_assoc]
    refine .comes_bind (.comes_mk _) fun id => .comes_then (.comes_getStore hstore) ?_
    rw [bind_assoc]
    refine .comes_bind (.comes_mk _) fun kind => .comes_then (.comes_getStore hstore) ?_
    exact rewriteOperations_ends t hcalls hlookup (by simp [hkind]) _
  | addInterface | updInterface | delInterface =>
    have himage : (messageImage answers s.labels t) = relabelImage answers s.labels t.contract := by
      funext m
      rw [messageImage, hkind]
    rw [himage]
    exact .comes_then (.comes_getStore hstore) (relabelAll_ends hcalls hlookup t.contract _)
  | addMethod | updMethod | delMethod =>
    have himage : (messageImage answers s.labels t) = Except.ok := by
      funext m
      rw [messageImage, hkind]
    rw [himage]
    refine .run_pure (.inl ?_)
    exact (changedRows_ok _).symm

/-- Every plan ends with the images of the rows that it reads. -/
theorem carryOut_ends (pl : Plan) :
    Ends (Sound s P) (carryOut parser t pl).run (Comes faults (planImage answers s t pl)) := by
  match pl with
  | .accounts (some (start, stop)) =>
    exact .comes_bind (accounts_ends hd s t start stop) fun rows => .comes_pure _
  | .messages (some (start, stop)) =>
    exact .comes_bind (messages_ends hd s t start stop) fun rows => .comes_pure _
  | .accounts none => exact .comes_pure _
  | .messages none => exact .comes_pure _
  | .nothing => exact .comes_pure _

end

/-! ## Steps -/

/-- What a step on the task `t` comes to whose plan ends in `Q` and leaves the store alone: it fails and takes
no more than a refusal from the store, or it commits the rows that were found. -/
inductive Attempted (P : σ → Prop) (Q : Except Fault (List AccountState × List Message) → Prop)
    (batch : UInt32) (t : RescanTask) (first last : UInt32) (w : Context σ) :
    Except Fault (Option RescanTask) × Context σ → Prop
  | failed {fault : Fault} {v : Context σ}
      (hstore : v.store = { w.store with refusals := v.store.refusals })
      (hcoherent : v.snapshots.Coherent w.store) (hparser : P v.parser)
      (hfault : Q (.error fault) ∨ w.store.refusals ≠ 0 ∧ fault = .commitRefused) :
      Attempted P Q batch t first last w (.error fault, v)
  | committed {rows : List AccountState × List Message} {u : Context σ} (hrows : Q (.ok rows))
      (hu : Sound w.store P u) :
      Attempted P Q batch t first last w
        (.ok (some (finish (advance t last (plan batch t first last)))),
          u.commit rows.1 rows.2 (finish (advance t last (plan batch t first last))))

theorem step_attempted {parser : Parser (RescanM σ)} {P : σ → Prop}
    {Q : Except Fault (List AccountState × List Message) → Prop} {batch : UInt32} {t : RescanTask}
    {first last : UInt32} {w : Context σ}
    (hends : Ends (Sound w.store P) (carryOut parser t (plan batch t first last)).run Q)
    (hcoherent : w.snapshots.Coherent w.store) (hparser : P w.parser)
    (hjob : job w.store = some (t, first, last)) :
    Attempted P Q batch t first last w (exec (step parser batch).run w) := by
  obtain ⟨hrows, hafter⟩ := hends w ⟨⟨rfl, hcoherent⟩, hparser⟩
  generalize hr : exec (step parser batch).run w = r
  cases hr ▸ step_spec parser batch w with
  | idle hnone => simp [hjob] at hnone
  | @stuck t₁ first₁ last₁ fault v hjob₁ hv =>
    obtain ⟨rfl, rfl, rfl⟩ : t = t₁ ∧ first = first₁ ∧ last = last₁ := by simpa [hjob] using hjob₁
    rw [hv] at hrows hafter
    obtain ⟨⟨hstore, hcoherent⟩, hparser⟩ := hafter
    refine .failed ?_ hcoherent hparser (.inl hrows)
    rw [hstore]
  | @refused t₁ first₁ last₁ rows v n hjob₁ hv hrefusals =>
    obtain ⟨rfl, rfl, rfl⟩ : t = t₁ ∧ first = first₁ ∧ last = last₁ := by simpa [hjob] using hjob₁
    rw [hv] at hafter
    obtain ⟨⟨hstore, hcoherent⟩, hparser⟩ := hafter
    refine .failed ?_ hcoherent hparser (.inr ⟨?_, rfl⟩)
    · rw [← hstore]
    · rw [← hstore, hrefusals]
      exact Nat.succ_ne_zero n
  | @committed t₁ first₁ last₁ rows v hjob₁ hv hrefusals =>
    obtain ⟨rfl, rfl, rfl⟩ : t = t₁ ∧ first = first₁ ∧ last = last₁ := by simpa [hjob] using hjob₁
    rw [hv] at hrows hafter
    exact .committed hrows hafter

end ShardIndex.Rescan
