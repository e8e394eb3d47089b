import ShardIndex.Proofs.Rescan.Behaviour
import ShardIndex.Proofs.Rescan.WindowSize
/-!
# Labels of messages after an interface task

The messages phase of an interface task puts the labels of the sides of each message right, and reads the
payload again if one of them has changed. It goes by the latest states that are not after the transactions of
the sides (`Store.sideState?`), in the table that the accounts phase has left.

Nothing is asked of the parser but that it owns no more than its state and that payloads are read by the
message alone (`ReadsPayloads`). What it says about accounts is left open, since labels do not depend on it,
and each of its calls may fail. The messages are rewritten exactly up to the checkpoint, by the labels that the
store has at each moment (`Relabelling`). That is kept by every step: the snapshots do not change any more once
messages are rewritten. When the task is finished, every message of the history has come to its turn
(`Course.relabels_messages`).
-/
namespace ShardIndex

/-! ## What a side shows -/

namespace Store

/-- The latest state of the side's account that is not after the side's transaction. -/
def sideState? (s : Store) (side : Side) : Option AccountState :=
  (Rescan.sideMoment side).bind fun moment => s.stateBefore moment.1 moment.2

/-- The state is one of the side's account, and not after the side's transaction. -/
def ShowsSide (s : Store) (side : Side) (a : AccountState) : Prop :=
  a ∈ s.accounts ∧ side.address = some a.address ∧ ∃ tx, side.tx = some tx ∧ a.lastTxLt ≤ tx.lt

/-- The latest of the states that show the side, if there is one. -/
def LatestOfSide (s : Store) (side : Side) : Option AccountState → Prop
  | some found => s.ShowsSide side found ∧ ∀ a, s.ShowsSide side a → a.lastTxLt ≤ found.lastTxLt
  | none => ∀ a, ¬ s.ShowsSide side a

end Store

/-- The time of the side's transaction is not the greatest one there is. -/
def Side.Timely (side : Side) : Prop :=
  ∀ tx, side.tx = some tx → tx.lt.toNat + 1 < UInt64.size

/-- A time that is not the greatest one has one right after it. -/
theorem lt_add_one_iff_le {lt bound : UInt64} (h : bound.toNat + 1 < UInt64.size) :
    lt < bound + 1 ↔ lt ≤ bound := by
  have hsucc : (bound + 1).toNat = bound.toNat + 1 := by
    rw [UInt64.toNat_add, UInt64.toNat_one]
    exact Nat.mod_eq_of_lt h
  rw [UInt64.lt_iff_toNat_lt, UInt64.le_iff_toNat_le, hsucc, Nat.lt_succ_iff]

theorem Store.latestOfSide_sideState? {side : Side} (s : Store) (hlt : side.Timely) :
    s.LatestOfSide side (s.sideState? side) := by
  cases haddress : side.address with
  | none => simp [sideState?, Rescan.sideMoment, haddress, LatestOfSide, ShowsSide]
  | some address =>
    cases htx : side.tx with
    | none => simp [sideState?, Rescan.sideMoment, haddress, htx, LatestOfSide, ShowsSide]
    | some tx =>
      have htime := hlt tx htx
      have hne : tx.lt ≠ UInt64.ofNat (UInt64.size - 1) := by
        intro h
        rw [h] at htime
        exact absurd htime (by decide)
      have hmoment : Rescan.sideMoment side = some (address, tx.lt + 1) := by
        unfold Rescan.sideMoment
        rw [haddress, htx]
        exact congrArg (fun beforeLt => some (address, beforeLt)) (if_neg hne)
      have hstate : s.sideState? side = s.stateBefore address (tx.lt + 1) := by
        rw [sideState?, hmoment]
        rfl
      have hshows : ∀ a, s.ShowsSide side a ↔
          a ∈ s.accounts ∧ a.address = address ∧ a.lastTxLt < tx.lt + 1 := by
        intro a
        simp [ShowsSide, haddress, htx, lt_add_one_iff_le htime, eq_comm]
      have hlatest := s.latestBefore_stateBefore address (tx.lt + 1)
      rw [hstate]
      cases hfound : s.stateBefore address (tx.lt + 1) with
      | none =>
        rw [hfound] at hlatest
        intro a ha
        obtain ⟨hmem, heq, hbefore⟩ := (hshows a).1 ha
        exact hlatest a hmem heq hbefore
      | some found =>
        rw [hfound] at hlatest
        obtain ⟨hmem, heq, hbefore, hgreatest⟩ := hlatest
        refine ⟨(hshows found).2 ⟨hmem, heq, hbefore⟩, fun a ha => ?_⟩
        obtain ⟨ha, haddr, hbefore⟩ := (hshows a).1 ha
        exact hgreatest a ha haddr hbefore

namespace Rescan

/-! ## One message -/

/-- What became of a side, given the latest state that shows it. -/
structure SideRelabelled (contract : ContractName) (state : Option AccountState) (old new : Side) :
    Prop where
  address : new.address = old.address
  tx : new.tx = old.tx
  unshown : state = none → new.contract = old.contract
  task : ∀ a, state = some a → (new.contract = some contract ↔ a.types.head? = some contract)
  first : ∀ a, state = some a → old.contract = some contract ∨ new.contract = some contract →
    new.contract = a.types.head?
  foreign : ∀ a, state = some a → old.contract ≠ some contract → a.types.head? ≠ some contract →
    new.contract = old.contract

/-- What became of a message `m` by the states that the store `s` has. -/
structure Relabels (read : Message → Except ParseFault Decoded) (s : Store) (contract : ContractName)
    (m m' : Message) : Prop where
  chain : m'.chain = m.chain
  sides : ∀ d, SideRelabelled contract (s.sideState? (m.side d)) (m.side d) (m'.side d)
  untouched : (∀ d, (m'.side d).contract = (m.side d).contract) → m' = m
  reread : (∃ d, (m'.side d).contract ≠ (m.side d).contract) →
    m'.clearPayload.absorb (read m'.clearPayload) = .ok m'

/-- A side with its label put right. -/
def relabelledSide (labels : Labels) (contract : ContractName) (side : Side) : Side :=
  match (sideMoment side).bind fun moment => labels moment.1 moment.2 with
  | none => side
  | some types =>
    if side.contract = some contract ∨ types.head? = some contract then
      { side with contract := types.head? }
    else side

section

variable {labels : Labels} {contract : ContractName} {read : Message → Except ParseFault Decoded}

theorem side_relabelled (m : Message) (d : Direction) :
    (relabelled labels contract m d).side d = relabelledSide labels contract (m.side d) := by
  unfold relabelled relabelledSide
  cases (sideMoment (m.side d)).bind fun moment => labels moment.1 moment.2 with
  | none => rfl
  | some types =>
    by_cases h : (m.side d).contract = some contract ∨ types.head? = some contract
    · simp only [if_pos h]
      cases d <;> rfl
    · simp only [if_neg h]

theorem side_relabelled_other (m : Message) {d e : Direction} (h : e ≠ d) :
    (relabelled labels contract m d).side e = m.side e := by
  unfold relabelled
  split
  · rfl
  · split
    · cases d <;> cases e <;> first | exact absurd rfl h | rfl
    · rfl

/-- The two sides of a message have nothing to do with each other. -/
theorem side_relabelled_both (m : Message) (d : Direction) :
    (relabelled labels contract (relabelled labels contract m .outgoing) .incoming).side d =
      relabelledSide labels contract (m.side d) := by
  cases d with
  | outgoing => rw [side_relabelled_other _ (by decide), side_relabelled]
  | incoming => rw [side_relabelled, side_relabelled_other _ (by decide)]

theorem sideRelabelled (s : Store) (contract : ContractName) (side : Side) :
    SideRelabelled contract (s.sideState? side) side (relabelledSide s.labels contract side) := by
  have hlabels : ((sideMoment side).bind fun moment => s.labels moment.1 moment.2) =
      (s.sideState? side).map (·.types) := by
    unfold Store.sideState?
    cases sideMoment side <;> rfl
  unfold relabelledSide
  rw [hlabels]
  cases s.sideState? side with
  | none => constructor <;> simp
  | some a =>
    dsimp only [Option.map_some]
    split
    case isTrue h =>
      constructor
      case foreign =>
        rintro b hb hold hfirst
        obtain rfl := Option.some.inj hb
        exact absurd h (not_or.2 ⟨hold, hfirst⟩)
      all_goals simp
    case isFalse h =>
      obtain ⟨hold, hfirst⟩ := not_or.1 h
      constructor <;> simp [hold, hfirst]

/-- Messages are the same if the chain says the same about them, and their labels and payloads are. -/
theorem Message.ext_sides {m m' : Message} (hchain : m'.chain = m.chain)
    (hsides : ∀ d, (m'.side d).contract = (m.side d).contract) (hpayload : m'.payload = m.payload) :
    m' = m := by
  have hout : m'.source.contract = m.source.contract := hsides .outgoing
  have hin : m'.destination.contract = m.destination.contract := hsides .incoming
  calc m' = { m'.chain with
        source := { m'.chain.source with contract := m'.source.contract }
        destination := { m'.chain.destination with contract := m'.destination.contract }
        payload := m'.payload } := rfl
    _ = m := by rw [hchain, hout, hin, hpayload]; rfl

/-- The image of a message is what is claimed of it. -/
theorem relabels_of_image {s : Store} {m m' : Message}
    (h : relabelImageBy read s.labels contract m = .ok m') : Relabels read s contract m m' := by
  have hchain := chain_of_relabelImageBy h
  have hboth : ∀ d, (relabelled s.labels contract (relabelled s.labels contract m .outgoing) .incoming).side d =
      relabelledSide s.labels contract (m.side d) := side_relabelled_both m
  unfold relabelImageBy at h
  dsimp only at h
  have hpayload : (relabelled s.labels contract (relabelled s.labels contract m .outgoing)
      .incoming).payload = m.payload := by
    rw [payload_relabelled, payload_relabelled]
  have hsame : (relabelled s.labels contract (relabelled s.labels contract m .outgoing) .incoming).chain =
      m.chain := by
    rw [chain_relabelled, chain_relabelled]
  generalize relabelled s.labels contract (relabelled s.labels contract m .outgoing) .incoming = r
    at h hboth hpayload hsame
  split at h
  case isTrue hr =>
    obtain rfl := Except.ok.inj h
    refine ⟨hchain, fun d => ?_, fun _ => rfl, fun ⟨d, hd⟩ => absurd rfl hd⟩
    have hside := sideRelabelled s contract (m.side d)
    rwa [← hboth, hr] at hside
  case isFalse hr =>
    have hclear : { m' with payload := {} } = r.clearPayload := Message.of_absorb h
    have hsides : ∀ d, m'.side d = r.side d := by
      intro d
      have hd := congrArg (fun m => m.side d) hclear
      cases d <;> exact hd
    refine ⟨hchain, fun d => ?_, fun hlabels => absurd ?_ hr, fun _ => ?_⟩
    · rw [hsides d, hboth]
      exact sideRelabelled s contract (m.side d)
    · exact Message.ext_sides hsame (fun d => by rw [← hsides d, hlabels d]) hpayload
    · have hfresh : m'.clearPayload = r.clearPayload := hclear
      rw [hfresh]
      exact h

/-- A message without transactions is left alone. -/
theorem relabels_of_unowned {s : Store} {m : Message} (h : m.masterSeqno? = none) :
    Relabels read s contract m m := by
  have htx : ∀ d, (m.side d).tx = none := by
    have hnone : (m.destination.tx <|> m.source.tx) = none := Option.map_eq_none_iff.1 h
    intro d
    cases hdestination : m.destination.tx with
    | some tx => simp [hdestination] at hnone
    | none =>
      rw [hdestination] at hnone
      cases d with
      | outgoing => exact hnone
      | incoming => exact hdestination
  refine ⟨rfl, fun d => ?_, fun _ => rfl, fun ⟨d, hd⟩ => absurd rfl hd⟩
  have hside := sideRelabelled s contract (m.side d)
  have hmoment : sideMoment (m.side d) = none := by
    unfold sideMoment
    rw [htx d]
    cases (m.side d).address <;> rfl
  have hkept : relabelledSide s.labels contract (m.side d) = m.side d := by
    rw [relabelledSide, hmoment]
    rfl
  rwa [hkept] at hside

end

/-! ## Parsers -/

variable {σ : Type}

/-- As long as its state satisfies `P`, the parser changes nothing else, apart from what its lookups do, and
it reads payloads by the message alone. Any call may fail. -/
structure ReadsPayloads (parser : Parser (RescanM σ)) (P : σ → Prop)
    (read : Message → Except ParseFault Decoded) : Prop where
  keeps : ∀ (I : Context σ → Prop) (lookup : Lookup (RescanM σ)) (labels : Labels),
    (∀ w p, I w → I { w with parser := p }) → LooksUp (fun w => I w ∧ P w.parser) lookup labels →
      CallsKeep (fun w => I w ∧ P w.parser) parser lookup
  reads : ∀ I : Context σ → Prop, (∀ w p, I w → I { w with parser := p }) → ∀ m,
    Ends (fun w => I w ∧ P w.parser) (parser.readPayload m).run (Answered True (read m))

/-- A parser that is determined by answers reads payloads by what the chain says about the message. -/
theorem Determined.readsPayloads {parser : Parser (RescanM σ)} {P : σ → Prop} {answers : Answers}
    {faults : Prop} (hd : Determined parser P answers faults) :
    ReadsPayloads parser P fun m => answers.readPayload m.chain where
  keeps I lookup labels hI hl :=
    have hcalls := hd.calls I lookup labels hI hl
    ⟨fun s types => (hcalls.readAccount s types).keeps,
      fun s contract method => (hcalls.callMethod s contract method).keeps,
      fun m => (hcalls.readPayload m).keeps⟩
  reads I hI m := by
    have hcalls := hd.calls I (fun _ _ => ExceptT.mk (pure (.ok none))) (fun _ _ => none) hI
      fun _ _ _ hw => ⟨⟨none, rfl, rfl⟩, hw⟩
    exact (hcalls.readPayload m).weaken fun r hr => hr.imp_right fun h => ⟨trivial, h.2⟩

/-! ## Plans -/

/-- What a plan of an interface task finds: nothing about messages, or the images of those of its window. -/
def FindsImages (read : Message → Except ParseFault Decoded) (s : Store) (t : RescanTask) :
    Plan → List AccountState × List Message → Prop
  | .messages (some (start, stop)), rows => rows.1 = [] ∧
      changedRows (relabelImageBy read s.labels t.contract) (s.messagesInRange {} start stop) = .ok rows.2
  | _, rows => rows.2 = []

section

variable {parser : Parser (RescanM σ)} {P : σ → Prop} {read : Message → Except ParseFault Decoded}
  {t t' : RescanTask} (hd : ReadsPayloads parser P read)

include hd

theorem relabelMessages_ends (s : Store) (hkind : InterfaceKind t.kind) (start stop : UInt32) :
    Ends (Sound s P) (messages parser Snapshots.lookup t start stop).run
      (Comes True (changedRows (relabelImageBy read s.labels t.contract)
        (s.messagesInRange {} start stop))) := by
  have hread := hd.reads (fun w => w.store = s ∧ w.snapshots.Coherent s) fun _ _ h => h
  have hrelabel := relabelAll_endsBy hread (lookup_looksUp s P) t.contract
  unfold messages
  rcases hkind with hkind | hkind | hkind <;> rw [hkind] <;>
    exact .comes_then (.comes_getStore fun w hw => hw.1.1) (hrelabel _)

theorem carryOut_finds (s : Store) (hkind : InterfaceKind t.kind) (pl : Plan) :
    Ends (Sound s P) (carryOut parser t pl).run (Yields (FindsImages read s t pl)) := by
  match pl with
  | .messages (some (start, stop)) =>
    refine (relabelMessages_ends hd s hkind start stop).run_bind (fun rows hrows => ?_) fun _ _ => by
      simp [Yields]
    refine .yields_pure ⟨rfl, ?_⟩
    exact (hrows.resolve_right (by simp)).symm
  | .accounts (some (start, stop)) =>
    have hcalls := hd.keeps (fun w => w.store = s ∧ w.snapshots.Coherent s) _ _ (fun _ _ h => h)
      (lookup_looksUp s P)
    exact .yields_then (accounts_keeps hcalls t start stop) fun rows => .yields_pure rfl
  | .accounts none => exact .yields_pure rfl
  | .messages none => exact .yields_pure rfl
  | .nothing => exact .yields_pure rfl

end

/-! ## The invariant -/

/-- The messages are rewritten up to the checkpoint of the messages phase, by the labels of the store. -/
structure Relabelling (P : σ → Prop) (read : Message → Except ParseFault Decoded) (batch : UInt32)
    (s₀ : Store) (t₀ : RescanTask) (first last : UInt32) (w : Context σ) (es : List Entry)
    (t : RescanTask) : Prop where
  parser : P w.parser
  coherent : w.snapshots.Coherent w.store
  underway : Underway batch s₀ t₀ first last w.store es t
  messages : Reworked Message.masterSeqno? (fun _ => True)
    (fun m m' => relabelImageBy read w.store.labels t₀.contract m = .ok m') first.toNat
    (reach .messages t first) s₀.messages w.store.messages

section

variable {parser : Parser (RescanM σ)} {P : σ → Prop} {read : Message → Except ParseFault Decoded}
  {batch : UInt32} {s₀ : Store} {t₀ t t' : RescanTask} {first last : UInt32} {w v : Context σ}
  {es : List Entry}

namespace Relabelling

variable {p : Phase} {lo hi : UInt32} {pl : Plan}

theorem start (hp : Pending s₀ t₀ first last) {depth : Nat} (hstore : s₀.KeepsRows w.store)
    (hwindows : w.snapshots = .empty depth) (hparser : P w.parser) :
    Relabelling P read batch s₀ t₀ first last w [] t₀ := by
  constructor
  case parser => exact hparser
  case coherent =>
    rw [hwindows]
    exact .empty depth _
  case underway => exact .start hp hstore
  case messages =>
    rw [reach_of_fresh hp.fresh, hstore]
    exact .start _ _ _ _ _

theorem between (h : Relabelling P read batch s₀ t₀ first last w es t)
    (hstore : w.store.KeepsRows v.store) (hcoherent : v.snapshots.Coherent w.store) (hparser : P v.parser) :
    Relabelling P read batch s₀ t₀ first last v es t := by
  have haccounts : v.store.accounts = w.store.accounts := by rw [hstore]
  have hmessages : v.store.messages = w.store.messages := by rw [hstore]
  refine ⟨hparser, hcoherent.congr haccounts, h.underway.congr hstore, ?_⟩
  rw [hmessages, labels_congr haccounts]
  exact h.messages

/-- Rows of both kinds that were found are committed with the task. The accounts phase comes before any
message is rewritten, and the messages phase leaves the snapshots alone. -/
theorem commit (hp : Pending s₀ t₀ first last) (hkind : InterfaceKind t₀.kind)
    (h : Relabelling P read batch s₀ t₀ first last w es t) {u : Context σ} (hu : Sound w.store P u)
    (turn : Turn batch first last t p lo hi pl t') (hsubject : t'.subject = t.subject)
    (masters : List Nat) {rows : List AccountState × List Message}
    (hrows : FindsImages read w.store (skipPhases t) pl rows) :
    Relabelling P read batch s₀ t₀ first last (u.commit rows.1 rows.2 t')
      (es ++ [⟨t', pl, masters, last.toNat⟩]) t' := by
  obtain ⟨⟨hstore, hcoherent⟩, hparser⟩ := hu
  have hstore' : (u.commit rows.1 rows.2 t').store = w.store.committed (writes rows.1 rows.2 t') := by
    rw [Context.store_commit, hstore]
  have hwrites := committed_writes w.store rows.1 rows.2 t'
  constructor
  case parser =>
    rw [Context.parser_commit]
    exact hparser
  case coherent =>
    rw [hstore', ← hstore]
    rw [← hstore] at hcoherent
    refine Context.coherent_commit hcoherent fun address beforeLt hothers => ?_
    rw [Store.stateBefore, Store.stateBefore, Store.statesBefore_putAccount rows.1
      (by rw [committed_writes]) fun r hr haddress => absurd haddress (hothers r hr)]
  case underway =>
    rw [hstore']
    exact h.underway.commit hp turn hsubject masters rows.1 rows.2
  case messages =>
    have hmessages := h.messages
    have hrequired : ∀ q : Phase, q.required t.kind = true := by
      rw [h.underway.kind_eq]
      intro q
      rcases hkind with hkind | hkind | hkind <;> rw [hkind] <;> cases q <;> rfl
    have hwindow := turn.window
    rw [hstore']
    cases p with
    | accounts =>
      obtain rfl : pl = .accounts (some (lo, hi)) := by
        cases pl <;> simp_all [Phase.window?]
      have hnone : rows.2 = [] := hrows
      have hempty : reach .messages t first = first.toNat := by
        rw [reach, if_pos (hrequired _)]
        exact h.underway.progress.resumeAt_of_waits (hrequired _) turn.required turn.undone
      have htable : (w.store.committed (writes rows.1 rows.2 t')).messages = w.store.messages := by
        rw [hwrites, hnone]
        rfl
      rw [hempty] at hmessages
      rw [reach_eq turn, if_neg (by decide), hempty, htable, hmessages.eq_of_empty]
      exact .start _ _ _ _ _
    | messages =>
      obtain rfl : pl = .messages (some (lo, hi)) := by
        cases pl <;> simp_all [Phase.window?]
      obtain ⟨hnone, hfound⟩ := hrows
      have hlabels : (w.store.committed (writes rows.1 rows.2 t')).labels = w.store.labels := by
        refine labels_congr ?_
        rw [hwrites, hnone]
        rfl
      have htable : (w.store.committed (writes rows.1 rows.2 t')).messages =
          rows.2.foldl Store.putMessage w.store.messages := by rw [hwrites]
      have hcontract : (skipPhases t).contract = t₀.contract :=
        (congrArg RescanTask.contract h.underway.subject :)
      have hkeys : (w.store.messages.map (·.hash)).Nodup := by
        have hkept : w.store.messages.map (·.hash) = s₀.messages.map (·.hash) :=
          hmessages.map_eq fun a b hab => (congrArg Message.hash (chain_of_relabelImageBy hab) :)
        rw [hkept]
        exact hp.keyed.messages
      rw [hcontract] at hfound
      obtain ⟨g, himage, hput⟩ := putMessages_changed (fun _ _ => chain_of_relabelImageBy) hkeys hfound
      rw [reach_eq_start turn] at hmessages
      rw [hlabels, htable, hput, reach_eq turn, if_pos rfl]
      refine hmessages.extend
        (fun a b hab => (congrArg Message.masterSeqno? (chain_of_relabelImageBy hab) :)) ?_
        (start_le_stop turn) (fun m => ?_) himage
      · rw [← reach_eq_start turn]
        exact le_reach _ _ _
      · rw [picksMessage_iff]
        simp [MessageFilter.selects]

/-- A step rewrites the messages of one more window, or leaves them as they are. -/
theorem step (hd : ReadsPayloads parser P read) (hp : Pending s₀ t₀ first last)
    (hkind : InterfaceKind t₀.kind) (h : Relabelling P read batch s₀ t₀ first last w es t)
    (hunfinished : t.finished = false) :
    ∃ t', Relabelling P read batch s₀ t₀ first last (exec (Rescan.step parser batch).run w).2
      (es ++ logged batch t₀.id w.store (exec (Rescan.step parser batch).run w).1) t' := by
  have hjob := h.underway.job_eq hp hunfinished
  have hkind' : InterfaceKind (skipPhases t).kind := h.underway.kind_eq ▸ hkind
  have hstep := step_attempted
    (carryOut_finds hd w.store hkind' (plan batch (skipPhases t) first last)) h.coherent h.parser hjob
  generalize exec (Rescan.step parser batch).run w = r at hstep
  cases hstep with
  | @failed fault v hstore hcoherent hparser =>
    have hnothing : logged batch t₀.id w.store (.error fault) = [] := rfl
    refine ⟨t, ?_⟩
    rw [hnothing, List.append_nil]
    refine h.between ?_ hcoherent hparser
    rw [hstore]
    rfl
  | @committed rows u hrows hu =>
    obtain ⟨p, lo, hi, turn⟩ := h.underway.exists_turn hp hunfinished
    have hnext := h.commit hp hkind hu turn (subject_finish t last _) w.store.masterNumbers (hrows rows rfl)
    refine ⟨finish (advance (skipPhases t) last (plan batch (skipPhases t) first last)), ?_⟩
    simp only [logged, hjob]
    rw [if_pos (turn.id.trans h.underway.id_eq)]
    exact hnext

end Relabelling

/-- In its course an interface task relabels messages up to its checkpoint. -/
theorem Course.relabelling (hd : ReadsPayloads parser P read) (hp : Pending s₀ t₀ first last)
    (hkind : InterfaceKind t₀.kind) (h : Course parser P batch s₀ t₀ w es) :
    ∃ t, Relabelling P read batch s₀ t₀ first last w es t := by
  induction h with
  | start hstore hdefines hwindows hparser => exact ⟨t₀, .start hp hstore hwindows hparser⟩
  | @step w es t _ ht hunfinished ih =>
    obtain ⟨t', hrelabelling⟩ := ih
    obtain rfl := hrelabelling.underway.eq_of_task? hp ht
    exact hrelabelling.step hd hp hkind hunfinished
  | between _ hstore hdefines hdepth hwindows hparser ih =>
    obtain ⟨t, hrelabelling⟩ := ih
    exact ⟨t, hrelabelling.between hstore (hrelabelling.coherent.lose hdepth hwindows) hparser⟩

/-- The message is of the master blocks from `first` to `last`, unless it has no transaction. -/
def OfHistory (first last : UInt32) (m : Message) : Prop :=
  ∀ n, m.masterSeqno? = some n → first ≤ n ∧ n ≤ last

/-- Once an interface task is finished, every message of the history has got its labels right, by the states
that the accounts phase has left, and no other message has changed. -/
theorem Course.relabels_messages (hd : ReadsPayloads parser P read) (hp : Pending s₀ t₀ first last)
    (hkind : InterfaceKind t₀.kind) (h : Course parser P batch s₀ t₀ w es)
    (ht : w.store.task? t₀.id = some t) (hfinished : t.finished = true) :
    (∀ side : Side, side.Timely → w.store.LatestOfSide side (w.store.sideState? side)) ∧
    List.Forall₂ (fun m m' => (OfHistory first last m → Relabels read w.store t₀.contract m m') ∧
      (¬ OfHistory first last m → m' = m)) s₀.messages w.store.messages := by
  refine ⟨fun side hside => w.store.latestOfSide_sideState? hside, ?_⟩
  obtain ⟨t', hrelabelling⟩ := h.relabelling hd hp hkind
  obtain rfl := hrelabelling.underway.eq_of_task? hp ht
  have hrequired : Phase.messages.required t₀.kind = true := by
    rcases hkind with hkind | hkind | hkind <;> rw [hkind] <;> rfl
  have hmessages := hrelabelling.messages
  rw [hrelabelling.underway.reach_of_finished hfinished .messages hrequired] at hmessages
  obtain ⟨g, htable, hrows⟩ := hmessages
  rw [htable, List.forall₂_map_right_iff]
  refine List.forall₂_same.2 fun m hm => ⟨fun hhistory => ?_, fun hno => ?_⟩
  · cases hmaster : m.masterSeqno? with
    | none =>
      have hkept : g m = m := (hrows m hm).other fun ⟨⟨n, hn, _⟩, _⟩ => by simp [hmaster] at hn
      rw [hkept]
      exact relabels_of_unowned hmaster
    | some n =>
      obtain ⟨hfirst, hlast⟩ := hhistory n hmaster
      exact relabels_of_image ((hrows m hm).covered (between_iff.2 ⟨n, hmaster, hfirst, hlast⟩) trivial)
  · refine (hrows m hm).other fun hcovered => hno fun n hn => ?_
    obtain ⟨n', hn', hfirst, hlast⟩ := between_iff.1 hcovered.1
    rw [hn] at hn'
    obtain rfl := Option.some.inj hn'
    exact ⟨hfirst, hlast⟩

end

/-! ## A sample -/

namespace Sample

/-- The minter and the item as sides of messages. -/
def mintedSide (address : Address) (lt : UInt64) (seqno : UInt32) (label : Option ContractName) : Side where
  address := some address
  tx := some ⟨0, lt, ⟨.basechain, seqno⟩, seqno⟩
  contract := label

/-- A message from the minter to the item, and one to the item from before its first state. -/
def mintedMessages : List Message :=
  [{ hash := 1, kind := .internal, operationId := some 7
     source := mintedSide minter.address 15 5 none
     destination := mintedSide mintedItem.address 25 6 (some "nft_item") },
   { hash := 2, kind := .externalIn, operationId := some 7
     destination := mintedSide mintedItem.address 15 6 (some "nft_item") }]

def labelStore : Store :=
  { mintedStore with messages := mintedMessages, refusals := 1 }

def operationRegistry : Registry :=
  { itemRegistry with operations := [(7, "transfer")] }

def labelStart : Context Registry :=
  { mintedStart with store := labelStore, parser := operationRegistry }

def label (r : Context Registry × List Entry) : Context Registry × List Entry :=
  ((exec (step registry 2).run r.1).2,
    r.2 ++ logged 2 1 r.1.store (exec (step registry 2).run r.1).1)

/-- After a refused commit, the accounts and the messages. -/
def labelStop : Context Registry × List Entry :=
  label (label (label (labelStart, [])))

theorem pending_labelStore : Pending labelStore interfaceTask 5 6 where
  keyed := ⟨by decide +kernel, by decide +kernel, by decide +kernel⟩
  task := rfl
  firstMaster := by decide +kernel
  lastMaster := by decide +kernel
  fresh := ⟨rfl, fun p _ => by cases p <;> rfl, fun p _ => by cases p <;> rfl⟩

theorem course_labelStop : Course registry (Canned operationRegistry) 2 labelStore interfaceTask
    labelStop.1 labelStop.2 := by
  have hstart : Course registry (Canned operationRegistry) 2 labelStore interfaceTask labelStart [] :=
    .start rfl ⟨fun _ h => h, fun _ _ h => h⟩ rfl ⟨rfl, rfl, rfl, rfl⟩
  have hrefused := hstart.step (t := interfaceTask) (by cbv) rfl
  have haccounts := hrefused.step (t := interfaceTask) (by cbv) rfl
  exact haccounts.step (t := { interfaceTask with accountsMaster := some 6, accountsDone := true })
    (by cbv) rfl

theorem finished_labelStop : ∃ t, labelStop.1.store.task? interfaceTask.id = some t ∧ t.finished = true :=
  ⟨{ interfaceTask with
    accountsMaster := some 6, accountsDone := true, messagesMaster := some 6, messagesDone := true
    finished := true }, by cbv, rfl⟩

end Sample

open Rescan.Sample in
/-- The minter's label is new, and so the payload is read; the second message is not touched. -/
theorem Course.relabels_messages_sample :
    ReadsPayloads registry (Canned operationRegistry)
        (fun m => (cannedAnswers operationRegistry).readPayload m.chain) ∧
      Pending labelStore interfaceTask 5 6 ∧ InterfaceKind interfaceTask.kind ∧
      Course registry (Canned operationRegistry) 2 labelStore interfaceTask labelStop.1 labelStop.2 ∧
      labelStop.1.store.messages.map (fun m =>
        (m.source.contract, m.destination.contract, m.payload.operation)) =
          [(some "nft_item", some "nft_item", some "transfer"), (none, some "nft_item", none)] ∧
      List.Forall₂ (fun m m' => (OfHistory 5 6 m →
          Relabels (fun m => (cannedAnswers operationRegistry).readPayload m.chain) labelStop.1.store
            "nft_item" m m') ∧ (¬ OfHistory 5 6 m → m' = m))
        labelStore.messages labelStop.1.store.messages := by
  have hreads := (registry_determined operationRegistry).readsPayloads
  obtain ⟨t, ht, hfinished⟩ := finished_labelStop
  refine ⟨hreads, pending_labelStore, .inl rfl, course_labelStop, by cbv, ?_⟩
  exact (Course.relabels_messages hreads pending_labelStore (.inl rfl) course_labelStop ht hfinished).2

end Rescan

end ShardIndex
