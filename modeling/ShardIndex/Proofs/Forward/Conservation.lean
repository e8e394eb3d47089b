import Mathlib.Data.List.Induction
import ShardIndex.Proofs.Forward.Contested
import ShardIndex.Proofs.Forward.History
/-!
# Nothing is lost between a sink and its store

Bundles and flushes come to a sink in any order (`Sink.Call`) and its commits are refused in any
pattern. A run is a list of steps (`Serving.steps`). A bundle is accepted when it is answered with
`ok`, or with the failure of the commit that it brought about (`Step.accepts`).

`Serving.conserves` says two things of any run. At its end the accepted bundles, in order, are those
of the groups that were committed, one group for each attempt that was not refused, and then the
pending ones (`Conserves`). A commit writes the blocks, snapshots, messages and transactions of its
group and nothing else (`Batch.WrittenTo`). And each step does what it answers (`Step.Lawful`): a
bundle that is not accepted leaves batch, expected number and store alone, and a flush that fails
leaves everything as it was.

The proof goes by steps: `Flushes.kept` moves the pending entries to the groups or leaves them where
they are, `Receives.cases` adds one entry or none, and `Conserves.step` puts the two together.
-/
namespace ShardIndex

variable {σ : Type} {refuses : Nat → Bool}

/-- The reader has no words of the sink's: it does not report a failed commit. -/
def PayloadReader.Outside (read : PayloadReader σ) : Prop :=
  ∀ m p last attempts cause, ((read m).run p).1 ≠ .error (.other (.commitFailed last attempts cause))

/-- The faults that a failed commit makes. -/
def Fault.isCommitFailed : Fault → Bool
  | .commitFailed _ _ _ => true
  | _ => false

/-! ## Entries of a batch -/

/-- An accepted bundle with the message rows made of it. -/
structure Entry where
  bundle : MasterBundle
  rows : List Message

/-- The batch of some entries. -/
def Batch.of (es : List Entry) : Batch where
  masters := es.map (·.bundle.seqno)
  blocks := es.flatMap fun e => e.bundle.records.map (·.block.headerOnly)
  accounts := es.flatMap (·.bundle.accounts)
  messages := es.flatMap (·.rows)
  transactions := es.flatMap fun e => e.bundle.transactions.map (·.withoutMessages)

theorem Batch.add_of (es : List Entry) (b : MasterBundle) (rows : List Message) :
    (Batch.of es).add b rows = Batch.of (es ++ [⟨b, rows⟩]) := by
  simp [Batch.add, Batch.of]

/-- What a commit of the batch shows: the tables of the chain with its rows, and an entry in the log of
commits if there are master blocks among them. The other tables are as they were. -/
structure Batch.WrittenTo (b : Batch) (s s' : Store) : Prop where
  blocks : s'.blocks = b.blocks.foldl Store.putBlock s.blocks
  accounts : s'.accounts = b.accounts.foldl Store.putAccount s.accounts
  messages : s'.messages = b.messages.foldl Store.putMessage s.messages
  transactions : s'.transactions = b.transactions.foldl Store.putTransaction s.transactions
  commits : s'.commits = s.commits ++
    [(b.blocks.filter (·.isMasterchain)).map (·.id.seqno)].filter (!·.isEmpty)
  tasks : s'.tasks = s.tasks
  interfaces : s'.interfaces = s.interfaces
  operations : s'.operations = s.operations
  refusals : s'.refusals = 0

theorem Batch.committed_writes (b : Batch) (s : Store) :
    s.committed b.writes =
      { s with
        blocks := b.blocks.foldl Store.putBlock s.blocks
        accounts := b.accounts.foldl Store.putAccount s.accounts
        messages := b.messages.foldl Store.putMessage s.messages
        transactions := b.transactions.foldl Store.putTransaction s.transactions
        commits := s.commits ++
          [(b.blocks.filter (·.isMasterchain)).map (·.id.seqno)].filter (!·.isEmpty)
        refusals := 0 } := by
  have hmasters : b.writes.flatMap Store.mastersOf =
      (b.blocks.filter (·.isMasterchain)).map (·.id.seqno) := by
    simp [writes, Store.mastersOf]
  rw [Store.committed, hmasters]
  unfold Store.logCommit
  cases h : ((b.blocks.filter (·.isMasterchain)).map (·.id.seqno)).isEmpty <;>
    simp [h, writes, Store.write]

theorem Batch.writtenTo_iff {b : Batch} {s s' : Store} :
    b.WrittenTo s s' ↔ s' = s.committed b.writes := by
  rw [b.committed_writes]
  constructor
  · rintro ⟨hblocks, haccounts, hmessages, htransactions, hcommits, htasks, hinterfaces, hoperations,
      hrefusals⟩
    rw [← hblocks, ← haccounts, ← hmessages, ← htransactions, ← hcommits, ← htasks, ← hinterfaces,
      ← hoperations, ← hrefusals]
  · rintro rfl
    exact ⟨rfl, rfl, rfl, rfl, rfl, rfl, rfl, rfl, rfl⟩

/-- Attempts that lead from one store to another: those that were not refused committed the groups,
in order, and the others changed nothing. -/
inductive Commits (start : Store) : List Attempt → List (List Entry) → Store → Prop
  | none : Commits start [] [] start
  | refused {made : List Attempt} {groups : List (List Entry)} {s : Store}
      (h : Commits start made groups s) : Commits start (made ++ [.refusal s]) groups s
  | committed {made : List Attempt} {groups : List (List Entry)} {s s' : Store} {g : List Entry}
      (h : Commits start made groups s) (hg : g ≠ []) (hwritten : (Batch.of g).WrittenTo s s') :
      Commits start (made ++ [⟨false, s, s'⟩]) (groups ++ [g]) s'

theorem Commits.refusals {start s : Store} {made : List Attempt} {groups : List (List Entry)}
    (h : Commits start made groups s) (n : Nat) :
    Commits start (made ++ List.replicate n (.refusal s)) groups s := by
  induction n with
  | zero => simpa using h
  | succ n ih =>
    rw [List.replicate_succ', ← List.append_assoc]
    exact ih.refused

namespace Sink

/-- The sink has the entries `pending` to commit, after it committed the groups. -/
structure Kept (start : Store) (s : Sink) (w : Contested σ refuses) (groups : List (List Entry))
    (pending : List Entry) : Prop where
  batch : s.batch = Batch.of pending
  commits : Commits start w.attempts groups w.store

section flush

variable {start : Store} {s : Sink} {w : Contested σ refuses}
  {r : (Except Fault Unit × Sink) × Contested σ refuses}

/-- A flush commits the pending entries as one group, or leaves them pending. -/
theorem Flushes.kept {groups : List (List Entry)} {pending : List Entry} (h : Flushes s w r)
    (hk : Kept start s w groups pending) : ∃ groups' pending',
      groups'.flatten ++ pending' = groups.flatten ++ pending ∧
        Kept start r.1.2 r.2 groups' pending' := by
  cases h with
  | nothing => exact ⟨groups, pending, rfl, hk⟩
  | @committed w' last n hlast hn hstore hattempts =>
    have hpending : pending ≠ [] := by
      rintro rfl
      rw [hk.batch] at hlast
      cases hlast
    refine ⟨groups ++ [pending], [], by simp, rfl, ?_⟩
    rw [hattempts, hstore, hk.batch, ← List.append_assoc]
    exact (hk.commits.refusals n).committed hpending (Batch.writtenTo_iff.2 rfl)
  | refused hlast hstore hattempts =>
    refine ⟨groups, pending, rfl, hk.batch, ?_⟩
    rw [hattempts, hstore]
    exact hk.commits.refusals _

theorem Flushes.frame (h : Flushes s w r) :
    r.1.2.lastSeqno = s.lastSeqno ∧ r.1.2.config = s.config := by
  cases h <;> exact ⟨rfl, rfl⟩

/-- What a flush promises, by its answer. -/
structure FlushLaw (s : Sink) (w : Contested σ refuses) (answer : Except Fault Unit) (s' : Sink)
    (w' : Contested σ refuses) : Prop where
  attempts : ∃ made, w'.attempts = w.attempts ++ made ∧ made.length ≤ s.config.retries + 1 ∧
    (s.batch.masters ≠ [] → (answer = .ok () ↔ ∃ a ∈ made, a.refused = false))
  idle : s.batch.masters = [] → answer = .ok () ∧ s' = s ∧ w' = w
  done : s.batch.masters ≠ [] → answer = .ok () →
    s'.batch = {} ∧ s.batch.WrittenTo w.store w'.store
  failed : answer ≠ .ok () → s' = s ∧ w'.store = w.store ∧ ∃ last,
    s.batch.masters.getLast? = some last ∧
      answer = .error (.commitFailed last (s.config.retries + 1) .commitRefused)
  /-- A later flush commits the same rows. -/
  retried : answer ≠ .ok () → ∀ v : Contested σ refuses, v.store = w'.store →
    (perform s'.flush v).1.1 = .ok () → s.batch.WrittenTo w.store (perform s'.flush v).2.store

theorem Flushes.store_of_ok (h : Flushes s w r) (hs : s.batch.masters ≠ []) (hok : r.1.1 = .ok ()) :
    r.1.2.batch = {} ∧ s.batch.WrittenTo w.store r.2.store := by
  cases h with
  | nothing h => exact absurd h hs
  | committed hlast hn hstore => exact ⟨rfl, Batch.writtenTo_iff.2 hstore⟩
  | refused => cases hok

theorem Flushes.law (h : Flushes s w r) : FlushLaw s w r.1.1 r.1.2 r.2 := by
  cases h with
  | nothing h =>
    constructor
    case attempts => exact ⟨[], by simp, Nat.zero_le _, fun hs => absurd h hs⟩
    case idle => simp
    case done => exact fun hs => absurd h hs
    all_goals simp
  | @committed w' last n hlast hn hstore hattempts =>
    have hs : s.batch.masters ≠ [] := List.ne_nil_of_mem (List.mem_of_getLast? hlast)
    constructor
    case attempts =>
      refine ⟨_, hattempts, by simpa using hn, fun _ => iff_of_true rfl ?_⟩
      exact ⟨.success w.store s.batch.writes, by simp, rfl⟩
    case idle => exact fun h => absurd h hs
    case done => exact fun _ _ => ⟨rfl, Batch.writtenTo_iff.2 hstore⟩
    all_goals simp
  | @refused w' last hlast hstore hattempts =>
    have hs : s.batch.masters ≠ [] := List.ne_nil_of_mem (List.mem_of_getLast? hlast)
    constructor
    case attempts =>
      refine ⟨_, hattempts, by simp, fun _ => iff_of_false (by simp) ?_⟩
      rintro ⟨a, ha, hr⟩
      rw [(List.mem_replicate.1 ha).2] at hr
      cases hr
    case idle => exact fun h => absurd h hs
    case done => simp
    case failed => exact fun _ => ⟨rfl, hstore, last, hlast, rfl⟩
    case retried =>
      intro _ v hv hok
      have hwritten := ((flushes_flush s v).store_of_ok hs hok).2
      rwa [hv, hstore] at hwritten

end flush

end Sink

/-! ## One bundle -/

/-- A block is refused for want of a source only. -/
theorem Linker.handle_fault {l l' : Linker} {history : Hash → Option MessageSource}
    {b : MasterBundle} {fault : Fault} (h : l.handle history b = (.error fault, l')) :
    fault.isCommitFailed = false := by
  let start := l.historyStart <|> some b.master.block.startLt
  let linked := linkAll { l with historyStart := start } b.messages
  have hfst : (resolve history start b.seqno linked.2.unresolved).map (linked.1 ++ ·) =
      .error fault := congrArg Prod.fst h
  by_cases hex : ∀ m ∈ linked.2.unresolved, Excused history start m
  · rw [resolve_eq_ok hex] at hfst
    cases hfst
  · push Not at hex
    obtain ⟨m, -, -, e⟩ := @resolve_eq_error history start b.seqno _ hex
    rw [e] at hfst
    cases hfst
    rfl

namespace Sink

section receive

variable {read : PayloadReader σ} {s : Sink} {b : MasterBundle} {w : Contested σ refuses}
  {r : (Except Fault Unit × Sink) × Contested σ refuses}

/-- What was made of a bundle that is taken in: the linker completed its records and the reader read
them. -/
structure Prepares (read : PayloadReader σ) (s : Sink) (w : Contested σ refuses) (e : Entry)
    (linker : Linker) (w' : Contested σ refuses) : Prop where
  next : ∀ n, s.expected = some n → e.bundle.seqno = n
  linked : ∃ ms, s.linker.handle w.store.findSource e.bundle = (.ok ms, linker) ∧
    perform (readPayloads read.contested ms).run w = (.ok e.rows, w')
  store : w'.store = w.store
  attempts : w'.attempts = w.attempts

/-- What is left to do once a bundle is taken in: nothing, or a flush. -/
def Proceeds (s : Sink) (w : Contested σ refuses)
    (r : (Except Fault Unit × Sink) × Contested σ refuses) : Prop :=
  r = ((.ok (), s), w) ∨ Flushes s w r

theorem Proceeds.kept {start : Store} {groups : List (List Entry)} {pending : List Entry}
    (h : Proceeds s w r) (hk : Kept start s w groups pending) : ∃ groups' pending',
      groups'.flatten ++ pending' = groups.flatten ++ pending ∧
        Kept start r.1.2 r.2 groups' pending' := by
  rcases h with rfl | h
  · exact ⟨groups, pending, rfl, hk⟩
  · exact h.kept hk

theorem Proceeds.frame (h : Proceeds s w r) :
    r.1.2.lastSeqno = s.lastSeqno ∧ r.1.2.config = s.config := by
  rcases h with rfl | h
  · exact ⟨rfl, rfl⟩
  · exact h.frame

theorem Proceeds.answer (h : Proceeds s w r) :
    r.1.1 = .ok () ∨ ∃ fault, fault.isCommitFailed = true ∧ r.1.1 = .error fault := by
  rcases h with rfl | h
  · exact .inl rfl
  · cases h with
    | nothing => exact .inl rfl
    | committed => exact .inl rfl
    | refused => exact .inr ⟨_, rfl, rfl⟩

/-- A bundle is turned away and changes the linker at most, or it is taken in and then perhaps the
batch is flushed. -/
theorem Receives.cases (hread : read.Outside) (h : Receives read s b w r) :
    (∃ fault linker p, fault.isCommitFailed = false ∧
      r = ((.error fault, { s with linker := linker }), { w with reader := p })) ∨
    ∃ rows linker w', Prepares read s w ⟨b, rows⟩ linker w' ∧
      Proceeds (s.taken b linker rows) w' r := by
  cases h with
  | outOfOrder h hne => exact .inl ⟨_, s.linker, w.reader, rfl, rfl⟩
  | @unlinked fault linker hlink =>
    exact .inl ⟨fault, linker, w.reader, Linker.handle_fault hlink, rfl⟩
  | @unread ms linker fault p hlink hr =>
    obtain ⟨r, q, e, hfault⟩ := perform_readPayloads read ms w
    rw [hr] at e
    cases e
    obtain ⟨m, p', hm⟩ := hfault fault rfl
    refine .inl ⟨fault, linker, p, ?_, rfl⟩
    cases fault with
    | commitFailed last attempts cause => exact absurd hm (hread m p' last attempts cause)
    | _ => rfl
  | @waiting ms rows linker p hnext hlink hr =>
    exact .inr ⟨rows, linker, _, ⟨hnext, ⟨ms, hlink, hr⟩, rfl, rfl⟩, .inl rfl⟩
  | flushed hnext hlink hr hflush =>
    exact .inr ⟨_, _, _, ⟨hnext, ⟨_, hlink, hr⟩, rfl, rfl⟩, .inr hflush⟩

end receive

/-! ## Runs -/

/-- What a sink is asked to do. -/
inductive Call where
  | receive (b : MasterBundle)
  | flush

end Sink

/-- A sink with its world. -/
structure Serving (σ : Type) (refuses : Nat → Bool) where
  sink : Sink
  world : Contested σ refuses

/-- One call with its answer, and the states around it. -/
structure Step (σ : Type) (refuses : Nat → Bool) where
  before : Serving σ refuses
  call : Sink.Call
  answer : Except Fault Unit
  after : Serving σ refuses

namespace Serving

variable (read : PayloadReader σ)

/-- A sink that has not been asked anything. -/
structure Fresh (v : Serving σ refuses) : Prop where
  batch : v.sink.batch = {}
  attempts : v.world.attempts = []

/-- Runs the program of a call. -/
def run (v : Serving σ refuses) : Sink.Call → (Except Fault Unit × Sink) × Contested σ refuses
  | .receive b => perform (v.sink.handle read.contested b) v.world
  | .flush => perform v.sink.flush v.world

def step (v : Serving σ refuses) (c : Sink.Call) : Step σ refuses where
  before := v
  call := c
  answer := (v.run read c).1.1
  after := ⟨(v.run read c).1.2, (v.run read c).2⟩

def steps : Serving σ refuses → List Sink.Call → List (Step σ refuses)
  | _, [] => []
  | v, c :: cs => v.step read c :: steps (v.step read c).after cs

/-- The state after some calls. -/
def after (v : Serving σ refuses) (cs : List Sink.Call) : Serving σ refuses :=
  cs.foldl (fun v c => (v.step read c).after) v

theorem steps_concat (cs : List Sink.Call) (c : Sink.Call) (v : Serving σ refuses) :
    v.steps read (cs ++ [c]) = v.steps read cs ++ [(v.after read cs).step read c] := by
  induction cs generalizing v with
  | nil => rfl
  | cons d cs ih =>
    rw [List.cons_append, steps, ih]
    rfl

theorem after_concat (cs : List Sink.Call) (c : Sink.Call) (v : Serving σ refuses) :
    v.after read (cs ++ [c]) = ((v.after read cs).step read c).after := by
  simp [after]

end Serving

namespace Step

/-- Whether the step accepts a bundle: it is answered with `ok`, or with the failure of a commit. -/
def accepts (t : Step σ refuses) : Bool :=
  match t.call, t.answer with
  | .receive _, .ok () => true
  | .receive _, .error fault => fault.isCommitFailed
  | .flush, _ => false

/-- The step takes in the entry, with the rows that linker and reader made of its bundle. -/
def Takes (read : PayloadReader σ) (t : Step σ refuses) (e : Entry) : Prop :=
  t.call = .receive e.bundle ∧ ∃ linker w,
    Sink.Prepares read t.before.sink t.before.world e linker w

/-- What a step promises, by its answer. -/
structure Lawful (read : PayloadReader σ) (t : Step σ refuses) : Prop where
  config : t.after.sink.config = t.before.sink.config
  flush : t.call = .flush →
    Sink.FlushLaw t.before.sink t.before.world t.answer t.after.sink t.after.world
  /-- What is not accepted leaves batch, expected number and store as they are. -/
  rejected : ∀ b, t.call = .receive b → t.accepts = false →
    t.after.sink.batch = t.before.sink.batch ∧ t.after.sink.expected = t.before.sink.expected ∧
      t.after.world.store = t.before.world.store ∧ t.after.world.attempts = t.before.world.attempts
  /-- What is accepted is added to the batch, and then the batch may be flushed. -/
  accepted : ∀ b, t.call = .receive b → t.accepts = true → ∃ rows linker w,
    Sink.Prepares read t.before.sink t.before.world ⟨b, rows⟩ linker w ∧
      (t.answer = .ok () ∧ t.after = ⟨t.before.sink.taken b linker rows, w⟩ ∨
        Sink.FlushLaw (t.before.sink.taken b linker rows) w t.answer t.after.sink t.after.world)

end Step

namespace Serving

variable {read : PayloadReader σ} {v : Serving σ refuses} {b : MasterBundle}

theorem accepts_of_proceeds {s : Sink} {w : Contested σ refuses}
    (h : Sink.Proceeds s w (v.run read (.receive b))) :
    (v.step read (.receive b)).accepts = true := by
  rcases h.answer with e | ⟨fault, hf, e⟩
  · simp only [step, e, Step.accepts]
  · simp only [step, e, Step.accepts, hf]

theorem accepts_of_fault {fault : Fault} {s : Sink} {w : Contested σ refuses}
    (hf : fault.isCommitFailed = false) (h : v.run read (.receive b) = ((.error fault, s), w)) :
    (v.step read (.receive b)).accepts = false := by
  simp only [step, h, Step.accepts, hf]

/-- Every call keeps its promises, in whatever state it comes. -/
theorem lawful_step (hread : read.Outside) (v : Serving σ refuses) (c : Sink.Call) :
    (v.step read c).Lawful read := by
  cases c with
  | flush =>
    have hf := Sink.flushes_flush v.sink v.world
    constructor
    case config => exact hf.frame.2
    case flush => exact fun _ => hf.law
    all_goals
      intro b hb
      cases hb
  | receive b =>
    obtain ⟨fault, linker, p, hfault, hrun⟩ | ⟨rows, linker, w, hp, hgoes⟩ :=
      (Sink.receives_handle read v.sink b v.world).cases hread
    · change v.run read (.receive b) = _ at hrun
      have hno := accepts_of_fault hfault hrun
      constructor
      case config => simp only [step, hrun]
      case flush =>
        intro h
        cases h
      case rejected => simp [step, hrun, Sink.expected]
      case accepted => simp [hno]
    · change Sink.Proceeds _ w (v.run read (.receive b)) at hgoes
      have hyes := accepts_of_proceeds hgoes
      constructor
      case config => exact hgoes.frame.2
      case flush =>
        intro h
        cases h
      case rejected => simp [hyes]
      case accepted =>
        rintro _ ⟨⟩ -
        refine ⟨rows, linker, w, hp, ?_⟩
        rcases hgoes with hrun | hf
        · exact .inl ⟨by simp only [step, hrun], by simp only [step, hrun]⟩
        · exact .inr hf.law

end Serving

/-! ## Conservation -/

/-- Sequence numbers one after another, the first of them right after `last` if there is one. -/
def Consecutive (last : Option UInt32) (ns : List UInt32) : Prop :=
  ∃ first, (∀ l, last = some l → first = l.toNat + 1) ∧
    ns.map (·.toNat) = List.range' first ns.length

theorem toNat_of_successor {l n : UInt32} (h : n = Sink.successor l) (hn : n.toNat < UInt32.size - 1) :
    n.toNat = l.toNat + 1 := by
  rw [Sink.successor] at h
  split at h
  · next hl =>
    rw [h, hl] at hn
    exact absurd hn (by decide)
  · next hl =>
    have hne : l.toNat ≠ UInt32.size - 1 := by
      intro e
      exact hl (UInt32.toNat_inj.1 (e.trans (by decide)))
    have hlt := l.toNat_lt
    rw [h, UInt32.toNat_add]
    simp only [UInt32.size, UInt32.toNat_one] at hne ⊢
    omega

theorem Consecutive.concat {last : Option UInt32} {ns : List UInt32} {n : UInt32}
    (h : Consecutive last ns) (hn : n.toNat < UInt32.size - 1)
    (hnext : ∀ m, (ns.getLast?.or last).map Sink.successor = some m → n = m) :
    Consecutive last (ns ++ [n]) := by
  obtain ⟨first, hfirst, hns⟩ := h
  rcases List.eq_nil_or_concat ns with rfl | ⟨ms, k, rfl⟩
  · refine ⟨n.toNat, ?_, by simp⟩
    rintro l rfl
    exact toNat_of_successor (hnext _ rfl) hn
  · refine ⟨first, hfirst, ?_⟩
    have hk : n.toNat = k.toNat + 1 := toNat_of_successor (hnext _ (by simp)) hn
    simp only [List.concat_eq_append, List.map_append, List.map_cons, List.map_nil,
      List.length_append, List.length_singleton, List.range'_1_concat] at hns ⊢
    obtain ⟨hms, hlast⟩ := List.append_inj' hns rfl
    rw [hms, hlast]
    simp only [List.cons.injEq, and_true] at hlast
    rw [hk, hlast, Nat.add_assoc]

namespace Serving

/-- What holds after the steps `ts` from `start`, for given groups and pending entries. -/
structure Conserves (read : PayloadReader σ) (start v : Serving σ refuses) (ts : List (Step σ refuses))
    (groups : List (List Entry)) (pending : List Entry) : Prop where
  kept : Sink.Kept start.world.store v.sink v.world groups pending
  accepted : List.Forall₂ (Step.Takes read) (ts.filter (·.accepts)) (groups.flatten ++ pending)
  consecutive : Consecutive start.sink.lastSeqno
    ((groups.flatten ++ pending).map (·.bundle.seqno))
  lastSeqno : v.sink.lastSeqno =
    ((groups.flatten ++ pending).map (·.bundle.seqno)).getLast?.or start.sink.lastSeqno

section

variable {read : PayloadReader σ} {start v : Serving σ refuses} {ts : List (Step σ refuses)}
  {groups : List (List Entry)} {pending : List Entry}

/-- One more call, of either kind. -/
theorem Conserves.step (hread : read.Outside) (h : Conserves read start v ts groups pending)
    {c : Sink.Call} (hc : ∀ b, c = .receive b → b.seqno.toNat < UInt32.size - 1) :
    ∃ groups' pending',
      Conserves read start (v.step read c).after (ts ++ [v.step read c]) groups' pending' := by
  cases c with
  | flush =>
    have hf := Sink.flushes_flush v.sink v.world
    obtain ⟨groups', pending', e, hk⟩ := hf.kept h.kept
    have hno : (v.step read .flush).accepts = false := rfl
    refine ⟨groups', pending', hk, ?_, e ▸ h.consecutive, ?_⟩
    · simpa [hno, e] using h.accepted
    · rw [e, ← h.lastSeqno]
      exact hf.frame.1
  | receive b =>
    obtain ⟨fault, linker, p, hfault, hrun⟩ | ⟨rows, linker, w, hp, hgoes⟩ :=
      (Sink.receives_handle read v.sink b v.world).cases hread
    · change v.run read (.receive b) = _ at hrun
      have hno := accepts_of_fault hfault hrun
      refine ⟨groups, pending, ?_, ?_, h.consecutive, ?_⟩
      · simp only [Serving.step, hrun]
        exact ⟨h.kept.batch, h.kept.commits⟩
      · simpa [hno] using h.accepted
      · simp only [Serving.step, hrun]
        exact h.lastSeqno
    · change Sink.Proceeds _ w (v.run read (.receive b)) at hgoes
      have hyes := accepts_of_proceeds hgoes
      have htaken : Sink.Kept start.world.store (v.sink.taken b linker rows) w groups
          (pending ++ [⟨b, rows⟩]) := by
        refine ⟨?_, ?_⟩
        · rw [← Batch.add_of, ← h.kept.batch]
          rfl
        · rw [hp.attempts, hp.store]
          exact h.kept.commits
      obtain ⟨groups', pending', e, hk⟩ := hgoes.kept htaken
      rw [← List.append_assoc] at e
      have hnext : ∀ m, v.sink.lastSeqno.map Sink.successor = some m → b.seqno = m := hp.next
      rw [h.lastSeqno] at hnext
      refine ⟨groups', pending', hk, ?_, ?_, ?_⟩
      · rw [e, List.filter_append, List.filter_singleton, hyes]
        refine List.rel_append h.accepted (.cons ⟨rfl, linker, w, hp⟩ .nil)
      · rw [e, List.map_append]
        exact h.consecutive.concat (hc b rfl) hnext
      · rw [e, List.map_append, List.map_singleton, List.getLast?_concat]
        exact hgoes.frame.1

theorem Fresh.begins (h : start.Fresh) : Conserves read start start [] [] [] where
  kept := ⟨h.batch, h.attempts ▸ .none⟩
  accepted := .nil
  consecutive := by
    cases hl : start.sink.lastSeqno with
    | none => exact ⟨0, by simp, rfl⟩
    | some l => exact ⟨l.toNat + 1, by simp, rfl⟩
  lastSeqno := rfl

/-- What any calls to a fresh sink come to, whatever the pattern of refusals: the accepted bundles
are committed in groups or pending, and each call keeps its promises. -/
theorem conserves (hread : read.Outside) (hstart : start.Fresh) (cs : List Sink.Call)
    (hcs : ∀ b, .receive b ∈ cs → b.seqno.toNat < UInt32.size - 1) :
    (∃ groups pending,
      Conserves read start (start.after read cs) (start.steps read cs) groups pending) ∧
    ∀ t ∈ start.steps read cs, t.Lawful read := by
  induction cs using List.reverseRecOn with
  | nil => exact ⟨⟨[], [], hstart.begins⟩, by simp [steps]⟩
  | append_singleton cs c ih =>
    obtain ⟨⟨groups, pending, h⟩, hlawful⟩ := ih fun b hb => hcs b (List.mem_append_left _ hb)
    rw [steps_concat, after_concat]
    refine ⟨h.step hread fun b hb => hcs b (by simp [hb]), fun t ht => ?_⟩
    rcases List.mem_append.1 ht with ht | ht
    · exact hlawful t ht
    · rw [List.mem_singleton.1 ht]
      exact lawful_step hread _ c

end

/-! The first four attempts are refused, so a flush fails, and then a bundle that fills the batch. -/

namespace RefusalSample

def reader : PayloadReader Unit :=
  fun _ => pure (.ok {})

/-- The message is sent in bundle 5 and received in bundle 6. -/
def sent : MasterBundle :=
  Sample.bundle 5 (Sample.transaction 1 10 Sample.sender none [Sample.message])

def received : MasterBundle :=
  Sample.bundle 6 (Sample.transaction 2 20 Sample.receiver (some Sample.message) [])

def skipping : MasterBundle :=
  Sample.bundle 7 (Sample.transaction 3 30 Sample.sender none [])

def start : Serving Unit fun n => decide (n < 4) where
  sink := {
    config := { masters := 2, retries := 1, retryDelay := 1000 }
    linker := { capacity := 1 }
    lastSeqno := some 4 }
  world := { store := {}, steady := rfl, reader := () }

def calls : List Sink.Call :=
  [.receive sent, .receive skipping, .flush, .receive received, .flush]

/-- The rows of the tables of the chain, by what tells them apart, and the log of commits. -/
def rows (s : Store) : List UInt32 × List (Address × UInt64) × List (Hash × Option Hash × Option Hash) ×
    List (Hash × List Message) × List (List UInt32) :=
  (s.blocks.map (·.id.seqno), s.accounts.map fun a => (a.address, a.lastTxLt),
    s.messages.map fun m => (m.hash, m.source.tx.map (·.hash), m.destination.tx.map (·.hash)),
    s.transactions.map fun t => (t.hash, t.messages), s.commits)

end RefusalSample

open RefusalSample in
/-- Two bundles are committed as one group, with the message on both sides and out of its transactions. -/
theorem conserves_sample :
    reader.Outside ∧ start.Fresh ∧
      (∀ b, .receive b ∈ calls → b.seqno.toNat < UInt32.size - 1) ∧
      (start.steps reader calls).map (·.answer) =
        [.ok (), .error (.outOfOrder 7 6), .error (.commitFailed 5 2 .commitRefused),
          .error (.commitFailed 6 2 .commitRefused), .ok ()] ∧
      (start.steps reader calls).map (fun t => rows t.before.world.store) =
        List.replicate 5 ([], [], [], [], []) ∧
      rows (start.after reader calls).world.store =
        ([5, 6], [(Sample.sender, 10), (Sample.receiver, 20)], [(7, some 1, some 2)],
          [(1, []), (2, [])], [[5, 6]]) ∧
      (∃ groups pending,
        Conserves reader start (start.after reader calls) (start.steps reader calls) groups pending) ∧
      ∀ t ∈ start.steps reader calls, t.Lawful reader := by
  have hread : reader.Outside := by
    rintro m p last attempts cause ⟨⟩
  have hcalls : ∀ b, .receive b ∈ calls → b.seqno.toNat < UInt32.size - 1 := by
    simp [calls, sent, received, skipping, Sample.bundle, UInt32.size]
  exact ⟨hread, ⟨rfl, rfl⟩, hcalls, rfl, rfl, rfl, conserves hread ⟨rfl, rfl⟩ calls hcalls⟩

end Serving

end ShardIndex
