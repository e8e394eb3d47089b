import Mathlib.Data.List.Forall2
import ShardIndex.Batch
/-!
# What a sink can do

The sink runs against a store, and reads payloads with a reader that keeps a state of its own. The
reader does not touch the store (`PayloadReader`), so an execution has a store and a reader's state
before and after (`exec`). The two programs of the sink are summed up by what they can end with.

* `Flushed`: there was nothing to commit; or the batch was committed as a whole; or every attempt
  was refused, and the sink is as before.
* `Handled`: the linker or the reader stopped the bundle, and the store is as before; or the bundle
  was taken in, and then perhaps the batch was flushed.

Which of the two happens follows from the store and the answers alone.
-/
namespace ShardIndex

variable {σ α β : Type}

/-! ## Executions -/

/-- Programs of the forward path: they change a store and the state of a reader. -/
abbrev ForwardM (σ : Type) := StateT Store (StateM σ)

/-- Reads bodies of messages with a state of its own. -/
abbrev PayloadReader (σ : Type) := Message → StateM σ (Except ParseFault Decoded)

/-- A parser as far as the sink uses it. -/
def PayloadReader.parser (read : PayloadReader σ) : Parser (ForwardM σ) where
  interfacesOf _ := pure []
  readAccount _ _ _ := throw .notAvailable
  callMethod _ _ _ _ := throw .notAvailable
  readPayload m := ExceptT.mk (StateT.lift (read m))

/-- Runs a program from a store and a reader's state. -/
def exec (x : ForwardM σ α) (store : Store) (p : σ) : (α × Store) × σ :=
  (x.run store).run p

@[simp] theorem exec_pure (a : α) (store : Store) (p : σ) :
    exec (pure a : ForwardM σ α) store p = ((a, store), p) := rfl

@[simp] theorem exec_bind (x : ForwardM σ α) (f : α → ForwardM σ β) (store : Store) (p : σ) :
    exec (x >>= f) store p =
      exec (f (exec x store p).1.1) (exec x store p).1.2 (exec x store p).2 := rfl

@[simp] theorem exec_get (store : Store) (p : σ) :
    exec (getThe Store : ForwardM σ Store) store p = ((store, store), p) := rfl

@[simp] theorem exec_modifyGet (f : Store → α × Store) (store : Store) (p : σ) :
    exec (modifyGetThe Store f : ForwardM σ α) store p = (f store, p) := rfl

@[simp] theorem exec_wait (ms : Nat) (store : Store) (p : σ) :
    exec (Clock.wait ms : ForwardM σ Unit) store p = (((), store), p) := rfl

/-- A program that may fault: what follows a fault is not run. -/
theorem exec_run_bind {ε : Type} (x : ExceptT ε (ForwardM σ) α) (f : α → ExceptT ε (ForwardM σ) β)
    (store : Store) (p : σ) :
    exec (x >>= f).run store p =
      match exec x.run store p with
      | ((.ok a, s), q) => exec (f a).run s q
      | ((.error e, s), q) => ((.error e, s), q) := by
  rw [ExceptT.run_bind, exec_bind]
  rcases exec x.run store p with ⟨⟨e | a, s⟩, q⟩ <;> rfl

/-! ## Commits -/

/-- The store after the writes of one commit. -/
def Store.committed (s : Store) (writes : List Write) : Store :=
  (writes.foldl Store.write { s with refusals := 0 }).logCommit (writes.flatMap Store.mastersOf)

theorem Store.foldl_write_refusals (writes : List Write) (s : Store) :
    (writes.foldl Store.write s).refusals = s.refusals := by
  induction writes generalizing s with
  | nil => rfl
  | cons w ws ih =>
    rw [List.foldl_cons, ih]
    cases w <;> rfl

theorem Store.committed_refusals (s : Store) (writes : List Write) :
    (s.committed writes).refusals = 0 := by
  have hlog : ∀ (t : Store) (ms : List UInt32), (t.logCommit ms).refusals = t.refusals := by
    intro t ms
    unfold Store.logCommit
    split <;> rfl
  rw [Store.committed, hlog, Store.foldl_write_refusals]

namespace Sink

theorem commit_of_refusals {store : Store} {writes : List Write} {n : Nat}
    (h : store.refusals = n + 1) :
    store.commit writes = (.error .commitRefused, { store with refusals := n }) := by
  simp [Store.commit, h]

theorem commit_of_no_refusals {store : Store} {writes : List Write} (h : store.refusals = 0) :
    store.commit writes = (.ok (), store.committed writes) := by
  have hs : { store with refusals := 0 } = store := by rw [← h]
  simp [Store.commit, h, Store.committed, hs]

/-- Attempts that outlast the refusals. -/
theorem attempt_eq_ok (writes : List Write) (pause : Nat) (p : σ) :
    ∀ (retries made : Nat) (store : Store), store.refusals ≤ retries →
      exec (attempt writes pause retries made : ForwardM σ _) store p =
        (((made + store.refusals + 1, .ok ()), store.committed writes), p)
  | 0, made, store, h => by
    have h0 : store.refusals = 0 := Nat.le_zero.1 h
    simp only [attempt, exec_bind, exec_modifyGet, exec_pure, commit_of_no_refusals h0, h0, Nat.add_zero]
  | retries + 1, made, store, h => by
    cases hr : store.refusals with
    | zero =>
      simp only [attempt, exec_bind, exec_modifyGet, exec_pure, commit_of_no_refusals hr, Nat.add_zero]
    | succ n =>
      have ih := attempt_eq_ok writes pause p retries (made + 1) { store with refusals := n }
        (by rw [hr] at h; exact Nat.le_of_succ_le_succ h)
      have hmade : made + 1 + n + 1 = made + (n + 1) + 1 := by omega
      simp only [attempt, exec_bind, exec_modifyGet, commit_of_refusals hr, exec_wait, ih,
        hmade]
      rfl

/-- Refusals that outlast the attempts. -/
theorem attempt_eq_error (writes : List Write) (pause : Nat) (p : σ) :
    ∀ (retries made : Nat) (store : Store), retries < store.refusals →
      exec (attempt writes pause retries made : ForwardM σ _) store p =
        (((made + retries + 1, .error .commitRefused),
          { store with refusals := store.refusals - (retries + 1) }), p)
  | retries, made, store, h => by
    obtain ⟨n, hn⟩ : ∃ n, store.refusals = n + 1 := ⟨store.refusals - 1, by omega⟩
    cases retries with
    | zero =>
      simp only [attempt, exec_bind, exec_modifyGet, exec_pure, commit_of_refusals hn, hn,
        Nat.add_zero, Nat.zero_add, Nat.add_sub_cancel]
    | succ retries =>
      have ih := attempt_eq_error writes pause p retries (made + 1) { store with refusals := n }
        (by simp only; omega)
      have hmade : made + 1 + retries + 1 = made + (retries + 1) + 1 := by omega
      have hleft : n - (retries + 1) = n + 1 - (retries + 1 + 1) := by omega
      simp only [attempt, exec_bind, exec_modifyGet, commit_of_refusals hn, exec_wait, ih, hmade, hn,
        hleft]

/-- What flushing can end with. -/
inductive Flushed (s : Sink) (store : Store) : (Except Fault Unit × Sink) × Store → Prop
  | nothing (h : s.batch.masters = []) : Flushed s store ((.ok (), s), store)
  | committed (last : UInt32) (hlast : s.batch.masters.getLast? = some last)
      (hr : store.refusals ≤ s.config.retries) :
      Flushed s store ((.ok (), { s with batch := {}, linker := s.linker.prune last }),
        store.committed s.batch.writes)
  | refused (last : UInt32) (hlast : s.batch.masters.getLast? = some last)
      (hr : s.config.retries < store.refusals) :
      Flushed s store ((.error (.commitFailed last (s.config.retries + 1) .commitRefused), s),
        { store with refusals := store.refusals - (s.config.retries + 1) })

theorem flush_spec (s : Sink) (store : Store) (p : σ) :
    Flushed s store (exec (flush s : ForwardM σ _) store p).1 := by
  unfold flush
  cases hl : s.batch.masters.getLast? with
  | none => exact .nothing (List.getLast?_eq_none_iff.1 hl)
  | some last =>
    rcases Nat.lt_or_ge s.config.retries store.refusals with hr | hr
    · simp only [exec_bind, attempt_eq_error _ _ p _ 0 store hr, exec_pure, Nat.zero_add]
      exact .refused last hl hr
    · simp only [exec_bind, attempt_eq_ok _ _ p _ 0 store hr, exec_pure]
      exact .committed last hl hr

/-! ## Payloads -/

/-- The reader can make the row `m` of the record `e`. -/
def Yields (read : PayloadReader σ) (e m : Message) : Prop :=
  ∃ p, e.absorb ((read e).run p).1 = .ok m

/-- The reader can stop the bundle at the record `e`. -/
def Rejects (read : PayloadReader σ) (e : Message) : Prop :=
  ∃ p fault, e.absorb ((read e).run p).1 = .error fault

/-- Reading changes neither the store nor any other record. -/
theorem readPayloads_spec (read : PayloadReader σ) (store : Store) :
    ∀ (ms : List Message) (p : σ), ∃ r p',
      exec (readPayloads read.parser ms).run store p = ((r, store), p') ∧
        ((∃ rows, r = .ok rows ∧ List.Forall₂ (Yields read) ms rows) ∨
          ∃ fault, r = .error fault ∧ ∃ m ∈ ms, Rejects read m)
  | [], p => ⟨.ok [], p, rfl, .inl ⟨[], rfl, .nil⟩⟩
  | m :: ms, p => by
    have hm : exec (read.parser.fillMessage m).run store p =
        ((m.absorb ((read m).run p).1, store), ((read m).run p).2) := rfl
    obtain ⟨r, p', he, h⟩ := readPayloads_spec read store ms ((read m).run p).2
    rw [readPayloads] at he
    rw [readPayloads, List.mapM_cons, exec_run_bind, hm]
    cases hrow : m.absorb ((read m).run p).1 with
    | error fault =>
      exact ⟨.error fault, _, rfl, .inr ⟨fault, rfl, m, List.mem_cons_self, p, fault, hrow⟩⟩
    | ok row =>
      simp only [exec_run_bind, he]
      rcases h with ⟨rows, rfl, hrows⟩ | ⟨fault, rfl, x, hx, hrej⟩
      · exact ⟨.ok (row :: rows), p', rfl, .inl ⟨_, rfl, .cons ⟨p, hrow⟩ hrows⟩⟩
      · exact ⟨.error fault, p', rfl, .inr ⟨fault, rfl, x, List.mem_cons_of_mem _ hx, hrej⟩⟩

/-! ## Bundles -/

/-- The sink after it took in a bundle with its messages. -/
def taken (s : Sink) (b : MasterBundle) (linker : Linker) (rows : List Message) : Sink :=
  { s with linker := linker, batch := s.batch.add b rows, lastSeqno := some b.seqno }

/-- What handling a bundle can end with, when it is the next one. -/
inductive Handled (read : PayloadReader σ) (s : Sink) (b : MasterBundle) (store : Store) :
    (Except Fault Unit × Sink) × Store → Prop
  | unlinked (fault : Fault) (linker : Linker)
      (h : s.linker.handle store.findSource b = (.error fault, linker)) :
      Handled read s b store ((.error fault, { s with linker := linker }), store)
  | unread (ms : List Message) (linker : Linker) (fault : Fault)
      (h : s.linker.handle store.findSource b = (.ok ms, linker))
      (hm : ∃ m ∈ ms, Rejects read m) :
      Handled read s b store ((.error fault, { s with linker := linker }), store)
  | waiting (ms rows : List Message) (linker : Linker)
      (h : s.linker.handle store.findSource b = (.ok ms, linker))
      (hrows : List.Forall₂ (Yields read) ms rows) :
      Handled read s b store ((.ok (), s.taken b linker rows), store)
  | flushed (ms rows : List Message) (linker : Linker) {r : (Except Fault Unit × Sink) × Store}
      (h : s.linker.handle store.findSource b = (.ok ms, linker))
      (hrows : List.Forall₂ (Yields read) ms rows)
      (hr : Flushed (s.taken b linker rows) store r) :
      Handled read s b store r

theorem takeIn_spec (read : PayloadReader σ) (s : Sink) (b : MasterBundle) (store : Store) (p : σ) :
    Handled read s b store (exec (takeIn read.parser s b) store p).1 := by
  unfold takeIn
  rw [exec_bind, exec_get]
  rcases hl : s.linker.handle store.findSource b with ⟨fault | ms, linker⟩
  · exact .unlinked fault linker hl
  · obtain ⟨r, p', he, h⟩ := readPayloads_spec read store ms p
    rw [exec_bind, he]
    rcases h with ⟨rows, rfl, hrows⟩ | ⟨fault, rfl, hm⟩
    · simp only
      split
      · exact .flushed ms rows linker hl hrows (flush_spec _ store p')
      · exact .waiting ms rows linker hl hrows
    · exact .unread ms linker fault hl hm

/-- A bundle that comes in its turn is taken in. -/
theorem handle_eq_takeIn {M : Type → Type} [Monad M] [LawfulMonad M] [MonadStateOf Store M] [Clock M]
    (parser : Parser M) {s : Sink} {b : MasterBundle}
    (hnext : ∀ n, s.expected = some n → b.seqno = n) : s.handle parser b = s.takeIn parser b := by
  unfold handle
  cases he : s.expected with
  | none => simp
  | some n => simp [hnext n he]

end Sink

end ShardIndex
