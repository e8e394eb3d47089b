import ShardIndex.Proofs.Forward.Sink
/-!
# A sink whose commits are refused in any pattern

`refuses n` says whether attempt number `n` to commit is refused. Programs of the sink run in a
`Contested` world: the store, the state of a payload reader, and the attempts made so far with the
stores around them. The type keeps two promises, `steady` and `honest`: refusals come from the
pattern, and each attempt was refused as the pattern says.

`Flushes` and `Receives` say what the two programs of the sink can come to, attempts included, and
`perform_attempt` carries both: attempts go on until one is not refused or none are left.
-/
namespace ShardIndex

variable {σ α β : Type} {refuses : Nat → Bool}

/-! ## A store that refuses commits -/

/-- One attempt to commit, with the stores around it. -/
structure Attempt where
  refused : Bool
  before : Store
  after : Store

namespace Attempt

/-- A refused attempt. -/
def refusal (s : Store) : Attempt :=
  ⟨true, s, s⟩

/-- An attempt that is not refused. -/
def success (s : Store) (writes : List Write) : Attempt :=
  ⟨false, s, s.committed writes⟩

end Attempt

/-- The store when its next commit is to be refused, or not. -/
def Store.facing (s : Store) (refused : Bool) : Store :=
  { s with refusals := if refused then 1 else 0 }

theorem Store.facing_false {s : Store} (h : s.refusals = 0) : s.facing false = s := by
  rw [facing, if_neg Bool.false_ne_true, ← h]

/-- A store, the state of a payload reader and the attempts to commit made so far. -/
structure Contested (σ : Type) (refuses : Nat → Bool) where
  store : Store
  /-- Refusals come from the pattern alone. -/
  steady : store.refusals = 0
  reader : σ
  attempts : List Attempt := []
  /-- The attempts were refused as the pattern says. -/
  honest : attempts.map (·.refused) = (List.range attempts.length).map refuses := by rfl

namespace Contested

/-- The world after the next attempt. -/
def tried (w : Contested σ refuses) (after : Store) (h : after.refusals = 0) :
    Contested σ refuses where
  store := after
  steady := h
  reader := w.reader
  attempts := w.attempts ++ [⟨refuses w.attempts.length, w.store, after⟩]
  honest := by simp [w.honest, List.range_succ]

/-- The world after a refused attempt. -/
def refuse (w : Contested σ refuses) : Contested σ refuses :=
  w.tried w.store w.steady

/-- The world after an attempt that is not refused. -/
def accept (w : Contested σ refuses) (writes : List Write) : Contested σ refuses :=
  w.tried (w.store.committed writes) (w.store.committed_refusals writes)

section

variable {w : Contested σ refuses} {writes : List Write}

@[simp] theorem refuse_store : w.refuse.store = w.store := rfl

theorem refuse_attempts (h : refuses w.attempts.length = true) :
    w.refuse.attempts = w.attempts ++ [.refusal w.store] := by
  simp [refuse, tried, h, Attempt.refusal]

theorem accept_attempts (h : refuses w.attempts.length = false) :
    (w.accept writes).attempts = w.attempts ++ [.success w.store writes] := by
  simp [accept, tried, h, Attempt.success]

end

end Contested

/-- Programs in a contested world. -/
abbrev ContestedM (σ : Type) (refuses : Nat → Bool) := StateM (Contested σ refuses)

/-- A change of the store that is decided in the store is an attempt to commit. -/
instance : MonadStateOf Store (ContestedM σ refuses) where
  get := fun w => (w.store, w)
  set s := fun w => ((), { w with store := s.facing false, steady := rfl })
  modifyGet f := fun w =>
    let r := f (w.store.facing (refuses w.attempts.length))
    (r.1, w.tried (r.2.facing false) rfl)

theorem Message.absorb_eq_error {m : Message} {outcome : Except ParseFault Decoded} {fault : Fault}
    (h : m.absorb outcome = .error fault) : outcome = .error (.other fault) := by
  rcases outcome with (_ | _ | _) | _ <;> simp_all [Message.absorb]

/-- The payload reader in a contested world. -/
def PayloadReader.contested (read : PayloadReader σ) : Parser (ContestedM σ refuses) where
  interfacesOf _ := pure []
  readAccount _ _ _ := throw .notAvailable
  callMethod _ _ _ _ := throw .notAvailable
  readPayload m := ExceptT.mk (modifyGetThe (Contested σ refuses) fun w =>
    (((read m).run w.reader).1, { w with reader := ((read m).run w.reader).2 }))

/-- Runs a program. -/
def perform (x : ContestedM σ refuses α) (w : Contested σ refuses) : α × Contested σ refuses :=
  x.run w

section perform

variable (w : Contested σ refuses)

@[simp] theorem perform_pure (a : α) : perform (pure a) w = (a, w) := rfl

@[simp] theorem perform_bind (x : ContestedM σ refuses α) (f : α → ContestedM σ refuses β) :
    perform (x >>= f) w = perform (f (perform x w).1) (perform x w).2 := rfl

@[simp] theorem perform_get :
    perform (getThe Store : ContestedM σ refuses Store) w = (w.store, w) := rfl

@[simp] theorem perform_wait (ms : Nat) :
    perform (Clock.wait ms : ContestedM σ refuses Unit) w = ((), w) := rfl

/-- A program that may fault: what follows a fault is not run. -/
theorem perform_run_bind {ε : Type} (x : ExceptT ε (ContestedM σ refuses) α)
    (f : α → ExceptT ε (ContestedM σ refuses) β) :
    perform (x >>= f).run w =
      match perform x.run w with
      | (.ok a, w') => perform (f a).run w'
      | (.error e, w') => (.error e, w') := by
  rw [ExceptT.run_bind, perform_bind]
  rcases perform x.run w with ⟨e | a, w'⟩ <;> rfl

variable {w} {writes : List Write}

theorem perform_commit (writes : List Write) (w : Contested σ refuses) :
    perform (modifyGetThe Store (·.commit writes)) w =
      (((w.store.facing (refuses w.attempts.length)).commit writes).1,
        w.tried (((w.store.facing (refuses w.attempts.length)).commit writes).2.facing false) rfl) :=
  rfl

theorem perform_commit_refused (h : refuses w.attempts.length = true) :
    perform (modifyGetThe Store (·.commit writes)) w = (.error .commitRefused, w.refuse) := by
  have hc : (w.store.facing true).commit writes = (.error .commitRefused, w.store.facing false) :=
    Sink.commit_of_refusals rfl
  simp only [perform_commit, h, hc, Store.facing_false w.steady, Contested.refuse]

theorem perform_commit_accepted (h : refuses w.attempts.length = false) :
    perform (modifyGetThe Store (·.commit writes)) w = (.ok (), w.accept writes) := by
  have hc : w.store.commit writes = (.ok (), w.store.committed writes) :=
    Sink.commit_of_no_refusals w.steady
  simp only [perform_commit, h, Store.facing_false w.steady, hc,
    Store.facing_false (w.store.committed_refusals writes), Contested.accept]

end perform

/-! ## Flushing -/

namespace Sink

/-- Attempts go on until one is not refused, or there are none left. -/
theorem perform_attempt (writes : List Write) (pause : Nat) :
    ∀ (retries made : Nat) (w : Contested σ refuses), ∃ w' : Contested σ refuses,
      (∃ n ≤ retries,
        perform (attempt writes pause retries made) w = ((made + n + 1, .ok ()), w') ∧
        w'.store = w.store.committed writes ∧
        w'.attempts = w.attempts ++
          (List.replicate n (.refusal w.store) ++ [.success w.store writes])) ∨
      (perform (attempt writes pause retries made) w =
          ((made + retries + 1, .error .commitRefused), w') ∧
        w'.store = w.store ∧
        w'.attempts = w.attempts ++ List.replicate (retries + 1) (.refusal w.store))
  | 0, made, w => by
    cases h : refuses w.attempts.length with
    | false =>
      refine ⟨w.accept writes, .inl ⟨0, Nat.le_refl _, ?_, rfl, Contested.accept_attempts h⟩⟩
      simp only [attempt, perform_bind, perform_commit_accepted h, perform_pure, Nat.add_zero]
    | true =>
      refine ⟨w.refuse, .inr ⟨?_, rfl, Contested.refuse_attempts h⟩⟩
      simp only [attempt, perform_bind, perform_commit_refused h, perform_pure, Nat.add_zero]
  | retries + 1, made, w => by
    cases h : refuses w.attempts.length with
    | false =>
      refine ⟨w.accept writes, .inl ⟨0, Nat.zero_le _, ?_, rfl, Contested.accept_attempts h⟩⟩
      simp only [attempt, perform_bind, perform_commit_accepted h, perform_pure, Nat.add_zero]
    | true =>
      have hrun : perform (attempt writes pause (retries + 1) made) w =
          perform (attempt writes pause retries (made + 1)) w.refuse := by
        simp only [attempt, perform_bind, perform_commit_refused h, perform_wait]
      obtain ⟨w', ih⟩ := perform_attempt writes pause retries (made + 1) w.refuse
      rw [Contested.refuse_attempts h, Contested.refuse_store, ← hrun] at ih
      refine ⟨w', ?_⟩
      rcases ih with ⟨n, hn, hw, hs, ha⟩ | ⟨hw, hs, ha⟩
      · have hcount : made + 1 + n + 1 = made + (n + 1) + 1 := by omega
        exact .inl ⟨n + 1, Nat.succ_le_succ hn, hcount ▸ hw, hs, by simp [ha, List.replicate_succ]⟩
      · have hcount : made + 1 + retries + 1 = made + (retries + 1) + 1 := by omega
        exact .inr ⟨hcount ▸ hw, hs, by simp [ha, List.replicate_succ]⟩

/-- What flushing can come to. -/
inductive Flushes (s : Sink) (w : Contested σ refuses) :
    (Except Fault Unit × Sink) × Contested σ refuses → Prop
  | nothing (h : s.batch.masters = []) : Flushes s w ((.ok (), s), w)
  | committed {w' : Contested σ refuses} {last : UInt32} {n : Nat}
      (hlast : s.batch.masters.getLast? = some last) (hn : n ≤ s.config.retries)
      (hstore : w'.store = w.store.committed s.batch.writes)
      (hattempts : w'.attempts = w.attempts ++
        (List.replicate n (.refusal w.store) ++ [.success w.store s.batch.writes])) :
      Flushes s w ((.ok (), { s with batch := {}, linker := s.linker.prune last }), w')
  | refused {w' : Contested σ refuses} {last : UInt32}
      (hlast : s.batch.masters.getLast? = some last) (hstore : w'.store = w.store)
      (hattempts : w'.attempts =
        w.attempts ++ List.replicate (s.config.retries + 1) (.refusal w.store)) :
      Flushes s w ((.error (.commitFailed last (s.config.retries + 1) .commitRefused), s), w')

theorem flushes_flush (s : Sink) (w : Contested σ refuses) : Flushes s w (perform s.flush w) := by
  unfold flush
  cases hl : s.batch.masters.getLast? with
  | none => exact .nothing (List.getLast?_eq_none_iff.1 hl)
  | some last =>
    obtain ⟨w', ⟨n, hn, hw, hs, ha⟩ | ⟨hw, hs, ha⟩⟩ :=
      perform_attempt s.batch.writes s.config.retryDelay s.config.retries 0 w
    · simp only [perform_bind, hw, perform_pure]
      exact .committed hl hn hs ha
    · simp only [perform_bind, hw, perform_pure, Nat.zero_add]
      exact .refused hl hs ha

/-! ## Payloads -/

theorem perform_fillMessage (read : PayloadReader σ) (m : Message) (w : Contested σ refuses) :
    perform (read.contested.fillMessage m).run w =
      (m.absorb ((read m).run w.reader).1, { w with reader := ((read m).run w.reader).2 }) := rfl

/-- Reading leaves the store and the attempts alone, and only passes on what the reader says. -/
theorem perform_readPayloads (read : PayloadReader σ) :
    ∀ (ms : List Message) (w : Contested σ refuses), ∃ (r : Except Fault (List Message)) (p : σ),
      perform (readPayloads read.contested ms).run w = (r, { w with reader := p }) ∧
        ∀ fault, r = .error fault → ∃ m p, ((read m).run p).1 = .error (.other fault)
  | [], w => ⟨.ok [], w.reader, rfl, by simp⟩
  | m :: ms, w => by
    obtain ⟨r, p, he, h⟩ :=
      perform_readPayloads read ms { w with reader := ((read m).run w.reader).2 }
    rw [readPayloads] at he
    rw [readPayloads, List.mapM_cons, perform_run_bind, perform_fillMessage]
    cases hrow : m.absorb ((read m).run w.reader).1 with
    | error fault =>
      refine ⟨.error fault, _, rfl, ?_⟩
      rintro _ ⟨⟩
      exact ⟨m, w.reader, Message.absorb_eq_error hrow⟩
    | ok row =>
      simp only [perform_run_bind, he]
      cases r with
      | error fault => exact ⟨.error fault, p, rfl, h⟩
      | ok rows => exact ⟨.ok (row :: rows), p, rfl, by simp⟩

/-! ## Bundles -/

/-- What handling a bundle can come to. -/
inductive Receives (read : PayloadReader σ) (s : Sink) (b : MasterBundle) (w : Contested σ refuses) :
    (Except Fault Unit × Sink) × Contested σ refuses → Prop
  | outOfOrder {expected : UInt32} (h : s.expected = some expected) (hne : b.seqno ≠ expected) :
      Receives read s b w ((.error (.outOfOrder b.seqno expected), s), w)
  | unlinked {fault : Fault} {linker : Linker}
      (hlink : s.linker.handle w.store.findSource b = (.error fault, linker)) :
      Receives read s b w ((.error fault, { s with linker := linker }), w)
  | unread {ms : List Message} {linker : Linker} {fault : Fault} {p : σ}
      (hlink : s.linker.handle w.store.findSource b = (.ok ms, linker))
      (hread : perform (readPayloads read.contested ms).run w = (.error fault, { w with reader := p })) :
      Receives read s b w ((.error fault, { s with linker := linker }), { w with reader := p })
  | waiting {ms rows : List Message} {linker : Linker} {p : σ}
      (hnext : ∀ n, s.expected = some n → b.seqno = n)
      (hlink : s.linker.handle w.store.findSource b = (.ok ms, linker))
      (hread : perform (readPayloads read.contested ms).run w = (.ok rows, { w with reader := p })) :
      Receives read s b w ((.ok (), s.taken b linker rows), { w with reader := p })
  | flushed {ms rows : List Message} {linker : Linker} {p : σ}
      {r : (Except Fault Unit × Sink) × Contested σ refuses}
      (hnext : ∀ n, s.expected = some n → b.seqno = n)
      (hlink : s.linker.handle w.store.findSource b = (.ok ms, linker))
      (hread : perform (readPayloads read.contested ms).run w = (.ok rows, { w with reader := p }))
      (hflush : Flushes (s.taken b linker rows) { w with reader := p } r) : Receives read s b w r

theorem receives_takeIn (read : PayloadReader σ) {s : Sink} {b : MasterBundle}
    (hnext : ∀ n, s.expected = some n → b.seqno = n) (w : Contested σ refuses) :
    Receives read s b w (perform (s.takeIn read.contested b) w) := by
  unfold takeIn
  rw [perform_bind, perform_get]
  rcases hl : s.linker.handle w.store.findSource b with ⟨fault | ms, linker⟩
  · exact .unlinked hl
  · obtain ⟨r, p, he, -⟩ := perform_readPayloads read ms w
    rw [perform_bind, he]
    cases r with
    | error fault => exact .unread hl he
    | ok rows =>
      simp only
      split
      · exact .flushed hnext hl he (flushes_flush _ _)
      · exact .waiting hnext hl he

theorem receives_handle (read : PayloadReader σ) (s : Sink) (b : MasterBundle)
    (w : Contested σ refuses) : Receives read s b w (perform (s.handle read.contested b) w) := by
  by_cases hnext : ∀ n, s.expected = some n → b.seqno = n
  · rw [handle_eq_takeIn _ hnext]
    exact receives_takeIn read hnext w
  · push Not at hnext
    obtain ⟨expected, he, hne⟩ := hnext
    have hrun : perform (s.handle read.contested b) w =
        ((.error (.outOfOrder b.seqno expected), s), w) := by
      simp [handle, he, hne]
    rw [hrun]
    exact .outOfOrder he hne

end Sink

end ShardIndex
