import ShardIndex.Proofs.Forward.Following
/-!
# Runs of the forward path

The forward path is fed with the bundles of a history, one after the other. Between two bundles
anything may happen to it (`ForwardEvent`): commits are going to be refused, the batch is flushed, the
sink is replaced by a fresh one that goes on after the last committed bundle. A fault other than a
failed commit takes the sink away until the next restart.

`ForwardState.Good` is the invariant. The store holds the data of the first `c` bundles; the sink, if
there is one, has taken in the first `next` bundles and its batch holds those that are missing in the
store. `good_step` says that every event keeps it, `good_run` that it holds after any run from the
empty store.
-/
namespace ShardIndex

open Message Bundles

variable {σ : Type}

/-- Something that happens to the forward path. -/
inductive ForwardEvent where
  /-- So many attempts to commit are going to be refused from now on. -/
  | refuse (attempts : Nat)
  /-- The next bundle comes. -/
  | feed
  /-- The batch is to be committed, full or not. -/
  | flush
  /-- A fresh sink goes on after the last committed bundle. -/
  | restart (config : BatchConfig) (capacity : Nat)

/-- The forward path between two events. -/
structure ForwardState (σ : Type) where
  store : Store := {}
  reader : σ
  /-- The sink, until a fault stops it. -/
  sink : Option Sink := none
  /-- How many bundles the sink was fed with or found committed. -/
  next : Nat := 0

namespace ForwardState

/-- Whether the sink goes on after it was fed: it does after a success, and after a failed commit,
which leaves it with the batch as it was. -/
def goesOn (b : MasterBundle) (s : Sink) : Except Fault Unit → Bool
  | .ok () => true
  | .error (.commitFailed _ _ _) => s.lastSeqno == some b.seqno
  | .error _ => false

/-- Feeds the sink with a bundle. -/
def feed (read : PayloadReader σ) (f : ForwardState σ) (b : MasterBundle) (s : Sink) : ForwardState σ :=
  match exec (s.handle read.parser b) f.store f.reader with
  | (((answer, s), store), reader) =>
    if goesOn b s answer then { store := store, reader := reader, sink := some s, next := f.next + 1 }
    else { store := store, reader := reader, sink := none, next := f.next }

/-- How many bundles of the history are committed, by the number of the last master block. -/
def committedOf (H : List MasterBundle) (store : Store) : Nat :=
  match store.lastMaster with
  | some last => H.findIdx (fun b => b.seqno == last.id.seqno) + 1
  | none => 0

/-- What an event does. Without a sink, or at the end of the history, there is nothing to feed. -/
def step (read : PayloadReader σ) (H : List MasterBundle) (f : ForwardState σ) :
    ForwardEvent → ForwardState σ
  | .refuse attempts => { f with store := { f.store with refusals := attempts } }
  | .feed =>
    match f.sink, H[f.next]? with
    | some s, some b => f.feed read b s
    | _, _ => f
  | .flush =>
    match f.sink with
    | some s =>
      match exec s.flush f.store f.reader with
      | (((_, s), store), reader) => { f with store := store, reader := reader, sink := some s }
    | none => f
  | .restart config capacity =>
    { f with
      sink := some (Sink.resume config capacity f.store)
      next := committedOf H f.store }

/-- A run from the empty store, with a reader in some state. -/
def run (read : PayloadReader σ) (H : List MasterBundle) (p : σ) (events : List ForwardEvent) :
    ForwardState σ :=
  events.foldl (step read H) { reader := p }

end ForwardState

/-! ## The invariant -/

variable (read : PayloadReader σ) (view : Message → Message) (H : List MasterBundle)

/-- The sink has taken in `p` bundles, of which `c` are committed. -/
structure Sink.Follows (s : Sink) (c p : Nat) : Prop where
  le : c ≤ p
  le_length : p ≤ H.length
  batch : s.batch.Holds read view H ((H.take p).drop c)
  last : s.lastSeqno = (H.take p).getLast?.map (·.seqno)
  linker : s.linker.Follows H c p

/-- The store holds `c` bundles, and the sink goes on from there. -/
structure ForwardState.Good (f : ForwardState σ) (c : Nat) : Prop where
  le_length : c ≤ H.length
  store : f.store.Holds read view H (H.take c)
  sink : ∀ s, f.sink = some s → s.Follows read view H c f.next

variable {read view H}

theorem Sink.toNat_successor {a b : UInt32} (h : b.toNat = a.toNat + 1) : successor a = b := by
  have hb := b.toNat_lt
  have ha : a ≠ UInt32.ofNat (UInt32.size - 1) := by
    intro e
    rw [e] at h
    simp at h
    omega
  rw [successor, if_neg ha]
  refine UInt32.toNat_inj.1 ?_
  rw [UInt32.toNat_add, h]
  simp
  omega

namespace Sink.Follows

variable {s : Sink} {store : Store} {c p : Nat} {x : MasterBundle}

/-- The last bundle that was taken in is the one before the next. -/
theorem toNat_lastSeqno (h : s.Follows read view H c p) (hH : BundleHistory H) (hx : H[p]? = some x)
    {n : UInt32} (hn : s.lastSeqno = some n) : x.seqno.toNat = n.toNat + 1 := by
  obtain ⟨first, hfirst⟩ := hH.consecutive
  rw [h.last, Option.map_eq_some_iff] at hn
  obtain ⟨b, hb, rfl⟩ := hn
  have hlen := (List.getElem?_eq_some_iff.1 hx).1
  rw [List.getLast?_eq_getElem?, List.getElem?_take, List.length_take,
    Nat.min_eq_left h.le_length] at hb
  have hp : 0 < p := by
    refine Nat.pos_of_ne_zero ?_
    rintro rfl
    simp at hb
  rw [if_pos (by omega)] at hb
  have := hfirst _ b hb
  have := hfirst p x hx
  omega

/-- The next bundle is the one that the sink expects. -/
theorem expected (h : s.Follows read view H c p) (hH : BundleHistory H) (hx : H[p]? = some x) (n : UInt32)
    (hn : s.expected = some n) : x.seqno = n := by
  obtain ⟨m, hm, rfl⟩ := Option.map_eq_some_iff.1 hn
  exact (toNat_successor (h.toNat_lastSeqno hH hx hm)).symm

/-- A fresh sink goes on after the committed bundles. -/
theorem resume (hH : BundleHistory H) (hc : c ≤ H.length) (hs : store.Tables (H.take c))
    (config : BatchConfig) (capacity : Nat) :
    (Sink.resume config capacity store).Follows read view H c c where
  le := Nat.le_refl c
  le_length := hc
  batch := by
    rw [List.drop_eq_nil_of_le (List.length_take_le c H)]
    exact .empty
  last := hs.seqno_lastMaster hH
  linker := Linker.Follows.fresh capacity _ (hs.startLt_firstMaster hH)

/-- The sink takes in the next bundle. -/
theorem taken (h : s.Follows read view H c p) (hH : BundleHistory H) (hv : Recovers view H)
    (hs : store.Tables (H.take c)) (hx : H[p]? = some x) {ms rows : List Message} {l : Linker}
    (hms : s.linker.handle store.findSource x = (.ok ms, l))
    (hrows : List.Forall₂ (Sink.Yields read) ms rows) :
    (s.taken x l rows).Follows read view H c (p + 1) := by
  have hacc := h.linker.accepted_of_handle hH hs h.le hx hms
  obtain ⟨rfl, hcov⟩ := h.linker.covers_of_handle hH hv hs h.le hx hms hrows
  refine ⟨?_, ?_, ?_, ?_, h.linker.afterBlock hH h.le hx⟩
  · exact Nat.le_succ_of_le h.le
  · exact (List.getElem?_eq_some_iff.1 hx).1
  · rw [Linker.take_succ_eq hx, List.drop_append_of_le_length (Linker.le_length_take h.le hx)]
    exact h.batch.add hcov hacc
  · rw [Linker.take_succ_eq hx, List.getLast?_concat]
    rfl

/-- Flushing commits the whole batch or nothing. -/
theorem flushed (h : s.Follows read view H c p) (hs : store.Holds read view H (H.take c))
    {r : (Except Fault Unit × Sink) × Store} (hr : Flushed s store r) :
    ∃ c', c ≤ c' ∧ c' ≤ H.length ∧ r.2.Holds read view H (H.take c') ∧
      r.1.2.Follows read view H c' p := by
  have hcl := Nat.le_trans h.le h.le_length
  cases hr with
  | nothing => exact ⟨c, Nat.le_refl c, hcl, hs, h⟩
  | committed last hlast hr =>
    refine ⟨p, h.le, h.le_length, ?_, Nat.le_refl p, h.le_length, ?_, h.last, h.linker.prune last⟩
    · rw [← take_append_drop_take h.le]
      exact hs.commit h.batch
    · rw [List.drop_eq_nil_of_le (List.length_take_le p H)]
      exact .empty
  | refused last hlast hr => exact ⟨c, Nat.le_refl c, hcl, hs.withRefusals _, h⟩

/-- Whatever the next bundle comes to, the store is as good as before; and so is the sink, if it goes
on. -/
theorem handled (h : s.Follows read view H c p) (hH : BundleHistory H) (hv : Recovers view H)
    (hs : store.Holds read view H (H.take c)) (hx : H[p]? = some x)
    {r : (Except Fault Unit × Sink) × Store} (hr : Handled read s x store r) :
    ∃ c', c ≤ c' ∧ c' ≤ H.length ∧ r.2.Holds read view H (H.take c') ∧
      (ForwardState.goesOn x r.1.2 r.1.1 → r.1.2.Follows read view H c' (p + 1)) := by
  have hstop : ∀ (fault : Fault) (l : Linker),
      ¬ ForwardState.goesOn x { s with linker := l } (.error fault) := by
    intro fault l hgo
    unfold ForwardState.goesOn at hgo
    split at hgo
    · contradiction
    · have := h.toNat_lastSeqno hH hx (beq_iff_eq.1 hgo)
      omega
    · contradiction
  have hcl := Nat.le_trans h.le h.le_length
  cases hr with
  | unlinked fault l hl =>
    exact ⟨c, Nat.le_refl c, hcl, hs, fun hgo => absurd hgo (hstop fault l)⟩
  | unread ms l fault hl hm =>
    exact ⟨c, Nat.le_refl c, hcl, hs, fun hgo => absurd hgo (hstop fault l)⟩
  | waiting ms rows l hl hrows =>
    exact ⟨c, Nat.le_refl c, hcl, hs, fun _ => h.taken hH hv hs.tables hx hl hrows⟩
  | flushed ms rows l hl hrows hr =>
    obtain ⟨c', hc', hcl', hs', hf⟩ := (h.taken hH hv hs.tables hx hl hrows).flushed hs hr
    exact ⟨c', hc', hcl', hs', fun _ => hf⟩

end Sink.Follows

namespace ForwardState

variable {f : ForwardState σ} {c : Nat}

/-- The number of the last master block tells how many bundles are committed. -/
theorem committedOf_eq {store : Store} (hH : BundleHistory H) (hc : c ≤ H.length)
    (hs : store.Tables (H.take c)) : committedOf H store = c := by
  have hlast := hs.seqno_lastMaster hH
  unfold committedOf
  cases hl : store.lastMaster with
  | none =>
    rw [hl, Option.map_none, eq_comm, Option.map_eq_none_iff, List.getLast?_eq_none_iff,
      List.take_eq_nil_iff] at hlast
    rcases hlast with rfl | rfl
    · rfl
    · exact (Nat.le_zero.1 hc).symm
  | some last =>
    rw [hl, Option.map_some, eq_comm, Option.map_eq_some_iff] at hlast
    obtain ⟨b, hb, hbs⟩ := hlast
    rw [List.getLast?_eq_getElem?, List.getElem?_take, List.length_take, Nat.min_eq_left hc] at hb
    have hpos : 0 < c := by
      refine Nat.pos_of_ne_zero ?_
      rintro rfl
      simp at hb
    rw [if_pos (by omega)] at hb
    have hidx : H.findIdx (fun b => b.seqno == last.id.seqno) = c - 1 := by
      obtain ⟨hlt, hget⟩ := List.getElem?_eq_some_iff.1 hb
      rw [List.findIdx_eq hlt]
      refine ⟨by simp [hget, hbs], ?_⟩
      intro j hj
      obtain ⟨first, hfirst⟩ := hH.consecutive
      have hbn := hfirst _ b hb
      have hjn := hfirst j H[j] (List.getElem?_eq_getElem (by omega))
      rw [beq_eq_false_iff_ne]
      intro e
      rw [e, ← hbs] at hjn
      omega
    simp only [hidx]
    omega

theorem good_feed (hH : BundleHistory H) (hv : Recovers view H) (h : f.Good read view H c) {s : Sink}
    {b : MasterBundle} (hs : f.sink = some s) (hb : H[f.next]? = some b) :
    ∃ c', c ≤ c' ∧ (f.feed read b s).Good read view H c' := by
  have hf := h.sink s hs
  have hspec := Sink.takeIn_spec read s b f.store f.reader
  rw [← Sink.handle_eq_takeIn read.parser (hf.expected hH hb)] at hspec
  obtain ⟨c', hc', hcl', hstore, hgo⟩ := hf.handled hH hv h.store hb hspec
  refine ⟨c', hc', ?_⟩
  rcases hr : exec (s.handle read.parser b) f.store f.reader with ⟨⟨⟨answer, s'⟩, store⟩, reader⟩
  rw [hr] at hstore hgo
  simp only [feed, hr]
  by_cases hg : goesOn b s' answer
  · rw [if_pos hg]
    exact ⟨hcl', hstore, fun t ht => Option.some.inj ht ▸ hgo hg⟩
  · rw [if_neg hg]
    refine ⟨hcl', hstore, ?_⟩
    intro t ht
    cases ht

/-- Every event keeps the invariant, and takes no bundle out of the store. -/
theorem good_step (hH : BundleHistory H) (hv : Recovers view H) (h : f.Good read view H c)
    (e : ForwardEvent) : ∃ c', c ≤ c' ∧ (step read H f e).Good read view H c' := by
  cases e with
  | refuse attempts =>
    exact ⟨c, Nat.le_refl c, h.le_length, h.store.withRefusals attempts, h.sink⟩
  | feed =>
    cases hs : f.sink with
    | none => exact ⟨c, Nat.le_refl c, by simpa only [step, hs] using h⟩
    | some s =>
      cases hb : H[f.next]? with
      | none => exact ⟨c, Nat.le_refl c, by simpa only [step, hs, hb] using h⟩
      | some b =>
        simp only [step, hs, hb]
        exact good_feed hH hv h hs hb
  | flush =>
    cases hs : f.sink with
    | none => exact ⟨c, Nat.le_refl c, by simpa only [step, hs] using h⟩
    | some s =>
      have hspec := Sink.flush_spec s f.store f.reader
      obtain ⟨c', hc', hcl', hstore, hf⟩ := (h.sink s hs).flushed h.store hspec
      refine ⟨c', hc', ?_⟩
      rcases hr : exec (s.flush : ForwardM σ _) f.store f.reader with ⟨⟨⟨answer, s'⟩, store⟩, reader⟩
      rw [hr] at hstore hf
      simp only [step, hs, hr]
      exact ⟨hcl', hstore, fun t ht => Option.some.inj ht ▸ hf⟩
  | restart config capacity =>
    refine ⟨c, Nat.le_refl c, h.le_length, h.store, ?_⟩
    intro s hs
    obtain rfl := Option.some.inj hs
    have hnext : committedOf H f.store = c := committedOf_eq hH h.le_length h.store.tables
    simp only [step, hnext]
    exact Sink.Follows.resume hH h.le_length h.store.tables config capacity

theorem good_foldl (hH : BundleHistory H) (hv : Recovers view H) :
    ∀ (events : List ForwardEvent) (f : ForwardState σ) (c : Nat), f.Good read view H c →
      ∃ c', c ≤ c' ∧ (events.foldl (step read H) f).Good read view H c'
  | [], _, c, h => ⟨c, Nat.le_refl c, h⟩
  | e :: events, f, c, h => by
    obtain ⟨c₁, hc₁, h₁⟩ := good_step hH hv h e
    obtain ⟨c₂, hc₂, h₂⟩ := good_foldl hH hv events _ c₁ h₁
    exact ⟨c₂, Nat.le_trans hc₁ hc₂, h₂⟩

theorem Good.start (read : PayloadReader σ) (view : Message → Message) (H : List MasterBundle) (p : σ) :
    ({ reader := p } : ForwardState σ).Good read view H 0 where
  le_length := Nat.zero_le _
  store := .empty 0
  sink := by
    intro s hs
    cases hs

/-- After any run the store holds the data of the first so many bundles. -/
theorem good_run (read : PayloadReader σ) (hH : BundleHistory H) (hv : Recovers view H) (p : σ)
    (events : List ForwardEvent) : ∃ c, (run read H p events).Good read view H c := by
  obtain ⟨c, -, h⟩ := good_foldl hH hv events _ 0 (Good.start read view H p)
  exact ⟨c, h⟩

end ForwardState

end ShardIndex
