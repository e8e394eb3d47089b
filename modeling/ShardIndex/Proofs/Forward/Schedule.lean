import ShardIndex.Proofs.Forward.Labels
import ShardIndex.Proofs.Forward.MessageRows
import ShardIndex.Proofs.Forward.Run
/-!
# The schedule does not show in the store

How bundles are batched, which commits are refused, when the sink is flushed or restarted and what the
linker gives up: none of it shows in the committed rows. Two stores that hold the same bundles have the
same rows (`Store.Holds.sameRows`), provided that the reader's answers depend on the message only; and a
run without refusals commits as many bundles as it is fed with, if another run could commit them
(`straight_feeds`). So after any run the store is that of the straight run over the committed bundles
(`ForwardState.sameRows_straight`).
-/
namespace ShardIndex

open Message Bundles

variable {σ : Type} {read : PayloadReader σ} {H P : List MasterBundle}

/-! ## Equal rows -/

/-- The answers of the reader depend on the message only. -/
def PayloadReader.Pure (read : PayloadReader σ) : Prop :=
  ∀ m p q, ((read m).run p).1 = ((read m).run q).1

/-- The same rows; the order may differ in the message table only. -/
structure Store.SameRows (s s' : Store) : Prop where
  blocks : s.blocks = s'.blocks
  accounts : s.accounts = s'.accounts
  transactions : s.transactions = s'.transactions
  messages : s.messages.Perm s'.messages
  message? : ∀ k, s.message? k = s'.message? k

theorem PayloadReader.Pure.rightUnique (hp : read.Pure) : Relator.RightUnique (Stored read id) := by
  rintro e m m' ⟨e₁, h₁, p, hm⟩ ⟨e₂, h₂, q, hm'⟩
  have he : e₁ = e₂ := h₁.trans h₂.symm
  rw [he, hp e₂ p q] at hm
  exact Except.ok.inj (hm.symm.trans hm')

/-- The records of an external message, in order. -/
theorem Linker.Lists.filter_external {recs : List Message} {k : Hash}
    (h : Linker.Lists recs (Bundles.externals P) ((inbound P).map (complete H)))
    (hk : ∀ i ∈ inbound P, i.hash ≠ k) :
    recs.filter (fun m => m.hash == k) = (Bundles.externals P).filter fun m => m.hash == k := by
  rw [← h.externals, List.filter_filter]
  refine List.filter_congr ?_
  intro m hm
  cases hmi : m.isInternal with
  | false => simp
  | true =>
    have hmem := h.internals.subset (List.mem_filter.2 ⟨hm, hmi⟩)
    obtain ⟨i, hi, rfl⟩ := List.mem_map.1 hmem
    have hne := hk i hi
    simp [hne]

/-- The records of one message do not depend on the order in which records came out. -/
theorem filter_records_eq (hH : BundleHistory H) (hP : P.Sublist H) {recs recs' : List Message}
    (h : Linker.Lists recs (Bundles.externals P) ((inbound P).map (complete H)))
    (h' : Linker.Lists recs' (Bundles.externals P) ((inbound P).map (complete H))) (k : Hash) :
    recs.filter (fun m => m.hash == k) = recs'.filter fun m => m.hash == k := by
  by_cases hin : ∃ i ∈ inbound P, i.hash = k
  · obtain ⟨i, hi, rfl⟩ := hin
    have hk : ∀ m ∈ records P, m.hash = i.hash → m.isInternal := by
      intro m hm e
      exact hH.isInternal_of_inbound ((inbound_sublist hP).subset hi) ((records_sublist hP).subset hm) e
    have hone := filter_hash_eq_singleton (hH.nodup_inbound.sublist ((inbound_sublist hP).map _)) hi
    have hp := h.filter_internal hk
    have hp' := h'.filter_internal hk
    rw [hone, List.map_singleton, List.perm_singleton] at hp hp'
    rw [hp, hp']
  · have hno : ∀ i ∈ inbound P, i.hash ≠ k := by
      intro i hi e
      exact hin ⟨i, hi, e⟩
    rw [h.filter_external hno, h'.filter_external hno]

/-- What a store holds decides its rows. -/
theorem Store.Holds.sameRows (hH : BundleHistory H) (hL : LabelledHistory H) (hp : read.Pure)
    (hP : P.Sublist H) {s s' : Store} (h : s.Holds read id H P) (h' : s'.Holds read id H P) :
    s.SameRows s' := by
  have hv := hL.recovers_id hH
  obtain ⟨rows, ⟨recs, hl, hr⟩, e⟩ := h.messages
  obtain ⟨rows', ⟨recs', hl', hr'⟩, e'⟩ := h'.messages
  have hfind : ∀ k, s.messages.find? (fun m => m.hash == k) = s'.messages.find? fun m => m.hash == k := by
    intro k
    have hf := Covers.filter_hash hv hr k
    have hf' := Covers.filter_hash hv hr' k
    rw [filter_records_eq hH hP hl hl' k] at hf
    rw [e, e', keeps_putMessage.find?_foldl, keeps_putMessage.find?_foldl,
      hp.rightUnique.forall₂ hf hf']
  exact {
    blocks := h.tables.blocks.trans h'.tables.blocks.symm
    accounts := h.tables.accounts.trans h'.tables.accounts.symm
    transactions := h.tables.transactions.trans h'.tables.transactions.symm
    messages := by
      refine Rows.perm_of_find?_eq ?_ ?_ hfind
      · rw [e]
        exact keeps_putMessage.nodup_foldl rows [] (by simp)
      · rw [e']
        exact keeps_putMessage.nodup_foldl rows' [] (by simp)
    message? := hfind }

/-! ## A run without refusals -/

/-- Nothing in the bundle stops a sink: its inbound records have a source or are exempt, and its
messages can be read. -/
structure Welcome (read : PayloadReader σ) (H : List MasterBundle) (b : MasterBundle) : Prop where
  accepted : Accepted H [b]
  external : ∀ e ∈ externals [b], ∃ m, Sink.Yields read e m
  internal : ∀ i ∈ inbound [b], ∃ m, Sink.Yields read (complete H i) m

/-- What is committed was not stopped. -/
theorem Store.Holds.welcome {s : Store} (h : s.Holds read id H P) {b : MasterBundle} (hb : b ∈ P) :
    Welcome read H b := by
  obtain ⟨rows, ⟨recs, hl, hr⟩, -⟩ := h.messages
  have hsub := List.singleton_sublist.2 hb
  have hyields : ∀ e ∈ recs, ∃ m, Sink.Yields read e m := by
    intro e he
    obtain ⟨m, -, e', hview, hy⟩ := exists_of_forall₂ hr he
    obtain rfl : e' = e := hview
    exact ⟨m, hy⟩
  refine ⟨?_, ?_, ?_⟩
  · intro i hi
    exact h.accepted i ((inbound_sublist hsub).subset hi)
  · intro e he
    have hmem : e ∈ externals P := ((records_sublist hsub).filter _).subset he
    rw [← hl.externals] at hmem
    exact hyields e (List.mem_filter.1 hmem).1
  · intro i hi
    have hmem := List.mem_map_of_mem (f := complete H) ((inbound_sublist hsub).subset hi)
    exact hyields _ (List.mem_filter.1 (hl.internals.symm.subset hmem)).1

theorem Sink.Yields.not_rejects (hp : read.Pure) {e m : Message} (h : Yields read e m) :
    ¬ Rejects read e := by
  rintro ⟨q, fault, hr⟩
  obtain ⟨p, hy⟩ := h
  rw [hp e p q, hr] at hy
  cases hy

theorem Sink.Flushed.straight {s : Sink} {store : Store} {r : (Except Fault Unit × Sink) × Store}
    (h : Flushed s store r) (hr : store.refusals = 0) : r.1.1 = .ok () ∧ r.2.refusals = 0 := by
  cases h with
  | nothing => exact ⟨rfl, hr⟩
  | committed => exact ⟨rfl, store.committed_refusals _⟩
  | refused last hlast hlt => omega

/-- A welcome bundle is taken in. -/
theorem Sink.Handled.straight (hH : BundleHistory H) (hL : LabelledHistory H) (hp : read.Pure) {c p : Nat}
    {s : Sink} {store : Store} {b : MasterBundle} {r : (Except Fault Unit × Sink) × Store}
    (hf : s.Follows read id H c p) (hs : store.Holds read id H (H.take c)) (hb : H[p]? = some b)
    (hw : Welcome read H b) (h : Handled read s b store r) (hr : store.refusals = 0) :
    r.1.1 = .ok () ∧ r.2.refusals = 0 := by
  obtain ⟨ms, hms, hlists⟩ := hf.linker.handle_accepted hH hs.tables hf.le hb hw.accepted
  have hread : ∀ m ∈ ms, ¬ Rejects read m := by
    intro m hm
    cases hmi : m.isInternal with
    | false =>
      have hex : m ∈ externals [b] := by
        rw [externals_singleton, ← hlists.externals]
        exact List.mem_filter.2 ⟨hm, by simp [hmi]⟩
      obtain ⟨row, hy⟩ := hw.external m hex
      exact hy.not_rejects hp
    | true =>
      obtain ⟨i, hi, rfl⟩ := List.mem_map.1 (hlists.internals.subset (List.mem_filter.2 ⟨hm, hmi⟩))
      have hview : Linker.settle _ store.findSource i = complete H i :=
        hf.linker.view_settle hH (hL.recovers_id hH) hs.tables hf.le hb hi
      rw [hview]
      obtain ⟨row, hy⟩ := hw.internal i (by simpa using hi)
      exact hy.not_rejects hp
  cases h with
  | unlinked fault l hl =>
    rw [hms] at hl
    cases hl
  | unread ms' l fault hl hm =>
    rw [hms] at hl
    obtain ⟨hok, rfl⟩ := Prod.mk.inj hl
    obtain rfl := Except.ok.inj hok
    obtain ⟨m, hm, hrej⟩ := hm
    exact absurd hrej (hread m hm)
  | waiting => exact ⟨rfl, hr⟩
  | flushed ms' rows l hl hrows hflush => exact hflush.straight hr

namespace ForwardState

/-- The run is on its way, and nothing is going to be refused. -/
structure Straight (f : ForwardState σ) (n : Nat) : Prop where
  sink : f.sink.isSome
  next : f.next = n
  refusals : f.store.refusals = 0

theorem straight_feed (hH : BundleHistory H) (hL : LabelledHistory H) (hp : read.Pure)
    {f : ForwardState σ} {c n : Nat} (h : f.Good read id H c) (hf : f.Straight n) {b : MasterBundle}
    (hb : H[n]? = some b) (hw : Welcome read H b) : (step read H f .feed).Straight (n + 1) := by
  obtain ⟨s, hs⟩ := Option.isSome_iff_exists.1 hf.sink
  have hfollows := h.sink s hs
  rw [hf.next] at hfollows
  have hspec := Sink.takeIn_spec read s b f.store f.reader
  rw [← Sink.handle_eq_takeIn read.parser (hfollows.expected hH hb)] at hspec
  obtain ⟨hok, hr⟩ := hspec.straight hH hL hp hfollows h.store hb hw hf.refusals
  rcases he : exec (s.handle read.parser b) f.store f.reader with ⟨⟨⟨answer, s'⟩, store⟩, reader⟩
  rw [he] at hok hr
  obtain rfl : answer = .ok () := hok
  simp only [step, hs, hf.next, hb, feed, he, goesOn, if_true]
  exact ⟨rfl, rfl, hr⟩

/-- As many bundles as are fed are taken in. -/
theorem straight_feeds (hH : BundleHistory H) (hL : LabelledHistory H) (hp : read.Pure) {m : Nat}
    (hm : m ≤ H.length) (hw : ∀ b ∈ H.take m, Welcome read H b) :
    ∀ (n j : Nat) (f : ForwardState σ) (c : Nat), j + n ≤ m → f.Good read id H c → f.Straight j →
      ∃ c', ((List.replicate n .feed).foldl (step read H) f).Good read id H c' ∧
        ((List.replicate n .feed).foldl (step read H) f).Straight (j + n)
  | 0, _, _, c, _, h, hf => ⟨c, h, hf⟩
  | n + 1, j, f, c, hj, h, hf => by
    obtain ⟨b, hb⟩ : ∃ b, H[j]? = some b := ⟨H[j], List.getElem?_eq_getElem (by omega)⟩
    have hmem : b ∈ H.take m := by
      refine List.mem_of_getElem? (i := j) ?_
      rw [List.getElem?_take, if_pos (by omega), hb]
    obtain ⟨c', -, h'⟩ := good_step hH (hL.recovers_id hH) h .feed
    have hf' := straight_feed hH hL hp h hf hb (hw b hmem)
    obtain ⟨c₂, h₂, hf₂⟩ := straight_feeds hH hL hp hm hw n (j + 1) _ c' (by omega) h' hf'
    rw [Nat.add_right_comm] at hf₂
    exact ⟨c₂, h₂, hf₂⟩

/-- A flush that is not refused leaves nothing behind. -/
theorem straight_flush {f : ForwardState σ} {c n : Nat} (h : f.Good read id H c) (hf : f.Straight n) :
    (step read H f .flush).store.Holds read id H (H.take n) := by
  obtain ⟨s, hs⟩ := Option.isSome_iff_exists.1 hf.sink
  have hfollows := h.sink s hs
  rw [hf.next] at hfollows
  have hspec := Sink.flush_spec s f.store f.reader
  rcases he : exec (s.flush : ForwardM σ _) f.store f.reader with ⟨⟨⟨answer, s'⟩, store⟩, reader⟩
  rw [he] at hspec
  simp only [step, hs, he]
  have hall := take_append_drop_take hfollows.le H
  cases hspec with
  | nothing hnil =>
    have hdrop : (H.take n).drop c = [] := by
      rw [hfollows.batch.masters, List.map_eq_nil_iff] at hnil
      exact hnil
    rw [← hall, hdrop, List.append_nil]
    exact h.store
  | committed last hlast hr =>
    rw [← hall]
    exact h.store.commit hfollows.batch
  | refused last hlast hr =>
    have := hf.refusals
    omega

/-- After any run the store has the rows of the straight run over the committed bundles: all of them
fed to one sink, nothing refused, and the batch flushed in the end. -/
theorem sameRows_straight (hH : BundleHistory H) (hL : LabelledHistory H) (hp : read.Pure) (p q : σ)
    (events : List ForwardEvent) (config : BatchConfig) (capacity : Nat) :
    let s := (run read H p events).store
    let n := committedOf H s
    s.lastMaster.map (·.id.seqno) = (H.take n).getLast?.map (·.seqno) ∧
    s.SameRows
      (run read H q (.restart config capacity :: List.replicate n .feed ++ [.flush])).store := by
  intro s n
  have hv := hL.recovers_id hH
  obtain ⟨c, hgood⟩ := good_run read hH hv p events
  have hn : n = c := committedOf_eq hH hgood.le_length hgood.store.tables
  rw [hn]
  refine ⟨hgood.store.tables.seqno_lastMaster hH, ?_⟩
  obtain ⟨c₁, -, h₁⟩ := good_step hH hv (Good.start read id H q) (.restart config capacity)
  have hf₁ : (step read H { reader := q } (.restart config capacity)).Straight 0 := ⟨rfl, rfl, rfl⟩
  obtain ⟨c₂, h₂, hf₂⟩ := straight_feeds hH hL hp hgood.le_length
    (fun b hb => hgood.store.welcome hb) c 0 _ c₁ (by omega) h₁ hf₁
  rw [Nat.zero_add] at hf₂
  have hholds := straight_flush h₂ hf₂
  refine hgood.store.sameRows hH hL hp (List.take_sublist c H) ?_
  rw [run, List.cons_append, List.foldl_cons, List.foldl_append]
  exact hholds

/-- The sample history, with a refused commit, a restart, and nothing retained. -/
theorem sameRows_straight_sample :
    let read : PayloadReader Unit := fun _ => pure (.error .notAvailable)
    let s := (run read Sample.history ()
      [.restart ⟨1, 0, 0⟩ 0, .feed, .refuse 1, .feed, .restart ⟨1, 0, 0⟩ 0, .feed]).store
    s.lastMaster.map (·.id.seqno) = some 2 ∧
    s.SameRows (run read Sample.history () [.restart ⟨3, 0, 0⟩ 8, .feed, .feed, .flush]).store := by
  intro read s
  have hpure : read.Pure := by
    intro m p q
    rfl
  obtain ⟨hlast, hrows⟩ := sameRows_straight bundleHistory_sample labelledHistory_sample hpure () ()
    [.restart ⟨1, 0, 0⟩ 0, .feed, .refuse 1, .feed, .restart ⟨1, 0, 0⟩ 0, .feed] ⟨3, 0, 0⟩ 8
  have hn : committedOf Sample.history s = 2 := by
    decide +kernel
  rw [hn] at hlast hrows
  exact ⟨hlast, hrows⟩

end ForwardState

end ShardIndex
