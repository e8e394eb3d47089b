import ShardIndex.Proofs.Forward.Holdings
/-!
# Rows of one message

The message table is keyed by digest, so what it says about a message follows from the rows of that
message alone. They are made of the records of that message (`Covers.filter_hash`), and an internal
message has at most one: its completed inbound record (`Linker.Lists.filter_internal`). So the table has
a row of an internal message exactly if the message was received (`message?_of_inbound`,
`inbound_of_message?`).
-/
namespace ShardIndex

open Message Bundles

variable {σ : Type} {read : PayloadReader σ} {view : Message → Message} {H : List MasterBundle}

/-- A message that has one record is found once. -/
theorem filter_hash_eq_singleton {ms : List Message} {m : Message} (hn : (ms.map (·.hash)).Nodup)
    (hm : m ∈ ms) : ms.filter (fun x => x.hash == m.hash) = [m] := by
  have hperm := (Linker.perm_cons_dropMessage hn hm).filter fun x => x.hash == m.hash
  have hrest : (Linker.dropMessage m.hash ms).filter (fun x => x.hash == m.hash) = [] := by
    refine List.filter_eq_nil_iff.2 ?_
    intro x hx
    simpa using (Linker.mem_dropMessage.1 hx).2
  rw [List.filter_cons, hrest] at hperm
  simpa using hperm

theorem Stored.hash (hv : Recovers view H) {e m : Message} (h : Stored read view e m) :
    m.hash = e.hash := by
  obtain ⟨e', hview, p, hy⟩ := h
  have he : e'.hash = e.hash := by rw [← hv.hash e', hview, hv.hash e]
  rw [← he]
  unfold absorb at hy
  split at hy <;> cases hy <;> rfl

/-- The rows of one message are made of its records. -/
theorem Covers.filter_hash (hv : Recovers view H) {records rows : List Message}
    (h : List.Forall₂ (Stored read view) records rows) (k : Hash) :
    List.Forall₂ (Stored read view) (records.filter fun m => m.hash == k)
      (rows.filter fun m => m.hash == k) := by
  refine List.rel_filter ?_ h
  intro e m hem
  simp only [hem.hash hv]

/-- The records of an internal message in what is committed: the completed inbound one, if any. -/
theorem Linker.Lists.filter_internal {P : List MasterBundle} {recs : List Message} {k : Hash}
    (h : Linker.Lists recs (Bundles.externals P) ((inbound P).map (complete H)))
    (hk : ∀ m ∈ records P, m.hash = k → m.isInternal) :
    (recs.filter fun m => m.hash == k).Perm
      (((inbound P).filter fun i => i.hash == k).map (complete H)) := by
  have hint : recs.filter (fun m => m.hash == k) =
      (recs.filter isInternal).filter fun m => m.hash == k := by
    rw [List.filter_filter]
    refine List.filter_congr ?_
    intro m hm
    cases hmi : m.isInternal with
    | true => simp
    | false =>
      have hex : m ∈ Bundles.externals P := by
        rw [← h.externals]
        exact List.mem_filter.2 ⟨hm, by simp [hmi]⟩
      have hne : m.hash ≠ k := by
        intro e
        have := hk m (List.mem_filter.1 hex).1 e
        rw [hmi] at this
        cases this
      simp [hne]
  have hcomp : ((fun m : Message => m.hash == k) ∘ complete H) = fun i => i.hash == k := by
    funext i
    simp
  have hperm := h.internals.filter fun m => m.hash == k
  rw [List.filter_map, hcomp] at hperm
  rw [hint]
  exact hperm

variable {s : Store} {c : Nat} {k : Hash}

/-- An internal message that was received has a row, made of its completed record. -/
theorem Store.Holds.message?_of_inbound (hs : s.Holds read view H (H.take c)) (hH : BundleHistory H)
    (hv : Recovers view H) {i : Message} (hi : i ∈ inbound (H.take c)) :
    ∃ m, s.message? i.hash = some m ∧ Stored read view (complete H i) m := by
  have hP := List.take_sublist c H
  obtain ⟨rows, ⟨recs, hlists, hrows⟩, hmsgs⟩ := hs.messages
  have hk : ∀ m ∈ records (H.take c), m.hash = i.hash → m.isInternal := by
    intro m hm e
    exact hH.isInternal_of_inbound ((inbound_sublist hP).subset hi) ((records_sublist hP).subset hm) e
  have hrecs := hlists.filter_internal hk
  rw [filter_hash_eq_singleton (hH.nodup_inbound.sublist ((inbound_sublist hP).map _)) hi,
    List.map_singleton, List.perm_singleton] at hrecs
  have hfilter := Covers.filter_hash hv hrows i.hash
  rw [hrecs] at hfilter
  obtain ⟨m, rest, hm, hnil, he⟩ := List.forall₂_cons_left_iff.1 hfilter
  obtain rfl := List.forall₂_nil_left_iff.1 hnil
  refine ⟨m, ?_, hm⟩
  rw [message?, hmsgs, keeps_putMessage.find?_foldl, he]
  rfl

/-- A row of an internal message is the row of an inbound record. -/
theorem Store.Holds.inbound_of_message? (hs : s.Holds read view H (H.take c))
    (hv : Recovers view H) (hk : ∀ m ∈ records H, m.hash = k → m.isInternal) {m : Message}
    (hm : s.message? k = some m) : ∃ i ∈ inbound (H.take c), i.hash = k := by
  have hP := List.take_sublist c H
  obtain ⟨rows, ⟨recs, hlists, hrows⟩, hmsgs⟩ := hs.messages
  have hrecs := hlists.filter_internal fun m hm e => hk m ((records_sublist hP).subset hm) e
  have hfilter := Covers.filter_hash hv hrows k
  rw [message?, hmsgs, keeps_putMessage.find?_foldl, List.find?_nil, Option.or_none] at hm
  cases hin : (inbound (H.take c)).filter fun i => i.hash == k with
  | nil =>
    rw [hin, List.map_nil, List.perm_nil] at hrecs
    rw [hrecs, List.forall₂_nil_left_iff] at hfilter
    rw [hfilter] at hm
    cases hm
  | cons i rest =>
    have hi : i ∈ (inbound (H.take c)).filter fun i => i.hash == k := hin ▸ List.mem_cons_self
    exact ⟨i, (List.mem_filter.1 hi).1, by simpa using (List.mem_filter.1 hi).2⟩

end ShardIndex
