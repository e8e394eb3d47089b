import ShardIndex.Proofs.Forward.Holdings
/-!
# A linker on its way through a history

`Linker.Follows H c p` is the invariant of the linker: `c` bundles are committed, `p` bundles were
taken in. Its heart is `waits`: an outbound record that is neither committed nor delivered is
retained. So an inbound record of the next bundle has its source in one of two places, or the history
has none (`source_cases`), and what comes out has the view of the completed record
(`covers_of_handle`). Committed records may be given up at any time, and all of them are given up by a
restart.
-/
namespace ShardIndex

open Message Bundles

namespace Linker

/-- The linker has taken in `p` bundles of the history, of which `c` are committed. -/
structure Follows (l : Linker) (H : List MasterBundle) (c p : Nat) : Prop where
  unresolved : l.unresolved = []
  start : l.historyStart = firstLt (H.take p)
  subset : ∀ o ∈ l.retained, o ∈ outbound (H.take p)
  nodup : (l.retained.map (·.hash)).Nodup
  waits : ∀ o ∈ outbound ((H.take p).drop c),
    (∀ i ∈ inbound (H.take p), i.hash ≠ o.hash) → o ∈ l.retained

variable {H : List MasterBundle} {l : Linker} {c p : Nat} {x : MasterBundle}

theorem take_succ_eq (hx : H[p]? = some x) : H.take (p + 1) = H.take p ++ [x] := by
  rw [List.take_add_one, hx]
  rfl

theorem le_length_take (hc : c ≤ p) (hx : H[p]? = some x) : c ≤ (H.take p).length := by
  have := (List.getElem?_eq_some_iff.1 hx).1
  rw [List.length_take]
  omega

/-- The history starts with its first bundle. -/
theorem orElse_startLt (hx : H[p]? = some x) :
    (firstLt (H.take p) <|> some x.master.block.startLt) = firstLt H := by
  cases H with
  | nil => simp at hx
  | cons b H =>
    cases p with
    | zero =>
      obtain rfl : b = x := by simpa using hx
      rfl
    | succ p => rfl

theorem firstLt_take_succ (hx : H[p]? = some x) :
    firstLt (H.take (p + 1)) = firstLt H := by
  cases H with
  | nil => simp at hx
  | cons b H => rfl

theorem mem_inbound_of_next (hx : H[p]? = some x) {i : Message}
    (hi : i ∈ x.messages.filter isInbound) : i ∈ inbound H := by
  have hsub := inbound_sublist (List.singleton_sublist.2 (List.mem_of_getElem? hx))
  exact hsub.subset (by simpa using hi)

/-- The completed record that a record which comes out stands for. -/
def present (H : List MasterBundle) (m : Message) : Message :=
  if m.isInternal then (findMessage m.hash (inbound H)).elim m (complete H) else m

theorem present_external (H : List MasterBundle) {m : Message} (hm : m.isInternal = false) :
    present H m = m := by
  simp [present, hm]

theorem present_isInternal (H : List MasterBundle) (m : Message) :
    (present H m).isInternal = m.isInternal := by
  unfold present
  split
  · cases hf : findMessage m.hash (inbound H) with
    | none => rfl
    | some i =>
      have hi := (List.mem_filter.1 (mem_of_findMessage hf).1).2
      simp [isInternal_of_isInbound hi, *]
  · rfl

theorem present_settle (hH : BundleHistory H) {i : Message} (hi : i ∈ inbound H) (outs : List Message)
    (history : Hash → Option MessageSource) :
    present H (settle outs history i) = complete H i := by
  have hint : i.isInternal := isInternal_of_isInbound (List.mem_filter.1 hi).2
  rw [present, settle_isInternal, settle_hash, if_pos hint, findMessage_of_mem hH.nodup_inbound hi]
  rfl

namespace Follows

/-- A fresh linker after the committed bundles. -/
theorem fresh (capacity : Nat) (start : Option UInt64) (h : start = firstLt (H.take c)) :
    ({ capacity := capacity, historyStart := start } : Linker).Follows H c c where
  unresolved := rfl
  start := h
  subset := by
    intro o ho
    cases ho
  nodup := List.nodup_nil
  waits := by
    intro o ho
    rw [List.drop_eq_nil_of_le (List.length_take_le c H)] at ho
    cases ho

/-- Once everything is committed, any records may be given up. -/
theorem prune (h : l.Follows H c p) (n : UInt32) : (l.prune n).Follows H p p where
  unresolved := h.unresolved
  start := h.start
  subset := by
    intro o ho
    exact h.subset o (List.mem_filter.1 ho).1
  nodup := h.nodup.sublist (List.filter_sublist.map _)
  waits := by
    intro o ho
    rw [List.drop_eq_nil_of_le (List.length_take_le p H)] at ho
    cases ho

/-- The next bundle finds a linker in which no message waits twice. -/
theorem linkable (h : l.Follows H c p) (hH : BundleHistory H) (hx : H[p]? = some x) :
    Linkable l x.messages where
  unresolved := by
    rw [h.unresolved]
    intro m hm
    cases hm
  retained := by
    intro o ho
    exact (List.mem_filter.1 (h.subset o ho)).2
  apart := by
    rw [h.unresolved]
    intro i hi
    cases hi
  nodup_inbound := by
    have hsub : (inbound [x]).Sublist (inbound H) :=
      inbound_sublist (List.singleton_sublist.2 (List.mem_of_getElem? hx))
    rw [h.unresolved, List.nil_append, ← inbound_singleton]
    exact hH.nodup_inbound.sublist (hsub.map _)
  nodup_outbound := by
    have hall : ((outbound (H.take p ++ [x])).map (·.hash)).Nodup := by
      rw [← take_succ_eq hx]
      exact hH.nodup_outbound.sublist ((outbound_sublist (List.take_sublist _ _)).map _)
    rw [outbound_append, outbound_singleton, List.map_append, List.nodup_append] at hall
    rw [List.map_append, List.nodup_append]
    refine ⟨h.nodup, hall.2.1, ?_⟩
    intro a ha
    obtain ⟨o, ho, rfl⟩ := List.mem_map.1 ha
    exact hall.2.2 _ (List.mem_map_of_mem (h.subset o ho))

/-- Where an inbound record of the next bundle has its source: in the linker, or in a committed
bundle, or nowhere. -/
theorem source_cases (h : l.Follows H c p) (hH : BundleHistory H) (hc : c ≤ p) (hx : H[p]? = some x)
    {i : Message} (hi : i ∈ x.messages.filter isInbound) :
    (∃ o ∈ outbound H, o.hash = i.hash ∧
      findMessage i.hash (l.retained ++ x.messages.filter isOutbound) = some o) ∨
    findMessage i.hash (l.retained ++ x.messages.filter isOutbound) = none ∧
      ((∃ o ∈ outbound (H.take c), o.hash = i.hash) ∨ ∀ o ∈ outbound H, o.hash ≠ i.hash) := by
  have htake := take_succ_eq hx
  have hsub : ∀ o ∈ l.retained ++ x.messages.filter isOutbound, o ∈ outbound (H.take (p + 1)) := by
    intro o ho
    rw [htake, outbound_append, outbound_singleton, List.mem_append]
    exact (List.mem_append.1 ho).imp (h.subset o) id
  cases hf : findMessage i.hash (l.retained ++ x.messages.filter isOutbound) with
  | some o =>
    obtain ⟨ho, he⟩ := mem_of_findMessage hf
    exact .inl ⟨o, (outbound_sublist (List.take_sublist _ _)).subset (hsub o ho), he, rfl⟩
  | none =>
    refine .inr ⟨rfl, ?_⟩
    have hnone := findMessage_eq_none.1 hf
    refine Classical.or_iff_not_imp_right.2 ?_
    intro hex
    obtain ⟨o, ho, he⟩ : ∃ o ∈ outbound H, o.hash = i.hash := by
      simpa using hex
    have hin : i ∈ inbound (H.take (p + 1)) := by
      rw [htake, inbound_append, inbound_singleton]
      exact List.mem_append_right _ hi
    -- The sender is not behind the receiver, nor in the same bundle.
    have hsent : o ∈ outbound (H.take p) := by
      rw [← List.take_append_drop (p + 1) H, outbound_append, List.mem_append] at ho
      rcases ho with ho | ho
      · rw [htake, outbound_append, outbound_singleton, List.mem_append] at ho
        rcases ho with ho | ho
        · exact ho
        · exact absurd he (hnone o (List.mem_append_right _ ho))
      · exact absurd he.symm (hH.sender_first _ i hin o ho)
    rw [← take_append_drop_take hc, outbound_append, List.mem_append] at hsent
    rcases hsent with hsent | hsent
    · exact ⟨o, hsent, he⟩
    · -- It would be retained, since `i` is its only receiver.
      refine absurd he (hnone o (List.mem_append_left _ (h.waits o hsent ?_)))
      intro j hj hje
      have hn := hH.nodup_inbound.sublist ((inbound_sublist (List.take_sublist (p + 1) H)).map _)
      rw [htake, inbound_append, inbound_singleton, List.map_append, List.nodup_append] at hn
      exact hn.2.2 _ (List.mem_map_of_mem hj) _ (List.mem_map_of_mem hi) (hje.trans he)

/-- The linker after the next bundle, accepted or not. -/
theorem afterBlock (h : l.Follows H c p) (hH : BundleHistory H) (hc : c ≤ p) (hx : H[p]? = some x) :
    (l.afterBlock x).Follows H c (p + 1) where
  unresolved := rfl
  start := by
    rw [firstLt_take_succ hx, ← orElse_startLt hx, ← h.start]
    rfl
  subset := by
    intro o ho
    rw [take_succ_eq hx, outbound_append, outbound_singleton, List.mem_append]
    exact (List.mem_append.1 (List.mem_filter.1 ho).1).imp (h.subset o) id
  nodup := (h.linkable hH hx).nodup_outbound.sublist (List.filter_sublist.map _)
  waits := by
    intro o ho hno
    rw [take_succ_eq hx, List.drop_append_of_le_length (le_length_take hc hx), outbound_append,
      outbound_singleton, List.mem_append] at ho
    have hno' : ∀ i ∈ inbound (H.take p) ++ x.messages.filter isInbound, i.hash ≠ o.hash := by
      rw [← inbound_singleton, ← inbound_append, ← take_succ_eq hx]
      exact hno
    refine List.mem_filter.2 ⟨?_, ?_⟩
    · rcases ho with ho | ho
      · exact List.mem_append_left _ (h.waits o ho fun i hi => hno' i (List.mem_append_left _ hi))
      · exact List.mem_append_right _ ho
    · rw [findMessage_eq_none.2 fun i hi => hno' i (List.mem_append_right _ hi)]
      rfl

/-! ## What comes out -/

section rows

variable {σ : Type} {read : PayloadReader σ} {view : Message → Message} {s : Store} {start : Option UInt64}

/-- The inbound records of the next bundle, as they are committed, look like the completed ones. -/
theorem view_settle (h : l.Follows H c p) (hH : BundleHistory H) (hv : Recovers view H)
    (hs : s.Tables (H.take c)) (hc : c ≤ p) (hx : H[p]? = some x) {i : Message}
    (hi : i ∈ x.messages.filter isInbound) :
    view (settle (l.retained ++ x.messages.filter isOutbound) s.findSource i) =
      view (complete H i) := by
  have hiH := mem_inbound_of_next hx hi
  rcases h.source_cases hH hc hx hi with ⟨o, ho, he, hf⟩ | ⟨hf, ⟨o, ho, he⟩ | hno⟩
  · simp only [settle, hf, Option.elim, hH.complete_of_mem ho he]
  · simp only [settle, hf, Option.elim]
    exact hv.recovered hs hiH ho he
  · have hnone := hs.findSource_of_inbound hH hiH hno
    simp only [settle, hf, Option.elim, recover, hnone, complete_of_forall_ne hno]

/-- An inbound record is excused exactly if it has a committed source, or none and is exempt. -/
theorem excused_iff (h : l.Follows H c p) (hH : BundleHistory H) (hs : s.Tables (H.take c))
    (hc : c ≤ p) (hx : H[p]? = some x) :
    (∀ i ∈ unmatched (x.messages.filter isInbound) (l.retained ++ x.messages.filter isOutbound),
      Excused s.findSource (firstLt H) i) ↔ Accepted H [x] := by
  constructor
  · intro hex i hi hno
    rw [inbound_singleton] at hi
    have hnone := hs.findSource_of_inbound hH (mem_inbound_of_next hx hi) hno
    have hun : i ∈ unmatched (x.messages.filter isInbound)
        (l.retained ++ x.messages.filter isOutbound) := by
      refine List.mem_filter.2 ⟨hi, ?_⟩
      rcases h.source_cases hH hc hx hi with ⟨o, ho, he, -⟩ | ⟨hf, -⟩
      · exact absurd he (hno o ho)
      · rw [hf]
        rfl
    rcases hex i hun with hsome | he
    · rw [hnone] at hsome
      cases hsome
    · exact he
  · intro hacc i hun
    obtain ⟨hi, hf⟩ := List.mem_filter.1 hun
    rcases h.source_cases hH hc hx hi with ⟨o, -, -, hf'⟩ | ⟨-, ⟨o, ho, he⟩ | hno⟩
    · rw [hf'] at hf
      cases hf
    · obtain ⟨t, -, -, hsrc⟩ := hs.findSource_eq_some hH ho
      left
      rw [← he, hsrc]
      rfl
    · exact .inr (hacc i (by simpa using hi) hno)

/-- The messages of the next bundle come out exactly if the bundle is accepted. -/
theorem handle_accepted (h : l.Follows H c p) (hH : BundleHistory H) (hs : s.Tables (H.take c))
    (hc : c ≤ p) (hx : H[p]? = some x) (hacc : Accepted H [x]) :
    ∃ ms, l.handle s.findSource x = (.ok ms, l.afterBlock x) ∧
      Lists ms (x.messages.filter fun m => !m.isInternal) ((x.messages.filter isInbound).map
        (settle (l.retained ++ x.messages.filter isOutbound) s.findSource)) := by
  refine handle_eq_ok h.unresolved (h.linkable hH hx) ?_
  rw [h.start, orElse_startLt hx]
  exact (h.excused_iff hH hs hc hx).2 hacc

theorem accepted_of_handle (h : l.Follows H c p) (hH : BundleHistory H) (hs : s.Tables (H.take c))
    (hc : c ≤ p) (hx : H[p]? = some x) {ms : List Message} {l' : Linker}
    (hms : l.handle s.findSource x = (.ok ms, l')) : Accepted H [x] := by
  rw [← h.excused_iff hH hs hc hx]
  refine Classical.byContradiction fun hex => ?_
  have hex' : ∃ i ∈ unmatched (x.messages.filter isInbound)
      (l.retained ++ x.messages.filter isOutbound),
      ¬ Excused s.findSource (l.historyStart <|> some x.master.block.startLt) i := by
    rw [h.start, orElse_startLt hx]
    simpa using hex
  obtain ⟨i, -, -, he⟩ := handle_eq_error h.unresolved (h.linkable hH hx) hex'
  rw [hms] at he
  cases he

/-- The rows of the next bundle, once its payloads were read. -/
theorem covers_of_handle (h : l.Follows H c p) (hH : BundleHistory H) (hv : Recovers view H)
    (hs : s.Tables (H.take c)) (hc : c ≤ p) (hx : H[p]? = some x) {ms rows : List Message} {l' : Linker}
    (hms : l.handle s.findSource x = (.ok ms, l'))
    (hrows : List.Forall₂ (Sink.Yields read) ms rows) :
    l' = l.afterBlock x ∧ Covers read view H [x] rows := by
  have hacc := h.accepted_of_handle hH hs hc hx hms
  obtain ⟨ms', he, hlists⟩ := h.handle_accepted hH hs hc hx hacc
  rw [hms] at he
  obtain ⟨hok, rfl⟩ := Prod.mk.inj he
  obtain rfl := Except.ok.inj hok
  refine ⟨rfl, ms.map (present H), ?_, ?_⟩
  · have hmap : ((x.messages.filter isInbound).map
        (settle (l.retained ++ x.messages.filter isOutbound) s.findSource)).map (present H) =
          (inbound [x]).map (complete H) := by
      rw [List.map_map, inbound_singleton]
      exact List.map_congr_left fun i hi => present_settle hH (mem_inbound_of_next hx hi) _ _
    rw [← hmap, externals_singleton]
    refine hlists.map (present_isInternal H) ?_
    intro m hm
    exact present_external H (by simpa using (List.mem_filter.1 hm).2)
  · have hview : ∀ m ∈ ms, view m = view (present H m) := by
      intro m hm
      cases hint : m.isInternal with
      | false => rw [present_external H hint]
      | true =>
        have hm' := hlists.internals.subset (List.mem_filter.2 ⟨hm, hint⟩)
        obtain ⟨i, hi, rfl⟩ := List.mem_map.1 hm'
        rw [present_settle hH (mem_inbound_of_next hx hi), h.view_settle hH hv hs hc hx hi]
    rw [List.forall₂_map_left_iff]
    refine ((List.forall₂_and_left ms rows).2 ⟨hview, hrows⟩).imp ?_
    rintro m row ⟨hm, hy⟩
    exact ⟨m, hm, hy⟩

end rows

end Follows

end Linker

end ShardIndex
