import ShardIndex.Config.Reader
import ShardIndex.Proofs.Pipeline.Publication
/-!
# Progress of the publisher

The publisher (`MasterFetchPipeline.run`) goes in rounds: it opens a window, publishes all of it and begins again
behind it, and at the end of the range it returns (`Publication.rounds`). Nothing in a round waits but for the
heights of its window, so a window must not be empty: the rounds would follow each other without a pause, and not
even the cancellation would be noticed.

The length of a window is the number of workers as a 32-bit word. Unless that is zero each round is ahead of
the one before, and one that is not comes last, at the end of the range (`Publication.Progress`). If it is zero
the publisher opens the same window over and over. A configuration has at least one worker, but the word is zero
for each multiple of 2 ^ 32 (`IndexerConfig.windowSize_eq_zero_iff`).
-/
namespace ShardIndex

variable {β : Type}

theorem IndexerConfig.windowSize_eq_zero_iff (c : IndexerConfig) :
    c.windowSize = 0 ↔ UInt32.size ∣ c.workers.toNat := by
  rw [windowSize, ← UInt32.toNat_inj, UInt64.toNat_toUInt32, Nat.dvd_iff_mod_eq_zero]
  rfl

/-- The event is a turn of the publisher. -/
def PublicationEvent.isTurn : PublicationEvent β → Bool
  | .turn => true
  | _ => false

namespace Publication

/-- The round that begins with an event, as the heights between which it publishes. At the end of the range it
is empty, and the publisher returns. -/
def begins (s : Publication β) (e : PublicationEvent β) : List (UInt32 × UInt32) :=
  if e.isTurn && !s.ended && s.pipeline.windowDone then [(s.pipeline.next, s.pipeline.windowEnd)] else []

/-- The rounds that begin in the course of events. -/
def rounds (s : Publication β) : List (PublicationEvent β) → List (UInt32 × UInt32)
  | [] => []
  | e :: events => s.begins e ++ (s.step e).rounds events

variable {start workers : UInt32} {s : Publication β}

/-! ## One event -/

theorem ended_step (h : s.ended = true) (e : PublicationEvent β) : (s.step e).ended = true := by
  cases e <;> simp [step, unlessEnded, h]

theorem ended_run (h : s.ended = true) (events : List (PublicationEvent β)) : (s.run events).ended = true := by
  induction events generalizing s with
  | nil => exact h
  | cons e events ih => exact ih (ended_step h e)

/-- The window changes in turns only. -/
theorem windowEnd_step {e : PublicationEvent β} (he : e.isTurn = false) :
    (s.step e).windowEnd = s.windowEnd := by
  have hs : ∀ f : Publication β → Publication β, (f s).windowEnd = s.windowEnd →
      (s.unlessEnded f).windowEnd = s.windowEnd :=
    fun f hf => unlessEnded_of (P := fun t => t.windowEnd = s.windowEnd) rfl hf
  cases e with
  | turn => cases he
  | attempt height answer =>
    refine hs (attempt · height answer) ?_
    dsimp only [attempt]
    split
    · cases answer <;> rfl
    · rfl
  | giveUp height =>
    refine hs (giveUp · height) ?_
    dsimp only [giveUp]
    split <;> rfl
  | collect height =>
    refine hs (collect · height) ?_
    dsimp only [collect]
    split <;> rfl
  | send =>
    refine hs send ?_
    unfold send
    split
    · split
      · rfl
      · split <;> rfl
    · rfl
  | leave =>
    refine hs leave ?_
    unfold leave
    split <;> rfl
  | receive => rfl
  | cancel => rfl
  | hangUp => rfl

/-- An event begins no round, or a round behind the current window: the window is the one of the round, and the
publisher returns if it is at the end of the range. -/
theorem begins_cases (o : Ordered start workers s) (e : PublicationEvent β) :
    (s.begins e = [] ∧ (s.step e).windowEnd = s.windowEnd) ∨
      ∃ stop : UInt32, s.begins e = [(s.windowEnd, stop)] ∧ (s.step e).windowEnd = stop ∧
        stop.toNat = min (s.windowEnd.toNat + workers.toNat) lastHeight.toNat ∧
        (s.step e).ended = decide (s.windowEnd = lastHeight) := by
  by_cases he : e.isTurn = true
  · obtain rfl : e = .turn := by cases e <;> first | rfl | cases he
    by_cases hended : s.ended = true
    · exact .inl ⟨by simp [begins, hended], by simp [step, unlessEnded, hended]⟩
    · have hstep : s.step .turn = s.turn := by simp [step, unlessEnded, hended]
      rw [hstep]
      by_cases hdone : s.pipeline.windowDone = true
      · have hnext := (o.window.done hdone).1
        refine .inr ⟨s.pipeline.windowEnd, by simp [begins, PublicationEvent.isTurn, hended, hdone, hnext], ?_⟩
        have hstop := s.pipeline.toNat_windowEnd
        rw [o.workers_eq, hnext] at hstop
        rw [turn, if_pos hdone]
        by_cases hlast : s.windowEnd = lastHeight
        · have hexhausted : s.pipeline.exhausted = true := by simp [Pipeline.exhausted, hnext, hlast]
          rw [if_pos hexhausted]
          refine ⟨?_, hstop, by simp [hlast]⟩
          show s.windowEnd = s.pipeline.windowEnd
          rw [← UInt32.toNat_inj, hstop, hlast]
          omega
        · have hexhausted : ¬ s.pipeline.exhausted = true := by simp [Pipeline.exhausted, hnext, hlast]
          rw [if_neg hexhausted]
          exact ⟨rfl, hstop, by simp [hlast, hended]⟩
      · exact .inl ⟨by simp [begins, hdone], by rw [turn, if_neg hdone]⟩
  · have he : e.isTurn = false := by simpa using he
    exact .inl ⟨by simp [begins, he], windowEnd_step he⟩

/-! ## Rounds -/

/-- Nothing begins when the publisher has returned. -/
theorem rounds_of_ended : ∀ (events : List (PublicationEvent β)) {s : Publication β}, s.ended = true →
    s.rounds events = []
  | [], _, _ => rfl
  | e :: events, s, h => by
    rw [rounds, rounds_of_ended events (ended_step h e), List.append_nil, begins]
    simp [h]

/-- Each round begins where the one before ends. -/
theorem isChain_rounds : ∀ (events : List (PublicationEvent β)) {s : Publication β},
    Ordered start workers s → ∀ first : UInt32,
      ((first, s.windowEnd) :: s.rounds events).IsChain (fun a b => a.2 = b.1)
  | [], _, _, _ => .singleton _
  | e :: events, s, o, first => by
    have ih := isChain_rounds events (ordered_step o e)
    rw [rounds]
    rcases begins_cases o e with ⟨hbegins, hend⟩ | ⟨stop, hbegins, hend, -, -⟩
    · rw [hbegins, List.nil_append, ← hend]
      exact ih first
    · rw [hbegins, List.singleton_append, List.isChain_cons_cons]
      exact ⟨rfl, hend ▸ ih s.windowEnd⟩

/-- The window of a round has a height for each worker, or what is left of the range. -/
theorem toNat_of_mem_rounds : ∀ (events : List (PublicationEvent β)) {s : Publication β},
    Ordered start workers s → ∀ r ∈ s.rounds events,
      r.2.toNat = min (r.1.toNat + workers.toNat) lastHeight.toNat
  | [], _, _, _, h => by cases h
  | e :: events, s, o, r, h => by
    rcases List.mem_append.1 h with h | h
    · rcases begins_cases o e with ⟨hbegins, -⟩ | ⟨stop, hbegins, -, hstop, -⟩
      · rw [hbegins] at h
        cases h
      · rw [hbegins, List.mem_singleton] at h
        rw [h]
        exact hstop
    · exact toNat_of_mem_rounds events (ordered_step o e) r h

/-- Rounds from a height on that get ahead, all but a last one at the end of the range, with which the
publisher returns. -/
structure Progress (start : UInt32) (rounds : List (UInt32 × UInt32)) (ended : Bool) : Prop where
  ahead : ∀ r ∈ rounds, r.1 < r.2 ∨ r.1 = lastHeight ∧ ended = true
  once : (rounds.filter fun r => decide (r.1 = r.2)).length ≤ 1
  bounded : rounds.length ≤ lastHeight.toNat - start.toNat + 1

theorem Progress.nil (start : UInt32) (ended : Bool) : Progress start [] ended :=
  ⟨fun _ h => absurd h List.not_mem_nil, Nat.zero_le _, Nat.zero_le _⟩

/-- Rounds get ahead if windows have heights, or if there are none left in the range. -/
theorem progress_rounds : ∀ (events : List (PublicationEvent β)) {s : Publication β},
    Ordered start workers s → workers ≠ 0 ∨ s.windowEnd = lastHeight →
      Progress s.windowEnd (s.rounds events) (s.run events).ended
  | [], s, _, _ => .nil s.windowEnd _
  | e :: events, s, o, h => by
    rw [rounds, run, List.foldl_cons, ← run]
    rcases begins_cases o e with ⟨hbegins, hend⟩ | ⟨stop, hbegins, hend, hstop, hreturn⟩
    · rw [hbegins, List.nil_append, ← hend]
      exact progress_rounds events (ordered_step o e) (hend ▸ h)
    · rw [hbegins, List.singleton_append]
      by_cases hlast : s.windowEnd = lastHeight
      · have hended : (s.step e).ended = true := by rw [hreturn, decide_eq_true hlast]
        rw [rounds_of_ended events hended]
        refine ⟨fun r hr => .inr ?_, List.length_filter_le _ _, Nat.le_add_left _ _⟩
        obtain rfl := List.mem_singleton.1 hr
        exact ⟨hlast, ended_run hended events⟩
      · have hworkers : workers.toNat ≠ 0 := fun hzero =>
          h.resolve_right hlast (UInt32.toNat_inj.1 hzero)
        have hnot : s.windowEnd.toNat ≠ lastHeight.toNat := fun heq => hlast (UInt32.toNat_inj.1 heq)
        have hle := UInt32.le_iff_toNat_le.1 o.windowEnd_le
        have hlt : s.windowEnd < stop := by
          rw [UInt32.lt_iff_toNat_lt, hstop]
          omega
        have ih := progress_rounds events (ordered_step o e) (.inl (h.resolve_right hlast))
        rw [hend] at ih
        have hne : ¬ s.windowEnd = stop := UInt32.ne_of_lt hlt
        refine ⟨fun r hr => ?_, ?_, ?_⟩
        · rcases List.mem_cons.1 hr with rfl | hr
          · exact .inl hlt
          · exact ih.ahead r hr
        · rw [List.filter_cons_of_neg (by simpa using hne)]
          exact ih.once
        · have hbounded := ih.bounded
          rw [UInt32.lt_iff_toNat_lt] at hlt
          rw [List.length_cons]
          omega

/-! ## Windows without heights -/

/-- Without workers no height is ever in a window, so there is nothing to take over and nothing to send. -/
theorem Ordered.idle (o : Ordered start 0 s) :
    s.pipeline.next = s.windowEnd ∧ s.pipeline.running = [] ∧ s.pipeline.head? = none ∧
      ∀ h, s.results.get? h = none := by
  have hwidth : s.windowEnd ≤ s.windowStart := UInt32.le_iff_toNat_le.2 o.width
  have hnext : s.pipeline.next = s.windowEnd :=
    UInt32.le_antisymm o.window.le_stop (UInt32.le_trans hwidth o.windowStart_le)
  have hheights := o.window.heights
  rw [hnext, heightsBetween_self] at hheights
  obtain ⟨hrunning, hfetched⟩ := List.append_eq_nil_iff.1 hheights.eq_nil
  refine ⟨hnext, hrunning, ?_, fun h => ?_⟩
  · rw [Pipeline.head?, List.map_eq_nil_iff.1 hfetched]
  · cases hres : s.results.get? h with
    | none => rfl
    | some r =>
      have hmem := o.running_of_result h r hres
      rw [hrunning] at hmem
      cases hmem

theorem Ordered.sent_eq_nil (o : Ordered start 0 s) (h : s.windowEnd = start) : s.sent = [] := by
  have hlength := o.sent_length
  rw [o.idle.1, h, heightsBetween_self] at hlength
  exact List.eq_nil_of_length_eq_zero hlength.symm

/-- Nothing but the end of the range makes such a publisher return. -/
theorem Ordered.ended_step (o : Ordered start 0 s) (hended : s.ended = false) {e : PublicationEvent β}
    (he : e.isTurn = false) : (s.step e).ended = false := by
  obtain ⟨-, hrunning, hhead, hresults⟩ := o.idle
  cases e with
  | turn => cases he
  | attempt height answer => simp [step, unlessEnded, attempt, isFetching, hrunning, hended]
  | giveUp height => simp [step, unlessEnded, giveUp, isFetching, hrunning, hended]
  | collect height => simp [step, unlessEnded, collect, hhead, hresults, hended]
  | send => simp [step, unlessEnded, send, hhead, hended]
  | leave => simp [step, unlessEnded, leave, hhead, hended]
  | receive => exact hended
  | cancel => exact hended
  | hangUp => exact hended

/-- The publisher opens the same window over and over, and whatever else happens is not noticed. -/
theorem spins : ∀ (events : List (PublicationEvent β)) {s : Publication β}, Ordered start 0 s →
    s.ended = false → s.windowEnd ≠ lastHeight →
      s.rounds events = List.replicate (events.countP (·.isTurn)) (s.windowEnd, s.windowEnd) ∧
        (s.run events).windowEnd = s.windowEnd ∧ (s.run events).ended = false
  | [], _, _, hended, _ => ⟨rfl, rfl, hended⟩
  | e :: events, s, o, hended, hlast => by
    obtain ⟨-, hrunning, hhead, -⟩ := o.idle
    have hdone : s.pipeline.windowDone = true := by simp [Pipeline.windowDone, hrunning, hhead]
    rw [rounds, run, List.foldl_cons, ← run]
    rcases begins_cases o e with ⟨hbegins, hend⟩ | ⟨stop, hbegins, hend, hstop, hreturn⟩
    · have he : e.isTurn = false := by simpa [begins, hended, hdone] using hbegins
      have ih := spins events (ordered_step o e) (o.ended_step hended he) (hend ▸ hlast)
      rw [hend] at ih
      rw [hbegins, List.countP_cons_of_neg (by simp [he])]
      exact ih
    · have he : e.isTurn = true := by
        by_contra he
        simp [begins, he] at hbegins
      have hsame : stop = s.windowEnd := by
        rw [← UInt32.toNat_inj, hstop]
        exact Nat.min_eq_left (UInt32.le_iff_toNat_le.1 o.windowEnd_le)
      rw [hsame] at hend
      have ih := spins events (ordered_step o e) (hreturn.trans (decide_eq_false hlast)) (hend ▸ hlast)
      rw [hend] at ih
      rw [hbegins, List.countP_cons_of_pos he, hsame, List.replicate_succ]
      exact ⟨congrArg _ ih.1, ih.2⟩

/-! ## Configurations -/

/-- Whatever happens to the publisher of a configuration: each round begins where the one before ends, and
neither the ends of windows nor the heights that are published wrap around. Each round gets ahead, but for a
last one at the end of the range, and there are no more rounds than heights and that one. The exception are
multiples of 2 ^ 32 workers that begin before the end of the range: then every round is at the first height,
nothing is ever sent, and neither the cancellation nor the receiver ends it. -/
theorem rounds_progress (c : IndexerConfig) (start : UInt32) (capacity : Nat)
    (events : List (PublicationEvent β)) :
    let first : Publication β := openAt start c.windowSize capacity
    let s := first.run events
    let rounds := first.rounds events
    ((start, start) :: rounds).IsChain (fun a b => a.2 = b.1) ∧
    (∀ r ∈ rounds, r.2.toNat = min (r.1.toNat + c.windowSize.toNat) lastHeight.toNat) ∧
    (∀ b, s.pipeline.head? = some b → s.pipeline.publish.next.toNat = s.pipeline.next.toNat + 1) ∧
    if UInt32.size ∣ c.workers.toNat ∧ start ≠ lastHeight then
      rounds = List.replicate (events.countP (·.isTurn)) (start, start) ∧ s.sent = [] ∧ s.ended = false
    else Progress start rounds s.ended := by
  intro first s rounds
  have o : Ordered start c.windowSize first := ordered_openAt start c.windowSize capacity
  have hrun : Ordered start c.windowSize s := ordered_run o events
  refine ⟨isChain_rounds events o start, toNat_of_mem_rounds events o, ?_, ?_⟩
  · intro b hb
    exact toNat_succ_of_lt (hrun.window.next_lt hb)
  · split
    · rename_i h
      have hzero := c.windowSize_eq_zero_iff.2 h.1
      rw [hzero] at o hrun
      obtain ⟨hrounds, hend, hended⟩ := spins events o rfl h.2
      exact ⟨hrounds, hrun.sent_eq_nil hend, hended⟩
    · rename_i h
      refine progress_rounds events o ?_
      by_cases hstart : start = lastHeight
      · exact .inr hstart
      · exact .inl fun hzero => h ⟨c.windowSize_eq_zero_iff.1 hzero, hstart⟩

/-- What happens to two workers three heights before the end of the range. -/
def lastEvents : List (PublicationEvent Unit) :=
  [.turn, .attempt 4294967293 (.ok ()), .attempt 4294967292 (.ok ()), .collect 4294967293, .turn,
    .collect 4294967292, .send, .send, .turn, .attempt 4294967294 (.ok ()), .collect 4294967294, .send, .turn,
    .turn]

/-- The second window is cut short, and the third round only returns. -/
theorem rounds_progress_sample :
    let first : Publication Unit := openAt 4294967292 ({ workers := 2 } : IndexerConfig).windowSize 4
    first.rounds lastEvents =
        [(4294967292, 4294967294), (4294967294, 4294967295), (4294967295, 4294967295)] ∧
      (first.run lastEvents).ended = true ∧
      ((first.rounds lastEvents).filter fun r => decide (r.1 = r.2)).length ≤ 1 := by
  obtain ⟨-, -, -, hprogress⟩ := rounds_progress ({ workers := 2 } : IndexerConfig) 4294967292 4 lastEvents
  rw [if_neg (by decide)] at hprogress
  exact ⟨by decide +kernel, by decide +kernel, hprogress.once⟩

/-- A file may ask for 2 ^ 32 workers. The publisher then begins as many rounds as it has turns, all at the first
height. -/
theorem rounds_spin :
    ∃ c, IndexerConfig.load (some "\x7b\"workers\": 4294967296\x7d".toUTF8.data.toList) = .ok c ∧
      ∀ n, let first : Publication Unit := openAt 1 c.windowSize 4
        first.rounds (List.replicate n .turn) = List.replicate n (1, 1) ∧
          (first.run (List.replicate n .turn)).sent = [] ∧
          (first.run (List.replicate n .turn)).ended = false := by
  refine ⟨{ workers := 4294967296 }, rfl, fun n => ?_⟩
  have o : Ordered 1 0 (openAt 1 0 4 : Publication Unit) := ordered_openAt 1 0 4
  obtain ⟨hrounds, hend, hended⟩ := spins (List.replicate n .turn) o rfl (by decide)
  refine ⟨hrounds.trans ?_, (ordered_run o _).sent_eq_nil hend, hended⟩
  rw [List.countP_replicate]
  rfl

end Publication

end ShardIndex
