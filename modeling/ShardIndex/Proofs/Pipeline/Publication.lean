import Mathlib.Data.List.Nodup
import ShardIndex.Fault
import ShardIndex.Proofs.Pipeline.Window
import ShardIndex.Table
/-!
# Runs of the publication

A pipeline together with what surrounds it: the fetches of the window, which attempt their heights
until they succeed or notice the cancellation, and the bounded channel into which the publisher
sends. Any of the events (`PublicationEvent`) may come at any moment and in any order; one that
cannot happen in a state leaves it alone. After every list of events

* what was sent are the results of the heights from the first one up to `next`, one each, in order;
* what is fetched and not sent lies in the current window, which has no more heights than there are
  workers;
* the window changes only when all of it was sent;
* the last height of the range was never attempted, and never sent.

`Publication.Ordered` is the invariant behind this, `ordered_step` its step and `ordered_run` the run.
-/
namespace ShardIndex

variable {β : Type}

/-- Something that happens to a pipeline, to a fetch of its window or to its channel. -/
inductive PublicationEvent (β : Type) where
  /-- The publisher opens the next window, or ends behind the last one. -/
  | turn
  /-- A fetch attempts its height. A failure, whatever it is, leads to another attempt. -/
  | attempt (height : UInt32) (answer : Except Fault β)
  /-- A fetch notices the cancellation. -/
  | giveUp (height : UInt32)
  /-- The publisher takes over how a fetch has ended. -/
  | collect (height : UInt32)
  /-- The publisher sends the next result, or ends because nobody receives it. -/
  | send
  /-- The publisher notices the cancellation while it waits for room in the channel. -/
  | leave
  /-- The receiver takes a result out of the channel. -/
  | receive
  /-- The pipeline is cancelled. -/
  | cancel
  /-- The receiver is dropped. -/
  | hangUp

/-- A pipeline between two events. -/
structure Publication (β : Type) where
  pipeline : Pipeline β
  /-- How many results the channel holds at most. -/
  capacity : Nat
  /-- The first height of the current window. -/
  windowStart : UInt32
  /-- The height behind the current window. -/
  windowEnd : UInt32
  /-- All attempts so far, with their answers. -/
  attempts : List (UInt32 × Except Fault β) := []
  /-- How fetches have ended that the publisher has not taken over yet; without a result if they
  have noticed the cancellation. -/
  results : Table UInt32 (Option β) := []
  /-- Everything that was sent to the channel. -/
  sent : List β := []
  /-- How much of it the receiver has taken out. -/
  received : Nat := 0
  cancelled : Bool := false
  closed : Bool := false
  /-- Whether the publisher has returned. -/
  ended : Bool := false

namespace Publication

/-- A publication that starts at a height; no window is open yet. -/
def openAt (start workers : UInt32) (capacity : Nat) : Publication β where
  pipeline := { workers := workers, next := start }
  capacity := capacity
  windowStart := start
  windowEnd := start

/-- Whether the fetch of a height is on its way. -/
def isFetching (s : Publication β) (height : UInt32) : Bool :=
  s.pipeline.running.contains height && (s.results.get? height).isNone

/-- The next window opens, unless there is something left of the current one. -/
def turn (s : Publication β) : Publication β :=
  if s.pipeline.windowDone then
    if s.pipeline.exhausted then { s with ended := true }
    else
      { s with
        pipeline := s.pipeline.openWindow
        windowStart := s.pipeline.next
        windowEnd := s.pipeline.windowEnd }
  else s

/-- A fetch attempts its height. -/
def attempt (s : Publication β) (height : UInt32) (answer : Except Fault β) : Publication β :=
  if s.isFetching height then
    match answer with
    | .ok b =>
      { s with
        attempts := s.attempts ++ [(height, answer)]
        results := s.results.set height (some b) }
    | .error _ => { s with attempts := s.attempts ++ [(height, answer)] }
  else s

/-- A fetch ends without a result. -/
def giveUp (s : Publication β) (height : UInt32) : Publication β :=
  if s.cancelled && s.isFetching height then { s with results := s.results.set height none } else s

/-- The publisher takes over a result when it has nothing to send. -/
def collect (s : Publication β) (height : UInt32) : Publication β :=
  match s.pipeline.head?, s.results.get? height with
  | none, some (some b) =>
    { s with pipeline := s.pipeline.complete height b, results := s.results.erase height }
  | none, some none => { s with ended := true }
  | _, _ => s

/-- The publisher sends what comes next, as soon as there is room. -/
def send (s : Publication β) : Publication β :=
  match s.pipeline.head? with
  | some b =>
    if s.closed then { s with ended := true }
    else if s.sent.length < s.received + s.capacity then
      { s with pipeline := s.pipeline.publish, sent := s.sent ++ [b] }
    else s
  | none => s

/-- The publisher returns if it notices the cancellation while it has something to send. -/
def leave (s : Publication β) : Publication β :=
  if s.cancelled && s.pipeline.head?.isSome then { s with ended := true } else s

/-- What the publisher and the fetches do, they do until the publisher has returned. -/
def unlessEnded (s : Publication β) (f : Publication β → Publication β) : Publication β :=
  if s.ended then s else f s

/-- What an event does. -/
def step (s : Publication β) : PublicationEvent β → Publication β
  | .turn => s.unlessEnded turn
  | .attempt height answer => s.unlessEnded (attempt · height answer)
  | .giveUp height => s.unlessEnded (giveUp · height)
  | .collect height => s.unlessEnded (collect · height)
  | .send => s.unlessEnded send
  | .leave => s.unlessEnded leave
  | .receive => { s with received := min (s.received + 1) s.sent.length }
  | .cancel => { s with cancelled := true }
  | .hangUp => { s with closed := true }

/-- The state after a list of events. -/
def run (s : Publication β) (events : List (PublicationEvent β)) : Publication β :=
  events.foldl step s

/-- The heights that were sent, each with what was sent for it. -/
def published (s : Publication β) (start : UInt32) : List (UInt32 × β) :=
  (heightsBetween start s.pipeline.next).zip s.sent

theorem unlessEnded_of {P : Publication β → Prop} {s : Publication β}
    {f : Publication β → Publication β} (hs : P s) (hf : P (f s)) : P (s.unlessEnded f) := by
  unfold unlessEnded
  split
  · exact hs
  · exact hf

theorem published_mem {start : UInt32} {s : Publication β} {h : UInt32} {b : β}
    (hp : (h, b) ∈ s.published start) : start ≤ h ∧ h < s.pipeline.next :=
  mem_heightsBetween.mp (List.of_mem_zip hp).1

/-! ## The invariant -/

/-- What holds of a publication that has started at a height. Every success is in one of three
places: it waits for the publisher, it is fetched or it was sent. -/
structure Ordered (start workers : UInt32) (s : Publication β) : Prop where
  workers_eq : s.pipeline.workers = workers
  window : s.pipeline.Window s.windowEnd
  start_le : start ≤ s.windowStart
  windowStart_le : s.windowStart ≤ s.pipeline.next
  windowEnd_le : s.windowEnd ≤ lastHeight
  width : s.windowEnd.toNat ≤ s.windowStart.toNat + workers.toNat
  running_of_result : ∀ h r, s.results.get? h = some r → h ∈ s.pipeline.running
  attempted : ∀ h r, (h, r) ∈ s.attempts → start ≤ h ∧ h < s.windowEnd
  sent_length : (heightsBetween start s.pipeline.next).length = s.sent.length
  succeeded : ∀ h b, (h, .ok b) ∈ s.attempts ↔
    s.results.get? h = some (some b) ∨ (h, b) ∈ s.pipeline.fetched ∨ (h, b) ∈ s.published start

namespace Ordered

variable {start workers : UInt32} {s : Publication β}

theorem start_le_next (o : Ordered start workers s) : start ≤ s.pipeline.next :=
  UInt32.le_trans o.start_le o.windowStart_le

/-- A height that runs has not been sent. -/
theorem not_published (o : Ordered start workers s) {h : UInt32} (hr : h ∈ s.pipeline.running) (b : β) :
    (h, b) ∉ s.published start := by
  intro hp
  have hlt := (published_mem hp).2
  have hle := (o.window.running_mem hr).1
  exact UInt32.lt_irrefl _ (UInt32.lt_of_lt_of_le hlt hle)

/-- A fetch that is on its way has not succeeded yet. -/
theorem not_succeeded (o : Ordered start workers s) {h : UInt32} (hr : h ∈ s.pipeline.running)
    (hnone : s.results.get? h = none) (b : β) : (h, .ok b) ∉ s.attempts := by
  intro hs
  rcases (o.succeeded h b).mp hs with hres | hfetched | hpub
  · rw [hnone] at hres
    exact absurd hres (by simp)
  · exact o.window.not_fetched hr (List.mem_map_of_mem hfetched)
  · exact o.not_published hr b hpub

end Ordered

theorem ordered_openAt (start workers : UInt32) (capacity : Nat) :
    Ordered start workers (openAt start workers capacity : Publication β) where
  workers_eq := rfl
  window := Pipeline.Window.empty
  start_le := UInt32.le_refl start
  windowStart_le := UInt32.le_refl start
  windowEnd_le := by
    have hstart := start.toNat_lt
    rw [UInt32.le_iff_toNat_le, toNat_lastHeight]
    show start.toNat ≤ _
    omega
  width := Nat.le_add_right _ _
  running_of_result := by
    intro h r hr
    exact absurd hr (by simp [openAt])
  attempted := by
    intro h r hr
    exact absurd hr List.not_mem_nil
  sent_length := by
    show (heightsBetween start start).length = 0
    rw [heightsBetween_self]
    rfl
  succeeded := by
    intro h b
    simp [openAt, published]

variable {start workers : UInt32} {s : Publication β}

theorem isFetching_iff {height : UInt32} :
    s.isFetching height = true ↔ height ∈ s.pipeline.running ∧ s.results.get? height = none := by
  rw [isFetching, Bool.and_eq_true, List.contains_iff_mem, Option.isNone_iff_eq_none]

/-- A window opens behind the one that was sent. -/
theorem ordered_turn (o : Ordered start workers s) : Ordered start workers s.turn := by
  unfold turn
  split
  · rename_i hdone
    obtain ⟨hnext, hrunning, hfetched⟩ := o.window.done hdone
    split
    · exact { o with }
    · exact
        { workers_eq := by
            rw [Pipeline.openWindow_workers]
            exact o.workers_eq
          window := o.window.openWindow hdone
          start_le := o.start_le_next
          windowStart_le := by
            rw [Pipeline.openWindow_next]
            exact UInt32.le_refl _
          windowEnd_le := s.pipeline.windowEnd_le
          width := by
            rw [Pipeline.toNat_windowEnd, o.workers_eq]
            exact Nat.min_le_left _ _
          running_of_result := by
            intro h r hr
            have hmem := o.running_of_result h r hr
            rw [hrunning] at hmem
            exact absurd hmem List.not_mem_nil
          attempted := by
            intro h r hr
            obtain ⟨hle, hlt⟩ := o.attempted h r hr
            rw [← hnext] at hlt
            exact ⟨hle, UInt32.lt_of_lt_of_le hlt s.pipeline.le_windowEnd⟩
          sent_length := by
            rw [Pipeline.openWindow_next]
            exact o.sent_length
          succeeded := by
            intro h b
            unfold published
            rw [Pipeline.openWindow_next, Pipeline.openWindow_fetched]
            exact o.succeeded h b }
  · exact o

namespace Ordered

/-- A result that is noted belongs to a height that runs. -/
theorem running_of_set (o : Ordered start workers s) {height : UInt32} (hr : height ∈ s.pipeline.running)
    (x : Option β) : ∀ h r, (s.results.set height x).get? h = some r → h ∈ s.pipeline.running := by
  intro h r hres
  rw [Table.get?_set] at hres
  split at hres
  · rename_i heq
    rw [heq]
    exact hr
  · exact o.running_of_result h r hres

/-- A height that is attempted lies in the window. -/
theorem attempted_append (o : Ordered start workers s) {height : UInt32}
    (hr : height ∈ s.pipeline.running) (answer : Except Fault β) :
    ∀ h r, (h, r) ∈ s.attempts ++ [(height, answer)] → start ≤ h ∧ h < s.windowEnd := by
  intro h r hmem
  rcases List.mem_append.mp hmem with hmem | hmem
  · exact o.attempted h r hmem
  · obtain ⟨rfl, -⟩ := Prod.mk.inj (List.mem_singleton.mp hmem)
    obtain ⟨hle, hlt⟩ := o.window.running_mem hr
    exact ⟨UInt32.le_trans o.start_le_next hle, hlt⟩

end Ordered

/-- A failed attempt is only noted; a successful one waits for the publisher. -/
theorem ordered_attempt (o : Ordered start workers s) (height : UInt32) (answer : Except Fault β) :
    Ordered start workers (s.attempt height answer) := by
  unfold attempt
  split
  · rename_i hfetching
    obtain ⟨hr, hnone⟩ := isFetching_iff.mp hfetching
    split
    · rename_i b
      exact
        { o with
          running_of_result := o.running_of_set hr (some b)
          attempted := o.attempted_append hr (.ok b)
          succeeded := by
            intro h c
            have hold := o.succeeded h c
            show (h, .ok c) ∈ s.attempts ++ [(height, .ok b)] ↔
              (s.results.set height (some b)).get? h = some (some c) ∨ (h, c) ∈ s.pipeline.fetched ∨
                (h, c) ∈ s.published start
            rw [List.mem_append, List.mem_singleton, Table.get?_set, hold]
            by_cases heq : h = height
            · subst heq
              have hnot := (not_congr hold).mp (o.not_succeeded hr hnone c)
              rw [not_or, not_or] at hnot
              simp only [hnot.1, hnot.2.1, hnot.2.2, or_false, false_or, if_true, Prod.mk.injEq, true_and,
                Except.ok.injEq, Option.some.injEq]
              exact eq_comm
            · simp only [heq, if_false, Prod.mk.injEq, false_and, or_false] }
    · exact
        { o with
          attempted := o.attempted_append hr _
          succeeded := by
            intro h c
            rw [List.mem_append, List.mem_singleton, Prod.mk.injEq]
            simp only [reduceCtorEq, and_false, or_false]
            exact o.succeeded h c }
  · exact o

/-- A fetch that gives up had no success. -/
theorem ordered_giveUp (o : Ordered start workers s) (height : UInt32) :
    Ordered start workers (s.giveUp height) := by
  unfold giveUp
  split
  · rename_i hgive
    obtain ⟨hr, hnone⟩ := isFetching_iff.mp (Bool.and_eq_true_iff.mp hgive).2
    exact
      { o with
        running_of_result := o.running_of_set hr none
        succeeded := by
          intro h c
          have hold := o.succeeded h c
          rw [Table.get?_set, hold]
          by_cases heq : h = height
          · subst heq
            rw [hnone, if_pos rfl]
            simp only [reduceCtorEq, Option.some.injEq, false_or]
            exact Iff.rfl
          · rw [if_neg heq]
            exact Iff.rfl }
  · exact o

/-- A result that is taken over goes to the fetched ones. -/
theorem ordered_collect (o : Ordered start workers s) (height : UInt32) :
    Ordered start workers (s.collect height) := by
  unfold collect
  split
  · rename_i b hnone hres
    have hr := o.running_of_result height _ hres
    have hmem : ∀ x, x ∈ (s.pipeline.complete height b).fetched ↔
        x = (height, b) ∨ x ∈ s.pipeline.fetched := by
      intro x
      rw [← List.mem_cons]
      exact (Pipeline.insertFetched_perm height b s.pipeline.fetched (o.window.not_fetched hr)).mem_iff
    exact
      { o with
        window := o.window.complete b hr
        running_of_result := by
          intro h r hres
          rw [Table.get?_erase] at hres
          split at hres
          · exact absurd hres (by simp)
          · rename_i hne
            refine List.mem_filter.mpr ⟨o.running_of_result h r hres, ?_⟩
            exact decide_eq_true hne
        succeeded := by
          intro h c
          rw [hmem, Table.get?_erase, o.succeeded h c]
          by_cases heq : h = height
          · subst heq
            rw [hres, if_pos rfl]
            simp only [Option.some.injEq, Prod.mk.injEq, true_and, reduceCtorEq, false_or, or_assoc, eq_comm]
            exact Iff.rfl
          · rw [if_neg heq]
            simp only [Prod.mk.injEq, heq, false_and, false_or]
            exact Iff.rfl }
  · exact { o with }
  · exact o

/-- What is sent is the result of the next height. -/
theorem ordered_send (o : Ordered start workers s) : Ordered start workers s.send := by
  unfold send
  split
  · rename_i b hb
    have hfetched := Pipeline.Window.fetched_of_hget hb
    have hlt := o.window.next_lt hb
    have hnext := heightsBetween_concat o.start_le_next hlt
    split
    · exact { o with }
    · split
      · exact
          { o with
            window := o.window.publish hb
            windowStart_le := by
              refine UInt32.le_trans o.windowStart_le ?_
              have hsucc := toNat_succ_of_lt hlt
              rw [UInt32.le_iff_toNat_le]
              show _ ≤ (s.pipeline.next + 1).toNat
              omega
            sent_length := by
              show (heightsBetween start (s.pipeline.next + 1)).length = (s.sent ++ [b]).length
              rw [hnext, List.length_append, List.length_append, o.sent_length]
              rfl
            succeeded := by
              intro h c
              have hpub : (heightsBetween start (s.pipeline.next + 1)).zip (s.sent ++ [b]) =
                  s.published start ++ [(s.pipeline.next, b)] := by
                rw [hnext, List.zip_append o.sent_length]
                rfl
              show (h, .ok c) ∈ s.attempts ↔
                s.results.get? h = some (some c) ∨ (h, c) ∈ s.pipeline.fetched.tail ∨
                  (h, c) ∈ (heightsBetween start (s.pipeline.next + 1)).zip (s.sent ++ [b])
              rw [o.succeeded h c, hpub, List.mem_append, List.mem_singleton, hfetched, List.mem_cons,
                List.tail_cons]
              refine or_congr_right ?_
              rw [or_assoc, or_comm, or_assoc] }
      · exact o
  · exact o

theorem ordered_leave (o : Ordered start workers s) : Ordered start workers s.leave := by
  unfold leave
  split
  · exact { o with }
  · exact o

theorem ordered_step (o : Ordered start workers s) (e : PublicationEvent β) :
    Ordered start workers (s.step e) := by
  cases e with
  | turn => exact unlessEnded_of o (ordered_turn o)
  | attempt height answer =>
    exact unlessEnded_of (f := (attempt · height answer)) o (ordered_attempt o height answer)
  | giveUp height => exact unlessEnded_of (f := (giveUp · height)) o (ordered_giveUp o height)
  | collect height => exact unlessEnded_of (f := (collect · height)) o (ordered_collect o height)
  | send => exact unlessEnded_of o (ordered_send o)
  | leave => exact unlessEnded_of o (ordered_leave o)
  | receive => exact { o with }
  | cancel => exact { o with }
  | hangUp => exact { o with }

theorem ordered_run (o : Ordered start workers s) (events : List (PublicationEvent β)) :
    Ordered start workers (s.run events) := by
  induction events generalizing s with
  | nil => exact o
  | cons e events ih => exact ih (ordered_step o e)

/-! ## Order -/

namespace Ordered

/-- What was sent for a height is the only success of its fetch. -/
theorem published_iff (o : Ordered start workers s) {h : UInt32} {b : β} (hp : (h, b) ∈ s.published start)
    (c : β) : (h, .ok c) ∈ s.attempts ↔ c = b := by
  have hlt := (published_mem hp).2
  constructor
  · intro hs
    rcases (o.succeeded h c).mp hs with hres | hfetched | hpub
    · exact absurd hp (o.not_published (o.running_of_result h _ hres) b)
    · have hle := (o.window.fetched_mem hfetched).1
      exact absurd (UInt32.lt_of_lt_of_le hlt hle) (UInt32.lt_irrefl _)
    · have hnodup : ((s.published start).map Prod.fst).Nodup := by
        unfold published
        rw [List.map_fst_zip (Nat.le_of_eq o.sent_length)]
        exact heightsBetween_nodup _ _
      have heq := List.inj_on_of_nodup_map hnodup hpub hp rfl
      exact congrArg Prod.snd heq
  · rintro rfl
    exact (o.succeeded h c).mpr (Or.inr (Or.inr hp))

/-- The results that were sent, height by height. -/
theorem sent_eq (o : Ordered start workers s) :
    List.Forall₂ (fun h b => ∀ r, (h, .ok r) ∈ s.attempts ↔ r = b)
      (heightsBetween start s.pipeline.next) s.sent := by
  rw [List.forall₂_iff_zip]
  refine ⟨o.sent_length, ?_⟩
  intro h b hp
  exact o.published_iff hp

/-- What is fetched and not sent lies in the current window. -/
theorem unsent_mem (o : Ordered start workers s) {h : UInt32} {r : Except Fault β}
    (hr : (h, r) ∈ s.attempts) (hunsent : h ∉ heightsBetween start s.pipeline.next) :
    h ∈ heightsBetween s.windowStart s.windowEnd := by
  obtain ⟨hle, hlt⟩ := o.attempted h r hr
  rw [mem_heightsBetween, not_and, UInt32.not_lt] at hunsent
  rw [mem_heightsBetween]
  exact ⟨UInt32.le_trans o.windowStart_le (hunsent hle), hlt⟩

theorem window_length (o : Ordered start workers s) :
    (heightsBetween s.windowStart s.windowEnd).length ≤ workers.toNat := by
  have hlength := congrArg List.length (heightsBetween_toNat s.windowStart s.windowEnd)
  rw [List.length_map, List.length_range'] at hlength
  have hwidth := o.width
  omega

end Ordered

/-! ## Windows -/

/-- The window has stayed, or another one has opened behind it when it was sent. -/
def WindowKept (s t : Publication β) : Prop :=
  (t.windowStart = s.windowStart ∧ t.windowEnd = s.windowEnd) ∨
    (s.pipeline.next = s.windowEnd ∧ t.windowStart = s.windowEnd)

theorem WindowKept.refl (s : Publication β) : WindowKept s s := Or.inl ⟨rfl, rfl⟩

theorem Ordered.windowKept_turn (o : Ordered start workers s) : WindowKept s s.turn := by
  unfold turn
  split
  · rename_i hdone
    have hnext := (o.window.done hdone).1
    split
    · exact Or.inl ⟨rfl, rfl⟩
    · exact Or.inr ⟨hnext, hnext⟩
  · exact WindowKept.refl s

theorem windowKept_attempt (s : Publication β) (height : UInt32) (answer : Except Fault β) :
    WindowKept s (s.attempt height answer) := by
  unfold attempt
  split
  · cases answer with
    | ok b => exact Or.inl ⟨rfl, rfl⟩
    | error fault => exact Or.inl ⟨rfl, rfl⟩
  · exact WindowKept.refl s

theorem windowKept_giveUp (s : Publication β) (height : UInt32) : WindowKept s (s.giveUp height) := by
  unfold giveUp
  split
  · exact Or.inl ⟨rfl, rfl⟩
  · exact WindowKept.refl s

theorem windowKept_collect (s : Publication β) (height : UInt32) : WindowKept s (s.collect height) := by
  unfold collect
  split
  · exact Or.inl ⟨rfl, rfl⟩
  · exact Or.inl ⟨rfl, rfl⟩
  · exact WindowKept.refl s

theorem windowKept_send (s : Publication β) : WindowKept s s.send := by
  unfold send
  split
  · split
    · exact Or.inl ⟨rfl, rfl⟩
    · split
      · exact Or.inl ⟨rfl, rfl⟩
      · exact WindowKept.refl s
  · exact WindowKept.refl s

theorem windowKept_leave (s : Publication β) : WindowKept s s.leave := by
  unfold leave
  split
  · exact Or.inl ⟨rfl, rfl⟩
  · exact WindowKept.refl s

theorem Ordered.windowKept_step (o : Ordered start workers s) (e : PublicationEvent β) :
    WindowKept s (s.step e) := by
  have hs := WindowKept.refl s
  cases e with
  | turn => exact unlessEnded_of hs o.windowKept_turn
  | attempt height answer =>
    exact unlessEnded_of (f := (attempt · height answer)) hs (windowKept_attempt s height answer)
  | giveUp height => exact unlessEnded_of (f := (giveUp · height)) hs (windowKept_giveUp s height)
  | collect height => exact unlessEnded_of (f := (collect · height)) hs (windowKept_collect s height)
  | send => exact unlessEnded_of hs (windowKept_send s)
  | leave => exact unlessEnded_of hs (windowKept_leave s)
  | receive => exact Or.inl ⟨rfl, rfl⟩
  | cancel => exact Or.inl ⟨rfl, rfl⟩
  | hangUp => exact Or.inl ⟨rfl, rfl⟩

/-- Whatever happens to a pipeline and in whatever order: it has sent the results of the heights from
the first one up to `next`, one each; what else is fetched lies in the window, which is not longer than
there are workers and changes only when all of it was sent; and the last height is left out. -/
theorem publishes_in_order (start workers : UInt32) (capacity : Nat) (events : List (PublicationEvent β)) :
    let s := (openAt start workers capacity).run events
    List.Forall₂ (fun h b => ∀ r, (h, .ok r) ∈ s.attempts ↔ r = b)
        (heightsBetween start s.pipeline.next) s.sent ∧
      (∀ h b, (h, .ok b) ∈ s.attempts → h ∉ heightsBetween start s.pipeline.next →
        h ∈ heightsBetween s.windowStart s.windowEnd) ∧
      (heightsBetween s.windowStart s.windowEnd).length ≤ workers.toNat ∧
      (∀ e, (s.step e).windowStart ≠ s.windowStart ∨ (s.step e).windowEnd ≠ s.windowEnd →
        (s.step e).windowStart = s.windowEnd ∧
          ∀ h ∈ heightsBetween s.windowStart s.windowEnd, h ∈ heightsBetween start s.pipeline.next) ∧
      (∀ r, (lastHeight, r) ∉ s.attempts) ∧
      lastHeight ∉ heightsBetween start s.pipeline.next := by
  intro s
  have o : Ordered start workers s := ordered_run (ordered_openAt start workers capacity) events
  refine ⟨o.sent_eq, ?_, o.window_length, ?_, ?_, ?_⟩
  · intro h b hs hunsent
    exact o.unsent_mem hs hunsent
  · intro e hchange
    rcases o.windowKept_step e with ⟨hstart, hend⟩ | ⟨hnext, hstart⟩
    · exact absurd hchange (by rw [hstart, hend]; simp)
    · refine ⟨hstart, ?_⟩
      intro h hh
      obtain ⟨hle, hlt⟩ := mem_heightsBetween.mp hh
      rw [hnext, mem_heightsBetween]
      exact ⟨UInt32.le_trans o.start_le hle, hlt⟩
  · intro r hr
    have hlt := (o.attempted lastHeight r hr).2
    exact UInt32.lt_irrefl _ (UInt32.lt_of_lt_of_le hlt o.windowEnd_le)
  · intro hlast
    have hlt := (mem_heightsBetween.mp hlast).2
    have hle := UInt32.le_trans o.window.le_stop o.windowEnd_le
    exact UInt32.lt_irrefl _ (UInt32.lt_of_lt_of_le hlt hle)

/-- The second height of a window is there first, the first one is refused once, and the channel has
room for one result. -/
example :
    ((openAt 100 2 1 : Publication String).run
      [.turn, .attempt 101 (.ok "b"), .collect 101, .send, .attempt 100 (.error .blockNotFound),
        .attempt 100 (.ok "a"), .collect 100, .send, .send, .receive, .send, .cancel, .turn]).sent =
      ["a", "b"] := by
  decide +kernel

end Publication

end ShardIndex
