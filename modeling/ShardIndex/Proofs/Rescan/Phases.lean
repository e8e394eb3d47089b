import Mathlib.Algebra.Order.Floor.Div
import ShardIndex.Proofs.Rescan.Windows
/-!
# The phases of a task

The two phases of a task have the same parts: a checkpoint, a mark that they are done, and the windows
that were taken for them (`Phase`). A step takes one window for the phase that is due (`Turn`), and a
task with the steps taken for it keeps `Progress`: for every phase that its kind has, the windows list
the numbers from the first master block up to the checkpoint, and they are full but for the one that
reached the last master block of its step.
-/
namespace ShardIndex.Rescan

/-- A phase of a rescan. -/
inductive Phase where
  | accounts
  | messages
deriving DecidableEq

/-- A committed step. -/
structure Entry where
  /-- The task as it was committed. -/
  task : RescanTask
  plan : Plan
  /-- The numbers of the master blocks that the store had. -/
  masters : List Nat
  /-- The greatest of them. -/
  last : Nat

namespace Phase

/-- Whether the kind of a task has the phase. -/
def required : Phase → RescanKind → Bool
  | accounts => RescanKind.rescansAccounts
  | messages => RescanKind.rescansMessages

/-- The last master block that the phase has covered. -/
def checkpoint : Phase → RescanTask → Option UInt32
  | accounts => RescanTask.accountsMaster
  | messages => RescanTask.messagesMaster

def done : Phase → RescanTask → Bool
  | accounts => RescanTask.accountsDone
  | messages => RescanTask.messagesDone

/-- The window that a plan takes for the phase. -/
def window? : Phase → Plan → Option (UInt32 × UInt32)
  | accounts, .accounts window => window
  | messages, .messages window => window
  | _, _ => none

/-- The windows that were taken for the phase. -/
def windows (p : Phase) (es : List Entry) : List (UInt32 × UInt32) :=
  es.filterMap fun e => p.window? e.plan

/-- The step that marked the phase as done. -/
def doneBy (p : Phase) (es : List Entry) : Option Entry :=
  es.find? fun e => p.done e.task

/-- The phases that the kind of a task has. -/
def count (kind : RescanKind) : Nat :=
  (if required accounts kind then 1 else 0) + (if required messages kind then 1 else 0)

theorem windows_append (p : Phase) (es : List Entry) (e : Entry) :
    p.windows (es ++ [e]) = p.windows es ++ (p.window? e.plan).toList := by
  simp only [windows, List.filterMap_append]
  cases h : p.window? e.plan <;> simp [h]

theorem doneBy_append (p : Phase) (es : List Entry) (e : Entry) :
    p.doneBy (es ++ [e]) = (p.doneBy es).or (if p.done e.task then some e else none) := by
  simp only [doneBy, List.find?_append]
  cases h : p.done e.task <;> simp [h]

theorem exists_required (kind : RescanKind) : ∃ p : Phase, p.required kind = true := by
  cases kind
  case updOperation | delOperation => exact ⟨messages, rfl⟩
  all_goals exact ⟨accounts, rfl⟩

end Phase

/-! ## The turn of a phase -/

/-- What a step makes of the task `t`: it takes a window for the phase `p`. -/
structure Turn (batch first last : UInt32) (t : RescanTask) (p : Phase) (start stop : UInt32)
    (pl : Plan) (t' : RescanTask) : Prop where
  required : p.required t.kind = true
  undone : p.done t = false
  window : p.window? pl = some (start, stop)
  noWindow : ∀ q, q ≠ p → q.window? pl = none
  start_eq : start.toNat = resumeAt (p.checkpoint t) first
  stop_eq : stop.toNat = min (resumeAt (p.checkpoint t) first + width batch - 1) last.toNat
  le_last : resumeAt (p.checkpoint t) first ≤ last.toNat
  id : t'.id = t.id
  kind : t'.kind = t.kind
  checkpoint : p.checkpoint t' = some stop
  done : p.done t' = decide (last ≤ stop)
  sameCheckpoint : ∀ q, q ≠ p → q.checkpoint t' = q.checkpoint t
  sameDone : ∀ q, q ≠ p → q.done t' = (q.done t || !q.required t.kind)
  finished : t'.finished = (Phase.accounts.done t' && Phase.messages.done t')
  accountsFirst : p = .messages → Phase.accounts.done t' = true

/-- A task with a phase left takes a window for the first such phase. -/
theorem exists_turn (batch : UInt32) {first last : UInt32} {t : RescanTask}
    (hleft : ∃ p : Phase, p.required t.kind = true ∧ p.done t = false)
    (hroom : ∀ p : Phase, p.required t.kind = true → p.done t = false →
      resumeAt (p.checkpoint t) first ≤ last.toNat) :
    ∃ p start stop, Turn batch first last t p start stop (plan batch (skipPhases t) first last)
      (finish (advance (skipPhases t) last (plan batch (skipPhases t) first last))) := by
  cases ha : (skipPhases t).accountsDone with
  | false =>
    obtain ⟨hundone, hreq⟩ : t.accountsDone = false ∧ t.kind.rescansAccounts = true := by
      simpa [skipPhases] using ha
    have hle := hroom .accounts hreq hundone
    obtain ⟨start, stop, hwindow, hstart, hstop⟩ := exists_window batch hle
    have hplan : plan batch (skipPhases t) first last = .accounts (some (start, stop)) := by
      rw [plan, ha, ← hwindow]
      rfl
    rw [hplan]
    refine ⟨.accounts, start, stop, ?_⟩
    constructor
    case required => exact hreq
    case undone => exact hundone
    case start_eq => exact hstart
    case stop_eq => exact hstop
    case le_last => exact hle
    case noWindow | sameCheckpoint | sameDone =>
      intro q hq
      cases q with
      | accounts => exact absurd rfl hq
      | messages => rfl
    case accountsFirst => exact fun h => by cases h
    all_goals rfl
  | true =>
    obtain ⟨hundone, hreq⟩ : t.messagesDone = false ∧ t.kind.rescansMessages = true := by
      obtain ⟨p, hreq, hundone⟩ := hleft
      cases p with
      | accounts => simp_all [skipPhases, Phase.required, Phase.done]
      | messages => exact ⟨hundone, hreq⟩
    have hm : (skipPhases t).messagesDone = false := by simp [skipPhases, hundone, hreq]
    have hle := hroom .messages hreq hundone
    obtain ⟨start, stop, hwindow, hstart, hstop⟩ := exists_window batch hle
    have hplan : plan batch (skipPhases t) first last = .messages (some (start, stop)) := by
      rw [plan, ha, hm, ← hwindow]
      rfl
    rw [hplan]
    refine ⟨.messages, start, stop, ?_⟩
    constructor
    case required => exact hreq
    case undone => exact hundone
    case start_eq => exact hstart
    case stop_eq => exact hstop
    case le_last => exact hle
    case noWindow | sameCheckpoint | sameDone =>
      intro q hq
      cases q with
      | accounts => rfl
      | messages => exact absurd rfl hq
    case accountsFirst => exact fun _ => ha
    all_goals rfl

namespace Turn

variable {batch first last start stop : UInt32} {t t' : RescanTask} {p q : Phase} {pl : Plan}

theorem resumeAt_eq (turn : Turn batch first last t p start stop pl t') :
    resumeAt (p.checkpoint t') first = stop.toNat + 1 := by
  have hfirst := le_resumeAt (p.checkpoint t) first
  have hle := turn.le_last
  have hstop := turn.stop_eq
  have hwidth := one_le_width batch
  rw [turn.checkpoint, resumeAt_of_le (by omega)]

/-- The turn ends with the last master block if it marks the phase as done. -/
theorem stop_of_done (turn : Turn batch first last t p start stop pl t') (hdone : p.done t' = true) :
    stop.toNat = last.toNat := by
  have hstop := turn.stop_eq
  rw [turn.done, decide_eq_true_eq, UInt32.le_iff_toNat_le] at hdone
  omega

theorem stop_of_undone (turn : Turn batch first last t p start stop pl t') (hundone : p.done t' = false) :
    stop.toNat < last.toNat := by
  rw [turn.done, decide_eq_false_iff_not, UInt32.le_iff_toNat_le] at hundone
  omega

/-- The turn of a phase does not mark any other one as done. -/
theorem done_other (turn : Turn batch first last t p start stop pl t') (hq : q ≠ p)
    (hreq : q.required t.kind = true) : q.done t' = q.done t := by
  rw [turn.sameDone q hq, hreq, Bool.not_true, Bool.or_false]

theorem ne_of_skipped (turn : Turn batch first last t p start stop pl t')
    (hq : q.required t.kind = false) : q ≠ p := by
  rintro rfl
  rw [turn.required] at hq
  cases hq

theorem done_skipped (turn : Turn batch first last t p start stop pl t')
    (hq : q.required t.kind = false) : q.done t' = true := by
  rw [turn.sameDone q (turn.ne_of_skipped hq), hq, Bool.not_false, Bool.or_true]

variable (es : List Entry) (masters : List Nat) (n : Nat)

theorem windows_self (turn : Turn batch first last t p start stop pl t') :
    p.windows (es ++ [⟨t', pl, masters, n⟩]) = p.windows es ++ [(start, stop)] := by
  rw [Phase.windows_append, turn.window, Option.toList_some]

theorem windows_other (turn : Turn batch first last t p start stop pl t') (hq : q ≠ p) :
    q.windows (es ++ [⟨t', pl, masters, n⟩]) = q.windows es := by
  rw [Phase.windows_append, turn.noWindow q hq, Option.toList_none, List.append_nil]

theorem length_windows (turn : Turn batch first last t p start stop pl t') (q : Phase) :
    (q.windows (es ++ [⟨t', pl, masters, n⟩])).length =
      (q.windows es).length + if q = p then 1 else 0 := by
  by_cases hq : q = p
  · subst hq
    rw [turn.windows_self, List.length_append, List.length_singleton, if_pos rfl]
  · rw [turn.windows_other _ _ _ hq, if_neg hq, Nat.add_zero]

end Turn

/-! ## Progress -/

/-- How far the steps `es` have taken a task. -/
structure Progress (batch first : UInt32) (es : List Entry) (t : RescanTask) : Prop where
  finished : t.finished = (Phase.accounts.done t && Phase.messages.done t)
  left : t.finished = false → ∃ p : Phase, p.required t.kind = true ∧ p.done t = false
  skipped : ∀ p : Phase, p.required t.kind = false → p.windows es = [] ∧ (es ≠ [] → p.done t = true)
  sized : ∀ p : Phase, ∀ window ∈ p.windows es,
    window.1.toNat ≤ window.2.toNat ∧ window.2.toNat < window.1.toNat + width batch
  covered : ∀ p : Phase, p.required t.kind = true → (p.windows es).flatMap heights =
    List.range' first.toNat (resumeAt (p.checkpoint t) first - first.toNat)
  /-- Only full windows were taken for a phase that is not done, and there is more to come. -/
  undone : ∀ p : Phase, p.required t.kind = true → p.done t = false →
    p.doneBy es = none ∧
      resumeAt (p.checkpoint t) first = first.toNat + (p.windows es).length * width batch ∧
      ∀ e ∈ es.getLast?, resumeAt (p.checkpoint t) first ≤ e.last
  /-- A phase that is done has reached the last master block of the step that marked it. -/
  done : ∀ p : Phase, p.required t.kind = true → p.done t = true →
    ∃ e, p.doneBy es = some e ∧ resumeAt (p.checkpoint t) first = e.last + 1 ∧
      (p.windows es).length = (e.last + 1 - first.toNat) ⌈/⌉ width batch
  /-- Every step took one window. -/
  length : es.length = (Phase.accounts.windows es).length + (Phase.messages.windows es).length
  accountsFirst : Phase.messages.required t.kind = true →
    ∀ e ∈ es, Phase.messages.done e.task = true → Phase.accounts.done e.task = true
  /-- Messages wait until the accounts are done. -/
  waits : Phase.accounts.required t.kind = true → Phase.accounts.done t = false →
    Phase.messages.windows es = []
  grows : es.Pairwise fun a b => a.last ≤ b.last

/-- A task that waits for its first step. -/
structure Fresh (first : UInt32) (t : RescanTask) : Prop where
  finished : t.finished = false
  undone : ∀ p : Phase, p.required t.kind = true → p.done t = false
  checkpoint : ∀ p : Phase, p.required t.kind = true → resumeAt (p.checkpoint t) first = first.toNat

namespace Progress

variable {batch first last : UInt32} {es : List Entry} {t t' : RescanTask}

theorem of_fresh (h : Fresh first t) : Progress batch first [] t where
  finished := by
    obtain ⟨p, hp⟩ := Phase.exists_required t.kind
    have hundone := h.undone p hp
    rw [h.finished]
    cases p <;> simp [hundone]
  left _ := by
    obtain ⟨p, hp⟩ := Phase.exists_required t.kind
    exact ⟨p, hp, h.undone p hp⟩
  skipped p _ := ⟨rfl, fun h => absurd rfl h⟩
  sized p window h := by cases h
  covered p hp := by simp [h.checkpoint p hp, Phase.windows]
  undone p hp _ := ⟨rfl, by simp [h.checkpoint p hp, Phase.windows], fun e he => by cases he⟩
  done p hp hdone := by simp [h.undone p hp] at hdone
  length := rfl
  accountsFirst _ e he := by cases he
  waits _ _ := rfl
  grows := .nil

/-- A phase that is not done has numbers left. -/
theorem room (h : Progress batch first es t) (hfirst : first.toNat ≤ last.toNat)
    (hlast : ∀ e ∈ es, e.last ≤ last.toNat) (p : Phase) (hreq : p.required t.kind = true)
    (hundone : p.done t = false) : resumeAt (p.checkpoint t) first ≤ last.toNat := by
  obtain ⟨-, hcount, hmore⟩ := h.undone p hreq hundone
  cases hes : es.getLast? with
  | none =>
    rw [List.getLast?_eq_none_iff] at hes
    subst hes
    rw [hcount]
    simpa [Phase.windows] using hfirst
  | some e => exact Nat.le_trans (hmore e hes) (hlast e (List.mem_of_getLast? hes))

/-- The window that reaches the last master block makes the number of windows a rounded quotient. -/
theorem count_eq_ceilDiv {c n w : ℕ} (hw : 0 < w) (hlt : c * w < n) (hle : n ≤ (c + 1) * w) :
    c + 1 = n ⌈/⌉ w := by
  have hge : n ⌈/⌉ w ≤ c + 1 := by
    rw [ceilDiv_le_iff_le_mul hw, Nat.mul_comm]
    exact hle
  have hgt : ¬ n ⌈/⌉ w ≤ c := by
    rw [ceilDiv_le_iff_le_mul hw, Nat.mul_comm, Nat.not_le]
    exact hlt
  omega

section Extend

variable {p : Phase} {start stop : UInt32} {pl : Plan}

theorem sized_extend (h : Progress batch first es t) (turn : Turn batch first last t p start stop pl t')
    (masters : List Nat) (n : Nat) (q : Phase) {window : UInt32 × UInt32}
    (hmem : window ∈ q.windows (es ++ [⟨t', pl, masters, n⟩])) :
    window.1.toNat ≤ window.2.toNat ∧ window.2.toNat < window.1.toNat + width batch := by
  by_cases hq : q = p
  · subst hq
    rw [turn.windows_self, List.mem_append, List.mem_singleton] at hmem
    rcases hmem with hmem | rfl
    · exact h.sized q window hmem
    · have hle := turn.le_last
      have hstart := turn.start_eq
      have hstop := turn.stop_eq
      have hwidth := one_le_width batch
      dsimp only
      omega
  · rw [turn.windows_other _ _ _ hq] at hmem
    exact h.sized q window hmem

theorem covered_extend (h : Progress batch first es t) (turn : Turn batch first last t p start stop pl t')
    (masters : List Nat) (n : Nat) {q : Phase} (hreq : q.required t.kind = true) :
    (q.windows (es ++ [⟨t', pl, masters, n⟩])).flatMap heights =
      List.range' first.toNat (resumeAt (q.checkpoint t') first - first.toNat) := by
  by_cases hq : q = p
  · subst hq
    have hfirst := le_resumeAt (q.checkpoint t) first
    have hle := turn.le_last
    have hstop := turn.stop_eq
    have hwidth := one_le_width batch
    rw [turn.windows_self, List.flatMap_append, List.flatMap_singleton, h.covered q hreq,
      turn.resumeAt_eq, ← turn.start_eq]
    rw [← turn.start_eq] at hfirst hle hstop
    exact heights_append (by omega) (by omega)
  · rw [turn.windows_other _ _ _ hq, turn.sameCheckpoint q hq, h.covered q hreq]

theorem undone_extend (h : Progress batch first es t) (turn : Turn batch first last t p start stop pl t')
    (masters : List Nat) (hfirst : first.toNat ≤ last.toNat) (hlast : ∀ e ∈ es, e.last ≤ last.toNat)
    {q : Phase} (hreq : q.required t.kind = true) (hundone : q.done t' = false) :
    q.doneBy (es ++ [⟨t', pl, masters, last.toNat⟩]) = none ∧
      resumeAt (q.checkpoint t') first =
        first.toNat + (q.windows (es ++ [⟨t', pl, masters, last.toNat⟩])).length * width batch ∧
      resumeAt (q.checkpoint t') first ≤ last.toNat := by
  rw [Phase.doneBy_append, hundone, if_neg Bool.false_ne_true, Option.or_none]
  by_cases hq : q = p
  · subst hq
    obtain ⟨hnone, hcount, -⟩ := h.undone q hreq turn.undone
    have hmore := turn.stop_of_undone hundone
    have hstop := turn.stop_eq
    have hwidth := one_le_width batch
    rw [turn.resumeAt_eq, turn.windows_self, List.length_append, List.length_singleton, Nat.add_mul,
      Nat.one_mul]
    exact ⟨hnone, by omega, by omega⟩
  · rw [turn.done_other hq hreq] at hundone
    obtain ⟨hnone, hcount, -⟩ := h.undone q hreq hundone
    rw [turn.sameCheckpoint q hq, turn.windows_other _ _ _ hq]
    exact ⟨hnone, hcount, h.room hfirst hlast q hreq hundone⟩

theorem done_extend (h : Progress batch first es t) (turn : Turn batch first last t p start stop pl t')
    (masters : List Nat) {q : Phase} (hreq : q.required t.kind = true) (hdone : q.done t' = true) :
    ∃ e, q.doneBy (es ++ [⟨t', pl, masters, last.toNat⟩]) = some e ∧
      resumeAt (q.checkpoint t') first = e.last + 1 ∧
      (q.windows (es ++ [⟨t', pl, masters, last.toNat⟩])).length =
        (e.last + 1 - first.toNat) ⌈/⌉ width batch := by
  rw [Phase.doneBy_append]
  by_cases hq : q = p
  · subst hq
    obtain ⟨hnone, hcount, -⟩ := h.undone q hreq turn.undone
    have hend := turn.stop_of_done hdone
    have hle := turn.le_last
    have hstop := turn.stop_eq
    have hwidth := one_le_width batch
    refine ⟨⟨t', pl, masters, last.toNat⟩, ?_, by rw [turn.resumeAt_eq, hend], ?_⟩
    · rw [hnone, Option.none_or, if_pos hdone]
    · rw [turn.windows_self, List.length_append, List.length_singleton]
      show _ + 1 = (last.toNat + 1 - first.toNat) ⌈/⌉ width batch
      refine count_eq_ceilDiv hwidth (by omega) ?_
      rw [Nat.add_mul, Nat.one_mul]
      omega
  · rw [turn.done_other hq hreq] at hdone
    obtain ⟨e, he, hresume, hcount⟩ := h.done q hreq hdone
    refine ⟨e, ?_, ?_, ?_⟩
    · rw [he, Option.some_or]
    · rw [turn.sameCheckpoint q hq, hresume]
    · rw [turn.windows_other _ _ _ hq, hcount]

theorem accountsFirst_extend (h : Progress batch first es t)
    (turn : Turn batch first last t p start stop pl t')
    (hreq : Phase.messages.required t.kind = true) (hdone : Phase.messages.done t' = true) :
    Phase.accounts.done t' = true := by
  cases p with
  | messages => exact turn.accountsFirst rfl
  | accounts =>
    -- messages are not done before accounts
    rw [turn.done_other (by decide) hreq] at hdone
    obtain ⟨e, he, -⟩ := h.done .messages hreq hdone
    have hmem := List.mem_of_find?_eq_some he
    have haccounts := h.accountsFirst hreq e hmem (by simpa using List.find?_some he)
    obtain ⟨hnone, -⟩ := h.undone .accounts turn.required turn.undone
    exact absurd haccounts (List.find?_eq_none.1 hnone e hmem)

/-- Every step goes on where the steps before it have stopped. -/
theorem extend (h : Progress batch first es t) (turn : Turn batch first last t p start stop pl t')
    (masters : List Nat) (hfirst : first.toNat ≤ last.toNat) (hlast : ∀ e ∈ es, e.last ≤ last.toNat) :
    Progress batch first (es ++ [⟨t', pl, masters, last.toNat⟩]) t' where
  finished := turn.finished
  left hfin := by
    obtain ⟨q, hq⟩ : ∃ q : Phase, q.done t' = false := by
      rw [turn.finished, Bool.and_eq_false_iff] at hfin
      rcases hfin with hq | hq
      · exact ⟨_, hq⟩
      · exact ⟨_, hq⟩
    refine ⟨q, ?_, hq⟩
    rw [turn.kind]
    by_contra hreq
    simp [turn.done_skipped (q := q) (by simpa using hreq)] at hq
  skipped q hq := by
    rw [turn.kind] at hq
    refine ⟨?_, fun _ => turn.done_skipped hq⟩
    rw [turn.windows_other _ _ _ (turn.ne_of_skipped hq), (h.skipped q hq).1]
  sized q _ hmem := h.sized_extend turn masters _ q hmem
  covered q hreq := h.covered_extend turn masters _ (turn.kind ▸ hreq)
  undone q hreq hundone := by
    rw [turn.kind] at hreq
    obtain ⟨hnone, hcount, hle⟩ := h.undone_extend turn masters hfirst hlast hreq hundone
    refine ⟨hnone, hcount, fun e he => ?_⟩
    rw [List.getLast?_concat] at he
    obtain rfl := Option.some.inj he
    exact hle
  done q hreq hdone := h.done_extend turn masters (turn.kind ▸ hreq) hdone
  length := by
    rw [turn.length_windows, turn.length_windows, List.length_append, h.length, List.length_singleton]
    cases p
    · simp only [reduceCtorEq, if_true, if_false]
      omega
    · simp only [reduceCtorEq, if_true, if_false]
      omega
  accountsFirst hreq e he hdone := by
    rw [turn.kind] at hreq
    rcases List.mem_append.1 he with he | he
    · exact h.accountsFirst hreq e he hdone
    · obtain rfl := List.mem_singleton.1 he
      exact h.accountsFirst_extend turn hreq hdone
  waits _ hundone := by
    cases p with
    | accounts => rw [turn.windows_other _ _ _ (by decide), h.waits turn.required turn.undone]
    | messages => simp [turn.accountsFirst rfl] at hundone
  grows := by
    refine List.pairwise_append.2 ⟨h.grows, by simp, ?_⟩
    intro a ha b hb
    obtain rfl := List.mem_singleton.1 hb
    exact hlast a ha

end Extend

/-- No message is covered before the accounts are done. -/
theorem resumeAt_of_waits (h : Progress batch first es t)
    (hreq : Phase.messages.required t.kind = true) (haccounts : Phase.accounts.required t.kind = true)
    (hundone : Phase.accounts.done t = false) :
    resumeAt (Phase.messages.checkpoint t) first = first.toNat := by
  have hcovered := congrArg List.length (h.covered .messages hreq)
  rw [h.waits haccounts hundone, List.flatMap_nil, List.length_nil, List.length_range'] at hcovered
  have hle := le_resumeAt (Phase.messages.checkpoint t) first
  omega

/-- Messages are covered at least as far as accounts. -/
theorem last_le_last (h : Progress batch first es t) (hreq : Phase.messages.required t.kind = true)
    {a m : Entry} (ha : Phase.accounts.doneBy es = some a) (hm : Phase.messages.doneBy es = some m) :
    a.last ≤ m.last := by
  have hmem := List.mem_of_find?_eq_some hm
  have hdone := h.accountsFirst hreq m hmem (by simpa using List.find?_some hm)
  obtain ⟨-, before, after, rfl, hbefore⟩ := List.find?_eq_some_iff_append.1 ha
  rcases List.mem_append.1 hmem with hmem | hmem
  · exact absurd hdone (by simpa using hbefore m hmem)
  · rcases List.mem_cons.1 hmem with rfl | hmem
    · exact Nat.le_refl _
    · have hgrows := (List.pairwise_append.1 h.grows).2.1
      exact (List.pairwise_cons.1 hgrows).1 m hmem

/-- In a history of `n` master blocks a phase takes a rounded quotient of windows, and fewer as long
as it is not done. -/
theorem length_windows (h : Progress batch first es t) {n : Nat} (hn : 0 < n)
    (hfix : ∀ e ∈ es, e.last + 1 = first.toNat + n) (p : Phase)
    (hreq : p.required t.kind = true) :
    (p.done t = true → (p.windows es).length = n ⌈/⌉ width batch) ∧
      (p.done t = false → (p.windows es).length < n ⌈/⌉ width batch) := by
  have hw := one_le_width batch
  constructor
  · intro hdone
    obtain ⟨e, he, -, hcount⟩ := h.done p hreq hdone
    rw [hcount, hfix e (List.mem_of_find?_eq_some he), Nat.add_sub_cancel_left]
  · intro hundone
    obtain ⟨-, hcount, hmore⟩ := h.undone p hreq hundone
    rw [← Nat.not_le, ceilDiv_le_iff_le_mul hw, Nat.mul_comm, Nat.not_le]
    cases hes : es.getLast? with
    | none =>
      rw [List.getLast?_eq_none_iff] at hes
      subst hes
      simpa [Phase.windows] using hn
    | some e =>
      have := hmore e hes
      have := hfix e (List.mem_of_getLast? hes)
      omega

/-- In a history of `n` master blocks a phase takes no more than its share of the steps, and all of it
exactly if it is done or not required. -/
theorem share (h : Progress batch first es t) {n : Nat} (hn : 0 < n)
    (hfix : ∀ e ∈ es, e.last + 1 = first.toNat + n) (p : Phase) :
    (p.windows es).length ≤ (if p.required t.kind then 1 else 0) * (n ⌈/⌉ width batch) ∧
      ((p.windows es).length = (if p.required t.kind then 1 else 0) * (n ⌈/⌉ width batch) ↔
        (p.required t.kind = true → p.done t = true)) := by
  cases hreq : p.required t.kind with
  | false => simp [(h.skipped p hreq).1]
  | true =>
    obtain ⟨hall, hfewer⟩ := h.length_windows hn hfix p hreq
    simp only [if_true, Nat.one_mul, forall_const]
    cases hdone : p.done t with
    | true => simp [hall hdone]
    | false =>
      have := hfewer hdone
      simp only [Bool.false_eq_true, iff_false]
      omega

/-- In a history of `n` master blocks a task is finished after the same number of steps for each phase
that its kind has, and not before. -/
theorem finished_iff (h : Progress batch first es t) {n : Nat} (hn : 0 < n)
    (hfix : ∀ e ∈ es, e.last + 1 = first.toNat + n) :
    (t.finished = true ↔ es.length = Phase.count t.kind * (n ⌈/⌉ width batch)) ∧
      es.length ≤ Phase.count t.kind * (n ⌈/⌉ width batch) := by
  obtain ⟨hale, haeq⟩ := h.share hn hfix .accounts
  obtain ⟨hmle, hmeq⟩ := h.share hn hfix .messages
  have hall : t.finished = true ↔ ∀ p : Phase, p.required t.kind = true → p.done t = true := by
    constructor
    · intro hfin p _
      rw [h.finished, Bool.and_eq_true] at hfin
      cases p with
      | accounts => exact hfin.1
      | messages => exact hfin.2
    · intro hdone
      by_contra hfin
      obtain ⟨p, hreq, hundone⟩ := h.left (by simpa using hfin)
      simp [hdone p hreq] at hundone
  rw [hall, h.length, Phase.count, Nat.add_mul]
  refine ⟨⟨fun hdone => ?_, fun hlen p => ?_⟩, Nat.add_le_add hale hmle⟩
  · rw [haeq.2 (hdone _), hmeq.2 (hdone _)]
  · cases p with
    | accounts => exact haeq.1 (by omega)
    | messages => exact hmeq.1 (by omega)

end Progress

end ShardIndex.Rescan
