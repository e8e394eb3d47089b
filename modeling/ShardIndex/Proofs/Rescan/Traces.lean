import ShardIndex.Proofs.Forward.Arrivals
import ShardIndex.Proofs.Rescan.Frame
/-!
# Commits of the rescan and of the forward path

What happens to a store that the rescan shares with the forward path is a list of commits (`Event`): batches
that arrive, and steps of the rescan with what they have read before. Each commit is lawful (`Event.Lawful`):
a batch appends rows of later master blocks, and a step revises rows within the window that it took after its
first three reads, none of which was then to grow any more.

Whatever the order of the commits is (`Trace`), a row stays until a step whose window has its master block
replaces it (`Trace.account_kept`, `Trace.message_kept`), and what is later than the last master block of a
store is all that can come in after it (`Trace.grows`).
-/
namespace ShardIndex

/-! ## Stores that go on -/

/-- The store `s'` has come from `s`: its end was not lost, and what it has for the master blocks of `s` are
rows of `s`, revised. -/
structure Store.Grows (s s' : Store) : Prop where
  last : s.LastGrows s'
  blocks : ∀ b ∈ s'.blocks, b ∈ s.blocks ∨ s.Before b.masterSeqno
  transactions : ∀ t ∈ s'.transactions, t ∈ s.transactions ∨ s.Before t.masterSeqno
  accounts : ∀ b ∈ s'.accounts, (∃ a ∈ s.accounts, b.chain = a.chain) ∨ s.Before b.masterSeqno
  messages : ∀ b ∈ s'.messages, (∃ a ∈ s.messages, b.chain = a.chain) ∨
    ∀ n, b.masterSeqno? = some n → s.Before n

/-- Nothing has happened to the rows, and no task has changed. -/
structure Store.Rests (s s' : Store) : Prop where
  blocks : s'.blocks = s.blocks
  transactions : s'.transactions = s.transactions
  accounts : s'.accounts = s.accounts
  messages : s'.messages = s.messages
  tasks : s.tasks ⊆ s'.tasks

namespace Store

variable {s s' s'' : Store} {within : UInt32 → Prop}

theorem Rests.refl (s : Store) : s.Rests s :=
  ⟨rfl, rfl, rfl, rfl, List.Subset.refl _⟩

theorem Rests.trans (h : s.Rests s') (h' : s'.Rests s'') : s.Rests s'' where
  blocks := h'.blocks.trans h.blocks
  transactions := h'.transactions.trans h.transactions
  accounts := h'.accounts.trans h.accounts
  messages := h'.messages.trans h.messages
  tasks := List.Subset.trans h.tasks h'.tasks

namespace Grows

theorem trans (h : s.Grows s') (h' : s'.Grows s'') : s.Grows s'' where
  last := h.last.trans h'.last
  blocks b hb := (h'.blocks b hb).elim (h.blocks b) fun hn => .inr (h.last.before hn)
  transactions t ht := (h'.transactions t ht).elim (h.transactions t) fun hn => .inr (h.last.before hn)
  accounts c hc := by
    rcases h'.accounts c hc with ⟨b, hb, hcb⟩ | hn
    · have hseqno : c.masterSeqno = b.masterSeqno := (congrArg AccountState.masterSeqno hcb :)
      rcases h.accounts b hb with ⟨a, ha, hba⟩ | hn
      · exact .inl ⟨a, ha, hcb.trans hba⟩
      · exact .inr (hseqno ▸ hn)
    · exact .inr (h.last.before hn)
  messages c hc := by
    rcases h'.messages c hc with ⟨b, hb, hcb⟩ | hn
    · have hseqno := Message.height_of_chain hcb
      rcases h.messages b hb with ⟨a, ha, hba⟩ | hn
      · exact .inl ⟨a, ha, hcb.trans hba⟩
      · exact .inr (hseqno ▸ hn)
    · exact .inr fun n hc => h.last.before (hn n hc)

theorem of_extends (h : s.Extends s') : s.Grows s' where
  last := h.lastGrows
  blocks _ hb := h.blocks.mem_or hb
  transactions _ ht := h.transactions.mem_or ht
  accounts a ha := (h.accounts.mem_or ha).imp_left fun ha => ⟨a, ha, rfl⟩
  messages m hm := (h.messages.mem_or hm).imp_left fun hm => ⟨m, hm, rfl⟩

theorem of_revises (h : s.Revises within s') : s.Grows s' where
  last := lastGrows_of_subset (h.blocks ▸ List.Subset.refl _)
  blocks _ hb := .inl (h.blocks ▸ hb)
  transactions _ ht := .inl (h.transactions ▸ ht)
  accounts b hb := by
    obtain ⟨a, ha, hrevised⟩ := exists_of_forall₂ h.accounts.flip hb
    exact .inl ⟨a, ha, hrevised.core⟩
  messages b hb := by
    obtain ⟨a, ha, hrevised⟩ := exists_of_forall₂ h.messages.flip hb
    exact .inl ⟨a, ha, hrevised.core⟩

theorem of_rests (h : s.Rests s') : s.Grows s' where
  last := lastGrows_of_subset (h.blocks ▸ List.Subset.refl _)
  blocks _ hb := .inl (h.blocks ▸ hb)
  transactions _ ht := .inl (h.transactions ▸ ht)
  accounts a ha := .inl ⟨a, h.accounts ▸ ha, rfl⟩
  messages m hm := .inl ⟨m, h.messages ▸ hm, rfl⟩

end Grows

/-- All that `s'` has for the master block `n` and for those before it was shown by `s`. -/
structure Shows (s : Store) (n : UInt32) (s' : Store) : Prop where
  blocks : ∀ b ∈ s'.blocks, b.masterSeqno ≤ n → b ∈ s.blocks
  transactions : ∀ t ∈ s'.transactions, t.masterSeqno ≤ n → t ∈ s.transactions
  accounts : ∀ b ∈ s'.accounts, b.masterSeqno ≤ n → ∃ a ∈ s.accounts, b.chain = a.chain
  messages : ∀ b ∈ s'.messages, ∀ k, b.masterSeqno? = some k → k ≤ n →
    ∃ a ∈ s.messages, b.chain = a.chain

/-- A store shows the rows of all master blocks that are not later than its last one. -/
theorem Grows.shows (h : s.Grows s') {n : UInt32} (hn : ¬ s.Before n) : s.Shows n s' := by
  have hbefore : ∀ k, s.Before k → ¬ k ≤ n := by
    intro k hk hle
    refine hn fun b hb => UInt32.lt_of_lt_of_le (hk b hb) hle
  refine ⟨fun b hb hle => ?_, fun t ht hle => ?_, fun b hb hle => ?_, fun b hb k hk hle => ?_⟩
  · exact (h.blocks b hb).resolve_right fun hk => hbefore _ hk hle
  · exact (h.transactions t ht).resolve_right fun hk => hbefore _ hk hle
  · exact (h.accounts b hb).resolve_right fun hk => hbefore _ hk hle
  · exact (h.messages b hb).resolve_right fun hall => hbefore _ (hall k hk) hle

end Store

namespace Rescan

/-! ## Commits -/

/-- What is committed to a shared store. -/
inductive Event where
  /-- A batch of the forward path. -/
  | arrival (before after : Store)
  /-- A step of the rescan: the store as each of its reads has found it, in their order, and the store before and
  after its commit. The first three reads are those of the task and of the first and the last master block; then
  follow definitions, the range query and lookups. -/
  | rescan (reads : List Store) (before after : Store)

namespace Event

def before : Event → Store
  | arrival before _ => before
  | rescan _ before _ => before

def after : Event → Store
  | arrival _ after => after
  | rescan _ _ after => after

end Event

/-- The task and the ends of the history that a step goes by, after its first three reads. -/
def jobOf : List Store → Option (RescanTask × UInt32 × UInt32)
  | s₀ :: s₁ :: s₂ :: _ => do
    let task ← s₀.unfinishedTask
    let first ← s₁.firstMaster
    let last ← s₂.lastMaster
    return (skipPhases task, first.id.seqno, last.id.seqno)
  | _ => none

/-- The window that a step takes after its first three reads. -/
def windowOf (batch : UInt32) (reads : List Store) : Option (UInt32 × UInt32) := do
  let (task, first, last) ← jobOf reads
  (plan batch task first last).window?

/-- The window has the master block. -/
def InWindow (batch : UInt32) (reads : List Store) (n : UInt32) : Prop :=
  ∃ start stop, windowOf batch reads = some (start, stop) ∧ start ≤ n ∧ n ≤ stop

/-- The commit of a step by what it has read. -/
structure Rescanned (batch : UInt32) (reads : List Store) (before after : Store) : Prop where
  revises : before.Revises (InWindow batch reads) after
  /-- A checkpoint that the step has moved is the end of its window. -/
  checkpoint : ∀ t' ∈ after.tasks, t' ∉ before.tasks → ∀ (p : Phase) n, p.checkpoint t' = some n →
    (∃ t ∈ before.tasks, t.id = t'.id ∧ p.checkpoint t = some n) ∨
      ∃ start, windowOf batch reads = some (start, n)
  /-- From the third read on, nothing was to come for the window any more. -/
  visible : ∀ start stop, windowOf batch reads = some (start, stop) → ∀ s ∈ reads.drop 2,
    s.Grows before ∧ ¬ s.Before stop

/-- What the two sides may commit. -/
def Event.Lawful (batch : UInt32) : Event → Prop
  | arrival before after => before.Extends after
  | rescan reads before after => Rescanned batch reads before after

/-- The step has replaced rows of the master block. -/
def Event.Replaces (batch : UInt32) (n : UInt32) : Event → Prop
  | arrival _ _ => False
  | rescan reads _ _ => InWindow batch reads n

def Event.IsRescan : Event → Prop
  | arrival _ _ => False
  | rescan _ _ _ => True

/-- Lawful commits, one after the other, that have taken a store to another one; in between nothing happens to
the rows. -/
inductive Trace (batch : UInt32) : Store → List Event → Store → Prop
  | nil {s s' : Store} (h : s.Rests s') : Trace batch s [] s'
  | cons {s s' : Store} {e : Event} {es : List Event} (hbefore : s.Rests e.before) (he : e.Lawful batch)
      (h : Trace batch e.after es s') : Trace batch s (e :: es) s'

namespace Trace

variable {batch : UInt32} {s s' s'' : Store} {es es' : List Event} {e : Event}

theorem rests_left (h : s.Rests s') (h' : Trace batch s' es s'') : Trace batch s es s'' := by
  cases h' with
  | nil hrests => exact .nil (h.trans hrests)
  | cons hbefore he hrest => exact .cons (h.trans hbefore) he hrest

theorem append (h : Trace batch s es s') (h' : Trace batch s' es' s'') :
    Trace batch s (es ++ es') s'' := by
  induction h with
  | nil hrests => exact rests_left hrests h'
  | cons hbefore he _ ih => exact .cons hbefore he (ih h')

theorem single (he : e.Lawful batch) : Trace batch e.before [e] e.after :=
  .cons (.refl _) he (.nil (.refl _))

/-- A trace falls into what was before and after each of its commits. -/
theorem split (h : Trace batch s (es ++ e :: es') s') :
    Trace batch s es e.before ∧ e.Lawful batch ∧ Trace batch e.after es' s' := by
  induction es generalizing s with
  | nil =>
    cases h with
    | cons hbefore he hrest => exact ⟨.nil hbefore, he, hrest⟩
  | cons x es ih =>
    cases h with
    | cons hbefore hx hrest =>
      obtain ⟨hes, he, hrest⟩ := ih hrest
      exact ⟨.cons hbefore hx hes, he, hrest⟩

theorem grows_of_lawful (he : e.Lawful batch) : e.before.Grows e.after := by
  cases e with
  | arrival before after => exact .of_extends he
  | rescan reads before after => exact .of_revises he.revises

/-- Whatever is committed, nothing comes in for master blocks that the store already knew. -/
theorem grows (h : Trace batch s es s') : s.Grows s' := by
  induction h with
  | nil hrests => exact .of_rests hrests
  | cons hbefore he _ ih => exact (Store.Grows.of_rests hbefore).trans ((grows_of_lawful he).trans ih)

/-! ### Rows that are kept -/

section

variable {ρ : Type} (table : Store → List ρ)

/-- A row that no commit of the trace takes away is there in the end. -/
theorem kept (hrests : ∀ {s s' : Store}, s.Rests s' → table s ⊆ table s') {r : ρ} {P : Event → Prop}
    (hP : ∀ e : Event, e.Lawful batch → r ∈ table e.before → r ∈ table e.after ∨ P e)
    (h : Trace batch s es s') (hr : r ∈ table s) :
    r ∈ table s' ∨ ∃ e ∈ es, P e ∧ r ∈ table e.before ∧ r ∉ table e.after := by
  induction h with
  | nil h => exact .inl (hrests h hr)
  | @cons s s' e es hbefore he _ ih =>
    have hr' := hrests hbefore hr
    by_cases hafter : r ∈ table e.after
    · rcases ih hafter with h | ⟨x, hx, hlost⟩
      · exact .inl h
      · exact .inr ⟨x, List.mem_cons_of_mem _ hx, hlost⟩
    · exact .inr ⟨e, List.mem_cons_self, (hP e he hr').resolve_left hafter, hr', hafter⟩

end

theorem block_kept (h : Trace batch s es s') {b : Block} (hb : b ∈ s.blocks) : b ∈ s'.blocks := by
  have hkept : ∀ e : Event, e.Lawful batch → b ∈ e.before.blocks → b ∈ e.after.blocks ∨ False := by
    rintro (⟨before, after⟩ | ⟨reads, before, after⟩) he hb
    · exact .inl (he.blocks.subset hb)
    · exact .inl (he.revises.blocks.symm ▸ hb)
  exact (kept Store.blocks (fun h => h.blocks.symm ▸ List.Subset.refl _) hkept h hb).resolve_right
    fun ⟨_, _, hfalse, _⟩ => hfalse

theorem transaction_kept (h : Trace batch s es s') {t : Transaction} (ht : t ∈ s.transactions) :
    t ∈ s'.transactions := by
  have hkept : ∀ e : Event, e.Lawful batch → t ∈ e.before.transactions →
      t ∈ e.after.transactions ∨ False := by
    rintro (⟨before, after⟩ | ⟨reads, before, after⟩) he ht
    · exact .inl (he.transactions.subset ht)
    · exact .inl (he.revises.transactions.symm ▸ ht)
  exact (kept Store.transactions (fun h => h.transactions.symm ▸ List.Subset.refl _) hkept h
    ht).resolve_right fun ⟨_, _, hfalse, _⟩ => hfalse

/-- A snapshot stays as it was written until a step whose window has its master block replaces it. -/
theorem account_kept (h : Trace batch s es s') {a : AccountState} (ha : a ∈ s.accounts) :
    a ∈ s'.accounts ∨ ∃ e ∈ es, e.Replaces batch a.masterSeqno ∧ a ∈ e.before.accounts ∧
      a ∉ e.after.accounts := by
  refine kept Store.accounts (fun h => h.accounts.symm ▸ List.Subset.refl _) ?_ h ha
  rintro (⟨before, after⟩ | ⟨reads, before, after⟩) he ha
  · exact .inl (he.accounts.subset ha)
  · obtain ⟨b, hb, hrevised⟩ := exists_of_forall₂ he.revises.accounts ha
    by_cases hba : b = a
    · exact .inl (hba ▸ hb)
    · obtain ⟨n, hn, hwindow⟩ := hrevised.within hba
      obtain rfl := Option.some.inj hn
      exact .inr hwindow

theorem message_kept (h : Trace batch s es s') {m : Message} (hm : m ∈ s.messages) :
    m ∈ s'.messages ∨ ∃ e ∈ es, (∃ n, m.masterSeqno? = some n ∧ e.Replaces batch n) ∧
      m ∈ e.before.messages ∧ m ∉ e.after.messages := by
  refine kept Store.messages (fun h => h.messages.symm ▸ List.Subset.refl _) ?_ h hm
  rintro (⟨before, after⟩ | ⟨reads, before, after⟩) he hm
  · exact .inl (he.messages.subset hm)
  · obtain ⟨b, hb, hrevised⟩ := exists_of_forall₂ he.revises.messages hm
    by_cases hbm : b = m
    · exact .inl (hbm ▸ hb)
    · exact .inr (hrevised.within hbm)

/-- Only steps of the rescan change tasks. -/
theorem task_kept (h : Trace batch s es s') {t : RescanTask} (ht : t ∈ s.tasks) :
    t ∈ s'.tasks ∨ ∃ e ∈ es, e.IsRescan ∧ t ∈ e.before.tasks ∧ t ∉ e.after.tasks := by
  refine kept Store.tasks (fun h => h.tasks) ?_ h ht
  rintro (⟨before, after⟩ | ⟨reads, before, after⟩) he ht
  · exact .inl (he.tasks.symm ▸ ht)
  · exact .inr trivial

end Trace

end Rescan

end ShardIndex
