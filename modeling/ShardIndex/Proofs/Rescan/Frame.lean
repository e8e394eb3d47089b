import ShardIndex.Proofs.Forward.Holdings
import ShardIndex.Proofs.Rescan.Coverage
import ShardIndex.Proofs.Rescan.Course
import ShardIndex.Proofs.Rescan.Origins
/-!
# What a rescan may touch

Rows are written back under the keys that they were read under, so a commit of the rescan revises the
tables row by row (`Store.Revises`): no row comes or goes, what the chain says about a row stays, and a row
that changes belongs to a master block of the window. `Framed` adds what the kind of the task leaves alone.

A run takes steps with any windows, of any tasks, successful or not; between steps definitions may change
and commits may be refused (`Worked`). Every step of it keeps to its frame, and so does the run as a whole
(`Worked.framed`).
-/
namespace ShardIndex

/-! ## Revised tables -/

section

variable {ρ γ κ : Type} {core : ρ → γ} {height : ρ → Option UInt32} {within : UInt32 → Prop}

/-- The row `b` has what is essential about the row `a`, and is `a` unless its master block is within the
range. -/
structure Revised (core : ρ → γ) (height : ρ → Option UInt32) (within : UInt32 → Prop) (a b : ρ) :
    Prop where
  core : core b = core a
  within : b ≠ a → ∃ n, height a = some n ∧ within n

theorem Revised.refl (a : ρ) : Revised core height within a a :=
  ⟨rfl, fun h => absurd rfl h⟩

theorem Revised.trans {a b c : ρ} (hab : Revised core height within a b) (hbc : Revised core height within b c) :
    Revised core height within a c := by
  refine ⟨hbc.core.trans hab.core, fun hne => ?_⟩
  by_cases hb : b = a
  · subst hb
    exact hbc.within hne
  · exact hab.within hb

/-- Rows that are related one by one, twice. -/
theorem forall₂_trans {R : ρ → ρ → Prop} (hR : ∀ {a b c}, R a b → R b c → R a c) {xs ys : List ρ}
    (h : List.Forall₂ R xs ys) : ∀ {zs : List ρ}, List.Forall₂ R ys zs → List.Forall₂ R xs zs := by
  induction h with
  | nil => exact fun h => h
  | cons hxy _ ih =>
    rintro _ ⟨⟩
    rename_i hyz hrest
    exact .cons (hR hxy hyz) (ih hrest)

variable [DecidableEq κ] {key : ρ → κ} (hkey : ∀ {a b}, core b = core a → key b = key a)

include hkey

/-- A row that was made from a row of the table revises that row, and no other one. -/
theorem forall₂_revised_put {same : ρ → Bool} {table : List ρ} {row a : ρ}
    (hsame : ∀ r, same r = true ↔ key r = key row) (hnodup : (table.map key).Nodup) (ha : a ∈ table)
    (hrow : core row = core a) (hwithin : ∃ n, height a = some n ∧ within n) :
    List.Forall₂ (Revised core height within) table (Rows.replaceOrAppend same row table) := by
  have hka : key row = key a := hkey hrow
  rw [Rows.replaceOrAppend_eq_map hsame hnodup (hka ▸ List.mem_map_of_mem ha),
    List.forall₂_map_right_iff]
  refine List.forall₂_same.2 fun r hr => ?_
  by_cases hr' : key r = key row
  · obtain rfl : r = a := List.inj_on_of_nodup_map hnodup hr ha (hr'.trans hka)
    rw [if_pos hr']
    exact ⟨hrow, fun _ => hwithin⟩
  · rw [if_neg hr']
    exact .refl r

theorem forall₂_revised_foldl (hheight : ∀ {a b}, core b = core a → height b = height a)
    {same : ρ → ρ → Bool} (hsame : ∀ row r, same row r = true ↔ key r = key row) :
    ∀ {rows table : List ρ}, (table.map key).Nodup →
      (∀ b ∈ rows, ∃ a ∈ table, core b = core a ∧ ∃ n, height a = some n ∧ within n) →
        List.Forall₂ (Revised core height within) table
          (rows.foldl (fun table row => Rows.replaceOrAppend (same row) row table) table)
  | [], table, _, _ => List.forall₂_same.2 fun r _ => .refl r
  | row :: rows, table, hnodup, hrows => by
    obtain ⟨⟨a, ha, hrow, hwithin⟩, hrest⟩ := List.forall_mem_cons.1 hrows
    have hput := forall₂_revised_put hkey (hsame row) hnodup ha hrow hwithin
    refine forall₂_trans Revised.trans hput
      (forall₂_revised_foldl hheight hsame ((Rows.keeps_replaceOrAppend key same hsame).nodup_put
        table row hnodup) fun b hb => ?_)
    obtain ⟨a', ha', hb, n, hn, hwithin⟩ := hrest b hb
    obtain ⟨c, hc, hrevised⟩ := exists_of_forall₂ hput ha'
    exact ⟨c, hc, hb.trans hrevised.core.symm, n, (hheight hrevised.core).trans hn, hwithin⟩

end

/-! ## Revised stores -/

/-- The store `s'` has the rows of `s`, and they differ at most in what contracts said, within a range of
master blocks. -/
structure Store.Revises (within : UInt32 → Prop) (s s' : Store) : Prop where
  blocks : s'.blocks = s.blocks
  transactions : s'.transactions = s.transactions
  commits : s'.commits = s.commits
  accounts : List.Forall₂ (Revised AccountState.chain Rescan.accountHeight within) s.accounts s'.accounts
  messages : List.Forall₂ (Revised Message.chain Message.masterSeqno? within) s.messages s'.messages

namespace AccountState

variable {a b : AccountState}

theorem key_of_chain (h : b.chain = a.chain) : Store.accountKey b = Store.accountKey a :=
  (congrArg Store.accountKey h :)

theorem height_of_chain (h : b.chain = a.chain) : Rescan.accountHeight b = Rescan.accountHeight a :=
  (congrArg Rescan.accountHeight h :)

end AccountState

namespace Message

variable {a b : Message}

theorem hash_of_chain (h : b.chain = a.chain) : b.hash = a.hash :=
  (congrArg Message.hash h :)

theorem height_of_chain (h : b.chain = a.chain) : b.masterSeqno? = a.masterSeqno? :=
  (congrArg Message.masterSeqno? h :)

end Message

namespace Store.Revises

variable {s s' s'' : Store} {within within' : UInt32 → Prop}

theorem of_same (hblocks : s'.blocks = s.blocks) (htransactions : s'.transactions = s.transactions)
    (hcommits : s'.commits = s.commits) (haccounts : s'.accounts = s.accounts)
    (hmessages : s'.messages = s.messages) : s.Revises within s' := by
  refine ⟨hblocks, htransactions, hcommits, ?_, ?_⟩
  · rw [haccounts]
    exact List.forall₂_same.2 fun a _ => .refl a
  · rw [hmessages]
    exact List.forall₂_same.2 fun m _ => .refl m

theorem of_data (h : s'.data = s.data) : s.Revises within s' :=
  of_same (congrArg Store.blocks h :) (congrArg Store.transactions h :) (congrArg Store.commits h :)
    (congrArg Store.accounts h :) (congrArg Store.messages h :)

theorem trans (h : s.Revises within s') (h' : s'.Revises within s'') : s.Revises within s'' where
  blocks := h'.blocks.trans h.blocks
  transactions := h'.transactions.trans h.transactions
  commits := h'.commits.trans h.commits
  accounts := forall₂_trans Revised.trans h.accounts h'.accounts
  messages := forall₂_trans Revised.trans h.messages h'.messages

theorem widen (h : s.Revises within s') (hw : ∀ n, within n → within' n) : s.Revises within' s' where
  blocks := h.blocks
  transactions := h.transactions
  commits := h.commits
  accounts := h.accounts.imp fun _ _ hr => ⟨hr.core, fun hne => (hr.within hne).imp fun n hn =>
    ⟨hn.1, hw n hn.2⟩⟩
  messages := h.messages.imp fun _ _ hr => ⟨hr.core, fun hne => (hr.within hne).imp fun n hn =>
    ⟨hn.1, hw n hn.2⟩⟩

end Store.Revises

theorem Store.Keyed.of_data {s s' : Store} (hs : s.Keyed) (h : s'.data = s.data) : s'.Keyed := by
  have haccounts : s'.accounts = s.accounts := (congrArg Store.accounts h :)
  have hmessages : s'.messages = s.messages := (congrArg Store.messages h :)
  have htasks : s'.tasks = s.tasks := (congrArg Store.tasks h :)
  refine ⟨haccounts ▸ hs.accounts, hmessages ▸ hs.messages, ?_⟩
  rw [Store.TasksSorted, htasks]
  exact hs.tasks

namespace Rescan

/-- The rows of a plan revise the tables that they come from. -/
theorem Origins.revises {s : Store} {t : RescanTask} {pl : Plan}
    {rows : List AccountState × List Message} (hkeyed : s.Keyed) (h : Origins (· = s) t pl rows)
    (t' : RescanTask) : s.Revises pl.Covers (s.committed (writes rows.1 rows.2 t')) := by
  rw [committed_writes]
  refine ⟨rfl, rfl, rfl, ?_, ?_⟩
  · refine forall₂_revised_foldl AccountState.key_of_chain AccountState.height_of_chain
      (fun row r => by simp [AccountState.sameKey, Store.accountKey, and_assoc]) hkeyed.accounts
      fun b hb => ?_
    obtain ⟨_, rfl, a, ha, hchain, -, hcovers⟩ := h.accounts b hb
    exact ⟨a, ha, hchain, _, rfl, hcovers⟩
  · refine forall₂_revised_foldl Message.hash_of_chain Message.height_of_chain
      (fun row r => by simp) hkeyed.messages fun b hb => ?_
    obtain ⟨_, rfl, a, ha, hchain, hcovers⟩ := h.messages b hb
    exact ⟨a, ha, hchain, hcovers⟩

/-- A task that executes get-methods or reads payloads keeps every label. -/
theorem Origins.types {s : Store} {t : RescanTask} {pl : Plan}
    {rows : List AccountState × List Message} (hkeyed : s.Keyed) (h : Origins (· = s) t pl rows)
    (hkind : RowwiseKind t.kind) (t' : RescanTask) :
    List.Forall₂ (fun a b => b.types = a.types) s.accounts
      (s.committed (writes rows.1 rows.2 t')).accounts := by
  rw [committed_writes]
  have hrevised : List.Forall₂ (Revised (fun a => (a.chain, a.types)) accountHeight pl.Covers)
      s.accounts (rows.1.foldl Store.putAccount s.accounts) := by
    refine forall₂_revised_foldl (fun h => AccountState.key_of_chain (Prod.mk.inj h).1)
      (fun h => AccountState.height_of_chain (Prod.mk.inj h).1)
      (fun row r => by simp [AccountState.sameKey, Store.accountKey, and_assoc]) hkeyed.accounts
      fun b hb => ?_
    obtain ⟨_, rfl, a, ha, hchain, htypes, hcovers⟩ := h.accounts b hb
    exact ⟨a, ha, Prod.ext hchain (htypes hkind), _, rfl, hcovers⟩
  exact hrevised.imp fun a b hr => (Prod.mk.inj hr.core).2

/-! ## Steps -/

/-- The master block belongs to the committed history. -/
def InHistory (s : Store) (n : UInt32) : Prop :=
  ∃ first last, s.firstMaster = some first ∧ s.lastMaster = some last ∧
    first.id.seqno ≤ n ∧ n ≤ last.id.seqno

/-- What a step may do to the store. -/
structure Framed (s s' : Store) : Prop where
  revises : s.Revises (InHistory s) s'
  definitions : s'.interfaces = s.interfaces ∧ s'.operations = s.operations
  /-- Only the first unfinished task may change, in its progress. -/
  tasks : List.Forall₂ (fun t t' => t' = t ∨ s.unfinishedTask = some t ∧ t'.subject = t.subject)
    s.tasks s'.tasks
  /-- A task for an operation changes no snapshot. -/
  operations : ∀ t, s.unfinishedTask = some t → t.kind.rescansAccounts = false →
    s'.accounts = s.accounts
  /-- A task for a get-method changes no message. -/
  methods : ∀ t, s.unfinishedTask = some t → t.kind.rescansMessages = false →
    s'.messages = s.messages
  /-- Only interface tasks change labels. -/
  types : ∀ t, s.unfinishedTask = some t → RowwiseKind t.kind →
    List.Forall₂ (fun a b => b.types = a.types) s.accounts s'.accounts

variable {σ : Type} {parser : Parser (RescanM σ)}

theorem Framed.of_data {s s' : Store} (h : s'.data = s.data) : Framed s s' := by
  have haccounts : s'.accounts = s.accounts := (congrArg Store.accounts h :)
  have hmessages : s'.messages = s.messages := (congrArg Store.messages h :)
  have htasks : s'.tasks = s.tasks := (congrArg Store.tasks h :)
  refine ⟨.of_data h, ⟨(congrArg Store.interfaces h :), (congrArg Store.operations h :)⟩, ?_,
    fun _ _ _ => haccounts, fun _ _ _ => hmessages, fun _ _ _ => ?_⟩
  · rw [htasks]
    exact List.forall₂_same.2 fun t _ => .inl rfl
  · rw [haccounts]
    exact List.forall₂_same.2 fun a _ => rfl

/-- The commit of a step, whatever rows its plan has come to. -/
theorem Framed.of_committed {s : Store} {t : RescanTask} {first last batch : UInt32}
    {rows : List AccountState × List Message} (hkeyed : s.Keyed) (hjob : job s = some (t, first, last))
    (h : Origins (· = s) t (plan batch t first last) rows) :
    Framed s (s.committed
      (writes rows.1 rows.2 (finish (advance t last (plan batch t first last))))) := by
  obtain ⟨task, f, l, hu, hf, hl, rfl, rfl, rfl⟩ := job_eq_some hjob
  have hsubject := subject_finish task l.id.seqno (plan batch (skipPhases task) f.id.seqno l.id.seqno)
  generalize finish _ = t' at hsubject
  have hid : t'.id = task.id := (congrArg RescanTask.id hsubject :)
  have hmem := List.mem_of_find?_eq_some hu
  constructor
  case revises =>
    exact (h.revises hkeyed t').widen fun n hn => ⟨f, l, hf, hl, hn.within⟩
  case definitions =>
    rw [committed_writes]
    exact ⟨rfl, rfl⟩
  case tasks =>
    have hinsert := RescanTask.insertInto_eq_map t' hkeyed.tasks (hid ▸ List.mem_map_of_mem hmem)
    rw [committed_writes]
    dsimp only
    rw [hinsert, List.forall₂_map_right_iff]
    refine List.forall₂_same.2 fun r hr => ?_
    by_cases hk : r.id = t'.id
    · obtain rfl : r = task :=
        List.inj_on_of_nodup_map (hkeyed.tasks.imp Nat.ne_of_lt) hr hmem (hk.trans hid)
      rw [if_pos hk]
      exact .inr ⟨hu, hsubject⟩
    · rw [if_neg hk]
      exact .inl rfl
  case operations =>
    rintro _ hu' hkind
    rw [hu] at hu'
    obtain rfl := Option.some.inj hu'
    rw [committed_writes, h.noAccounts hkind]
    rfl
  case methods =>
    rintro _ hu' hkind
    rw [hu] at hu'
    obtain rfl := Option.some.inj hu'
    rw [committed_writes, h.noMessages hkind]
    rfl
  case types =>
    rintro _ hu' hkind
    rw [hu] at hu'
    obtain rfl := Option.some.inj hu'
    exact h.types hkeyed hkind t'

/-- Every step keeps to its frame, whatever it ends with. -/
theorem step_framed (hparser : LeavesStore parser) (batch : UInt32) {w : Context σ}
    (hkeyed : w.store.Keyed) :
    Framed w.store (exec (step parser batch).run w).2.store ∧
      (exec (step parser batch).run w).2.store.Keyed := by
  have hget : Ends (fun v => v.store = w.store) (getThe Store : RescanM σ Store) (· = w.store) :=
    fun _ h => ⟨h, h⟩
  generalize hr : exec (step parser batch).run w = r
  cases hr ▸ step_leaves hparser batch w with
  | idle h => exact ⟨.of_data rfl, hkeyed⟩
  | failed h => exact ⟨.of_data h, hkeyed.of_data h⟩
  | @committed t t' first last rows u v hjob hrows hu ht hcheckpoint hv =>
    have horigins := carryOut_origins (hparser w.store).calls (lookup_leavesStore w.store) hget t
      (plan batch t first last) w rfl
    rw [hrows] at horigins
    dsimp only
    rw [rewrites_iff.1 hv, ht]
    exact ⟨.of_committed hkeyed hjob (horigins.1 rows rfl), hkeyed.committed _⟩

/-! ## Runs -/

/-- What becomes of a context by steps with any windows. Between steps definitions may change, commits may
be refused, windows may get lost, and the parser may change its state. -/
inductive Worked (parser : Parser (RescanM σ)) (w : Context σ) : Context σ → Prop
  | start : Worked parser w w
  | step {u : Context σ} (h : Worked parser w u) (batch : UInt32) :
      Worked parser w (exec (step parser batch).run u).2
  | between {u v : Context σ} (h : Worked parser w u) (hrows : u.store.KeepsRows v.store) :
      Worked parser w v

theorem InHistory.congr {s s' : Store} (h : s'.blocks = s.blocks) {n : UInt32} :
    InHistory s' n ↔ InHistory s n := by
  unfold InHistory Store.firstMaster Store.lastMaster
  rw [h]

/-- However many steps are taken for whatever tasks, no row comes or goes, blocks and transactions stay, rows
change in what contracts said only, and only within the committed history; tasks change in their progress
only. Every single step changes no other task than the first unfinished one, and no rows that the kind of that
task leaves alone. -/
theorem Worked.framed (hparser : LeavesStore parser) {w v : Context σ} (hkeyed : w.store.Keyed)
    (h : Worked parser w v) :
    w.store.Revises (InHistory w.store) v.store ∧
      List.Forall₂ (fun t t' => t'.subject = t.subject) w.store.tasks v.store.tasks ∧
      ∀ batch, Framed v.store (exec (Rescan.step parser batch).run v).2.store := by
  have hrun : w.store.Revises (InHistory w.store) v.store ∧
      List.Forall₂ (fun t t' => t'.subject = t.subject) w.store.tasks v.store.tasks ∧
      v.store.Keyed := by
    induction h with
    | start => exact ⟨.of_data rfl, List.forall₂_same.2 fun _ _ => rfl, hkeyed⟩
    | @step u h batch ih =>
      obtain ⟨hrevises, htasks, hkeyed⟩ := ih
      obtain ⟨hframed, hkeyed'⟩ := step_framed hparser batch hkeyed
      refine ⟨hrevises.trans (hframed.revises.widen fun n => (InHistory.congr hrevises.blocks).1), ?_,
        hkeyed'⟩
      refine forall₂_trans (fun hab hbc => hbc.trans hab) htasks (hframed.tasks.imp ?_)
      rintro t t' (rfl | ⟨-, hsubject⟩)
      · rfl
      · exact hsubject
    | @between u v h hrows ih =>
      obtain ⟨hrevises, htasks, hkeyed⟩ := ih
      rw [hrows]
      exact ⟨hrevises.trans (.of_same rfl rfl rfl rfl rfl), htasks,
        hkeyed.accounts, hkeyed.messages, hkeyed.tasks⟩
  exact ⟨hrun.1, hrun.2.1, fun batch => (step_framed hparser batch hrun.2.2).1⟩

namespace Sample

/-- A task for an operation waits behind the one for a get-method. -/
def queued : Context Registry :=
  { methodStart with store := { itemStore with
    tasks := [methodTask, { id := 2, kind := .delOperation, contract := "nft_item", operationId := some 7 }] } }

def worked : Nat → Context Registry
  | 0 => queued
  | n + 1 => (exec (step registry 2).run (worked n)).2

end Sample

/-- After the refused commit and four windows both tasks are finished, and the item has its minter. -/
theorem Worked.framed_sample :
    LeavesStore registry ∧ Sample.queued.store.Keyed ∧ Worked registry Sample.queued (Sample.worked 5) ∧
      Sample.queued.store.Revises (InHistory Sample.queued.store) (Sample.worked 5).store ∧
      (Sample.worked 5).store.tasks.map (·.finished) = [true, true] ∧
      (Sample.worked 5).store.accounts.map (·.minter) = [none, some Sample.collection.address] := by
  have hkeyed : Sample.queued.store.Keyed := ⟨by decide +kernel, by decide +kernel, by decide +kernel⟩
  have hworked : Worked registry Sample.queued (Sample.worked 5) :=
    ((((Worked.start.step 2).step 2).step 2).step 2).step 2
  exact ⟨registry_leavesStore, hkeyed, hworked,
    (Worked.framed registry_leavesStore hkeyed hworked).1, by decide +kernel, by decide +kernel⟩

end Rescan

end ShardIndex
