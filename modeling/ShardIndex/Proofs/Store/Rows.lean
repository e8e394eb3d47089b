import Mathlib.Data.List.Forall2
import Mathlib.Data.List.Induction
import Mathlib.Data.List.Nodup
import ShardIndex.Store.Query
/-!
# Tables of the store

Every table is written row by row, all but that of the tasks with one of two operations on rows:
`Rows.replaceOrAppend` and `Rows.moveToEnd`. They differ in where a row ends up. What they have in common
is `Keeps`: under each key the last row written is found, and no key has two rows. So a table that was
written from the empty one is known by its writes alone (`Keeps.find?_foldl`, `Keeps.mem_foldl`), whatever
commits the writes were spread over.

Rows that replace others keep their places and those that are new follow at the end (`foldl_eq_append`),
also where keys are repeated. Rows that are put a second time change nothing (`foldl_foldl`): a row that is
followed by another one of its key need not be put, since it replaces one, and the last row of a key is found
in its place already.

Tasks are kept in increasing order of ids, and as long as they are their table is a map
(`RescanTask.find?_insertInto`).
-/
namespace ShardIndex

namespace Rows

variable {ρ κ : Type} [DecidableEq κ]

/-- Writing a row with `put` replaces the row of its key and leaves the other keys alone. -/
structure Keeps (key : ρ → κ) (put : List ρ → ρ → List ρ) : Prop where
  find?_put : ∀ (rows : List ρ) (row : ρ) (k : κ), (put rows row).find? (fun r => key r == k) =
    if key row = k then some row else rows.find? fun r => key r == k
  nodup_put : ∀ (rows : List ρ) (row : ρ), (rows.map key).Nodup → ((put rows row).map key).Nodup

section

variable {key : ρ → κ} {row : ρ} {same : ρ → Bool}

theorem find?_replaceOrAppend (hsame : ∀ r, same r = true ↔ key r = key row) (k : κ) (rows : List ρ) :
    (replaceOrAppend same row rows).find? (fun r => key r == k) =
      if key row = k then some row else rows.find? fun r => key r == k := by
  induction rows with
  | nil => by_cases h : key row = k <;> simp [replaceOrAppend, h]
  | cons r rs ih =>
    by_cases hr : key r = key row
    · by_cases h : key row = k <;> simp [replaceOrAppend, hsame, hr, h]
    · by_cases h : key r = k
      · subst h
        simp [replaceOrAppend, hsame, hr, Ne.symm hr]
      · simp [replaceOrAppend, hsame, hr, h, ih]

theorem map_replaceOrAppend (hsame : ∀ r, same r = true ↔ key r = key row) (rows : List ρ) :
    (replaceOrAppend same row rows).map key =
      if key row ∈ rows.map key then rows.map key else rows.map key ++ [key row] := by
  induction rows with
  | nil => simp [replaceOrAppend]
  | cons r rs ih =>
    by_cases hr : key r = key row
    · simp [replaceOrAppend, hsame, hr]
    · simp only [replaceOrAppend, hsame, hr, if_false, List.map_cons, ih, List.mem_cons,
        Ne.symm hr, false_or]
      split <;> rfl

/-- Writing a row brings no other row into the table. -/
theorem mem_of_mem_replaceOrAppend {r : ρ} : ∀ {rows : List ρ}, r ∈ replaceOrAppend same row rows →
    r = row ∨ r ∈ rows
  | [], h => .inl (List.mem_singleton.1 h)
  | x :: rows, h => by
    rw [replaceOrAppend] at h
    split at h
    · exact (List.mem_cons.1 h).imp_right (List.mem_cons_of_mem _)
    · rcases List.mem_cons.1 h with rfl | h
      · exact .inr List.mem_cons_self
      · exact (mem_of_mem_replaceOrAppend h).imp_right (List.mem_cons_of_mem _)

theorem find?_moveToEnd (hsame : ∀ r, same r = true ↔ key r = key row) (k : κ) (rows : List ρ) :
    (moveToEnd same row rows).find? (fun r => key r == k) =
      if key row = k then some row else rows.find? fun r => key r == k := by
  rw [moveToEnd, List.find?_append]
  by_cases h : key row = k
  · have hnone : (rows.filter fun r => !same r).find? (fun r => key r == k) = none := by
      refine List.find?_eq_none.2 fun r hr => ?_
      have hne := (List.mem_filter.1 hr).2
      rw [Bool.not_eq_true', ← Bool.not_eq_true, hsame] at hne
      simpa [h] using hne
    simp [hnone, h]
  · have hk : (key row == k) = false := by simp [h]
    have hrows : (rows.filter fun r => !same r).find? (fun r => key r == k) =
        rows.find? fun r => key r == k := by
      simp only [List.find?_filter]
      congr 1
      funext r
      by_cases e : key r = k
      · have hr : same r = false := by
          rw [← Bool.not_eq_true, hsame, e]
          exact Ne.symm h
        simp [hr, e]
      · simp [e]
    simp [hrows, hk, h]

end

theorem keeps_replaceOrAppend (key : ρ → κ) (same : ρ → ρ → Bool)
    (hsame : ∀ row r, same row r = true ↔ key r = key row) :
    Keeps key fun rows row => replaceOrAppend (same row) row rows where
  find?_put rows row k := find?_replaceOrAppend (hsame row) k rows
  nodup_put rows row h := by
    rw [map_replaceOrAppend (hsame row)]
    split
    · exact h
    · rename_i hrow
      refine List.nodup_append.2 ⟨h, by simp, ?_⟩
      rintro a ha b hb rfl
      exact hrow (List.mem_singleton.1 hb ▸ ha)

theorem keeps_moveToEnd (key : ρ → κ) (same : ρ → ρ → Bool)
    (hsame : ∀ row r, same row r = true ↔ key r = key row) :
    Keeps key fun rows row => moveToEnd (same row) row rows where
  find?_put rows row k := find?_moveToEnd (hsame row) k rows
  nodup_put rows row h := by
    have hs : ((rows.filter fun r => !same row r).map key).Nodup :=
      h.sublist (List.filter_sublist.map key)
    simp only [moveToEnd, List.map_append, List.map_cons, List.map_nil]
    refine List.nodup_append.2 ⟨hs, by simp, ?_⟩
    rintro a ha b hb rfl
    obtain ⟨r, hr, hra⟩ := List.mem_map.1 ha
    have hne := (List.mem_filter.1 hr).2
    rw [(hsame row r).2 (hra.trans (List.mem_singleton.1 hb))] at hne
    simp at hne

/-- If rows may be put into a table one after the other, under each key the last one is found, or else what was
there before. -/
theorem find?_foldl {key : ρ → κ} {put : List ρ → ρ → List ρ} {P : List ρ → Prop}
    (hput : ∀ table row, P table → P (put table row))
    (hfind : ∀ table row k, P table → (put table row).find? (fun r => key r == k) =
      if key row = k then some row else table.find? fun r => key r == k) (k : κ) :
    ∀ (rows : List ρ) {table : List ρ}, P table → (rows.foldl put table).find? (fun r => key r == k) =
      (rows.filter fun r => key r == k).getLast?.or (table.find? fun r => key r == k)
  | [], table, _ => by simp
  | r :: rs, table, h => by
    rw [List.foldl_cons, find?_foldl hput hfind k rs (hput _ r h), hfind _ _ _ h]
    by_cases hr : key r = k
    · cases hl : (rs.filter fun r => key r == k).getLast? <;> simp [hr, List.getLast?_cons, hl]
    · simp [hr]

namespace Keeps

variable {key : ρ → κ} {put : List ρ → ρ → List ρ}

/-- Under each key the last row written is found, or else what was there before. -/
theorem find?_foldl (h : Keeps key put) (k : κ) (rows table : List ρ) :
    (rows.foldl put table).find? (fun r => key r == k) =
      (rows.filter fun r => key r == k).getLast?.or (table.find? fun r => key r == k) :=
  Rows.find?_foldl (P := fun _ => True) (fun _ _ => id) (fun table row k _ => h.find?_put table row k) k rows
    trivial

theorem nodup_foldl (h : Keeps key put) : ∀ (rows table : List ρ), (table.map key).Nodup →
    ((rows.foldl put table).map key).Nodup
  | [], _, ht => ht
  | r :: rs, table, ht => nodup_foldl h rs _ (h.nodup_put table r ht)

end Keeps

/-- A key that was written has a last row. -/
theorem exists_last {key : ρ → κ} {k : κ} {rows : List ρ} (h : k ∈ rows.map key) :
    ∃ r ∈ rows, key r = k ∧ (rows.filter fun r => key r == k).getLast? = some r := by
  obtain ⟨r, hr, rfl⟩ := List.mem_map.1 h
  have hmem : r ∈ rows.filter fun x => key x == key r := by simp [hr]
  obtain ⟨x, hx⟩ := Option.isSome_iff_exists.1 (List.getLast?_isSome.2 (List.ne_nil_of_mem hmem))
  have hx' := List.mem_filter.1 (List.mem_of_getLast? hx)
  exact ⟨x, hx'.1, by simpa using hx'.2, hx⟩

/-- In a table without repeated keys the rows are those that are found under their own key. -/
theorem mem_iff_find? {key : ρ → κ} {table : List ρ} (h : (table.map key).Nodup) (r : ρ) :
    r ∈ table ↔ table.find? (fun x => key x == key r) = some r := by
  constructor
  · intro hr
    cases hf : table.find? fun x => key x == key r with
    | none =>
      have := List.find?_eq_none.1 hf r hr
      simp at this
    | some x =>
      have hx : key x = key r := by simpa using List.find?_some hf
      rw [List.inj_on_of_nodup_map h (List.mem_of_find?_eq_some hf) hr hx]
  · exact List.mem_of_find?_eq_some

/-- Two tables without repeated keys that answer every key alike have the same rows. -/
theorem perm_of_find?_eq {key : ρ → κ} {s t : List ρ} (hs : (s.map key).Nodup)
    (ht : (t.map key).Nodup)
    (h : ∀ k, s.find? (fun r => key r == k) = t.find? fun r => key r == k) : s.Perm t := by
  refine (List.perm_ext_iff_of_nodup hs.of_map ht.of_map).2 fun r => ?_
  rw [mem_iff_find? hs, mem_iff_find? ht, h]

theorem Keeps.mem_of_mem_foldl {key : ρ → κ} {put : List ρ → ρ → List ρ} (h : Keeps key put)
    {rows : List ρ} {r : ρ} (hr : r ∈ rows.foldl put []) : r ∈ rows := by
  rw [mem_iff_find? (h.nodup_foldl rows [] (by simp)), h.find?_foldl, List.find?_nil,
    Option.or_none] at hr
  exact (List.mem_filter.1 (List.mem_of_getLast? hr)).1

/-- A row that is written under a key of its own is in the table in the end. -/
theorem Keeps.mem_foldl {key : ρ → κ} {put : List ρ → ρ → List ρ} (h : Keeps key put) {rows : List ρ}
    {r : ρ} (hkey : ∀ a ∈ rows, key a = key r → a = r) :
    r ∈ rows.foldl put [] ↔ r ∈ rows := by
  refine ⟨h.mem_of_mem_foldl, fun hr => ?_⟩
  rw [mem_iff_find? (h.nodup_foldl rows [] (by simp)), h.find?_foldl, List.find?_nil,
    Option.or_none]
  have hmem : key r ∈ rows.map key := List.mem_map_of_mem hr
  obtain ⟨x, hx, hxr, hlast⟩ := exists_last hmem
  rw [hlast, hkey x hx hxr]

omit [DecidableEq κ] in
theorem map_eq_of_forall₂ {key : ρ → κ} : ∀ {old now : List ρ},
    List.Forall₂ (fun old now => key now = key old) old now → now.map key = old.map key
  | _, _, .nil => rfl
  | _, _, .cons h hs => congrArg₂ List.cons h (map_eq_of_forall₂ hs)

/-! ### Rows that are put again -/

section again

variable {key : ρ → κ} {same : ρ → ρ → Bool} (hsame : ∀ row r, same row r = true ↔ key r = key row)

include hsame

/-- A row that is found under its key is put in its own place. -/
theorem replaceOrAppend_of_find? {row : ρ} : ∀ {table : List ρ},
    (table.find? fun r => key r == key row) = some row → replaceOrAppend (same row) row table = table
  | [], h => by cases h
  | r :: table, h => by
    rw [replaceOrAppend]
    by_cases hr : key r = key row
    · have hrow : r = row := by simpa [hr] using h
      rw [if_pos ((hsame row r).2 hr), hrow]
    · have hrest : (table.find? fun r => key r == key row) = some row := by simpa [hr] using h
      rw [if_neg (mt (hsame row r).1 hr), replaceOrAppend_of_find? hrest]

/-- Of two rows with one key only the second one stays. -/
theorem replaceOrAppend_same {old row : ρ} (h : key old = key row) : ∀ table : List ρ,
    replaceOrAppend (same row) row (replaceOrAppend (same old) old table) =
      replaceOrAppend (same row) row table
  | [] => by simp [replaceOrAppend, hsame, h]
  | r :: table => by
    by_cases hr : key r = key row
    · simp [replaceOrAppend, hsame, h, hr]
    · simp [replaceOrAppend, hsame, h, hr, replaceOrAppend_same h table]

/-- A row that replaces one does so before or after a row of another key is put. -/
theorem replaceOrAppend_comm {old row : ρ} (h : key old ≠ key row) : ∀ {table : List ρ},
    key old ∈ table.map key →
      replaceOrAppend (same row) row (replaceOrAppend (same old) old table) =
        replaceOrAppend (same old) old (replaceOrAppend (same row) row table)
  | [], hmem => by cases hmem
  | r :: table, hmem => by
    by_cases hold : key r = key old
    · simp [replaceOrAppend, hsame, hold, h]
    · have hmem := (List.mem_cons.1 hmem).resolve_left (Ne.symm hold)
      by_cases hrow : key r = key row
      · simp [replaceOrAppend, hsame, hrow, Ne.symm h]
      · simp [replaceOrAppend, hsame, hold, hrow, replaceOrAppend_comm h hmem]

/-- A row is put into the part of a table that has its key, or else at the end. -/
theorem replaceOrAppend_append (row : ρ) (b : List ρ) : ∀ a : List ρ,
    replaceOrAppend (same row) row (a ++ b) =
      if key row ∈ a.map key then replaceOrAppend (same row) row a ++ b
      else a ++ replaceOrAppend (same row) row b
  | [] => by simp
  | r :: a => by
    by_cases hr : key r = key row
    · simp [replaceOrAppend, hsame, hr]
    · simp only [List.cons_append, replaceOrAppend, hsame, hr, if_false, List.map_cons, List.mem_cons,
        Ne.symm hr, false_or, replaceOrAppend_append row b a]
      split <;> rfl

/-- A row that replaces one changes no other place. -/
theorem forall₂_replaceOrAppend {row : ρ} {R S : ρ → ρ → Prop} (hkept : ∀ old now, R old now → S old now)
    (hrow : ∀ old now, R old now → key now = key row → S old row) : ∀ {table kept : List ρ},
    List.Forall₂ R table kept → key row ∈ kept.map key →
      List.Forall₂ S table (replaceOrAppend (same row) row kept)
  | _, _, .nil, h => by cases h
  | _, now :: kept, .cons hhead htail, h => by
    rw [replaceOrAppend]
    by_cases hnow : key now = key row
    · rw [if_pos ((hsame row now).2 hnow)]
      exact .cons (hrow _ _ hhead hnow) (htail.imp hkept)
    · rw [if_neg (mt (hsame row now).1 hnow)]
      refine .cons (hkept _ _ hhead) (forall₂_replaceOrAppend hkept hrow htail ?_)
      exact (List.mem_cons.1 h).resolve_left (Ne.symm hnow)

/-- Rows that are put one by one replace rows of their keys in place. What is new follows, once a key. -/
theorem foldl_eq_append (table rows : List ρ) : ∃ kept new : List ρ,
    rows.foldl (fun t row => replaceOrAppend (same row) row t) table = kept ++ new ∧
      List.Forall₂ (fun old now => now = old ∨ now ∈ rows ∧ key now = key old) table kept ∧
      (new.map key).Nodup ∧ ∀ r ∈ new, r ∈ rows ∧ key r ∉ table.map key := by
  induction rows using List.reverseRecOn with
  | nil =>
    exact ⟨table, [], (List.append_nil _).symm, List.forall₂_same.2 fun _ _ => .inl rfl, List.nodup_nil,
      fun _ h => by cases h⟩
  | append_singleton rows row ih =>
    obtain ⟨kept, new, heq, hkept, honce, hnew⟩ := ih
    have hmono : ∀ r, r ∈ rows → r ∈ rows ++ [row] := fun _ => List.mem_append_left _
    have hlater : ∀ old now, (now = old ∨ now ∈ rows ∧ key now = key old) →
        now = old ∨ now ∈ rows ++ [row] ∧ key now = key old :=
      fun _ _ h => h.imp_right fun h => ⟨hmono _ h.1, h.2⟩
    rw [List.foldl_append, heq, List.foldl_cons, List.foldl_nil, replaceOrAppend_append hsame]
    split
    · rename_i hmem
      refine ⟨_, new, rfl, ?_, honce, fun r hr => ⟨hmono r (hnew r hr).1, (hnew r hr).2⟩⟩
      refine forall₂_replaceOrAppend hsame hlater ?_ hkept hmem
      rintro old now (rfl | ⟨-, hold⟩) hrow
      · exact .inr ⟨by simp, hrow.symm⟩
      · exact .inr ⟨by simp, hrow.symm.trans hold⟩
    · rename_i hmem
      have hkeys : kept.map key = table.map key :=
        map_eq_of_forall₂ (hkept.imp fun _ _ h => h.elim (congrArg key) And.right)
      refine ⟨kept, _, rfl, hkept.imp hlater, ?_, fun r hr => ?_⟩
      · exact (keeps_replaceOrAppend key same hsame).nodup_put new row honce
      · rcases mem_of_mem_replaceOrAppend hr with rfl | hr
        · exact ⟨by simp, hkeys ▸ hmem⟩
        · exact ⟨hmono r (hnew r hr).1, (hnew r hr).2⟩

/-- A row that is replaced by a later one need not be put, if it replaces one itself. -/
theorem foldl_overwritten {row : ρ} : ∀ {rows table : List ρ}, key row ∈ rows.map key →
    key row ∈ table.map key →
      rows.foldl (fun t row => replaceOrAppend (same row) row t) (replaceOrAppend (same row) row table) =
        rows.foldl (fun t row => replaceOrAppend (same row) row t) table
  | [], _, h, _ => by cases h
  | r :: rows, table, h, hmem => by
    rw [List.foldl_cons, List.foldl_cons]
    by_cases hr : key row = key r
    · rw [replaceOrAppend_same hsame hr]
    · rw [replaceOrAppend_comm hsame hr hmem]
      refine foldl_overwritten ((List.mem_cons.1 h).resolve_left hr) ?_
      rw [map_replaceOrAppend (hsame r)]
      split
      · exact hmem
      · exact List.mem_append_left _ hmem

/-- Nothing changes when the last rows of all keys are found already. -/
theorem foldl_settled : ∀ {rows table : List ρ},
    (∀ k r, (rows.filter fun r => key r == k).getLast? = some r → (table.find? fun r => key r == k) = some r) →
      rows.foldl (fun t row => replaceOrAppend (same row) row t) table = table
  | [], _, _ => rfl
  | row :: rows, table, h => by
    have hrest : ∀ k r, (rows.filter fun r => key r == k).getLast? = some r →
        (table.find? fun r => key r == k) = some r := by
      intro k r hlast
      refine h k r ?_
      by_cases hrow : key row = k
      · simp [hrow, List.getLast?_cons, hlast]
      · simp [hrow, hlast]
    rw [List.foldl_cons]
    by_cases hlater : key row ∈ rows.map key
    · -- the table has a row of the key, that of the last row
      have hmem : key row ∈ table.map key := by
        obtain ⟨last, -, hkey, hlast⟩ := exists_last hlater
        exact List.mem_map.2 ⟨last, List.mem_of_find?_eq_some (hrest _ _ hlast), hkey⟩
      rw [foldl_overwritten hsame hlater hmem, foldl_settled hrest]
    · have hnone : rows.filter (fun r => key r == key row) = [] :=
        List.filter_eq_nil_iff.2 fun r hr hkey =>
          hlater (List.mem_map.2 ⟨r, hr, by simpa using hkey⟩)
      have hrow := h (key row) row (by simp [hnone])
      rw [replaceOrAppend_of_find? hsame hrow, foldl_settled hrest]

/-- Rows that are put a second time change nothing. -/
theorem foldl_foldl (rows table : List ρ) :
    rows.foldl (fun t row => replaceOrAppend (same row) row t)
        (rows.foldl (fun t row => replaceOrAppend (same row) row t) table) =
      rows.foldl (fun t row => replaceOrAppend (same row) row t) table := by
  refine foldl_settled hsame fun k r hlast => ?_
  rw [(keeps_replaceOrAppend key same hsame).find?_foldl, hlast, Option.some_or]

end again

end Rows

namespace Store

theorem keeps_putBlock : Rows.Keeps (fun b : Block => b.id) putBlock :=
  Rows.keeps_moveToEnd _ (fun row old : Block => old.id == row.id) (by simp)

theorem keeps_putMessage : Rows.Keeps (fun m : Message => m.hash) putMessage :=
  Rows.keeps_replaceOrAppend _ (fun row old : Message => old.hash == row.hash) (by simp)

theorem keeps_putTransaction : Rows.Keeps (fun t : Transaction => t.hash) putTransaction :=
  Rows.keeps_moveToEnd _ (fun row old : Transaction => old.hash == row.hash) (by simp)

/-- What makes two snapshots the same row. -/
def accountKey (s : AccountState) : Address × UInt64 × BlockRef :=
  (s.address, s.lastTxLt, s.block)

theorem keeps_putAccount : Rows.Keeps accountKey putAccount :=
  Rows.keeps_replaceOrAppend _ (fun row old : AccountState => old.sameKey row)
    (by simp [AccountState.sameKey, accountKey, and_assoc])

theorem mem_of_mem_foldl_putAccount {s : AccountState} : ∀ (rows table : List AccountState),
    s ∈ rows.foldl putAccount table → s ∈ rows ∨ s ∈ table
  | [], _, h => .inr h
  | r :: rows, table, h => by
    rcases mem_of_mem_foldl_putAccount rows (putAccount table r) h with h | h
    · exact .inl (List.mem_cons_of_mem _ h)
    · rcases Rows.mem_of_mem_replaceOrAppend h with rfl | h
      · exact .inl List.mem_cons_self
      · exact .inr h

end Store

/-! ## The table of tasks -/

/-- The tasks of the store are in increasing order of ids. -/
def Store.TasksSorted (s : Store) : Prop :=
  (s.tasks.map (·.id)).Pairwise (· < ·)

instance (s : Store) : Decidable s.TasksSorted :=
  inferInstanceAs (Decidable (List.Pairwise _ _))

namespace RescanTask

theorem mem_insertInto {t r : RescanTask} : ∀ {tasks : List RescanTask},
    r ∈ t.insertInto tasks → r = t ∨ r ∈ tasks
  | [], h => .inl (by simpa [insertInto] using h)
  | x :: rest, h => by
    rw [insertInto] at h
    split at h
    · exact (List.mem_cons.1 h).imp_right (List.mem_cons_of_mem _)
    · split at h
      · exact List.mem_cons.1 h
      · rcases List.mem_cons.1 h with rfl | h
        · exact .inr List.mem_cons_self
        · exact (mem_insertInto h).imp_right (List.mem_cons_of_mem _)

/-- The other tasks stay. -/
theorem mem_insertInto_of_mem {t r : RescanTask} (hne : r.id ≠ t.id) : ∀ {tasks : List RescanTask},
    r ∈ tasks → r ∈ t.insertInto tasks
  | x :: rest, h => by
    rw [insertInto]
    split
    · rename_i hid
      rcases List.mem_cons.1 h with rfl | h
      · exact absurd hid hne
      · exact List.mem_cons_of_mem _ h
    · split
      · exact List.mem_cons_of_mem _ h
      · rcases List.mem_cons.1 h with rfl | h
        · exact List.mem_cons_self
        · exact List.mem_cons_of_mem _ (mem_insertInto_of_mem hne h)

theorem sorted_insertInto (t : RescanTask) : ∀ {tasks : List RescanTask},
    (tasks.map (·.id)).Pairwise (· < ·) → ((t.insertInto tasks).map (·.id)).Pairwise (· < ·)
  | [], _ => by simp [insertInto]
  | x :: rest, h => by
    obtain ⟨hx, hrest⟩ := List.pairwise_cons.1 h
    rw [insertInto]
    split
    · rename_i hid
      exact List.pairwise_cons.2 ⟨fun n hn => Nat.lt_of_le_of_lt (Nat.le_of_eq hid.symm) (hx n hn), hrest⟩
    · rename_i hne
      split
      · rename_i hlt
        refine List.pairwise_cons.2 ⟨?_, h⟩
        intro n hn
        rcases List.mem_cons.1 hn with rfl | hn
        · exact hlt
        · exact Nat.lt_trans hlt (hx n hn)
      · rename_i hle
        refine List.pairwise_cons.2 ⟨?_, sorted_insertInto t hrest⟩
        intro n hn
        obtain ⟨r, hr, rfl⟩ := List.mem_map.1 hn
        rcases mem_insertInto hr with rfl | hr
        · exact Nat.lt_of_le_of_ne (Nat.not_lt.1 hle) hne
        · exact hx _ (List.mem_map_of_mem hr)

/-- A written task is found under its id, and the others as before. -/
theorem find?_insertInto (t : RescanTask) (k : Nat) : ∀ {tasks : List RescanTask},
    (tasks.map (·.id)).Pairwise (· < ·) →
      (t.insertInto tasks).find? (fun r => r.id == k) =
        if t.id = k then some t else tasks.find? fun r => r.id == k
  | [], _ => by
    by_cases h : t.id = k <;> simp [insertInto, h]
  | x :: rest, h => by
    obtain ⟨hx, hrest⟩ := List.pairwise_cons.1 h
    rw [insertInto]
    split
    · rename_i hid
      by_cases hk : t.id = k
      · simp [hk]
      · simp [hk, hid]
    · rename_i hid
      split
      · by_cases hk : t.id = k
        · simp [hk]
        · simp [hk]
      · rw [List.find?_cons, find?_insertInto t k hrest]
        by_cases hk : t.id = k
        · have hxk : (x.id == k) = false := by
            simp only [beq_eq_false_iff_ne]
            omega
          simp [hk, hxk]
        · simp [hk, List.find?_cons]

/-- A task that is there is replaced in its place. -/
theorem insertInto_eq_map (t : RescanTask) : ∀ {tasks : List RescanTask},
    (tasks.map (·.id)).Pairwise (· < ·) → t.id ∈ tasks.map (·.id) →
      t.insertInto tasks = tasks.map fun r => if r.id = t.id then t else r
  | [], _, hmem => by cases hmem
  | x :: rest, h, hmem => by
    obtain ⟨hx, hrest⟩ := List.pairwise_cons.1 h
    rw [insertInto, List.map_cons]
    by_cases hid : x.id = t.id
    · have hsame : rest.map (fun r => if r.id = t.id then t else r) = rest := by
        refine (List.map_congr_left fun r hr => if_neg fun e => ?_).trans (List.map_id' rest)
        exact Nat.ne_of_lt (hx r.id (List.mem_map_of_mem hr)) (hid.trans e.symm)
      rw [if_pos hid, if_pos hid, hsame]
    · have hmem' : t.id ∈ rest.map (·.id) := (List.mem_cons.1 hmem).resolve_left (Ne.symm hid)
      have hlt : ¬ t.id < x.id := Nat.not_lt.2 (Nat.le_of_lt (hx _ hmem'))
      rw [if_neg hid, if_neg hid, if_neg hlt, insertInto_eq_map t hrest hmem']

end RescanTask

end ShardIndex
