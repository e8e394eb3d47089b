/-!
# Finite maps as association lists

Two shapes of keyed data are used throughout the library.

* `Table K V` is a finite map: `get?`, `set` and `erase` behave as on a map, and no query depends
  on the order of the entries.
* `Rows` are plain lists with a key read off each row, where the order of the rows is part of the
  content: `replaceOrAppend` keeps the place of a row that is already there, `moveToEnd` does not.
-/
namespace ShardIndex

/-- A finite map, given by its entries; the first entry of a key counts. -/
abbrev Table (K V : Type) := List (K × V)

namespace Table

variable {K V : Type} [DecidableEq K]

/-- The value stored under `k`. -/
def get? : Table K V → K → Option V
  | [], _ => none
  | (a, v) :: t, k => if a = k then some v else get? t k

/-- Forgets the key `k`. -/
def erase (t : Table K V) (k : K) : Table K V :=
  t.filter fun e => decide (e.1 ≠ k)

/-- Stores `v` under `k` in place of whatever was there. -/
def set (t : Table K V) (k : K) (v : V) : Table K V :=
  (k, v) :: t.erase k

/-- The table of a list of entries; later entries of a key win. -/
def ofEntries (entries : List (K × V)) : Table K V :=
  entries.foldl (fun t e => t.set e.1 e.2) []

@[simp] theorem get?_nil (k : K) : get? ([] : Table K V) k = none := rfl

theorem get?_erase (t : Table K V) (k j : K) :
    (t.erase k).get? j = if j = k then none else t.get? j := by
  induction t with
  | nil => simp [erase, get?]
  | cons e t ih =>
    obtain ⟨a, v⟩ := e
    by_cases hak : a = k
    · subst hak
      simp only [erase, List.filter_cons, ne_eq, not_true_eq_false, decide_false,
        Bool.false_eq_true, if_false] at ih ⊢
      rw [ih]
      by_cases hj : j = a
      · simp [hj]
      · simp [hj, get?, Ne.symm hj]
    · simp only [erase, List.filter_cons, ne_eq, hak, not_false_eq_true, decide_true, if_true,
        get?] at ih ⊢
      by_cases haj : a = j
      · subst haj; simp [hak]
      · simp only [haj, if_false]
        exact ih

theorem get?_set (t : Table K V) (k j : K) (v : V) :
    (t.set k v).get? j = if j = k then some v else t.get? j := by
  by_cases hj : j = k
  · simp [set, get?, hj]
  · simp [set, get?, hj, Ne.symm hj, get?_erase]

theorem get?_foldl_set (entries : List (K × V)) (t : Table K V) (k : K) :
    get? (entries.foldl (fun t e => t.set e.1 e.2) t) k =
      ((entries.filter fun e => decide (e.1 = k)).getLast?.map (·.2)).or (t.get? k) := by
  induction entries generalizing t with
  | nil => simp
  | cons e es ih =>
    rw [List.foldl_cons, ih, get?_set]
    by_cases he : e.1 = k
    · cases hl : (es.filter fun e => decide (e.1 = k)).getLast? <;>
        simp [he, List.getLast?_cons, hl]
    · simp [he, Ne.symm he]

/-- A key has the value of its last entry. -/
theorem get?_ofEntries (entries : List (K × V)) (k : K) :
    (ofEntries entries).get? k = (entries.filter fun e => decide (e.1 = k)).getLast?.map (·.2) := by
  rw [ofEntries, get?_foldl_set, get?_nil, Option.or_none]

theorem mem_of_get? {t : Table K V} {k : K} {a : V} (h : t.get? k = some a) : (k, a) ∈ t := by
  induction t with
  | nil => cases h
  | cons e t ih =>
    rw [get?] at h
    split at h
    · rename_i hk
      rw [← hk, ← Option.some.inj h]
      exact List.mem_cons_self
    · exact List.mem_cons_of_mem _ (ih h)

/-- An entry is found, where keys are not repeated. -/
theorem get?_of_mem {k : K} {v : V} : ∀ {t : Table K V}, (t.map (·.1)).Nodup → (k, v) ∈ t →
    t.get? k = some v
  | [], _, h => by cases h
  | (a, w) :: t, hnodup, h => by
    rw [List.map_cons, List.nodup_cons] at hnodup
    rw [Table.get?]
    rcases List.mem_cons.1 h with h | h
    · cases h
      exact if_pos rfl
    · have ha : a ≠ k := by
        rintro rfl
        exact hnodup.1 (List.mem_map.2 ⟨_, h, rfl⟩)
      rw [if_neg ha]
      exact get?_of_mem hnodup.2 h

end Table

namespace Rows

variable {ρ : Type}

/-- Puts `row` in the place of the first row it takes the place of, or at the end. -/
def replaceOrAppend (same : ρ → Bool) (row : ρ) : List ρ → List ρ
  | [] => [row]
  | r :: rs => if same r then row :: rs else r :: replaceOrAppend same row rs

/-- Drops every row that `row` takes the place of and adds `row` at the end. -/
def moveToEnd (same : ρ → Bool) (row : ρ) (rows : List ρ) : List ρ :=
  rows.filter (fun r => !same r) ++ [row]

end Rows

end ShardIndex
