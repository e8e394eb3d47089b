import Mathlib.Data.List.Basic
import Mathlib.Data.List.Perm.Basic
import ShardIndex.Pipeline
/-!
# Windows of heights

What the events of a pipeline do to its window. The heights from `next` up to the end of the window
are either still running or fetched (`Pipeline.Window`); a window opens with all of them running, a
completed fetch moves one of them over, and publishing takes the lowest one away. The fetched ones
are kept in increasing order, so the next height is there exactly when it comes first.

Heights do not wrap around: a window ends at the last height at the latest, and that one is never
in a window.
-/
namespace ShardIndex

variable {β : Type}

/-! ## Heights between two heights -/

theorem toNat_lastHeight : lastHeight.toNat = 4294967295 := rfl

theorem heightsBetween_toNat (start stop : UInt32) :
    (heightsBetween start stop).map UInt32.toNat = List.range' start.toNat (stop.toNat - start.toNat) := by
  unfold heightsBetween
  split
  · rename_i h
    rw [UInt32.lt_iff_toNat_lt] at h
    rw [UInt32.toNat_sub_of_le _ _ (UInt32.le_iff_toNat_le.mpr (Nat.le_of_lt h)), List.range'_eq_map_range,
      List.map_map]
    refine List.map_congr_left fun i hi => ?_
    have hi := List.mem_range.mp hi
    have hstop := stop.toNat_lt
    simp only [Function.comp_apply, UInt32.toNat_add, UInt32.toNat_ofNat']
    omega
  · rename_i h
    rw [UInt32.lt_iff_toNat_lt] at h
    rw [Nat.sub_eq_zero_of_le (Nat.le_of_not_lt h)]
    rfl

theorem mem_heightsBetween {start stop h : UInt32} :
    h ∈ heightsBetween start stop ↔ start ≤ h ∧ h < stop := by
  have hmem : h ∈ heightsBetween start stop ↔
      h.toNat ∈ (heightsBetween start stop).map UInt32.toNat := by
    refine ⟨List.mem_map_of_mem, fun hm => ?_⟩
    obtain ⟨x, hx, hxh⟩ := List.mem_map.mp hm
    rwa [← UInt32.toNat_inj.mp hxh]
  rw [hmem, heightsBetween_toNat, List.mem_range'_1, UInt32.le_iff_toNat_le, UInt32.lt_iff_toNat_lt]
  omega

theorem heightsBetween_sorted (start stop : UInt32) :
    (heightsBetween start stop).Pairwise (· < ·) := by
  have h : (List.range' start.toNat (stop.toNat - start.toNat)).Pairwise (· < ·) := List.pairwise_lt_range'
  rw [← heightsBetween_toNat, List.pairwise_map] at h
  exact h.imp fun hlt => UInt32.lt_iff_toNat_lt.mpr hlt

theorem heightsBetween_nodup (start stop : UInt32) : (heightsBetween start stop).Nodup :=
  (heightsBetween_sorted start stop).imp fun h => UInt32.ne_of_lt h

theorem heightsBetween_self (start : UInt32) : heightsBetween start start = [] := by
  unfold heightsBetween
  rw [if_neg (UInt32.lt_irrefl start)]

theorem toNat_succ_of_lt {h stop : UInt32} (hlt : h < stop) : (h + 1).toNat = h.toNat + 1 := by
  rw [UInt32.lt_iff_toNat_lt] at hlt
  have hstop := stop.toNat_lt
  rw [UInt32.toNat_add]
  exact Nat.mod_eq_of_lt (by have : (1 : UInt32).toNat = 1 := rfl; omega)

theorem map_toNat_inj {a b : List UInt32} (h : a.map UInt32.toNat = b.map UInt32.toNat) : a = b :=
  List.map_injective_iff.mpr (fun _ _ => UInt32.toNat_inj.mp) h

theorem heightsBetween_cons {start stop : UInt32} (h : start < stop) :
    heightsBetween start stop = start :: heightsBetween (start + 1) stop := by
  apply map_toNat_inj
  rw [List.map_cons, heightsBetween_toNat, heightsBetween_toNat, toNat_succ_of_lt h, ← List.range'_succ]
  rw [UInt32.lt_iff_toNat_lt] at h
  congr 1
  omega

theorem heightsBetween_concat {start next stop : UInt32} (hle : start ≤ next) (hlt : next < stop) :
    heightsBetween start (next + 1) = heightsBetween start next ++ [next] := by
  apply map_toNat_inj
  rw [List.map_append, heightsBetween_toNat, heightsBetween_toNat, toNat_succ_of_lt hlt]
  rw [UInt32.le_iff_toNat_le] at hle
  rw [show next.toNat + 1 - start.toNat = next.toNat - start.toNat + 1 by omega, List.range'_1_concat,
    Nat.add_sub_cancel' hle]
  rfl

namespace Pipeline

/-! ## The fetched heights -/

theorem mem_insertFetched {height : UInt32} {b : β} {l : List (UInt32 × β)} {x : UInt32 × β}
    (h : x ∈ insertFetched height b l) : x = (height, b) ∨ x ∈ l := by
  induction l with
  | nil => exact .inl (List.mem_singleton.mp h)
  | cons y rest ih =>
    unfold insertFetched at h
    split at h
    · exact List.mem_cons.mp h
    · split at h
      · exact (List.mem_cons.mp h).imp_right fun h => List.mem_cons_of_mem y h
      · rcases List.mem_cons.mp h with rfl | h
        · exact .inr List.mem_cons_self
        · exact (ih h).imp_right fun h => List.mem_cons_of_mem y h

theorem insertFetched_perm (height : UInt32) (b : β) (l : List (UInt32 × β))
    (hnew : height ∉ l.map (·.1)) :
    (insertFetched height b l).Perm ((height, b) :: l) := by
  induction l with
  | nil => exact List.Perm.refl _
  | cons x rest ih =>
    obtain ⟨h, c⟩ := x
    rw [List.map_cons, List.mem_cons, not_or] at hnew
    unfold insertFetched
    split
    · exact List.Perm.refl _
    · rw [if_neg (fun heq => hnew.1 heq.symm)]
      exact ((ih hnew.2).cons _).trans (List.Perm.swap _ _ _)

theorem insertFetched_sorted (height : UInt32) (b : β) (l : List (UInt32 × β))
    (hnew : height ∉ l.map (·.1)) (hl : l.Pairwise (·.1 < ·.1)) :
    (insertFetched height b l).Pairwise (·.1 < ·.1) := by
  induction l with
  | nil => exact List.pairwise_singleton _ _
  | cons x rest ih =>
    obtain ⟨h, c⟩ := x
    rw [List.map_cons, List.mem_cons, not_or] at hnew
    have hrest := List.pairwise_cons.mp hl
    unfold insertFetched
    split
    · rename_i hlt
      refine List.pairwise_cons.mpr ⟨fun y hy => ?_, hl⟩
      rcases List.mem_cons.mp hy with rfl | hy
      · exact hlt
      · exact UInt32.lt_trans hlt (hrest.1 y hy)
    · rename_i hge
      rw [if_neg (fun heq => hnew.1 heq.symm)]
      refine List.pairwise_cons.mpr ⟨fun y hy => ?_, ih hnew.2 hrest.2⟩
      rcases List.mem_cons.mp ((insertFetched_perm height b rest hnew.2).mem_iff.mp hy) with rfl | hy
      · exact UInt32.lt_of_le_of_ne (UInt32.not_lt.mp hge) (fun heq => hnew.1 heq.symm)
      · exact hrest.1 y hy

/-! ## The window -/

/-- The heights of the window that are not published: those that run and those that are fetched. -/
structure Window (p : Pipeline β) (stop : UInt32) : Prop where
  le_stop : p.next ≤ stop
  heights : (p.running ++ p.fetched.map (·.1)).Perm (heightsBetween p.next stop)
  sorted : p.fetched.Pairwise (·.1 < ·.1)

/-- A window is as long as there are workers, unless it reaches the last height. -/
theorem toNat_windowEnd (p : Pipeline β) :
    p.windowEnd.toNat = min (p.next.toNat + p.workers.toNat) lastHeight.toNat := by
  have hnext := p.next.toNat_lt
  have hworkers := p.workers.toNat_lt
  have hle : p.next ≤ lastHeight := by
    rw [UInt32.le_iff_toNat_le, toNat_lastHeight]
    omega
  unfold windowEnd
  split
  · rename_i h
    rw [UInt32.lt_iff_toNat_lt, UInt32.toNat_sub_of_le _ _ hle] at h
    rw [toNat_lastHeight] at h ⊢
    omega
  · rename_i h
    rw [UInt32.lt_iff_toNat_lt, UInt32.toNat_sub_of_le _ _ hle] at h
    rw [toNat_lastHeight] at h ⊢
    rw [UInt32.toNat_add]
    omega

-- These are read off the fields of `p`: to compare `p.openWindow` with `p` as a whole would mean to
-- compute the window.

@[simp] theorem openWindow_workers (p : Pipeline β) : p.openWindow.workers = p.workers := by
  obtain ⟨w, n, r, f⟩ := p
  exact Eq.refl w

@[simp] theorem openWindow_next (p : Pipeline β) : p.openWindow.next = p.next := by
  obtain ⟨w, n, r, f⟩ := p
  exact Eq.refl n

@[simp] theorem openWindow_fetched (p : Pipeline β) : p.openWindow.fetched = p.fetched := by
  obtain ⟨w, n, r, f⟩ := p
  exact Eq.refl f

@[simp] theorem openWindow_running (p : Pipeline β) :
    p.openWindow.running = heightsBetween p.next p.windowEnd := by
  rw [openWindow]

theorem le_windowEnd (p : Pipeline β) : p.next ≤ p.windowEnd := by
  have hnext := p.next.toNat_lt
  rw [UInt32.le_iff_toNat_le, toNat_windowEnd, toNat_lastHeight]
  omega

theorem windowEnd_le (p : Pipeline β) : p.windowEnd ≤ lastHeight := by
  rw [UInt32.le_iff_toNat_le, toNat_windowEnd]
  exact Nat.min_le_right _ _

namespace Window

variable {p : Pipeline β} {stop : UInt32}

/-- Nothing runs and nothing is fetched before the first window opens. -/
theorem empty {workers start : UInt32} :
    Window ({ workers := workers, next := start } : Pipeline β) start where
  le_stop := UInt32.le_refl start
  heights := by
    rw [heightsBetween_self]
    exact List.Perm.refl _
  sorted := List.Pairwise.nil

theorem running_mem (w : Window p stop) {h : UInt32} (hr : h ∈ p.running) : p.next ≤ h ∧ h < stop :=
  mem_heightsBetween.mp (w.heights.mem_iff.mp (List.mem_append_left _ hr))

theorem fetched_mem (w : Window p stop) {h : UInt32} {b : β} (hf : (h, b) ∈ p.fetched) :
    p.next ≤ h ∧ h < stop :=
  mem_heightsBetween.mp (w.heights.mem_iff.mp (List.mem_append_right _ (List.mem_map_of_mem hf)))

theorem nodup (w : Window p stop) : (p.running ++ p.fetched.map (·.1)).Nodup :=
  w.heights.nodup_iff.mpr (heightsBetween_nodup _ _)

/-- A height that runs is not fetched. -/
theorem not_fetched (w : Window p stop) {h : UInt32} (hr : h ∈ p.running) : h ∉ p.fetched.map (·.1) :=
  fun hf => (List.nodup_append.mp w.nodup).2.2 h hr h hf rfl

/-- What can be published is the first of the fetched heights. -/
theorem fetched_of_hget {b : β} (hb : p.head? = some b) : p.fetched = (p.next, b) :: p.fetched.tail := by
  unfold head? at hb
  split at hb
  · rename_i h c rest heq
    split at hb
    · rename_i hn
      rw [heq, hn, Option.some.inj hb]
      rfl
    · exact absurd hb (by simp)
  · exact absurd hb (by simp)

/-- The next height is there if it is fetched: no other one can come before it. -/
theorem hget_of_fetched (w : Window p stop) {b : β} (hf : (p.next, b) ∈ p.fetched) : p.head? ≠ none := by
  intro hnone
  unfold head? at hnone
  split at hnone
  · rename_i h c rest heq
    split at hnone
    · exact absurd hnone (by simp)
    · rename_i hne
      have hsorted := heq ▸ w.sorted
      rw [heq] at hf
      rcases List.mem_cons.mp hf with hf | hf
      · exact hne (congrArg Prod.fst hf).symm
      · have hlt := (List.pairwise_cons.mp hsorted).1 _ hf
        have hle := (w.fetched_mem (heq ▸ List.mem_cons_self : (h, c) ∈ p.fetched)).1
        exact UInt32.lt_irrefl _ (UInt32.lt_of_lt_of_le hlt hle)
  · rename_i heq
    rw [heq] at hf
    exact absurd hf List.not_mem_nil

/-- A window with nothing to wait for and nothing to publish is published as a whole. -/
theorem done (w : Window p stop) (hdone : p.windowDone = true) :
    p.next = stop ∧ p.running = [] ∧ p.fetched = [] := by
  unfold windowDone at hdone
  rw [Bool.and_eq_true, List.isEmpty_iff, Option.isNone_iff_eq_none] at hdone
  obtain ⟨hrunning, hnone⟩ := hdone
  have hperm := w.heights
  rw [hrunning, List.nil_append] at hperm
  have hstop : p.next = stop := by
    rcases UInt32.lt_or_eq_of_le w.le_stop with hlt | heq
    · have hmem := hperm.mem_iff.mpr (mem_heightsBetween.mpr ⟨UInt32.le_refl p.next, hlt⟩)
      obtain ⟨⟨h, b⟩, hx, hxn⟩ := List.mem_map.mp hmem
      subst hxn
      exact absurd hnone (w.hget_of_fetched hx)
    · exact heq
  refine ⟨hstop, hrunning, ?_⟩
  rw [← hstop, heightsBetween_self] at hperm
  exact List.map_eq_nil_iff.mp hperm.eq_nil

/-- A window opens with all of its heights running. -/
theorem openWindow (w : Window p stop) (hdone : p.windowDone = true) : Window p.openWindow p.windowEnd where
  le_stop := by
    rw [openWindow_next]
    exact p.le_windowEnd
  heights := by
    rw [openWindow_running, openWindow_fetched, openWindow_next, (w.done hdone).2.2, List.map_nil,
      List.append_nil]
  sorted := by
    rw [openWindow_fetched]
    exact w.sorted

/-- A completed fetch goes from the running heights to the fetched ones. -/
theorem complete (w : Window p stop) {h : UInt32} (b : β) (hr : h ∈ p.running) :
    Window (p.complete h b) stop where
  le_stop := w.le_stop
  heights := by
    have hnew := w.not_fetched hr
    have herase : (p.running.filter fun x => decide (x ≠ h)) = p.running.erase h := by
      rw [(List.nodup_append.mp w.nodup).1.erase_eq_filter]
      refine List.filter_congr fun x _ => ?_
      rw [bne, Bool.beq_eq_decide_eq, decide_not]
    show ((p.running.filter fun x => decide (x ≠ h)) ++ (insertFetched h b p.fetched).map (·.1)).Perm _
    rw [herase]
    refine List.Perm.trans ?_ w.heights
    have hmap := (insertFetched_perm h b p.fetched hnew).map (·.1)
    refine (hmap.append_left _).trans ?_
    rw [List.map_cons]
    exact List.perm_middle.trans ((List.perm_cons_erase hr).symm.append_right _)
  sorted := insertFetched_sorted h b p.fetched (w.not_fetched hr) w.sorted

/-- What is published is below the end of the window. -/
theorem next_lt (w : Window p stop) {b : β} (hb : p.head? = some b) : p.next < stop :=
  (w.fetched_mem (fetched_of_hget hb ▸ List.mem_cons_self : (p.next, b) ∈ p.fetched)).2

/-- Publishing takes the lowest height away. -/
theorem publish (w : Window p stop) {b : β} (hb : p.head? = some b) : Window p.publish stop where
  le_stop := by
    have hlt := w.next_lt hb
    have hsucc := toNat_succ_of_lt hlt
    rw [UInt32.lt_iff_toNat_lt] at hlt
    rw [UInt32.le_iff_toNat_le]
    show (p.next + 1).toNat ≤ _
    omega
  heights := by
    have hperm := w.heights
    rw [heightsBetween_cons (w.next_lt hb), fetched_of_hget hb, List.map_cons] at hperm
    exact (List.perm_middle.symm.trans hperm).cons_inv
  sorted := by
    have hsorted := w.sorted
    rw [fetched_of_hget hb] at hsorted
    exact (List.pairwise_cons.mp hsorted).2

end Window

end Pipeline

end ShardIndex
