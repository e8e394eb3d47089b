import Mathlib.Data.List.Range
import ShardIndex.Rescan.Scheduler
/-!
# Windows of master blocks

A phase of a rescan goes through a range of master blocks window by window. Where it goes on is a
matter of the checkpoint alone (`resumeAt`); a window starts there and has as many blocks as fit into
the window and into the committed range (`nextWindow_spec`). So windows that are taken one after
the other list consecutive numbers (`heights_append`).
-/
namespace ShardIndex.Rescan

/-- The number at which a phase goes on that has covered the range up to a checkpoint. A checkpoint
before the range counts as none. -/
def resumeAt (checkpoint : Option UInt32) (first : UInt32) : Nat :=
  match checkpoint with
  | some c => if c < first then first.toNat else c.toNat + 1
  | none => first.toNat

/-- The number of master blocks that a window may have. -/
def width (batch : UInt32) : Nat :=
  max batch.toNat 1

/-- The numbers of the master blocks of a window. -/
def heights (window : UInt32 × UInt32) : List Nat :=
  List.range' window.1.toNat (window.2.toNat + 1 - window.1.toNat)

variable {batch first last : UInt32} {checkpoint : Option UInt32}

theorem one_le_width (batch : UInt32) : 1 ≤ width batch :=
  Nat.le_max_right _ _

theorem le_resumeAt (checkpoint : Option UInt32) (first : UInt32) :
    first.toNat ≤ resumeAt checkpoint first := by
  unfold resumeAt
  split
  · rename_i c
    split
    · exact Nat.le_refl _
    · rename_i h
      rw [UInt32.lt_iff_toNat_lt] at h
      omega
  · exact Nat.le_refl _

theorem resumeAt_of_le {c : UInt32} (h : first.toNat ≤ c.toNat) :
    resumeAt (some c) first = c.toNat + 1 := by
  rw [resumeAt, if_neg]
  rw [UInt32.lt_iff_toNat_lt]
  omega

/-- The end of a window, which is computed without overflow. -/
theorem toNat_stop (batch start last : UInt32) :
    (min (if UInt32.ofNat (UInt32.size - 1) - start < max batch 1 - 1 then UInt32.ofNat (UInt32.size - 1)
        else start + (max batch 1 - 1)) last).toNat =
      min (start.toNat + width batch - 1) last.toNat := by
  have htop : (UInt32.ofNat (UInt32.size - 1)).toNat = 4294967295 := rfl
  have hstart : start.toNat < 4294967296 := start.toNat_lt_size
  have hlast : last.toNat < 4294967296 := last.toNat_lt_size
  have hwidth : width batch < 4294967296 := by
    have : batch.toNat < 4294967296 := batch.toNat_lt_size
    unfold width
    omega
  have hone := one_le_width batch
  have hmax : (max batch 1).toNat = width batch := UInt32.toNat_max batch 1
  have hsize : (max batch 1 - 1).toNat = width batch - 1 := by
    rw [UInt32.toNat_sub_of_le _ _ (UInt32.le_iff_toNat_le.2 (by rw [hmax]; exact hone)), hmax]
    rfl
  have hroom : (UInt32.ofNat (UInt32.size - 1) - start).toNat = 4294967295 - start.toNat := by
    rw [UInt32.toNat_sub_of_le _ _ (UInt32.le_iff_toNat_le.2 (by omega)), htop]
  rw [UInt32.toNat_min]
  split
  · rename_i h
    rw [UInt32.lt_iff_toNat_lt, hroom, hsize] at h
    omega
  · rename_i h
    rw [UInt32.lt_iff_toNat_lt, hroom, hsize] at h
    rw [UInt32.toNat_add, hsize, Nat.mod_eq_of_lt (by omega)]
    omega

/-- What a phase does next: there is no window left once the phase has gone past the last committed
block, and else the window goes from where the phase goes on to the last block that fits. -/
inductive Windowed (batch first last : UInt32) (checkpoint : Option UInt32) :
    Option (UInt32 × UInt32) → Prop
  | past (h : last.toNat < resumeAt checkpoint first) : Windowed batch first last checkpoint none
  | window {start stop : UInt32} (hstart : start.toNat = resumeAt checkpoint first)
      (hstop : stop.toNat = min (resumeAt checkpoint first + width batch - 1) last.toNat)
      (h : resumeAt checkpoint first ≤ last.toNat) :
      Windowed batch first last checkpoint (some (start, stop))

/-- A window is cut off from the numbers that are left. -/
theorem windowed_of_start {start : UInt32} (hstart : start.toNat = resumeAt checkpoint first) :
    Windowed batch first last checkpoint
      (if last < start then none
        else some (start,
          min (if UInt32.ofNat (UInt32.size - 1) - start < max batch 1 - 1 then UInt32.ofNat (UInt32.size - 1)
            else start + (max batch 1 - 1)) last)) := by
  split
  · rename_i h
    rw [UInt32.lt_iff_toNat_lt] at h
    exact .past (by omega)
  · rename_i h
    rw [UInt32.lt_iff_toNat_lt] at h
    exact .window hstart (by rw [toNat_stop, hstart]) (by omega)

theorem nextWindow_spec (batch first last : UInt32) (checkpoint : Option UInt32) :
    Windowed batch first last checkpoint (nextWindow batch checkpoint first last) := by
  unfold nextWindow
  cases checkpoint with
  | none => exact windowed_of_start rfl
  | some c =>
    dsimp only
    by_cases hc : c < first
    · rw [if_pos hc]
      exact windowed_of_start (by rw [resumeAt, if_pos hc])
    · rw [if_neg hc]
      have hle : first.toNat ≤ c.toNat := by
        rw [UInt32.lt_iff_toNat_lt] at hc
        omega
      by_cases htop : c = UInt32.ofNat (UInt32.size - 1)
      · rw [if_pos htop]
        refine .past ?_
        rw [resumeAt_of_le hle, htop]
        exact last.toNat_lt_size
      · rw [if_neg htop]
        have hlt : c.toNat < 4294967295 := by
          have hsize : c.toNat < 4294967296 := c.toNat_lt_size
          have hne : c.toNat ≠ 4294967295 := fun h => htop (UInt32.toNat_inj.1 h)
          omega
        refine windowed_of_start ?_
        rw [resumeAt_of_le hle, UInt32.toNat_add, UInt32.toNat_one, Nat.mod_eq_of_lt (by omega)]

/-- There is a window as long as numbers are left. -/
theorem exists_window (batch : UInt32) (h : resumeAt checkpoint first ≤ last.toNat) :
    ∃ start stop, nextWindow batch checkpoint first last = some (start, stop) ∧
      start.toNat = resumeAt checkpoint first ∧
      stop.toNat = min (resumeAt checkpoint first + width batch - 1) last.toNat := by
  generalize hwindow : nextWindow batch checkpoint first last = window
  cases hwindow ▸ nextWindow_spec batch first last checkpoint with
  | past hpast => exact absurd h (Nat.not_le.2 hpast)
  | window hstart hstop _ => exact ⟨_, _, rfl, hstart, hstop⟩

/-- Windows that are taken one after the other list consecutive numbers. -/
theorem heights_append {start stop : UInt32} {n : Nat} (hn : n ≤ start.toNat)
    (h : start.toNat ≤ stop.toNat) :
    List.range' n (start.toNat - n) ++ heights (start, stop) =
      List.range' n (stop.toNat + 1 - n) := by
  have hstart : n + (start.toNat - n) = start.toNat := by omega
  have hcount : start.toNat - n + (stop.toNat + 1 - start.toNat) = stop.toNat + 1 - n := by omega
  have happend := List.range'_append_1 (s := n) (m := start.toNat - n)
    (n := stop.toNat + 1 - start.toNat)
  rw [hstart, hcount] at happend
  exact happend

end ShardIndex.Rescan
