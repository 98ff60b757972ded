import Mathlib.Data.Int.Basic
import Mathlib.Tactic.Linarith
import Mathlib.Tactic.Ring

/-!
# The integer line

The point a line has reached on its minor axis, and the error term that finds it without a division:
it starts at `2 * minor - major`, gains `2 * minor` with every step, and loses `2 * major` with
those it is not negative before, in which the minor axis moves.
-/

namespace Bresenham

variable (major minor : Nat)

/-- The nearest whole offset, halves rounded up. -/
def offset (k : Nat) : Nat := (2 * k * minor + major) / (2 * major)

/-- The error term before step `k`. -/
def error (k : Nat) : Int :=
  2 * (minor : Int) * (k + 1) - major - 2 * (major : Int) * offset major minor k

variable {major minor} {n : Nat}

theorem offset_zero (h : 0 < major) : offset major minor 0 = 0 := by
  unfold offset
  exact Nat.div_eq_of_lt (by omega)

theorem error_zero (h : 0 < major) :
    error major minor 0 = 2 * (minor : Int) - (major : Int) := by
  unfold error
  rw [offset_zero h]
  push_cast
  ring

/-- The offset is within half a pixel of the line. -/
theorem offset_bounds (minor : Nat) (h : 0 < major) (k : Nat) :
    2 * major * offset major minor k ≤ 2 * k * minor + major ∧
      2 * k * minor + major < 2 * major * offset major minor k + 2 * major := by
  have hlow : 2 * major * offset major minor k ≤ 2 * k * minor + major := Nat.mul_div_le _ _
  have hhigh := Nat.lt_mul_div_succ (2 * k * minor + major) (b := 2 * major) (by omega)
  rw [Nat.mul_add, Nat.mul_one] at hhigh
  exact ⟨hlow, hhigh⟩

theorem error_bounds (minor : Nat) (h : 0 < major) (k : Nat) :
    2 * (minor : Int) - 2 * major ≤ error major minor k ∧ error major minor k < 2 * minor := by
  obtain ⟨hlow, hhigh⟩ := offset_bounds minor h k
  zify at hlow hhigh
  unfold error
  constructor <;> linarith

/-- The minor axis moves where the error is not negative. -/
theorem offset_succ (h : 0 < major) (hle : minor ≤ major) (k : Nat) :
    offset major minor (k + 1) =
      offset major minor k + if error major minor k < 0 then 0 else 1 := by
  obtain ⟨hlow, hhigh⟩ := offset_bounds minor h k
  have herror : error major minor k =
      2 * (minor : Int) * (k + 1) - major - 2 * (major : Int) * offset major minor k := rfl
  have hquot : offset major minor (k + 1) = (2 * (k + 1) * minor + major) / (2 * major) := rfl
  rw [hquot]
  split
  · rename_i hneg
    rw [herror] at hneg
    refine Nat.div_eq_of_lt_le ?_ ?_
    · rw [Nat.add_zero]
      nlinarith
    · zify
      linarith
  · rename_i hpos
    rw [herror] at hpos
    refine Nat.div_eq_of_lt_le ?_ ?_
    · zify
      linarith
    · zify at hhigh hle ⊢
      linarith

theorem error_succ (h : 0 < major) (hle : minor ≤ major) (k : Nat) :
    error major minor (k + 1) = error major minor k +
      if error major minor k < 0 then 2 * (minor : Int) else 2 * (minor : Int) - 2 * major := by
  have hnext : error major minor (k + 1) = 2 * (minor : Int) * (k + 1 + 1) - major -
      2 * (major : Int) * offset major minor (k + 1) := by
    unfold error
    push_cast
    rfl
  rw [hnext, offset_succ h hle]
  unfold error
  split <;> push_cast <;> ring

/-- The line stays between its endpoints. -/
theorem offset_le (minor : Nat) (h : 0 < major) {k : Nat} (hk : k ≤ major) :
    offset major minor k ≤ minor := by
  have hprod : k * minor ≤ major * minor := Nat.mul_le_mul_right _ hk
  refine Nat.le_of_lt_succ ((Nat.div_lt_iff_lt_mul (by omega)).mpr ?_)
  nlinarith

/-! ## An even split -/

/-- What the `i`-th of `n` parts gets, when the first `i` get `total * i / n`. -/
def share (total n i : Nat) : Nat := total * (i + 1) / n - total * i / n

theorem share_succ (total n i : Nat) :
    total * (i + 1) / n = total * i / n + share total n i := by
  have hle : total * i / n ≤ total * (i + 1) / n :=
    Nat.div_le_div_right (Nat.mul_le_mul_left total (Nat.le_succ i))
  unfold share
  omega

/-- Whole rounds and the parts of the last one make up one total. -/
theorem whole_add_parts (total : Nat) (h : 0 < n) (k j : Nat) :
    total * (k / n) + total * (k % n + j) / n = total * (k + j) / n := by
  have hsum : total * (k + j) = total * (k % n + j) + n * (total * (k / n)) := by
    calc total * (k + j) = total * (k % n + n * (k / n) + j) := by rw [Nat.mod_add_div]
      _ = total * (k % n + j) + n * (total * (k / n)) := by
        rw [Nat.add_right_comm, Nat.mul_add, Nat.mul_left_comm]
  rw [hsum, Nat.add_mul_div_left _ _ h, Nat.add_comm]

/-- The shares come round with the parts. -/
theorem share_mod (total : Nat) (h : 0 < n) (k : Nat) :
    share total n (k % n) = share total n k := by
  have hbefore := whole_add_parts total h k 0
  have hbehind := whole_add_parts total h k 1
  rw [Nat.add_zero, Nat.add_zero] at hbefore
  unfold share
  omega

theorem share_le (total : Nat) (h : 0 < n) (i : Nat) : share total n i ≤ total := by
  have hstep : total * (i + 1) / n ≤ total * i / n + total := by
    calc total * (i + 1) / n ≤ (total * i + n * total) / n := by
          refine Nat.div_le_div_right ?_
          rw [Nat.mul_succ]
          exact Nat.add_le_add_left (Nat.le_mul_of_pos_left total h) _
      _ = total * i / n + total := Nat.add_mul_div_left _ _ h
  unfold share
  omega

end Bresenham
