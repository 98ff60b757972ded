import Mathlib.Algebra.Group.Nat.Defs
import Mathlib.Data.Set.Lattice
import Mathlib.Order.CompletePartialOrder
import Mathlib.Order.Interval.Set.Basic
import Mathlib.Order.Interval.Set.Disjoint
import Mathlib.Tactic.Common

/-!
# Bump allocation

A cursor that only moves up, and the aligned windows it has handed out. A window starts at the
cursor rounded up to its own size, so it meets none of the windows before it.

* `Window`, `Apart` — ranges of addresses, and ranges with no address in common
* `alignUp` — the next multiple of a size
* `Arena` — what is held between a bottom and the cursor
* `Arena.place` — the one operation
-/

namespace BumpAllocator

/-- The addresses from `base` on, `size` of them. -/
structure Window where
  base : Nat
  size : Nat
deriving DecidableEq

namespace Window

def addresses (w : Window) : Set Nat := Set.Ico w.base (w.base + w.size)

def Apart (w v : Window) : Prop := Disjoint w.addresses v.addresses

theorem Apart.symm {w v : Window} (h : w.Apart v) : v.Apart w := Disjoint.symm h

/-- A window that ends before another begins. -/
theorem apart_of_le {w v : Window} (h : w.base + w.size ≤ v.base) : w.Apart v := by
  refine Set.disjoint_left.mpr fun address hw hv => ?_
  exact absurd (hw.2.trans_le (h.trans hv.1)) (Nat.lt_irrefl address)

end Window

/-- The next multiple of `size`, from `x` on. -/
def alignUp (x size : Nat) : Nat := (x + (size - 1)) / size * size

theorem dvd_alignUp (x size : Nat) : size ∣ alignUp x size := Nat.dvd_mul_left ..

theorem le_alignUp {x size : Nat} (h : 0 < size) : x ≤ alignUp x size := by
  have hdiv := Nat.div_add_mod (x + (size - 1)) size
  have hmod := Nat.mod_lt (x + (size - 1)) h
  rw [Nat.mul_comm] at hdiv
  unfold alignUp
  omega

theorem alignUp_le (x size : Nat) : alignUp x size ≤ x + (size - 1) := Nat.div_mul_le_self ..

theorem alignUp_mono {x y size : Nat} (h : x ≤ y) : alignUp x size ≤ alignUp y size :=
  Nat.mul_le_mul_right _ (Nat.div_le_div_right (Nat.add_le_add_right h _))

/-- The high bits of a word, as a multiple of their weight. -/
theorem toNat_and_high {w : Nat} (x : BitVec w) (k : Nat) :
    (x &&& BitVec.allOnes w <<< k).toNat = x.toNat / 2 ^ k * 2 ^ k := by
  have hshift : x &&& BitVec.allOnes w <<< k = x >>> k <<< k := by
    refine BitVec.eq_of_getLsbD_eq fun i hi => ?_
    rw [BitVec.getLsbD_and, BitVec.getLsbD_shiftLeft, BitVec.getLsbD_shiftLeft,
      BitVec.getLsbD_allOnes, BitVec.getLsbD_ushiftRight]
    by_cases hik : i < k
    · simp [hik]
    · simp [hik, hi, show i - k < w by omega, show k + (i - k) = i by omega]
  have hle : x.toNat / 2 ^ k * 2 ^ k ≤ x.toNat := Nat.div_mul_le_self ..
  rw [hshift, BitVec.toNat_shiftLeft, BitVec.toNat_ushiftRight, Nat.shiftRight_eq_div_pow,
    Nat.shiftLeft_eq]
  exact Nat.mod_eq_of_lt (hle.trans_lt x.isLt)

/-- Rounding by a mask is rounding, where it does not wrap. -/
theorem toNat_add_and_high {w : Nat} (x low : BitVec w) {k : Nat} (hlow : low.toNat = 2 ^ k - 1)
    (hfits : x.toNat + (2 ^ k - 1) < 2 ^ w) :
    ((x + low) &&& BitVec.allOnes w <<< k).toNat = alignUp x.toNat (2 ^ k) := by
  rw [toNat_and_high, BitVec.toNat_add, hlow, Nat.mod_eq_of_lt hfits]
  rfl

variable {ι : Type*}

/-- What is held between `lo` and the cursor. -/
structure Arena (lo cursor : Nat) (held : ι → Window → Prop) : Prop where
  above {k w} (h : held k w) : lo ≤ w.base
  below {k w} (h : held k w) : w.base + w.size ≤ cursor
  aligned {k w} (h : held k w) : w.size ∣ w.base
  apart {k l w v} (hne : k ≠ l) (hw : held k w) (hv : held l v) : w.Apart v

namespace Arena

variable {lo cursor : Nat} {held held' : ι → Window → Prop}

theorem empty (lo : Nat) : Arena lo lo fun (_ : ι) (_ : Window) => False where
  above h := h.elim
  below h := h.elim
  aligned h := h.elim
  apart _ h := h.elim

/-- Holding less. -/
theorem sub (h : Arena lo cursor held) (hsub : ∀ k w, held' k w → held k w) :
    Arena lo cursor held' where
  above hw := h.above (hsub _ _ hw)
  below hw := h.below (hsub _ _ hw)
  aligned hw := h.aligned (hsub _ _ hw)
  apart hne hw hv := h.apart hne (hsub _ _ hw) (hsub _ _ hv)

/-- **One more window**: the cursor is rounded up to its size, and goes on behind it. -/
theorem place (h : Arena lo cursor held) (hlo : lo ≤ cursor) {size : Nat} (hsize : 0 < size)
    (key : ι) (hheld : ∀ k w, held' k w →
      held k w ∨ k = key ∧ w = ⟨alignUp cursor size, size⟩) :
    Arena lo (alignUp cursor size + size) held' := by
  have hcursor : cursor ≤ alignUp cursor size := le_alignUp hsize
  refine ⟨fun hw => ?_, fun hw => ?_, fun hw => ?_, fun hne hw hv => ?_⟩
  · rcases hheld _ _ hw with hold | ⟨-, rfl⟩
    · exact h.above hold
    · exact hlo.trans hcursor
  · rcases hheld _ _ hw with hold | ⟨-, rfl⟩
    · exact (h.below hold).trans (hcursor.trans (Nat.le_add_right ..))
    · exact Nat.le_refl _
  · rcases hheld _ _ hw with hold | ⟨-, rfl⟩
    · exact h.aligned hold
    · exact dvd_alignUp cursor size
  · rcases hheld _ _ hw with holdw | ⟨rfl, rfl⟩
    · rcases hheld _ _ hv with holdv | ⟨-, rfl⟩
      · exact h.apart hne holdw holdv
      · exact Window.apart_of_le ((h.below holdw).trans hcursor)
    · rcases hheld _ _ hv with holdv | ⟨rfl, -⟩
      · exact (Window.apart_of_le ((h.below holdv).trans hcursor)).symm
      · exact absurd rfl hne

end Arena

end BumpAllocator
