import Mathlib.Data.Nat.Find
import Mathlib.Logic.Function.Basic
import Mathlib.Tactic.Common

/-!
# Numbers stored byte by byte

A number loaded from bytes of memory, the most significant first, and stored again. The places of
the bytes may coincide, as they do in a memory that is shorter than the number: the store goes from
the last byte to the first, so the first that share a place stays.

* `bitAt` — the bits of the bytes, counted from the most significant one of the first
* `getLsbD_load` — a loaded number has these bits
* `store_first`, `store_of_ne` — a byte after a store
* `store_frame`, `store_same`, `bitAt_store` — the bits after a store
-/

namespace ByteField

variable {ι : Type*} {w : Nat} {m : ι → BitVec 8} {p : Nat → ι}

/-- Bit `b` behind the most significant bit of the byte at `p 0`. -/
def bitAt (m : ι → BitVec 8) (p : Nat → ι) (b : Nat) : Bool := (m (p (b / 8))).getMsbD (b % 8)

/-- The `n` bytes from `p 0` on, as one number. -/
def load (m : ι → BitVec 8) (p : Nat → ι) : Nat → BitVec w
  | 0 => 0
  | n + 1 => (load m p n <<< 8) ||| (m (p n)).setWidth w

/-- The low `n` bytes of `v` stored, from the last to the first. -/
def store [DecidableEq ι] (m : ι → BitVec 8) (p : Nat → ι) (v : BitVec w) : Nat → ι → BitVec 8
  | 0 => m
  | n + 1 => store (Function.update m (p n) (v.setWidth 8)) p (v >>> 8) n

theorem getLsbD_load {n b : Nat} (hb : b < 8 * n) (hn : 8 * n ≤ w) :
    (load m p n : BitVec w).getLsbD (8 * n - 1 - b) = bitAt m p b := by
  induction n with
  | zero => omega
  | succ n ih =>
    unfold load
    simp only [BitVec.getLsbD_or, BitVec.getLsbD_shiftLeft, BitVec.getLsbD_setWidth]
    by_cases hb : b < 8 * n
    · have hbyte : (m (p n)).getLsbD (8 * (n + 1) - 1 - b) = false :=
        BitVec.getLsbD_of_ge _ _ (by omega)
      rw [show 8 * (n + 1) - 1 - b - 8 = 8 * n - 1 - b from by omega, ih hb (by omega), hbyte,
        decide_eq_true (by omega), decide_eq_false (by omega)]
      simp
    · rw [decide_eq_true (by omega : 8 * (n + 1) - 1 - b < 8), decide_eq_true (by omega)]
      unfold bitAt
      rw [BitVec.getMsbD, decide_eq_true (by omega), show b / 8 = n from by omega,
        show 8 - 1 - b % 8 = 8 * (n + 1) - 1 - b from by omega]
      simp

variable [DecidableEq ι] {v : BitVec w} {n i : Nat} {x : ι}

theorem store_of_ne (h : ∀ i < n, p i ≠ x) : store m p v n x = m x := by
  induction n generalizing m v with
  | zero => rfl
  | succ n ih =>
    unfold store
    rw [ih fun i hi => h i (by omega), Function.update_of_ne (h n (by omega)).symm]

/-- The first of the bytes at one place is the one that stays. -/
theorem store_first (hi : i < n) (hx : p i = x) (hfirst : ∀ j < i, p j ≠ x) :
    store m p v n x = (v >>> (8 * (n - 1 - i))).setWidth 8 := by
  induction n generalizing m v with
  | zero => omega
  | succ n ih =>
    unfold store
    by_cases hlast : i = n
    · subst hlast
      rw [store_of_ne hfirst, ← hx, Function.update_self]
      simp
    · rw [ih (by omega), ← BitVec.shiftRight_add]
      congr 2
      omega

theorem getMsbD_store_first {k : Nat} (hi : i < n) (hx : p i = x) (hfirst : ∀ j < i, p j ≠ x)
    (hk : k < 8) : (store m p v n x).getMsbD k = v.getLsbD (8 * n - 1 - (8 * i + k)) := by
  rw [store_first hi hx hfirst, BitVec.getMsbD, decide_eq_true hk, BitVec.getLsbD_setWidth,
    decide_eq_true (by omega), BitVec.getLsbD_ushiftRight]
  simp only [Bool.true_and]
  congr 1
  omega

/-- Bits outside `F` keep their value when the others are stored as they were. -/
theorem store_frame {F : Nat → Prop} {k : Nat}
    (hv : ∀ b < 8 * n, ¬ F b → v.getLsbD (8 * n - 1 - b) = bitAt m p b) (hk : k < 8)
    (hout : ∀ b < 8 * n, F b → p (b / 8) = x → b % 8 ≠ k) :
    (store m p v n x).getMsbD k = (m x).getMsbD k := by
  by_cases hx : ∃ i, i < n ∧ p i = x
  · obtain ⟨hi, hplace⟩ := Nat.find_spec hx
    have hfirst : ∀ j < Nat.find hx, p j ≠ x := fun j hj hp =>
      Nat.find_min hx hj ⟨by omega, hp⟩
    have hbyte : (8 * Nat.find hx + k) / 8 = Nat.find hx := by omega
    have hbit : (8 * Nat.find hx + k) % 8 = k := by omega
    rw [getMsbD_store_first hi hplace hfirst hk, hv _ (by omega), bitAt, hbyte, hbit, hplace]
    intro hF
    exact hout _ (by omega) hF (by rw [hbyte, hplace]) hbit
  · rw [store_of_ne fun i hi hp => hx ⟨i, hi, hp⟩]

/-- Storing the bits that are there. -/
theorem store_same (hv : ∀ b < 8 * n, v.getLsbD (8 * n - 1 - b) = bitAt m p b) :
    store m p v n = m := by
  funext x
  refine BitVec.eq_of_getMsbD_eq fun k hk => ?_
  exact store_frame (F := fun _ => False) (fun b hb _ => hv b hb) hk fun _ _ h => h.elim

/-- Bytes at different places hold what was stored. -/
theorem bitAt_store {b : Nat} (hinj : ∀ i < n, ∀ j < i, p j ≠ p i) (hb : b < 8 * n) :
    bitAt (store m p v n) p b = v.getLsbD (8 * n - 1 - b) := by
  unfold bitAt
  rw [getMsbD_store_first (by omega) rfl (hinj _ (by omega)) (by omega)]
  congr 1
  omega

/-- A byte at the place of the first one holds what was stored to that. -/
theorem bitAt_store_first (hi : 0 < n) (h : p i = p 0) :
    bitAt (store m p v n) p (8 * i) = v.getLsbD (8 * n - 1) := by
  unfold bitAt
  rw [Nat.mul_div_cancel_left i (by omega), Nat.mul_mod_right, h,
    getMsbD_store_first hi rfl (by omega) (by omega)]
  rfl

end ByteField
