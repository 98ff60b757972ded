import Mathlib.Data.List.OfFn
import Mathlib.Tactic.Common

/-!
# Filling by prefix parity

A sequential fill of a row of bits: a carry turns over at every set bit, and every bit is combined
with the carry in front of it, which is the parity of the bits before it.
-/

namespace PrefixParity

def parity (bits : List Bool) : Bool := bits.foldl xor false

/-- Combine every bit with the carry in front of it, which each bit turns over when it is set. -/
def fill (combine : Bool → Bool → Bool) (carry : Bool) : List Bool → List Bool
  | [] => []
  | bit :: bits => combine bit carry :: fill combine (xor carry bit) bits

theorem foldl_xor (bits : List Bool) : ∀ carry : Bool,
    bits.foldl xor carry = xor carry (parity bits) := by
  induction bits with
  | nil => intro carry; simp [parity]
  | cons bit bits ih =>
    intro carry
    unfold parity
    rw [List.foldl_cons, List.foldl_cons, ih, ih (xor false bit)]
    simp

@[simp] theorem parity_nil : parity [] = false := rfl

theorem parity_cons (bit : Bool) (bits : List Bool) :
    parity (bit :: bits) = xor bit (parity bits) := by
  unfold parity
  rw [List.foldl_cons, foldl_xor, Bool.false_xor]
  rfl

theorem parity_append (xs ys : List Bool) : parity (xs ++ ys) = xor (parity xs) (parity ys) := by
  unfold parity
  rw [List.foldl_append, foldl_xor]
  rfl

@[simp] theorem length_fill (combine : Bool → Bool → Bool) (bits : List Bool) :
    ∀ carry, (fill combine carry bits).length = bits.length := by
  induction bits with
  | nil => exact fun _ => rfl
  | cons bit bits ih => exact fun carry => congrArg (· + 1) (ih _)

theorem fill_append (combine : Bool → Bool → Bool) (xs ys : List Bool) : ∀ carry,
    fill combine carry (xs ++ ys) =
      fill combine carry xs ++ fill combine (xor carry (parity xs)) ys := by
  induction xs with
  | nil => intro carry; simp [fill]
  | cons x xs ih =>
    intro carry
    rw [List.cons_append, fill, ih, parity_cons, Bool.xor_assoc]
    rfl

/-- **The carry in front of a bit is the parity of the bits before it.** -/
theorem getElem?_fill (combine : Bool → Bool → Bool) (bits : List Bool) :
    ∀ (carry : Bool) (p : Nat),
    (fill combine carry bits)[p]? =
      bits[p]?.map fun bit => combine bit (xor carry (parity (bits.take p))) := by
  induction bits with
  | nil => exact fun _ _ => rfl
  | cons bit bits ih =>
    intro carry p
    cases p with
    | zero => simp [fill]
    | succ p =>
      rw [fill, List.getElem?_cons_succ, ih, List.getElem?_cons_succ, List.take_succ_cons,
        parity_cons, Bool.xor_assoc]

/-! ## Words of bits -/

variable {w : Nat}

/-- The bits of a word, the lowest first. -/
def lowBits (v : BitVec w) : List Bool := List.ofFn fun i : Fin w => v.getLsbD i

/-- The bits of a row of words, from the lowest of the first word up. -/
def rowBits (vs : List (BitVec w)) : List Bool := vs.flatMap lowBits

@[simp] theorem length_lowBits (v : BitVec w) : (lowBits v).length = w := List.length_ofFn

@[simp] theorem rowBits_nil : rowBits ([] : List (BitVec w)) = [] := rfl

theorem rowBits_append (vs vs' : List (BitVec w)) :
    rowBits (vs ++ vs') = rowBits vs ++ rowBits vs' := List.flatMap_append

theorem rowBits_singleton (v : BitVec w) : rowBits [v] = lowBits v := by simp [rowBits]

theorem length_rowBits (vs : List (BitVec w)) : (rowBits vs).length = w * vs.length := by
  induction vs with
  | nil => rfl
  | cons v vs ih =>
    rw [show v :: vs = [v] ++ vs from rfl, rowBits_append, List.length_append, ih,
      rowBits_singleton, length_lowBits, List.length_append, List.length_singleton]
    rw [Nat.mul_add, Nat.mul_one]

end PrefixParity
