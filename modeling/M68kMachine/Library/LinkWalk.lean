import Mathlib.Data.Fintype.Pigeonhole
import Mathlib.Tactic.Common

/-!
# Following links

A walk over links that may end. Over a finite type it stops exactly when it passes nothing twice,
and then within as many steps as there are elements.

* `visit` — the element the walk is at after some steps
* `Simple` — nothing is passed twice
-/

namespace LinkWalk

variable {α : Type*} {next : α → Option α} {a : α}

def visit (next : α → Option α) (a : α) : Nat → Option α
  | 0 => some a
  | n + 1 => (visit next a n).bind next

/-- The walk passes nothing twice. -/
def Simple (next : α → Option α) (a : α) : Prop :=
  ∀ i j, i < j → ∀ p, visit next a i = some p → visit next a j ≠ some p

theorem visit_add (n k : Nat) : visit next a (n + k) = (visit next a n).bind fun p =>
    visit next p k := by
  induction k with
  | zero => simp [visit]
  | succ k ih =>
    show (visit next a (n + k)).bind next = _
    rw [ih, Option.bind_assoc]
    rfl

/-- One step first. -/
theorem visit_succ' (n : Nat) : visit next a (n + 1) = (next a).bind fun p => visit next p n := by
  rw [Nat.add_comm, visit_add]
  rfl

/-- A walk that stopped does not go on. -/
theorem visit_none_of_le {i j : Nat} (h : visit next a i = none) (hij : i ≤ j) :
    visit next a j = none := by
  obtain ⟨k, rfl⟩ := Nat.exists_eq_add_of_le hij
  rw [visit_add, h, Option.bind_none]

/-- A walk that comes back to an element goes round for ever. -/
theorem visit_ne_none_of_return {i k : Nat} {p : α} (hk : 0 < k) (hi : visit next a i = some p)
    (hj : visit next a (i + k) = some p) (n : Nat) : visit next a n ≠ none := by
  have hround : visit next p k = some p := by
    rwa [visit_add, hi, Option.bind_some] at hj
  have hrounds : ∀ m, visit next p (k * m) = some p := by
    intro m
    induction m with
    | zero => rfl
    | succ m ih => rw [Nat.mul_succ, visit_add, ih, Option.bind_some, hround]
  intro hnone
  have hle : n ≤ i + k * n := by
    have := Nat.le_mul_of_pos_left n hk
    omega
  have hlater := visit_none_of_le hnone hle
  rw [visit_add, hi, Option.bind_some, hrounds] at hlater
  cases hlater

variable {size : Nat} {number : α → Fin size} (hnumber : Function.Injective number)

include hnumber

/-- A walk that passes nothing twice is over after a step for each element. -/
theorem visit_size_of_simple (h : Simple next a) : visit next a size = none := by
  by_contra hgoes
  have hvisit : ∀ k : Fin (size + 1), ∃ p, visit next a k = some p := by
    intro k
    refine Option.ne_none_iff_exists'.mp fun hnone => hgoes ?_
    exact visit_none_of_le hnone (Nat.le_of_lt_succ k.isLt)
  choose f hf using hvisit
  obtain ⟨i, j, hne, hij⟩ := Fintype.exists_ne_map_eq_of_card_lt (number ∘ f) (by simp)
  have hsame : f i = f j := hnumber hij
  rcases lt_or_gt_of_ne hne with hlt | hlt
  · exact h i j hlt (f i) (hf i) (hsame ▸ hf j)
  · exact h j i hlt (f j) (hf j) (hsame ▸ hf i)

/-- **A walk ends exactly when it passes nothing twice.** -/
theorem ends_iff_simple : (∃ n, visit next a n = none) ↔ Simple next a := by
  constructor
  · rintro ⟨n, hnone⟩ i j hij p hi hj
    obtain ⟨k, rfl⟩ := Nat.exists_eq_add_of_lt hij
    exact visit_ne_none_of_return (Nat.succ_pos k) hi hj n hnone
  · exact fun h => ⟨_, visit_size_of_simple hnumber h⟩

end LinkWalk
