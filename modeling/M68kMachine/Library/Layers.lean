import Mathlib.Data.List.Induction

/-!
# Layers

A picture that is painted layer over layer. A layer has a value where it was painted and nothing
where what is below shows through.

* `Layer.over` — one layer on another
* `stack_at` — a place that only one of them covers
-/

namespace Layers

abbrev Layer (α : Type) := Nat → Nat → Option α

variable {α ι : Type}

def clear : Layer α := fun _ _ => none

def Layer.over (top bottom : Layer α) : Layer α := fun x y => (top x y).or (bottom x y)

/-- One place. -/
def dot (x₀ y₀ : Nat) (a : α) : Layer α := fun x y => if x = x₀ ∧ y = y₀ then some a else none

/-- The columns of a row from `x₀` to before `x₁`. -/
def span (y₀ x₀ x₁ : Nat) (a : Nat → α) : Layer α := fun x y =>
  if y = y₀ ∧ x₀ ≤ x ∧ x < x₁ then some (a x) else none

theorem over_or (top bottom : Layer α) (x y : Nat) (a : Option α) :
    (top.over bottom x y).or a = (top x y).or ((bottom x y).or a) :=
  Option.or_assoc

/-- The layers of a list, each over those before it. -/
def stack (layer : ι → Layer α) (is : List ι) : Layer α :=
  is.foldl (fun below i => (layer i).over below) clear

@[simp] theorem stack_nil (layer : ι → Layer α) : stack layer [] = clear := rfl

theorem stack_concat (layer : ι → Layer α) (is : List ι) (i : ι) :
    stack layer (is ++ [i]) = (layer i).over (stack layer is) := by
  simp [stack]

/-- Where no layer was painted, what is below shows. -/
theorem stack_none {layer : ι → Layer α} {is : List ι} {x y : Nat}
    (h : ∀ i ∈ is, layer i x y = none) : stack layer is x y = none := by
  induction is using List.reverseRecOn with
  | nil => rfl
  | append_singleton is i ih =>
    rw [stack_concat]
    unfold Layer.over
    rw [h i (by simp), ih fun j hj => h j (by simp [hj]), Option.or_none]

/-- **A place that one layer covers** shows that layer. -/
theorem stack_at {layer : ι → Layer α} {is : List ι} {i : ι} {x y : Nat} (hmem : i ∈ is)
    (h : ∀ j ∈ is, j ≠ i → layer j x y = none) : stack layer is x y = layer i x y := by
  induction is using List.reverseRecOn with
  | nil => exact absurd hmem List.not_mem_nil
  | append_singleton is j ih =>
    rw [stack_concat]
    unfold Layer.over
    have hbelow : ∀ k ∈ is, k ≠ i → layer k x y = none := fun k hk => h k (by simp [hk])
    by_cases hin : i ∈ is
    · rw [ih hin hbelow]
      by_cases hj : j = i
      · rw [hj]
        exact Option.or_self
      · rw [h j (by simp) hj, Option.none_or]
    · have hlast : j = i := by
        rcases List.mem_append.mp hmem with hmem | hmem
        · exact absurd hmem hin
        · exact (List.mem_singleton.mp hmem).symm
      have hnone : stack layer is x y = none :=
        stack_none fun k hk => hbelow k hk fun hki => hin (hki ▸ hk)
      rw [hnone, hlast, Option.or_none]

end Layers
