import Mathlib.Data.List.OfFn
import Mathlib.Tactic.Common

/-!
# Fixed buffers and spans

A buffer of `n` cells and the spans inside it. A `Span n` carries the proof that it does not run
past the end, so the laws of taking a slice and putting one back are unconditional.
-/

/-- `n` cells of type `α`. -/
def Buffer (α : Type) (n : Nat) := Fin n → α

/-- The cells `start … start + len - 1` of a buffer of `n` cells. -/
structure Span (n : Nat) where
  start : Nat
  len : Nat
  inside : start + len ≤ n

namespace Span

variable {n : Nat}

/-- Two spans that share no cell. -/
def Disjoint (s t : Span n) : Prop := s.start + s.len ≤ t.start ∨ t.start + t.len ≤ s.start

end Span

namespace Buffer

variable {α : Type} {n : Nat} (b : Buffer α n) (s : Span n) {i : Nat}

def get? (b : Buffer α n) (i : Nat) : Option α := if h : i < n then some (b ⟨i, h⟩) else none

def set (b : Buffer α n) (i : Nat) (v : α) : Buffer α n := fun j => if j.val = i then v else b j

/-- The cells of a span, in order. -/
def slice (b : Buffer α n) (s : Span n) : List α :=
  List.ofFn fun i : Fin s.len => b ⟨s.start + i, Nat.lt_of_lt_of_le (by omega) s.inside⟩

/-- Store `vs` over the cells of a span; cells beyond the end of `vs` keep their value. -/
def put (b : Buffer α n) (s : Span n) (vs : List α) : Buffer α n := fun j =>
  if s.start ≤ j.val ∧ j.val < s.start + s.len then vs.getD (j.val - s.start) (b j) else b j

/-- Store `vs` one cell after the other, from `i` on. -/
def setFrom (b : Buffer α n) (i : Nat) : List α → Buffer α n
  | [] => b
  | v :: vs => (b.set i v).setFrom (i + 1) vs

/-! ## Single cells -/

theorem get?_eq_some {b : Buffer α n} (h : i < n) : b.get? i = some (b ⟨i, h⟩) := by
  simp [get?, h]

theorem get?_eq_none {b : Buffer α n} (h : n ≤ i) : b.get? i = none := by
  simp [get?, h]

theorem get?_set (i j : Nat) (v : α) :
    (b.set i v).get? j = if j = i ∧ j < n then some v else b.get? j := by
  unfold get? set
  by_cases hji : j = i
  · subst hji
    by_cases hj : j < n <;> simp [hj]
  · simp [hji]

/-! ## Spans -/

@[simp] theorem length_slice : (b.slice s).length = s.len := by
  simp [slice]

theorem getElem?_slice (hi : i < s.len) : (b.slice s)[i]? = b.get? (s.start + i) := by
  have := s.inside
  rw [get?_eq_some (by omega)]
  simp [slice, hi]

/-- A slice in two parts. -/
theorem slice_append {start m k : Nat} (h : start + (m + k) ≤ n) :
    b.slice ⟨start, m + k, h⟩ =
      b.slice ⟨start, m, by omega⟩ ++ b.slice ⟨start + m, k, by omega⟩ := by
  apply List.ext_getElem
  · simp
  · intro i h1 h2
    rw [length_slice] at h1
    rw [List.getElem_append]
    by_cases hi : i < m
    · simp [slice, hi]
    · simp only [slice, List.length_ofFn, List.getElem_ofFn, hi, dite_false]
      congr 2
      omega

/-- **A slice that was put back is read again.** -/
theorem slice_put_self {vs : List α} (h : vs.length = s.len) : (b.put s vs).slice s = vs := by
  apply List.ext_getElem
  · rw [length_slice, h]
  · intro i h1 h2
    rw [length_slice] at h1
    have hin := s.inside
    simp [slice, put, h2]

/-- Putting a slice back changes no cell outside its span. -/
theorem put_apply_of_outside (vs : List α) {j : Fin n}
    (h : j.val < s.start ∨ s.start + s.len ≤ j.val) : b.put s vs j = b j := by
  unfold put
  rw [if_neg (by omega)]

theorem get?_put_of_outside (vs : List α) (h : i < s.start ∨ s.start + s.len ≤ i) :
    (b.put s vs).get? i = b.get? i := by
  unfold get?
  split
  · rw [put_apply_of_outside b s vs h]
  · rfl

theorem get?_put_of_inside {vs : List α} (h : vs.length = s.len) (hlo : s.start ≤ i)
    (hhi : i < s.start + s.len) : (b.put s vs).get? i = vs[i - s.start]? := by
  have hin := s.inside
  rw [get?_eq_some (by omega), List.getElem?_eq_getElem (by omega)]
  simp [put, hlo, hhi, List.getD_eq_getElem?_getD, h, show i - s.start < s.len by omega]

theorem slice_put_disjoint {s t : Span n} (vs : List α) (h : s.Disjoint t) :
    (b.put s vs).slice t = b.slice t := by
  unfold slice
  congr 1
  funext i
  have hi := i.isLt
  apply put_apply_of_outside
  unfold Span.Disjoint at h
  simp only
  omega

end Buffer
