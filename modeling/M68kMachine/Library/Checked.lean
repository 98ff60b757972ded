import Mathlib.Tactic.Common
import Mathlib.Logic.Function.Iterate

/-!
# Checked arithmetic

Every operation answers `none` where the machine would stop at an overflow. A computation written
with them returns, and then agrees with the arithmetic of `Nat`, or stops.

* `add`, `mul` — at a width that holds the values below `limit`
* `sub`, `div`, `rem` — stop at an underflow and at a zero divisor
* `below` — an index or a shift, which has to lie below the length or the width
* `signed` — a result at a signed width
* `iterate` — a step made `n` times, given up at the first that stops
* `foldlM_of_total`, `allM_of_total` — loops over a list whose steps do not stop
-/

namespace Checked

def add (limit a b : Nat) : Option Nat := if a + b < limit then some (a + b) else none

def mul (limit a b : Nat) : Option Nat := if a * b < limit then some (a * b) else none

def sub (a b : Nat) : Option Nat := if b ≤ a then some (a - b) else none

def div (a b : Nat) : Option Nat := if b = 0 then none else some (a / b)

def rem (a b : Nat) : Option Nat := if b = 0 then none else some (a % b)

def below (limit n : Nat) : Option Nat := if n < limit then some n else none

/-- At a width that holds the values from `-limit` on and below `limit`. -/
def signed (limit : Nat) (n : Int) : Option Int := if -limit ≤ n ∧ n < limit then some n else none

variable {limit a b : Nat}

theorem add_of_lt (h : a + b < limit) : add limit a b = some (a + b) := if_pos h

theorem add_of_le (h : limit ≤ a + b) : add limit a b = none :=
  if_neg (Nat.not_lt.mpr h)

theorem mul_of_lt (h : a * b < limit) : mul limit a b = some (a * b) := if_pos h

theorem below_of_lt {n : Nat} (h : n < limit) : below limit n = some n := if_pos h

theorem signed_of_mem {n : Int} (h : -limit ≤ n ∧ n < limit) : signed limit n = some n := if_pos h

theorem sub_of_le (h : b ≤ a) : sub a b = some (a - b) := if_pos h

theorem div_of_pos (h : 0 < b) : div a b = some (a / b) :=
  if_neg (Nat.pos_iff_ne_zero.mp h)

theorem rem_of_pos (h : 0 < b) : rem a b = some (a % b) :=
  if_neg (Nat.pos_iff_ne_zero.mp h)

variable {σ : Type*}

def iterate (step : σ → Option σ) : Nat → σ → Option σ
  | 0, s => some s
  | n + 1, s => (step s).bind (iterate step n)

/-- A step that never stops, made `n` times, is the plain step made `n` times. -/
theorem iterate_of_total {step : σ → Option σ} {f : σ → σ} (h : ∀ s, step s = some (f s))
    (n : Nat) : ∀ s, iterate step n s = some (f^[n] s) := by
  induction n with
  | zero => exact fun _ => rfl
  | succ n ih =>
    intro s
    rw [iterate, h s, Option.bind_some, ih (f s), Function.iterate_succ_apply]

/-- A loop whose steps never stop where `P` holds, and keep it. -/
theorem foldlM_of_total {α : Type*} {P : σ → Prop} {step : σ → α → Option σ} {f : σ → α → σ} :
    ∀ (xs : List α) {s : σ}, (∀ x ∈ xs, ∀ s, P s → step s x = some (f s x) ∧ P (f s x)) → P s →
      xs.foldlM step s = some (xs.foldl f s) ∧ P (xs.foldl f s)
  | [], _, _, hs => ⟨rfl, hs⟩
  | x :: xs, s, h, hs => by
    obtain ⟨hstep, hkeep⟩ := h x List.mem_cons_self s hs
    rw [List.foldlM_cons, hstep, List.foldl_cons]
    exact foldlM_of_total xs (fun y hy => h y (List.mem_cons_of_mem x hy)) hkeep

theorem allM_of_total {α : Type} {test : α → Option Bool} {f : α → Bool} :
    ∀ {xs : List α}, (∀ x ∈ xs, test x = some (f x)) → xs.allM test = some (xs.all f)
  | [], _ => rfl
  | x :: xs, h => by
    have ih := allM_of_total fun y hy => h y (List.mem_cons_of_mem x hy)
    rw [List.allM, h x List.mem_cons_self, List.all_cons]
    cases f x with
    | false => rfl
    | true => exact ih

end Checked
