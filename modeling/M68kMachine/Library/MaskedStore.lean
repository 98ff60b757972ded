import Mathlib.Data.List.Induction
import Mathlib.Logic.Function.Basic
import Mathlib.Tactic.Common

/-!
# Stores with write masks

A store of words of which some bits can be written: register files, header blocks, anything where a
write merges into what is there. After any writes a word is what it was in the other bits, and what
was last written to it in these.

* `merge` — the bits of a mask from a new word, the others from the old one
* `write`, `last` — one write, and the word a run of writes last gave to a cell
* `foldl_write` — a run of writes, cell by cell
* `foldl_step` — an implementation of `write` that needs an invariant
-/

namespace MaskedStore

variable {ι σ : Type*} [DecidableEq ι] {w : Nat}

def merge (mask old new : BitVec w) : BitVec w := (old &&& ~~~mask) ||| (new &&& mask)

theorem getLsbD_merge (mask old new : BitVec w) (i : Nat) :
    (merge mask old new).getLsbD i =
      if mask.getLsbD i then new.getLsbD i else old.getLsbD i := by
  unfold merge
  by_cases hi : i < w
  · simp only [BitVec.getLsbD_or, BitVec.getLsbD_and, BitVec.getLsbD_not, decide_eq_true hi]
    cases mask.getLsbD i <;> simp
  · simp [BitVec.getLsbD_of_ge _ i (Nat.not_lt.mp hi)]

/-- The later of two writes is the one that shows. -/
theorem merge_merge (mask old a b : BitVec w) :
    merge mask (merge mask old a) b = merge mask old b := by
  refine BitVec.eq_of_getLsbD_eq fun i _ => ?_
  simp only [getLsbD_merge]
  split <;> rfl

/-- What cannot be written stays. -/
theorem merge_and_not (mask old new : BitVec w) :
    merge mask old new &&& ~~~mask = old &&& ~~~mask := by
  refine BitVec.eq_of_getLsbD_eq fun i hi => ?_
  simp only [BitVec.getLsbD_and, BitVec.getLsbD_not, getLsbD_merge, decide_eq_true hi]
  cases mask.getLsbD i <;> simp

theorem merge_zero (old new : BitVec w) : merge 0 old new = old := by
  refine BitVec.eq_of_getLsbD_eq fun i _ => ?_
  rw [getLsbD_merge]
  simp

/-- A word that is clear where it cannot be written. -/
theorem merge_of_clear {mask old : BitVec w} (h : old &&& ~~~mask = 0) (new : BitVec w) :
    merge mask old new = new &&& mask := by
  unfold merge
  rw [h]
  simp

theorem and_of_clear {mask old : BitVec w} (h : old &&& ~~~mask = 0) : old &&& mask = old := by
  refine BitVec.eq_of_getLsbD_eq fun i hi => ?_
  have hbit := congrArg (fun v : BitVec w => v.getLsbD i) h
  simp only [BitVec.getLsbD_and, BitVec.getLsbD_not, decide_eq_true hi, Bool.true_and] at hbit ⊢
  cases hmask : mask.getLsbD i
  · rw [hmask] at hbit
    simpa using hbit.symm
  · simp

/-- Merge one write, a cell and a word, into the store. -/
def write (mask mem : ι → BitVec w) (p : ι × BitVec w) : ι → BitVec w :=
  Function.update mem p.1 (merge (mask p.1) (mem p.1) p.2)

theorem write_self (mask mem : ι → BitVec w) (i : ι) (b : BitVec w) :
    write mask mem (i, b) i = merge (mask i) (mem i) b := Function.update_self ..

theorem write_of_ne {mask mem : ι → BitVec w} {p : ι × BitVec w} {i : ι} (h : i ≠ p.1) :
    write mask mem p i = mem i := Function.update_of_ne h ..

/-- The word last written to a cell. -/
def last (ws : List (ι × BitVec w)) (i : ι) : Option (BitVec w) :=
  (ws.reverse.find? fun p => p.1 = i).map Prod.snd

theorem last_concat (ws : List (ι × BitVec w)) (p : ι × BitVec w) (i : ι) :
    last (ws ++ [p]) i = if p.1 = i then some p.2 else last ws i := by
  unfold last
  rw [List.reverse_concat, List.find?_cons]
  by_cases h : p.1 = i
  · simp [h]
  · simp [h]

/-- **A run of writes, cell by cell.** -/
theorem foldl_write (mask : ι → BitVec w) (ws : List (ι × BitVec w)) (mem : ι → BitVec w) (i : ι) :
    ws.foldl (write mask) mem i =
      match last ws i with
      | some b => merge (mask i) (mem i) b
      | none => mem i := by
  induction ws using List.reverseRecOn with
  | nil => rfl
  | append_singleton ws p ih =>
    rw [List.foldl_append, List.foldl_cons, List.foldl_nil, last_concat]
    by_cases h : p.1 = i
    · subst h
      rw [if_pos rfl, write_self, ih]
      cases last ws p.1 with
      | none => rfl
      | some b => exact merge_merge _ _ _ _
    · rw [if_neg h, write_of_ne (Ne.symm h), ih]

/-- **No run of writes changes what cannot be written.** -/
theorem foldl_write_and_not (mask : ι → BitVec w) (ws : List (ι × BitVec w)) (mem : ι → BitVec w)
    (i : ι) : ws.foldl (write mask) mem i &&& ~~~mask i = mem i &&& ~~~mask i := by
  rw [foldl_write]
  cases last ws i with
  | none => rfl
  | some b => exact merge_and_not _ _ _

/-- **An implementation of `write`** seen through `view` is one along every run. -/
theorem foldl_step {step : σ → ι × BitVec w → σ} {view : σ → ι → BitVec w} {mask : ι → BitVec w}
    {I : σ → Prop} (hI : ∀ s p, I s → I (step s p))
    (hstep : ∀ s p, I s → view (step s p) = write mask (view s) p) (ws : List (ι × BitVec w)) :
    ∀ {s : σ}, I s → view (ws.foldl step s) = ws.foldl (write mask) (view s) := by
  induction ws with
  | nil => exact fun _ => rfl
  | cons p ws ih =>
    intro s hs
    rw [List.foldl_cons, List.foldl_cons, ih (hI s p hs), hstep s p hs]

end MaskedStore
