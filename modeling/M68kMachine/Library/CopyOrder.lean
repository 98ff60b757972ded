import Mathlib.Data.List.Pairwise
import Mathlib.Logic.Function.Basic

/-!
# Copying cell after cell

Moves from a source to a destination cell, done one after the other in a store where the two may
overlap. Every destination ends with what its source held at the start, as long as no source was
overwritten before it was read and no destination gets different values.
-/

namespace CopyOrder

variable {ι β : Type} [DecidableEq ι]

/-- A source and a destination. -/
abbrev Move (ι : Type) := ι × ι

def copy (m : ι → β) (c : Move ι) : ι → β := Function.update m c.2 (m c.1)

def copyAll (m : ι → β) (cs : List (Move ι)) : ι → β := cs.foldl copy m

/-- A destination that is a later source, or a later destination, is so for the same source. -/
def Safe (cs : List (Move ι)) : Prop :=
  cs.Pairwise fun c c' => (c.2 = c'.1 → c.1 = c'.1) ∧ (c.2 = c'.2 → c.1 = c'.1)

@[simp] theorem copyAll_nil (m : ι → β) : copyAll m [] = m := rfl

theorem copyAll_append (m : ι → β) (cs : List (Move ι)) (c : Move ι) :
    copyAll m (cs ++ [c]) = copy (copyAll m cs) c := by
  unfold copyAll
  rw [List.foldl_append]
  rfl

/-- A cell that is nobody's destination keeps its value. -/
theorem copyAll_of_not_mem {cs : List (Move ι)} {i : ι} : ∀ {m : ι → β},
    (∀ c ∈ cs, c.2 ≠ i) → copyAll m cs i = m i := by
  induction cs with
  | nil => exact fun _ => rfl
  | cons c cs ih =>
    intro m h
    have hrest := ih (m := copy m c) fun c' hc' => h c' (List.mem_cons_of_mem c hc')
    have hne := h c List.mem_cons_self
    exact hrest.trans (Function.update_of_ne hne.symm _ _)

/-- **A safe order copies what was there before.** -/
theorem copyAll_apply {cs : List (Move ι)} : ∀ {m : ι → β}, Safe cs → ∀ c ∈ cs,
    copyAll m cs c.2 = m c.1 := by
  induction cs with
  | nil => exact fun _ _ hc => absurd hc List.not_mem_nil
  | cons c cs ih =>
    intro m hsafe
    obtain ⟨hfirst, hrest⟩ := List.pairwise_cons.mp hsafe
    -- the first move leaves the sources of the others as they were
    have hsource : ∀ c' ∈ cs, copy m c c'.1 = m c'.1 := by
      intro c' hc'
      by_cases hover : c'.1 = c.2
      · have hsame := (hfirst c' hc').1 hover.symm
        unfold copy
        rw [hover, Function.update_self, hsame, hover]
      · exact Function.update_of_ne hover _ _
    have hothers : ∀ c' ∈ cs, copyAll (copy m c) cs c'.2 = m c'.1 :=
      fun c' hc' => (ih hrest c' hc').trans (hsource c' hc')
    intro c' hc'
    rcases List.mem_cons.mp hc' with rfl | hc'
    · by_cases hagain : ∃ c'' ∈ cs, c''.2 = c'.2
      · obtain ⟨c'', hc'', hdest⟩ := hagain
        have hsame := (hfirst c'' hc'').2 hdest.symm
        have hvalue := hothers c'' hc''
        rw [hdest, ← hsame] at hvalue
        exact hvalue
      · have hkept : copyAll (copy m c') cs c'.2 = copy m c' c'.2 :=
          copyAll_of_not_mem fun c'' hc'' hdest => hagain ⟨c'', hc'', hdest⟩
        exact hkept.trans (Function.update_self _ _ _)
    · exact hothers c' hc'

end CopyOrder
