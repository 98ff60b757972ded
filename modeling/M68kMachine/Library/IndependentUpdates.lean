import Mathlib.Data.List.Nodup
import Mathlib.Logic.Function.Basic

/-!
# Independent updates

A list of updates of a store, each of one cell and with a value that depends on the store. When no
two go to the same cell and none looks at a cell that another writes, the order they are done in
does not matter.
-/

namespace IndependentUpdates

variable {ι β : Type*} [DecidableEq ι]

/-- A cell and what is stored in it, by the store. -/
structure Update (ι β : Type*) where
  dest : ι
  value : (ι → β) → β

def apply (m : ι → β) (u : Update ι β) : ι → β := Function.update m u.dest (u.value m)

def applyAll (m : ι → β) (us : List (Update ι β)) : ι → β := us.foldl apply m

/-- The update only looks at its own cell and at cells that none of `us` writes. -/
def Update.ReadsOutside (u : Update ι β) (us : List (Update ι β)) : Prop :=
  ∀ m m', (∀ i, (∀ v ∈ us, v.dest = i → i = u.dest) → m i = m' i) → u.value m = u.value m'

structure Independent (us : List (Update ι β)) : Prop where
  nodup : (us.map Update.dest).Nodup
  reads : ∀ u ∈ us, u.ReadsOutside us

variable {us : List (Update ι β)}

/-- A cell that no update writes keeps its value. -/
theorem applyAll_of_forall_ne {i : ι} (h : ∀ u ∈ us, u.dest ≠ i) (m : ι → β) :
    applyAll m us i = m i := by
  induction us generalizing m with
  | nil => rfl
  | cons u us ih =>
    have hrest := ih (fun v hv => h v (List.mem_cons_of_mem u hv)) (apply m u)
    exact hrest.trans (Function.update_of_ne (h u List.mem_cons_self).symm _ _)

omit [DecidableEq ι] in
theorem Update.ReadsOutside.tail {u v : Update ι β} (h : u.ReadsOutside (v :: us)) :
    u.ReadsOutside us := by
  intro m m' hagree
  exact h m m' fun i hi => hagree i fun w hw => hi w (List.mem_cons_of_mem v hw)

/-- **Each update sees the store as it was before all of them.** -/
theorem applyAll_dest (h : Independent us) {u : Update ι β} (hu : u ∈ us) (m : ι → β) :
    applyAll m us u.dest = u.value m := by
  induction us generalizing m with
  | nil => exact absurd hu List.not_mem_nil
  | cons v us ih =>
    obtain ⟨hnodup, hreads⟩ := h
    rw [List.map_cons, List.nodup_cons] at hnodup
    have hne : ∀ w ∈ us, w.dest ≠ v.dest := fun w hw hd =>
      hnodup.1 (hd ▸ List.mem_map_of_mem hw)
    rcases List.mem_cons.mp hu with rfl | hu
    · exact (applyAll_of_forall_ne hne _).trans (Function.update_self _ _ _)
    · have hrest := ih ⟨hnodup.2, fun w hw => (hreads w (List.mem_cons_of_mem v hw)).tail⟩ hu
        (apply m v)
      refine hrest.trans (hreads u (List.mem_cons_of_mem v hu) _ _ fun i hi => ?_)
      refine Function.update_of_ne ?_ _ _
      rintro rfl
      exact hne u hu (hi v List.mem_cons_self rfl).symm

/-- Two ways to write the same cells leave the same store exactly when they store the same. -/
theorem applyAll_eq_iff {us' : List (Update ι β)} (h : Independent us) (h' : Independent us')
    (hdest : ∀ i, (∃ u ∈ us, u.dest = i) ↔ ∃ u' ∈ us', u'.dest = i) (m : ι → β) :
    applyAll m us = applyAll m us' ↔
      ∀ u ∈ us, ∀ u' ∈ us', u.dest = u'.dest → u.value m = u'.value m := by
  constructor
  · intro heq u hu u' hu' hd
    rw [← applyAll_dest h hu m, ← applyAll_dest h' hu' m, heq, hd]
  · intro hvalues
    funext i
    by_cases hi : ∃ u ∈ us, u.dest = i
    · obtain ⟨u', hu', hd'⟩ := (hdest i).mp hi
      obtain ⟨u, hu, rfl⟩ := hi
      rw [applyAll_dest h hu, ← hd', applyAll_dest h' hu', hvalues u hu u' hu' hd'.symm]
    · have hi' : ¬∃ u' ∈ us', u'.dest = i := mt (hdest i).mpr hi
      rw [applyAll_of_forall_ne fun u hu hd => hi ⟨u, hu, hd⟩,
        applyAll_of_forall_ne fun u hu hd => hi' ⟨u, hu, hd⟩]

end IndependentUpdates
