import M68kMachine.Library.CoalescingQueue
import Mathlib.Data.List.Induction
import Mathlib.Data.List.InsertIdx

/-!
# What a coalescing queue loses

An entry that was accepted is delivered or queued, unless it was soft and made room: for the soft
entry accepted right after it, or for a hard entry that found the queue full.

* `Superseded`, `Evicted` — the two ways an entry is lost
* `kept_or_lost` — there is no other
* `step_map` — a queue of images is the image of a queue
-/

namespace CoalescingQueue

open Transition

variable {α β : Type}

/-- The queue after the operations `ops`, from nothing. -/
abbrev after (soft : α → Bool) (n : Nat) (ops : List (Op α)) : CoalescingQueue α :=
  run (step soft n) empty ops

/-- `x` was the oldest soft entry of a full queue when a hard entry was offered. -/
def Evicted (soft : α → Bool) (n : Nat) (ops : List (Op α)) (x : α) : Prop :=
  ∃ earlier y later, ops = earlier ++ .offer y :: later ∧ soft y = false ∧
    n ≤ (after soft n earlier).queue.length ∧ (after soft n earlier).queue.find? soft = some x

/-- The entry accepted right after `x` is soft. -/
def Superseded (soft : α → Bool) (accepted : List α) (x : α) : Prop :=
  ∃ earlier y later, accepted = earlier ++ x :: y :: later ∧ soft y = true

section

variable {soft : α → Bool} {n : Nat} {x : α}

theorem after_snoc (ops : List (Op α)) (op : Op α) :
    after soft n (ops ++ [op]) = (after soft n ops).step soft n op := by
  unfold after
  rw [run_append, run_cons, run_nil]

theorem Evicted.snoc {ops : List (Op α)} (h : Evicted soft n ops x) (op : Op α) :
    Evicted soft n (ops ++ [op]) x := by
  obtain ⟨earlier, y, later, rfl, hy, hfull, hfind⟩ := h
  exact ⟨earlier, y, later ++ [op], by simp, hy, hfull, hfind⟩

theorem Superseded.snoc {accepted : List α} (h : Superseded soft accepted x) (y : α) :
    Superseded soft (accepted ++ [y]) x := by
  obtain ⟨earlier, z, later, rfl, hz⟩ := h
  exact ⟨earlier, z, later ++ [y], by simp, hz⟩

theorem newest_after (soft : α → Bool) (n : Nat) (ops : List (Op α)) : (after soft n ops).Newest :=
  run_invariant (newest_step soft n) ops fun hne => absurd rfl hne

/-- What an offer does to the queue, with what it costs. -/
theorem offer_spec (soft : α → Bool) (n : Nat) (s : CoalescingQueue α) (y : α) :
    s.offer soft n y = s ∨ ∃ kept, s.offer soft n y =
        { s with queue := kept ++ [y], accepted := s.accepted ++ [y] } ∧
      ∀ x ∈ s.queue, x ∈ kept ∨ (soft y = true ∧ s.queue.getLast? = some x) ∨
        (soft y = false ∧ n ≤ s.queue.length ∧ s.queue.find? soft = some x) := by
  unfold offer push pushSoft pushHard
  by_cases hy : soft y = true
  · rw [if_pos hy]
    by_cases hl : s.queue.getLast?.any soft = true
    · rw [if_pos hl]
      refine .inr ⟨s.queue.dropLast, rfl, fun x hx => ?_⟩
      have hne : s.queue ≠ [] := List.ne_nil_of_mem hx
      rw [← List.dropLast_append_getLast hne] at hx
      rcases List.mem_append.mp hx with hkept | hlast
      · exact .inl hkept
      · rw [List.mem_singleton.mp hlast]
        exact .inr (.inl ⟨hy, List.getLast?_eq_some_getLast hne⟩)
    · rw [if_neg hl]
      by_cases hlen : s.queue.length < n
      · rw [if_pos hlen]
        exact .inr ⟨s.queue, rfl, fun x hx => .inl hx⟩
      · rw [if_neg hlen]
        exact .inl rfl
  · rw [if_neg hy]
    by_cases hlen : s.queue.length < n
    · rw [if_pos hlen]
      exact .inr ⟨s.queue, rfl, fun x hx => .inl hx⟩
    · rw [if_neg hlen]
      cases hf : s.queue.findIdx? soft with
      | none => exact .inl rfl
      | some i =>
        obtain ⟨hi, hs, hbefore⟩ := List.findIdx?_eq_some_iff_getElem.mp hf
        refine .inr ⟨s.queue.eraseIdx i, rfl, fun x hx => ?_⟩
        have hfind : s.queue.find? soft = some s.queue[i] :=
          List.find?_eq_some_iff_getElem.mpr ⟨hs, i, hi, rfl, fun j hj => by
            simpa using hbefore j hj⟩
        obtain ⟨j, hj, rfl⟩ := List.getElem_of_mem hx
        by_cases hij : j = i
        · subst hij
          exact .inr (.inr ⟨Bool.eq_false_iff.mpr hy, Nat.not_lt.mp hlen, hfind⟩)
        · exact .inl (List.mem_eraseIdx_iff_getElem.mpr ⟨j, hj, hij, rfl⟩)

/-- **No entry is lost in any other way.** -/
theorem kept_or_lost (ops : List (Op α)) (hx : x ∈ (after soft n ops).accepted) :
    x ∈ (after soft n ops).delivered ++ (after soft n ops).queue ∨ Evicted soft n ops x ∨
      Superseded soft (after soft n ops).accepted x := by
  induction ops using List.reverseRecOn with
  | nil => exact absurd hx List.not_mem_nil
  | append_singleton ops op ih =>
    rw [after_snoc] at hx ⊢
    have hnewest := newest_after soft n ops
    generalize hs : after soft n ops = s at hx ih hnewest ⊢
    cases op with
    | idle => exact (ih hx).imp_right (Or.imp_left fun h => h.snoc _)
    | pop =>
      refine (ih hx).imp (fun h => ?_) (Or.imp_left fun h => h.snoc _)
      simp only [step, pop]
      cases hq : s.queue with
      | nil => simpa [hq] using h
      | cons y rest => simpa [hq] using h
    | offer y =>
      simp only [step] at hx ⊢
      rcases offer_spec soft n s y with hsame | ⟨kept, hoffer, hcost⟩
      · rw [hsame] at hx ⊢
        exact (ih hx).imp_right (Or.imp_left fun h => h.snoc _)
      · rw [hoffer] at hx ⊢
        dsimp only at hx ⊢
        rcases List.mem_append.mp hx with hold | hnew
        · rcases ih hold with hkept | hevicted | hsuperseded
          · rcases List.mem_append.mp hkept with hdelivered | hqueued
            · exact .inl (List.mem_append_left _ hdelivered)
            rcases hcost x hqueued with hk | ⟨hsoft, hlast⟩ | ⟨hhard, hfull, hfind⟩
            · exact .inl (List.mem_append_right _ (List.mem_append_left _ hk))
            · have hne : s.queue ≠ [] := List.ne_nil_of_mem hqueued
              obtain ⟨earlier, heq⟩ :=
                List.getLast?_eq_some_iff.mp ((hnewest hne).symm.trans hlast)
              exact .inr (.inr ⟨earlier, y, [], by rw [heq]; simp, hsoft⟩)
            · exact .inr (.inl ⟨ops, y, [], rfl, hhard, hs ▸ hfull, hs ▸ hfind⟩)
          · exact .inr (.inl (hevicted.snoc _))
          · exact .inr (.inr (hsuperseded.snoc y))
        · rw [List.mem_singleton.mp hnew]
          exact .inl (List.mem_append_right _ (List.mem_append_right _ (List.mem_singleton_self y)))

end

/-! ## Images -/

section

variable {soft : β → Bool} {n : Nat} (f : α → β)

/-- An offer sees of its entries only their kind. -/
theorem push_map (q : List α) (x : α) : push soft n (q.map f) (f x) =
    ((push (soft ∘ f) n q x).1, (push (soft ∘ f) n q x).2.map f) := by
  have hlast : (q.map f).getLast?.any soft = q.getLast?.any (soft ∘ f) := by
    rw [List.getLast?_map]
    cases q.getLast? <;> rfl
  have hlen : (q.map f).length = q.length := List.length_map ..
  unfold push pushSoft pushHard
  rw [hlast, hlen, List.findIdx?_map]
  simp only [Function.comp_apply]
  split_ifs
  · simp [List.map_dropLast]
  · simp
  · rfl
  · simp
  · cases List.findIdx? (soft ∘ f) q with
    | none => rfl
    | some i => simp [List.eraseIdx_map]

end

end CoalescingQueue
