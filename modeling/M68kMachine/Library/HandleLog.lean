import Mathlib.Data.List.Induction
import Mathlib.Data.List.Nodup

/-!
# Tables of handles, and the log of what was done to them

A table hands out identifiers for values, drops them one at a time and now and then all. An
identifier resolves exactly when the log issued it and neither released it nor cleared the table
since.

* `Event`, `live` — the log, and the table it leaves
* `issued` — the identifiers handed out, in order
* `live_eq_some_iff` — what resolves, said without the table
-/

namespace HandleLog

variable {ι ω : Type*} {id : ι} {value : ω}

inductive Event (ι ω : Type*)
  | issue (id : ι) (value : ω)
  | release (id : ι)
  | clear
  deriving DecidableEq

/-- The identifiers handed out, in order. -/
def issued : List (Event ι ω) → List ι
  | [] => []
  | .issue id _ :: log => id :: issued log
  | .release _ :: log => issued log
  | .clear :: log => issued log

theorem issued_append (log log' : List (Event ι ω)) :
    issued (log ++ log') = issued log ++ issued log' := by
  induction log with
  | nil => rfl
  | cons e log ih => cases e <;> simp [issued, ih]

variable {log : List (Event ι ω)}

theorem mem_issued (h : Event.issue id value ∈ log) : id ∈ issued log := by
  obtain ⟨pre, post, rfl⟩ := List.append_of_mem h
  rw [issued_append]
  exact List.mem_append_right _ List.mem_cons_self

/-- `id` was issued for `value`, and neither released nor swept away since. -/
def Outstanding (log : List (Event ι ω)) (id : ι) (value : ω) : Prop :=
  ∃ pre post, log = pre ++ .issue id value :: post ∧ Event.release id ∉ post ∧ Event.clear ∉ post

theorem mem_issued_of_outstanding (h : Outstanding log id value) : id ∈ issued log := by
  obtain ⟨pre, post, rfl, -⟩ := h
  exact mem_issued (List.mem_append_right _ List.mem_cons_self)

/-- One more event leaves outstanding what it issues, and what it does not end. -/
theorem outstanding_concat {e : Event ι ω} :
    Outstanding (log ++ [e]) id value ↔
      e = .issue id value ∨ (Outstanding log id value ∧ e ≠ .release id ∧ e ≠ .clear) := by
  constructor
  · rintro ⟨pre, post, heq, hrel, hclr⟩
    rcases List.eq_nil_or_concat post with rfl | ⟨post', last, rfl⟩
    · left
      exact (List.append_inj' heq rfl).2 |> List.singleton_inj.mp
    · right
      rw [List.concat_eq_append] at heq hrel hclr
      rw [← List.cons_append, ← List.append_assoc] at heq
      obtain ⟨hlog, hlast⟩ := List.append_inj' heq rfl
      obtain rfl := List.singleton_inj.mp hlast
      simp only [List.mem_append, List.mem_singleton, not_or] at hrel hclr
      exact ⟨⟨pre, post', hlog, hrel.1, hclr.1⟩, Ne.symm hrel.2, Ne.symm hclr.2⟩
  · rintro (rfl | ⟨⟨pre, post, rfl, hrel, hclr⟩, hr, hc⟩)
    · exact ⟨log, [], rfl, List.not_mem_nil, List.not_mem_nil⟩
    · refine ⟨pre, post ++ [e], by simp, ?_, ?_⟩
      · simpa [hrel] using Ne.symm hr
      · simpa [hclr] using Ne.symm hc

variable [DecidableEq ι]

/-- What an event does to the table. -/
def Event.apply (table : ι → Option ω) : Event ι ω → ι → Option ω
  | .issue id value => fun i => if i = id then some value else table i
  | .release id => fun i => if i = id then none else table i
  | .clear => fun _ => none

/-- The table the log leaves. -/
def live (log : List (Event ι ω)) : ι → Option ω := log.foldl Event.apply fun _ => none

theorem live_concat (log : List (Event ι ω)) (e : Event ι ω) :
    live (log ++ [e]) = e.apply (live log) := by
  rw [live, List.foldl_append]
  rfl

/-- **An identifier resolves exactly to what it was issued for**, unless issued twice. -/
theorem live_eq_some_iff (hnodup : (issued log).Nodup) :
    live log id = some value ↔ Outstanding log id value := by
  induction log using List.reverseRecOn with
  | nil =>
    constructor
    · intro h
      cases h
    · rintro ⟨pre, post, heq, -⟩
      simp at heq
  | append_singleton log e ih =>
    rw [issued_append] at hnodup
    have ih := ih (List.Nodup.of_append_left hnodup)
    rw [live_concat, outstanding_concat]
    cases e with
    | issue id' value' =>
      simp only [Event.apply, Event.issue.injEq, ne_eq, reduceCtorEq, not_false_eq_true, and_true]
      by_cases hid : id = id'
      · subst hid
        rw [if_pos rfl]
        -- An older issue of the same identifier would be a second one.
        have hnot : ¬Outstanding log id value := fun hold =>
          List.disjoint_of_nodup_append hnodup (mem_issued_of_outstanding hold)
            List.mem_cons_self
        simp [hnot, eq_comm]
      · rw [if_neg hid, ih]
        simp [Ne.symm hid]
    | release id' =>
      simp only [Event.apply, Event.release.injEq, ne_eq, reduceCtorEq, not_false_eq_true,
        and_true, false_or]
      by_cases hid : id = id'
      · subst hid
        simp
      · rw [if_neg hid, ih]
        simp [Ne.symm hid]
    | clear => simp [Event.apply]

end HandleLog
