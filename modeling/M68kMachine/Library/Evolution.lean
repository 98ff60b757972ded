import Mathlib.Logic.Function.Iterate
import Mathlib.Logic.Relation

/-!
# Slots

A slot that is empty or holds something that changes in steps of its own. Nothing is put into it or
taken out.

* `Slot` — the holder's step, as it is seen from the slot
* `Slot.rel` — many steps as one
* `Slot.keeps` — an invariant of the steps is one of the slot
-/

namespace Evolution

variable {α : Type*} {R : α → α → Prop} {o o' : Option α}

/-- What is in the slot went through steps of `R`. -/
abbrev Slot (R : α → α → Prop) : Option α → Option α → Prop :=
  Option.Rel (Relation.ReflTransGen R)

instance relRefl [Std.Refl R] : Std.Refl (Option.Rel R) where
  refl o := by
    cases o with
    | none => exact .none
    | some a => exact .some (Std.Refl.refl a)

instance relTrans [IsTrans α R] : IsTrans (Option α) (Option.Rel R) where
  trans o o' o'' h h' := by
    cases h with
    | none => exact h'
    | some h =>
      cases h' with
      | some h' => exact .some (IsTrans.trans _ _ _ h h')

theorem Slot.refl (o : Option α) : Slot R o o := Std.Refl.refl o

theorem Slot.trans {o o' o'' : Option α} (h : Slot R o o') (h' : Slot R o' o'') : Slot R o o'' :=
  IsTrans.trans _ _ _ h h'

theorem Slot.of_eq (h : o' = o) : Slot R o o' := by
  rw [h]
  exact .refl o

theorem Slot.step {a a' : α} (ho : o = some a) (h : R a a') : Slot R o (some a') := by
  rw [ho]
  exact .some (.single h)

theorem Slot.map {f : α → α} (h : ∀ a, R a (f a)) (o : Option α) : Slot R o (o.map f) := by
  cases o with
  | none => exact .none
  | some a => exact .some (.single (h a))

/-- A step taken a number of times. -/
theorem Slot.iterate {a : α} (ho : o = some a) {f : α → α} (h : ∀ a, R a (f a)) (n : Nat) :
    Slot R o (some (f^[n] a)) := by
  rw [ho]
  refine .some ?_
  induction n with
  | zero => exact .refl
  | succ n ih =>
    rw [Function.iterate_succ_apply']
    exact ih.tail (h _)

/-- Steps within a relation that can be chained amount to one of it. -/
theorem Slot.rel {S : α → α → Prop} [Std.Refl S] [IsTrans α S] (ho : Slot R o o')
    (h : ∀ a a', R a a' → S a a') : Option.Rel S o o' := by
  cases ho with
  | none => exact .none
  | some hsteps => exact .some (Relation.reflTransGen_le_of_le h _ _ hsteps)

/-- **What the steps keep, the slot keeps.** -/
theorem Slot.keeps {P : α → Prop} (hP : ∀ {a a'}, R a a' → P a → P a') (h : Slot R o o')
    (ho : ∀ a, o = some a → P a) : ∀ a', o' = some a' → P a' := by
  cases h with
  | none => exact nofun
  | some h =>
    rintro a' ⟨⟩
    have ha := ho _ rfl
    clear ho
    induction h with
    | refl => exact ha
    | tail _ hstep ih => exact hP hstep ih

end Evolution
