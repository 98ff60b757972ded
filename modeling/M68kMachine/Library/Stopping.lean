import Mathlib.Tactic.Common

/-!
# Computations that may stop

A computation `StateT σ Option α` returns a value and a state or stops for good. A sequence returns
when the first part does, and the rest does from where that leaves off.

* `Returns`, `After` — that a computation returns, and what holds where it does
* `rounds`, `Enters` — a loop, and the states at which its rounds begin
* `Costs` — how far a measure of the state grows
-/

namespace Stopping

variable {σ : Type*} {α β γ : Type _} {m : StateT σ Option α} {f : α → StateT σ Option β} {s : σ}

theorem bind_apply (m : StateT σ Option α) (f : α → StateT σ Option β) (s : σ) :
    (m >>= f) s = (m s).bind fun p => f p.1 p.2 := rfl

/-! ## Returning -/

def Returns (m : StateT σ Option α) (s : σ) : Prop := (m s).isSome = true

/-- `P` holds of what `m` returns from `s`, if it does. -/
def After (m : StateT σ Option α) (s : σ) (P : α → σ → Prop) : Prop :=
  ∀ a t, m s = some (a, t) → P a t

theorem returns_pure (a : α) (s : σ) : Returns (pure a : StateT σ Option α) s := rfl

/-- **A sequence returns if and only if its first part does, and the rest does from there.** -/
theorem returns_bind :
    Returns (m >>= f) s ↔ Returns m s ∧ After m s fun a t => Returns (f a) t := by
  unfold Returns After
  rw [bind_apply]
  cases hm : m s with
  | none => simp
  | some p =>
    obtain ⟨a, t⟩ := p
    constructor
    · intro h
      refine ⟨rfl, ?_⟩
      rintro a' t' ⟨⟩
      exact h
    · rintro ⟨-, h⟩
      exact h a t rfl

theorem after_congr {P Q : α → σ → Prop} (hPQ : ∀ a t, m s = some (a, t) → (P a t ↔ Q a t)) :
    After m s P ↔ After m s Q :=
  forall_congr' fun a => forall_congr' fun t => forall_congr' fun hm => hPQ a t hm

/-- A first part that always returns leaves the question to the rest. -/
theorem returns_bind_of (hm : Returns m s) :
    Returns (m >>= f) s ↔ After m s fun a t => Returns (f a) t :=
  returns_bind.trans (and_iff_right hm)

/-- A sequence of parts that return returns. -/
theorem Returns.bind (hm : Returns m s) (hf : ∀ a t, Returns (f a) t) : Returns (m >>= f) s :=
  returns_bind.mpr ⟨hm, fun a t _ => hf a t⟩

theorem returns_map {g : α → β} : Returns (m >>= fun a => pure (g a)) s ↔ Returns m s :=
  returns_bind.trans (and_iff_left fun a t _ => returns_pure (g a) t)

/-- Two parts whose returning does not depend on each other. -/
theorem returns_bind_iff {P Q : Prop} (hm : Returns m s ↔ P) (hf : ∀ a t, Returns (f a) t ↔ Q) :
    Returns (m >>= f) s ↔ P ∧ Q := by
  rw [returns_bind, hm]
  refine and_congr_right fun hP => ?_
  obtain ⟨⟨a, t⟩, hat⟩ := Option.isSome_iff_exists.mp (hm.mpr hP)
  constructor
  · intro h
    exact (hf a t).mp (h a t hat)
  · intro hQ a t _
    exact (hf a t).mpr hQ

/-- What is asked of the first part, and of the rest where the first leaves off. -/
theorem returns_bind_after {P : Prop} {Q : α → σ → Prop} (hm : Returns m s ↔ P)
    (hf : ∀ a t, m s = some (a, t) → (Returns (f a) t ↔ Q a t)) :
    Returns (m >>= f) s ↔ P ∧ After m s Q :=
  returns_bind.trans (and_congr hm (after_congr hf))

theorem returns_ite {c : Prop} [Decidable c] {m' : StateT σ Option α} :
    Returns (if c then m else m') s ↔ (c → Returns m s) ∧ (¬c → Returns m' s) := by
  split <;> simp_all

/-! ## Loops -/

/-- At most so many rounds, each of which says whether there is to be another. -/
def rounds (body : γ → StateT σ Option (Bool × γ)) : Nat → γ → StateT σ Option γ
  | 0, c => pure c
  | n + 1, c => do
    let (more, c) ← body c
    if more then rounds body n c else pure c

/-- The cursors and states at which the rounds of a loop begin. -/
inductive Enters (body : γ → StateT σ Option (Bool × γ)) : Nat → γ → σ → γ → σ → Prop
  | here {n : Nat} {c : γ} {s : σ} : Enters body (n + 1) c s c s
  | next {n : Nat} {c c' d : γ} {s s' t : σ} : body c s = some ((true, c'), s') →
      Enters body n c' s' d t → Enters body (n + 1) c s d t

/-- **A loop returns if and only if each of its rounds does.** -/
theorem returns_rounds {body : γ → StateT σ Option (Bool × γ)} {n : Nat} {c : γ} :
    Returns (rounds body n c) s ↔ ∀ d t, Enters body n c s d t → Returns (body d) t := by
  induction n generalizing c s with
  | zero =>
    refine ⟨fun _ d t h => ?_, fun _ => returns_pure c s⟩
    cases h
  | succ n ih =>
    rw [rounds, returns_bind]
    constructor
    · rintro ⟨hbody, hrest⟩ d t h
      cases h with
      | here => exact hbody
      | next hnext h => exact ih.mp (hrest _ _ hnext) d t h
    · intro h
      refine ⟨h c s .here, ?_⟩
      rintro ⟨more, c'⟩ s' hnext
      cases more with
      | false => exact returns_pure c' s'
      | true => exact ih.mpr fun d t hent => h d t (.next hnext hent)

/-! ## Cost -/

section Cost

variable {measure : σ → Nat} {m : StateT σ Option α} {n : Nat}

/-- The measure grows by `n` at most. -/
def Costs (measure : σ → Nat) (m : StateT σ Option α) (n : Nat) : Prop :=
  ∀ s, After m s fun _ t => measure t ≤ measure s + n

theorem Costs.pure (a : α) : Costs measure (pure a : StateT σ Option α) 0 := by
  rintro s _ _ ⟨⟩
  exact Nat.le_refl _

theorem Costs.mono {k : Nat} (h : Costs measure m n) (hle : n ≤ k) : Costs measure m k :=
  fun s a t hm =>
    Nat.le_trans (h s a t hm) (Nat.add_le_add_left hle _)

theorem Costs.bind {f : α → StateT σ Option β} {k : Nat} (hm : Costs measure m n)
    (hf : ∀ a, Costs measure (f a) k) : Costs measure (m >>= f) (n + k) := by
  intro s b t h
  rw [bind_apply] at h
  obtain ⟨⟨a, u⟩, hu, hb⟩ := Option.bind_eq_some_iff.mp h
  have hfirst := hm s a u hu
  have hsecond := hf a u b t hb
  omega

theorem Costs.ite {c : Prop} [Decidable c] {m' : StateT σ Option α} (h : Costs measure m n)
    (h' : Costs measure m' n) : Costs measure (if c then m else m') n := by
  split
  · exact h
  · exact h'

/-- **A loop costs what its rounds do.** -/
theorem Costs.rounds {body : γ → StateT σ Option (Bool × γ)} (h : ∀ c, Costs measure (body c) n)
    (k : Nat) (c : γ) : Costs measure (rounds body k c) (k * n) := by
  induction k generalizing c with
  | zero => exact (Costs.pure c).mono (Nat.zero_le _)
  | succ k ih =>
    refine (Costs.bind (h c) fun p => Costs.ite (ih p.2) ((Costs.pure p.2).mono ?_)).mono ?_
    · exact Nat.zero_le _
    · exact Nat.le_of_eq (by rw [Nat.succ_mul, Nat.add_comm])

end Cost

end Stopping
