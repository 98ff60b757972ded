import Mathlib.Tactic.Common

/-!
# Transition systems

A system is a step function `σ → ο → σ` over states `σ` and operations `ο`; a run is the fold of the
step over a list of operations. What a single step preserves holds along every run.

* `run` — the state after a list of operations
* `run_invariant` — an invariant of the step is an invariant of every run
* `Reachable` — the states some run arrives at, and its induction rule
* `run_rounds` — a run in rounds, each of which lowers a rank
* `foldlM_eq_run_iff` — a run whose steps may stop
-/

namespace Transition

variable {σ ο : Type*}

/-- The state after the operations `ops`, applied from the left. -/
def run (step : σ → ο → σ) (s : σ) (ops : List ο) : σ := ops.foldl step s

@[simp] theorem run_nil (step : σ → ο → σ) (s : σ) : run step s [] = s := rfl

@[simp] theorem run_cons (step : σ → ο → σ) (s : σ) (o : ο) (ops : List ο) :
    run step s (o :: ops) = run step (step s o) ops := rfl

theorem run_append (step : σ → ο → σ) (s : σ) (ops ops' : List ο) :
    run step s (ops ++ ops') = run step (run step s ops) ops' := List.foldl_append

/-- **An invariant of the step is an invariant of the run.** -/
theorem run_invariant {step : σ → ο → σ} {P : σ → Prop}
    (hstep : ∀ s o, P s → P (step s o)) : ∀ (ops : List ο) {s : σ}, P s → P (run step s ops)
  | [], _, h => h
  | o :: ops, _, h => run_invariant hstep ops (hstep _ o h)

/-- The rule for operations of a kind `Q` only. -/
theorem run_invariant_of_mem {step : σ → ο → σ} {P : σ → Prop} {Q : ο → Prop}
    (hstep : ∀ s o, P s → Q o → P (step s o)) :
    ∀ (ops : List ο) {s : σ}, P s → (∀ o ∈ ops, Q o) → P (run step s ops)
  | [], _, h, _ => h
  | o :: ops, _, h, hops =>
    run_invariant_of_mem hstep ops (hstep _ o h (hops o List.mem_cons_self))
      fun o' ho' => hops o' (List.mem_cons_of_mem o ho')

/-- The states that runs from the states of `init` arrive at. -/
inductive Reachable (init : σ → Prop) (step : σ → ο → σ) : σ → Prop
  | start {s : σ} : init s → Reachable init step s
  | next {s : σ} (o : ο) : Reachable init step s → Reachable init step (step s o)

theorem Reachable.invariant {init : σ → Prop} {step : σ → ο → σ} {P : σ → Prop}
    (hinit : ∀ s, init s → P s) (hstep : ∀ s o, P s → P (step s o)) {s : σ}
    (h : Reachable init step s) : P s := by
  induction h with
  | start h => exact hinit _ h
  | next o _ ih => exact hstep _ o ih

theorem Reachable.run {init : σ → Prop} {step : σ → ο → σ} {s : σ}
    (h : Reachable init step s) (ops : List ο) : Reachable init step (run step s ops) :=
  run_invariant (P := Reachable init step) (fun _ o hs => hs.next o) ops h

/-! ## Every state and every step of a run -/

/-- `P` holds in every state the run goes through, its first and last one included. -/
def Always (step : σ → ο → σ) (P : σ → Prop) (s : σ) (ops : List ο) : Prop :=
  ∀ before after, ops = before ++ after → P (run step s before)

/-- `Q` holds of every operation of the run and the state it is applied to. -/
def Each (step : σ → ο → σ) (Q : σ → ο → Prop) (s : σ) (ops : List ο) : Prop :=
  ∀ before o after, ops = before ++ o :: after → Q (run step s before) o

section Runs

variable {step : σ → ο → σ} {P : σ → Prop} {Q : σ → ο → Prop} {s : σ} {o : ο} {ops ops' : List ο}

@[simp] theorem always_nil : Always step P s [] ↔ P s := by
  constructor
  · intro h
    exact h [] [] rfl
  · rintro h before after hsplit
    obtain ⟨rfl, -⟩ := List.append_eq_nil_iff.mp hsplit.symm
    exact h

@[simp] theorem always_cons :
    Always step P s (o :: ops) ↔ P s ∧ Always step P (step s o) ops := by
  constructor
  · intro h
    refine ⟨h [] (o :: ops) rfl, fun before after hsplit => ?_⟩
    exact h (o :: before) after (by rw [hsplit, List.cons_append])
  · rintro ⟨hs, h⟩ before after hsplit
    cases before with
    | nil => exact hs
    | cons o' before =>
      obtain ⟨rfl, hrest⟩ := List.cons.inj hsplit
      exact h before after hrest

@[simp] theorem each_nil : Each step Q s [] := by
  intro before o after hsplit
  simp at hsplit

@[simp] theorem each_cons :
    Each step Q s (o :: ops) ↔ Q s o ∧ Each step Q (step s o) ops := by
  constructor
  · intro h
    refine ⟨h [] o ops rfl, fun before o' after hsplit => ?_⟩
    exact h (o :: before) o' after (by rw [hsplit, List.cons_append])
  · rintro ⟨hs, h⟩ before o' after hsplit
    cases before with
    | nil =>
      obtain ⟨rfl, -⟩ := List.cons.inj hsplit
      exact hs
    | cons o'' before =>
      obtain ⟨rfl, hrest⟩ := List.cons.inj hsplit
      exact h before o' after hrest

theorem each_append : Each step Q s (ops ++ ops') ↔
    Each step Q s ops ∧ Each step Q (run step s ops) ops' := by
  induction ops generalizing s with
  | nil => simp
  | cons o ops ih => simp only [List.cons_append, each_cons, run_cons, ih, and_assoc]

theorem Always.first (h : Always step P s ops) : P s := h [] ops rfl

theorem Always.last (h : Always step P s ops) : P (run step s ops) :=
  h ops [] (List.append_nil ops).symm

/-- **A step under its condition keeps `P`, so a run whose steps all meet it does.** -/
theorem always_of_each (hstep : ∀ s o, P s → Q s o → P (step s o)) (hs : P s)
    (h : Each step Q s ops) : Always step P s ops := by
  induction ops generalizing s with
  | nil => exact always_nil.mpr hs
  | cons o ops ih =>
    obtain ⟨ho, h⟩ := each_cons.mp h
    exact always_cons.mpr ⟨hs, ih (hstep s o hs ho) h⟩

/-- **A rank that every round lowers is used up after so many rounds.** -/
theorem run_rounds {rank : σ → Nat} {R : List ο → Prop}
    (hround : ∀ s r, R r → Each step Q s r → rank (run step s r) ≤ rank s - 1) :
    ∀ (rounds : List (List ο)) {s : σ}, (∀ r ∈ rounds, R r) → Each step Q s rounds.flatten →
      rank (run step s rounds.flatten) ≤ rank s - rounds.length
  | [], _, _, _ => Nat.le_refl _
  | r :: rounds, s, hrounds, h => by
    rw [List.flatten_cons] at h ⊢
    obtain ⟨hfirst, hothers⟩ := each_append.mp h
    have hlower := hround s r (hrounds r List.mem_cons_self) hfirst
    have ih := run_rounds hround rounds (fun r' hr' => hrounds r' (List.mem_cons_of_mem r hr'))
      hothers
    rw [run_append, List.length_cons]
    omega

/-- **A run given up at the first step that stops** returns if and only if no step does. -/
theorem foldlM_eq_run_iff {checked : σ → ο → Option σ} {I : σ → Prop}
    (hI : ∀ s o, I s → I (step s o)) (hsome : ∀ s o, I s → Q s o → checked s o = some (step s o))
    (hnone : ∀ s o, I s → ¬Q s o → checked s o = none) (hs : I s) :
    ops.foldlM checked s = some (run step s ops) ↔ Each step Q s ops := by
  induction ops generalizing s with
  | nil => simp
  | cons o ops ih =>
    rw [List.foldlM_cons, run_cons, each_cons]
    by_cases hQ : Q s o
    · rw [hsome s o hs hQ]
      exact (ih (hI s o hs)).trans (and_iff_right hQ).symm
    · rw [hnone s o hs hQ]
      constructor
      · intro h
        cases h
      · exact fun h => absurd h.1 hQ

end Runs

end Transition
