import Mathlib.Tactic.Common

/-!
# Loops that may not return

A `loop { … }` whose body returns or goes round again. `Loop.run` bounds the number of rounds and
answers `none` at the bound; `Iterates` counts the rounds made.

* `run` — the loop cut off after a number of rounds
* `Iterates` — exactly `n` rounds lead from one state to another
* `Visits` — the states a loop goes through, whether or not it returns
* `lockstep_iff` — two loops that look the same round by round
-/

namespace Loop

variable {σ : Type*}

/-- What one pass through the body does. -/
inductive Outcome (σ : Type*)
  | again (s : σ)
  | done (s : σ)

/-- The state a pass leaves, whichever way it ends. -/
def Outcome.state : Outcome σ → σ
  | .again s => s
  | .done s => s

/-- The loop, given up after `fuel` passes. -/
def run (body : σ → Outcome σ) : Nat → σ → Option σ
  | 0, _ => none
  | fuel + 1, s =>
    match body s with
    | .done t => some t
    | .again t => run body fuel t

theorem run_succ (body : σ → Outcome σ) (fuel : Nat) (s : σ) : run body (fuel + 1) s =
    match body s with
    | .done t => some t
    | .again t => run body fuel t := rfl

/-- `n` passes that each go round again lead from one state to another. -/
inductive Iterates (body : σ → Outcome σ) : Nat → σ → σ → Prop
  | zero (s : σ) : Iterates body 0 s s
  | succ {n : Nat} {s t u : σ} : body s = .again t → Iterates body n t u →
      Iterates body (n + 1) s u

/-- The states a loop entered at `s` goes through: after some rounds, or on returning. -/
def Visits (body : σ → Outcome σ) (s u : σ) : Prop :=
  ∃ n t, Iterates body n s t ∧ (u = t ∨ u = (body t).state)

variable {body : σ → Outcome σ} {n : Nat} {s t u : σ} {Q P : σ → Prop} {o : Outcome σ}

theorem Iterates.snoc (h : Iterates body n s t) (hu : body t = .again u) :
    Iterates body (n + 1) s u := by
  induction h with
  | zero s => exact .succ hu (.zero u)
  | succ hs _ ih => exact .succ hs (ih hu)

theorem Iterates.trans {m : Nat} (h : Iterates body n s t) (h' : Iterates body m t u) :
    Iterates body (m + n) s u := by
  induction h with
  | zero s => exact h'
  | succ hs _ ih => exact .succ hs (ih h')

theorem Iterates.unique (h : Iterates body n s t) (h' : Iterates body n s u) : t = u := by
  induction h with
  | zero s => cases h'; rfl
  | succ hs _ ih =>
    cases h' with
    | succ hs' hit' =>
      rw [hs] at hs'
      cases hs'
      exact ih hit'

/-- **An invariant of the body holds after every number of rounds.** -/
theorem Iterates.invariant {P : Nat → σ → Prop}
    (hbody : ∀ k s t, P k s → body s = .again t → P (k + 1) t) (h : Iterates body n s t) :
    ∀ k, P k s → P (k + n) t := by
  induction h with
  | zero s => intro k hk; exact hk
  | @succ n s t u hs _ ih =>
    intro k hk
    have := ih (k + 1) (hbody k s t hk hs)
    rwa [show k + 1 + n = k + (n + 1) by omega] at this

/-- A bounded run returns exactly when the loop returns within the bound. -/
theorem run_eq_some_iff {fuel : Nat} :
    run body fuel s = some t ↔
      ∃ n u, n < fuel ∧ Iterates body n s u ∧ body u = .done t := by
  constructor
  · induction fuel generalizing s with
    | zero => intro h; cases h
    | succ fuel ih =>
      intro h
      cases hb : body s with
      | done v =>
        rw [run_succ, hb] at h
        cases h
        exact ⟨0, s, Nat.succ_pos _, .zero s, hb⟩
      | again v =>
        rw [run_succ, hb] at h
        obtain ⟨n, u, hn, hit, hd⟩ := ih h
        exact ⟨n + 1, u, Nat.succ_lt_succ hn, .succ hb hit, hd⟩
  · rintro ⟨n, u, hn, hit, hd⟩
    induction hit generalizing fuel with
    | zero s =>
      obtain ⟨fuel, rfl⟩ : ∃ f, fuel = f + 1 := ⟨fuel - 1, by omega⟩
      rw [run_succ, hd]
    | succ hb _ ih =>
      obtain ⟨fuel, rfl⟩ : ∃ f, fuel = f + 1 := ⟨fuel - 1, by omega⟩
      rw [run_succ, hb]
      exact ih (by omega) hd

/-- **What every pass preserves holds of every state visited.** -/
theorem Visits.invariant {P : σ → Prop} (hbody : ∀ s, P s → P (body s).state) {s u : σ}
    (h : Visits body s u) (hs : P s) : P u := by
  obtain ⟨n, t, hit, hu⟩ := h
  have ht : P t := by
    have hagain : ∀ (k : Nat) (s t : σ), P s → body s = .again t → P t := by
      intro _ s t hs hst
      have := hbody s hs
      rwa [hst] at this
    exact hit.invariant (P := fun _ => P) hagain 0 hs
  rcases hu with rfl | rfl
  · exact ht
  · exact hbody t ht

/-- A loop that returns in its first pass goes nowhere else. -/
theorem Visits.of_done (hs : body s = .done t) (h : Visits body s u) : u = s ∨ u = t := by
  obtain ⟨n, v, hit, hu⟩ := h
  cases hit with
  | zero =>
    rw [hs] at hu
    exact hu
  | succ hagain _ => rw [hs] at hagain; cases hagain

theorem visits_of_run {fuel : Nat} (h : run body fuel s = some t) : Visits body s t := by
  obtain ⟨n, u, -, hit, hd⟩ := run_eq_some_iff.mp h
  exact ⟨n, u, hit, .inr (by rw [hd]; rfl)⟩

/-- **A loop that goes from `P 0` on to `P n`, where it stops, returns** under any larger bound. -/
theorem run_of_progress {P : Nat → σ → Prop}
    (hbody : ∀ k s, k < n → P k s →
      (∃ t, body s = .again t ∧ P (k + 1) t) ∨ ∃ t, body s = .done t ∧ Q t)
    (hlast : ∀ s, P n s → ∃ t, body s = .done t ∧ Q t) (h : P 0 s) :
    ∃ t, (∀ fuel, n < fuel → run body fuel s = some t) ∧ Q t := by
  have hfrom : ∀ r k s, k + r = n → P k s →
      ∃ m u t, m ≤ r ∧ Iterates body m s u ∧ body u = .done t ∧ Q t := by
    intro r
    induction r with
    | zero =>
      intro k s hk hs
      obtain ⟨t, ht, hq⟩ := hlast s (by rwa [← hk])
      exact ⟨0, s, t, Nat.le_refl _, .zero s, ht, hq⟩
    | succ r ih =>
      intro k s hk hs
      rcases hbody k s (by omega) hs with ⟨v, hv, hp⟩ | ⟨t, ht, hq⟩
      · obtain ⟨m, u, t, hm, hit, ht, hq⟩ := ih (k + 1) v (by omega) hp
        exact ⟨m + 1, u, t, Nat.succ_le_succ hm, .succ hv hit, ht, hq⟩
      · exact ⟨0, s, t, Nat.zero_le _, .zero s, ht, hq⟩
  obtain ⟨m, u, t, hm, hit, ht, hq⟩ := hfrom n 0 s (Nat.zero_add n) h
  exact ⟨t, fun fuel hf => run_eq_some_iff.mpr ⟨m, u, by omega, hit, ht⟩, hq⟩

/-- **A loop that goes round again from every state of an invariant does not return.** -/
theorem run_eq_none (hbody : ∀ s, P s → ∃ t, body s = .again t ∧ P t) (h : P s) (fuel : Nat) :
    run body fuel s = none := by
  induction fuel generalizing s with
  | zero => rfl
  | succ fuel ih =>
    obtain ⟨t, ht, hp⟩ := hbody s h
    rw [run_succ, ht]
    exact ih hp

/-! ## Two loops side by side -/

/-- The same outcome, its state seen through `f`. -/
def Outcome.map {τ : Type*} (f : σ → τ) : Outcome σ → Outcome τ
  | .again s => .again (f s)
  | .done s => .done (f s)

/-- Where a loop stands after `n` passes; it stays where it returned. -/
def after (body : σ → Outcome σ) : Nat → σ → Outcome σ
  | 0, s => .again s
  | n + 1, s =>
    match after body n s with
    | .again t => body t
    | .done t => .done t

theorem after_succ (body : σ → Outcome σ) (n : Nat) (s : σ) : after body (n + 1) s =
    match after body n s with
    | .again t => body t
    | .done t => .done t := rfl

theorem after_succ_of_again (h : after body n s = .again t) : after body (n + 1) s = body t := by
  rw [after_succ, h]

theorem after_succ_of_done (h : after body n s = .done t) : after body (n + 1) s = .done t := by
  rw [after_succ, h]

theorem after_eq_again_iff : after body n s = .again t ↔ Iterates body n s t := by
  constructor
  · intro h
    induction n generalizing t with
    | zero =>
      cases h
      exact .zero s
    | succ n ih =>
      cases ha : after body n s with
      | again u => exact (ih ha).snoc ((after_succ_of_again ha).symm.trans h)
      | done u => cases (after_succ_of_done ha).symm.trans h
  · intro h
    have hagain := h.invariant (P := fun k u => after body k s = .again u)
      (fun k u v hu huv => (after_succ_of_again hu).trans huv) 0 rfl
    rwa [Nat.zero_add] at hagain

/-- How many of the first `n` passes are entered in a state of the kind `p`. -/
def count (body : σ → Outcome σ) (p : σ → Bool) : Nat → σ → Nat
  | 0, _ => 0
  | n + 1, s =>
    match after body n s with
    | .again t => count body p n s + (p t).toNat
    | .done _ => count body p n s

theorem count_succ (body : σ → Outcome σ) (p : σ → Bool) (n : Nat) (s : σ) :
    count body p (n + 1) s =
      match after body n s with
      | .again t => count body p n s + (p t).toNat
      | .done _ => count body p n s := rfl

theorem count_succ_of_again {p : σ → Bool} (h : after body n s = .again t) :
    count body p (n + 1) s = count body p n s + (p t).toNat := by
  rw [count_succ, h]

theorem count_succ_of_done {p : σ → Bool} (h : after body n s = .done t) :
    count body p (n + 1) s = count body p n s := by
  rw [count_succ, h]

/-- What holds of an outcome, by the way it came about. -/
def Outcome.Holds (P Q : σ → Prop) : Outcome σ → Prop
  | .again s => P s
  | .done s => Q s

instance {P Q : σ → Prop} [DecidablePred P] [DecidablePred Q] (o : Outcome σ) :
    Decidable (o.Holds P Q) :=
  match o with
  | .again s => inferInstanceAs (Decidable (P s))
  | .done s => inferInstanceAs (Decidable (Q s))

theorem Outcome.Holds.imp {P' Q' : σ → Prop} (h : o.Holds P Q) (hP : ∀ s, P s → P' s)
    (hQ : ∀ s, Q s → Q' s) : o.Holds P' Q' := by
  cases o with
  | again s => exact hP s h
  | done s => exact hQ s h

theorem Outcome.Holds.exists_again (h : o.Holds P fun _ => False) : ∃ s, o = .again s ∧ P s := by
  cases o with
  | again s => exact ⟨s, rfl, h⟩
  | done s => exact h.elim

theorem Outcome.Holds.exists_done (h : o.Holds (fun _ => False) Q) : ∃ s, o = .done s ∧ Q s := by
  cases o with
  | again s => exact h.elim
  | done s => exact ⟨s, rfl, h⟩

theorem Outcome.Holds.state (h : o.Holds P Q) (hPQ : ∀ s, P s → Q s) : Q o.state := by
  cases o with
  | again s => exact hPQ s h
  | done s => exact h

/-- **What every pass from `P` keeps, or ends in `Q`, holds wherever a loop stands.** -/
theorem after_holds {P Q : σ → Prop} (hbody : ∀ s, P s → (body s).Holds P Q) {s : σ} (h : P s) :
    ∀ n, (after body n s).Holds P Q
  | 0 => h
  | n + 1 => by
    have ih := after_holds hbody h n
    cases ha : after body n s with
    | again t =>
      rw [ha] at ih
      rw [after_succ_of_again ha]
      exact hbody t ih
    | done t =>
      rw [ha] at ih
      rw [after_succ_of_done ha]
      exact ih

theorem after_of_done {m : Nat} (h : after body n s = .done t) (hm : n ≤ m) :
    after body m s = .done t := by
  induction hm with
  | refl => exact h
  | step _ ih => exact after_succ_of_done ih

/-- **A loop that follows another one round by round returns when that one does**, or before. -/
theorem Iterates.simulates {τ : Type*} {body' : τ → Outcome τ} {R : σ → τ → Prop} {Q : τ → Prop}
    (hrun : Iterates body n s u)
    (hstep : ∀ m k s' s'' t, Iterates body m s s' → body s' = .again s'' → Iterates body k s'' u →
      R s' t → (∃ t', body' t = .again t' ∧ R s'' t') ∨ ∃ x, body' t = .done x ∧ Q x)
    (hlast : ∀ t, R u t → ∃ x, body' t = .done x ∧ Q x) {t : τ} (h : R s t) :
    ∃ k w x, Iterates body' k t w ∧ body' w = .done x ∧ Q x := by
  induction hrun generalizing t with
  | zero s =>
    obtain ⟨x, hx, hq⟩ := hlast t h
    exact ⟨0, t, x, .zero t, hx, hq⟩
  | @succ n s s' u hs hit ih =>
    rcases hstep 0 n s s' t (.zero s) hs hit h with ⟨t', ht, h'⟩ | ⟨x, hx, hq⟩
    · obtain ⟨k, w, x, hk, hx, hq⟩ := ih
        (fun m k a b t hm => hstep (m + 1) k a b t (.succ hs hm)) hlast h'
      exact ⟨k + 1, w, x, .succ ht hk, hx, hq⟩
    · exact ⟨0, t, x, .zero t, hx, hq⟩

/-- **Two loops related by `R` while `C` holds look the same exactly when `C` always holds.** In a
round that violates `C` they come to look different. -/
theorem lockstep_iff {τ υ : Type*} {body : σ → Outcome σ} {body' : τ → Outcome τ} {f : σ → υ}
    {g : τ → υ} {R : Nat → σ → τ → Prop} {C : Nat → τ → Prop} {s₀ : σ} {t₀ : τ}
    (hview : ∀ n s t, R n s t → f s = g t)
    (hstep : ∀ n s t, after body' n t₀ = .again t → R n s t → C n t →
      (∃ s' t', body s = .done s' ∧ body' t = .done t' ∧ f s' = g t') ∨
        ∃ s' t', body s = .again s' ∧ body' t = .again t' ∧ R (n + 1) s' t')
    (hdiff : ∀ n s t, after body' n t₀ = .again t → R n s t → ¬C n t →
      (body s).map f ≠ (body' t).map g)
    (h₀ : R 0 s₀ t₀) :
    (∀ n, (after body n s₀).map f = (after body' n t₀).map g) ↔
      ∀ n t, after body' n t₀ = .again t → C n t := by
  -- as long as `C` held, the two are related, or have both returned
  have hmain : ∀ n, (∀ m t, m < n → after body' m t₀ = .again t → C m t) →
      (∃ s t, after body n s₀ = .again s ∧ after body' n t₀ = .again t ∧ R n s t) ∨
        ∃ s t, after body n s₀ = .done s ∧ after body' n t₀ = .done t ∧ f s = g t := by
    intro n
    induction n with
    | zero => intro _; exact .inl ⟨s₀, t₀, rfl, rfl, h₀⟩
    | succ n ih =>
      intro hC
      rcases ih (fun m t hm => hC m t (by omega)) with ⟨s, t, hs, ht, hR⟩ | ⟨s, t, hs, ht, hv⟩
      · rcases hstep n s t ht hR (hC n t (by omega) ht) with
          ⟨s', t', hs', ht', hv⟩ | ⟨s', t', hs', ht', hR'⟩
        · exact .inr ⟨s', t', by rw [after_succ_of_again hs, hs'],
            by rw [after_succ_of_again ht, ht'], hv⟩
        · exact .inl ⟨s', t', by rw [after_succ_of_again hs, hs'],
            by rw [after_succ_of_again ht, ht'], hR'⟩
      · exact .inr ⟨s, t, after_succ_of_done hs, after_succ_of_done ht, hv⟩
  constructor
  · intro hsame n
    induction n using Nat.strongRecOn with
    | ind n ih =>
      intro t ht
      by_contra hC
      rcases hmain n (fun m u hm hu => ih m hm u hu) with ⟨s, t', hs, ht', hR⟩ | ⟨s, t', _, ht', _⟩
      · rw [ht] at ht'
        cases ht'
        apply hdiff n s t ht hR hC
        have := hsame (n + 1)
        rwa [after_succ_of_again hs, after_succ_of_again ht] at this
      · rw [ht] at ht'; cases ht'
  · intro hC n
    rcases hmain n (fun m t _ => hC m t) with ⟨s, t, hs, ht, hR⟩ | ⟨s, t, hs, ht, hv⟩
    · rw [hs, ht]
      simp [Outcome.map, hview n s t hR]
    · rw [hs, ht]
      simp [Outcome.map, hv]

end Loop
