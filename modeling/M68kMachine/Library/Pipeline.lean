import Mathlib.Logic.Function.Iterate
import M68kMachine.Library.Transition

/-!
# Two-stage bounded pipelines

An abstract server with a bounded waiting queue and a bounded result queue. In any order a client
offers requests (dropped and counted when the waiting queue is full), the server moves the oldest to
the results while there is room, and the client retires the oldest result.

`Accounted` is the correctness statement: everything accepted is retired, has a result waiting, or
is still waiting, in that order and once each. A bounded number of serve/retire rounds empties the
pipeline (`retired_drain`).
-/

/-- Queues of a pipeline, and the history of what was accepted, retired and dropped. -/
structure Pipeline (α : Type) where
  waiting : List α
  results : List α
  accepted : List α
  retired : List α
  dropped : Nat

namespace Pipeline

open Transition

variable {α : Type} {p : Pipeline α}

inductive Op (α : Type)
  | offer (x : α)
  | serve
  | retire
  | idle

def empty : Pipeline α := ⟨[], [], [], [], 0⟩

/-- Accept `x` when one of the `n` waiting places is free, else count the drop. -/
def offer (n : Nat) (p : Pipeline α) (x : α) : Pipeline α :=
  if p.waiting.length < n then
    { p with waiting := p.waiting ++ [x], accepted := p.accepted ++ [x] }
  else { p with dropped := p.dropped + 1 }

/-- Serve the oldest waiting request when one of the `m` result places is free. -/
def serve (m : Nat) (p : Pipeline α) : Pipeline α :=
  if p.results.length < m then
    match p.waiting with
    | [] => p
    | x :: rest => { p with waiting := rest, results := p.results ++ [x] }
  else p

/-- Retire the oldest result. -/
def retire (p : Pipeline α) : Pipeline α :=
  match p.results with
  | [] => p
  | x :: rest => { p with results := rest, retired := p.retired ++ [x] }

def step (n m : Nat) (p : Pipeline α) : Op α → Pipeline α
  | .offer x => p.offer n x
  | .serve => p.serve m
  | .retire => p.retire
  | .idle => p

/-- Every accepted request is accounted for, in order and once. -/
def Accounted (p : Pipeline α) : Prop := p.accepted = p.retired ++ p.results ++ p.waiting

/-- The requests not yet retired. -/
def pending (p : Pipeline α) : Nat := p.results.length + p.waiting.length

theorem accounted_offer (n : Nat) (x : α) (h : p.Accounted) : (p.offer n x).Accounted := by
  unfold Accounted at h ⊢
  unfold offer
  split
  · simp only [h, List.append_assoc]
  · exact h

theorem accounted_serve (m : Nat) (h : p.Accounted) : (p.serve m).Accounted := by
  unfold Accounted at h ⊢
  unfold serve
  split
  · split
    · exact h
    · rename_i x rest hw
      simp only [h, hw, List.append_assoc, List.singleton_append]
  · exact h

theorem accounted_retire (h : p.Accounted) : p.retire.Accounted := by
  unfold Accounted at h ⊢
  unfold retire
  split
  · exact h
  · rename_i x rest hr
    simp only [h, hr, List.append_assoc, List.cons_append, List.nil_append]

theorem accounted_step (n m : Nat) (p : Pipeline α) (op : Op α) (h : p.Accounted) :
    (p.step n m op).Accounted := by
  cases op with
  | offer x => exact accounted_offer n x h
  | serve => exact accounted_serve m h
  | retire => exact accounted_retire h
  | idle => exact h

/-- **Everything accepted is accounted for along every run.** -/
theorem accounted_run (n m : Nat) (ops : List (Op α)) :
    (run (step n m) (empty : Pipeline α) ops).Accounted :=
  run_invariant (accounted_step n m) ops rfl

theorem pending_eq_zero (h : p.Accounted) (hp : p.pending = 0) : p.retired = p.accepted := by
  unfold pending at hp
  have hr : p.results = [] := List.eq_nil_of_length_eq_zero (by omega)
  have hw : p.waiting = [] := List.eq_nil_of_length_eq_zero (by omega)
  unfold Accounted at h
  rw [h, hr, hw, List.append_nil, List.append_nil]

/-! ## Draining -/

/-- One round of the server and the client. -/
def round (m : Nat) (p : Pipeline α) : Pipeline α := (p.serve m).retire

@[simp] theorem accepted_serve (m : Nat) (p : Pipeline α) : (p.serve m).accepted = p.accepted := by
  unfold serve
  split
  · split <;> rfl
  · rfl

@[simp] theorem accepted_retire (p : Pipeline α) : p.retire.accepted = p.accepted := by
  unfold retire
  split <;> rfl

@[simp] theorem pending_serve (m : Nat) (p : Pipeline α) : (p.serve m).pending = p.pending := by
  unfold serve pending
  split
  · split
    · rfl
    · rename_i x rest hw
      simp only [hw, List.length_append, List.length_cons, List.length_nil]
      omega
  · rfl

/-- After serving, a pipeline with requests pending has a result to retire. -/
theorem results_serve_ne_nil {m : Nat} (hm : 0 < m) (hp : p.pending ≠ 0) :
    (p.serve m).results ≠ [] := by
  unfold serve
  split
  · split
    · rename_i hw
      intro hr
      apply hp
      unfold pending
      rw [hw, hr]
      rfl
    · simp
  · rename_i hfull
    intro hr
    rw [hr] at hfull
    exact hfull hm

theorem pending_retire (h : p.results ≠ []) : p.retire.pending + 1 = p.pending := by
  unfold retire pending
  split
  · exact absurd ‹_› h
  · rename_i x rest hr
    simp only [hr, List.length_cons]
    omega

theorem pending_retire_le (p : Pipeline α) : p.retire.pending ≤ p.pending := by
  by_cases h : p.results = []
  · unfold retire
    simp only [h, Nat.le_refl]
  · have := pending_retire h
    omega

/-- A round retires one request, if any is left. -/
theorem pending_round {m : Nat} (hm : 0 < m) (hp : p.pending ≠ 0) :
    (p.round m).pending + 1 = p.pending := by
  unfold round
  rw [pending_retire (results_serve_ne_nil hm hp), pending_serve]

/-- **A pipeline drains**: as many rounds as requests are pending retire everything accepted. -/
theorem retired_drain {m : Nat} (hm : 0 < m) : ∀ (rounds : Nat) {p : Pipeline α},
    p.Accounted → p.pending ≤ rounds → ((round m)^[rounds] p).retired = p.accepted
  | 0, p, h, hp => show p.retired = p.accepted from pending_eq_zero h (Nat.le_zero.mp hp)
  | rounds + 1, p, h, hp => by
    have hacc : (p.round m).Accounted := accounted_retire (accounted_serve m h)
    have hpend : (p.round m).pending ≤ rounds := by
      by_cases h0 : p.pending = 0
      · have := pending_retire_le (p.serve m)
        rw [pending_serve] at this
        unfold round
        omega
      · have := pending_round hm h0
        omega
    have ih := retired_drain hm rounds hacc hpend
    rwa [round, accepted_retire, accepted_serve] at ih

end Pipeline
