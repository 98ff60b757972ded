import Mathlib.Data.List.Basic
import M68kMachine.Library.Transition

/-!
# Bounded queues with coalescing entries

An abstract bounded queue with two kinds of entry. A *hard* entry must be delivered; a *soft*
one is superseded by the next entry if that is soft too, and is evicted when a hard entry finds
the queue full.

* `pushSoft` — overwrite a soft tail, else append when there is room
* `pushHard` — append, evicting the oldest soft entry from a full queue
* `Faithful` — what was delivered and what is queued keep the order and every hard entry
* `faithful_run` — `Faithful` holds along every run
* `newest_step` — the newest queued entry is always the last one accepted
-/

/-- A queue with the history of what it accepted and delivered. -/
structure CoalescingQueue (α : Type) where
  queue : List α
  accepted : List α
  delivered : List α

namespace CoalescingQueue

open Transition

variable {α : Type} {soft : α → Bool} {s : CoalescingQueue α}

/-! ## Operations on the queue itself -/

/-- Offer a soft entry to a queue of capacity `n`. -/
def pushSoft (soft : α → Bool) (n : Nat) (q : List α) (x : α) : Bool × List α :=
  if q.getLast?.any soft then (true, q.dropLast ++ [x])
  else if q.length < n then (true, q ++ [x])
  else (false, q)

/-- Offer a hard entry to a queue of capacity `n`. -/
def pushHard (soft : α → Bool) (n : Nat) (q : List α) (x : α) : Bool × List α :=
  if q.length < n then (true, q ++ [x])
  else
    match q.findIdx? soft with
    | some i => (true, q.eraseIdx i ++ [x])
    | none => (false, q)

/-- An offer goes by the kind of its entry. -/
def push (soft : α → Bool) (n : Nat) (q : List α) (x : α) : Bool × List α :=
  if soft x then pushSoft soft n q x else pushHard soft n q x

/-- A hard entry is refused exactly by a full queue that holds no soft entry. -/
theorem pushHard_refused {n : Nat} {q : List α} (x : α) :
    (pushHard soft n q x).1 = false ↔ n ≤ q.length ∧ ∀ y ∈ q, soft y = false := by
  unfold pushHard
  split
  · simp; omega
  · rename_i hlen
    cases hf : q.findIdx? soft with
    | some i =>
      obtain ⟨hi, hs, _⟩ := List.findIdx?_eq_some_iff_getElem.mp hf
      simp only [Bool.true_eq_false, false_iff, not_and]
      exact fun _ hall => by
        have := hall _ (List.getElem_mem hi)
        rw [hs] at this
        contradiction
    | none =>
      simp only [true_iff]
      exact ⟨Nat.not_lt.mp hlen, by simpa using hf⟩

/-- A refused offer leaves the queue as it was. -/
theorem push_refused_snd {soft : α → Bool} {n : Nat} {q : List α} {x : α}
    (h : (push soft n q x).1 = false) : (push soft n q x).2 = q := by
  revert h
  unfold push pushSoft pushHard
  split
  · split
    · intro h; cases h
    split
    · intro h; cases h
    · exact fun _ => rfl
  · split
    · intro h; cases h
    split
    · intro h; cases h
    · exact fun _ => rfl

/-- Dropping a soft entry keeps the hard ones. -/
theorem filter_hard_eraseIdx {soft : α → Bool} : ∀ {q : List α} {i : Nat} {x : α},
    q[i]? = some x → soft x = true →
      (q.eraseIdx i).filter (fun y => !soft y) = q.filter (fun y => !soft y)
  | y :: q, 0, x, h, hs => by
    simp only [List.getElem?_cons_zero, Option.some.injEq] at h
    subst h
    simp [hs]
  | y :: q, i + 1, x, h, hs => by
    simp only [List.getElem?_cons_succ] at h
    simp only [List.eraseIdx_cons_succ, List.filter_cons, filter_hard_eraseIdx h hs]

/-! ## Histories -/

/-- **Delivered, then queued, is the accepted sequence less some soft entries.** -/
structure Faithful (soft : α → Bool) (s : CoalescingQueue α) : Prop where
  order : (s.delivered ++ s.queue).Sublist s.accepted
  hard : (s.delivered ++ s.queue).filter (fun y => !soft y) = s.accepted.filter (fun y => !soft y)

inductive Op (α : Type)
  | offer (x : α)
  | pop
  | idle

def empty : CoalescingQueue α := ⟨[], [], []⟩

/-- Offer an entry; it joins the accepted ones unless it is refused. -/
def offer (soft : α → Bool) (n : Nat) (s : CoalescingQueue α) (x : α) : CoalescingQueue α :=
  match push soft n s.queue x with
  | (true, queue) => { s with queue := queue, accepted := s.accepted ++ [x] }
  | (false, _) => s

/-- Deliver the oldest entry. -/
def pop (s : CoalescingQueue α) : CoalescingQueue α :=
  { s with queue := s.queue.tail, delivered := s.delivered ++ s.queue.head?.toList }

def step (soft : α → Bool) (n : Nat) (s : CoalescingQueue α) : Op α → CoalescingQueue α
  | .offer x => s.offer soft n x
  | .pop => s.pop
  | .idle => s

/-- Replacing the queue by `kept ++ [x]`, where `kept` is the queue less soft entries. -/
theorem Faithful.accept (h : Faithful soft s) {kept : List α} (x : α) (hsub : kept.Sublist s.queue)
    (hhard : kept.filter (fun y => !soft y) = s.queue.filter (fun y => !soft y)) :
    Faithful soft { s with queue := kept ++ [x], accepted := s.accepted ++ [x] } where
  order := by
    rw [← List.append_assoc]
    exact ((hsub.append_left s.delivered).trans h.order).append_right [x]
  hard := by
    have hh := h.hard
    rw [List.filter_append] at hh
    rw [← List.append_assoc, List.filter_append, List.filter_append, hhard, hh,
      List.filter_append]

theorem faithful_offer (n : Nat) (h : Faithful soft s) (x : α) :
    Faithful soft (s.offer soft n x) := by
  unfold offer push pushSoft pushHard
  by_cases hx : soft x = true
  · rw [if_pos hx]
    by_cases hl : s.queue.getLast?.any soft = true
    · rw [if_pos hl]
      obtain ⟨y, hy, hs⟩ : ∃ y, s.queue.getLast? = some y ∧ soft y = true :=
        (Option.any_eq_true soft _).mp hl
      obtain ⟨kept, hk⟩ := List.getLast?_eq_some_iff.mp hy
      have hdrop : s.queue.dropLast = kept := by rw [hk, List.dropLast_concat]
      rw [hdrop]
      refine h.accept x (by rw [hk]; exact List.sublist_append_left _ _) ?_
      rw [hk, List.filter_append]
      simp [hs]
    · rw [if_neg hl]
      by_cases hlen : s.queue.length < n
      · rw [if_pos hlen]
        exact h.accept x (List.Sublist.refl _) rfl
      · rw [if_neg hlen]
        exact h
  · rw [if_neg hx]
    by_cases hlen : s.queue.length < n
    · rw [if_pos hlen]
      exact h.accept x (List.Sublist.refl _) rfl
    · rw [if_neg hlen]
      cases hf : s.queue.findIdx? soft with
      | some i =>
        obtain ⟨hi, hs, _⟩ := List.findIdx?_eq_some_iff_getElem.mp hf
        exact h.accept x (List.eraseIdx_sublist _ _)
          (filter_hard_eraseIdx (List.getElem?_eq_getElem hi) hs)
      | none => exact h

theorem faithful_pop (h : Faithful soft s) : Faithful soft s.pop := by
  have hsame : s.pop.delivered ++ s.pop.queue = s.delivered ++ s.queue := by
    unfold pop
    cases s.queue <;> simp
  exact ⟨by rw [hsame]; exact h.order, by rw [hsame]; exact h.hard⟩

theorem faithful_step (n : Nat) (s : CoalescingQueue α) (op : Op α) (h : Faithful soft s) :
    Faithful soft (s.step soft n op) := by
  cases op with
  | offer x => exact faithful_offer n h x
  | pop => exact faithful_pop h
  | idle => exact h

/-- **No run loses, duplicates or reorders a hard entry, or reorders a soft one.** -/
theorem faithful_run (soft : α → Bool) (n : Nat) (ops : List (Op α)) :
    Faithful soft (run (step soft n) (empty : CoalescingQueue α) ops) :=
  run_invariant (faithful_step n) ops ⟨List.Sublist.refl _, rfl⟩

/-! ## The newest entry -/

/-- The newest queued entry is the last one accepted. -/
def Newest (s : CoalescingQueue α) : Prop :=
  s.queue ≠ [] → s.queue.getLast? = s.accepted.getLast?

/-- An offer changes nothing, or puts its entry last. -/
theorem offer_cases (soft : α → Bool) (n : Nat) (s : CoalescingQueue α) (x : α) :
    s.offer soft n x = s ∨ ∃ kept, s.offer soft n x
      = { s with queue := kept ++ [x], accepted := s.accepted ++ [x] } := by
  have hpush : (push soft n s.queue x).1 = true →
      ∃ kept, (push soft n s.queue x).2 = kept ++ [x] := by
    unfold push pushSoft pushHard
    split
    · split
      · exact fun _ => ⟨_, rfl⟩
      split
      · exact fun _ => ⟨_, rfl⟩
      · intro h; cases h
    · split
      · exact fun _ => ⟨_, rfl⟩
      split
      · exact fun _ => ⟨_, rfl⟩
      · intro h; cases h
  unfold offer
  rcases hp : push soft n s.queue x with ⟨ok, queue⟩
  rw [hp] at hpush
  cases ok with
  | false => exact Or.inl rfl
  | true =>
    obtain ⟨kept, hk⟩ := hpush rfl
    simp only at hk
    exact Or.inr ⟨kept, by rw [hk]⟩

theorem newest_step (soft : α → Bool) (n : Nat) (s : CoalescingQueue α) (op : Op α)
    (h : s.Newest) : (s.step soft n op).Newest := by
  unfold Newest at h ⊢
  cases op with
  | offer x =>
    rcases offer_cases soft n s x with hs | ⟨kept, hs⟩
    · simp only [step, hs]
      exact h
    · simp only [step, hs]
      intro _
      rw [List.getLast?_concat, List.getLast?_concat]
  | pop =>
    intro hne
    simp only [step, pop] at hne ⊢
    cases hq : s.queue with
    | nil => rw [hq] at hne; exact absurd rfl hne
    | cons y rest =>
      rw [hq] at hne
      simp only [List.tail_cons] at hne ⊢
      rw [← h (by rw [hq]; exact List.cons_ne_nil _ _), hq, List.getLast?_cons]
      cases hl : rest.getLast? with
      | none => exact absurd (List.getLast?_eq_none_iff.mp hl) hne
      | some z => rfl
  | idle => exact h

end CoalescingQueue
