import Mathlib.Tactic.Common

/-!
# Greedy windows

A window holds the lowest and the highest of the points it was given in a row, and their number. It
takes the next point while it stays within `span`, and starts over with that otherwise.

* `covers_run` — what a window knows is true of the points since it started over
* `resets_le_one` — among points within one span it starts over at most once
* `reaches` — such points, without end, bring the count up to any number
-/

structure SpanWindow (α : Type*) where
  lo : α
  hi : α
  count : Nat

namespace SpanWindow

variable {α : Type*} (pos : α → Nat) (span : Nat)

/-- The window of one point. -/
def single (x : α) : SpanWindow α := ⟨x, x, 1⟩

/-- The lowest and the highest point with `x` among them. -/
def lower (w : SpanWindow α) (x : α) : α := if pos x < pos w.lo then x else w.lo

def upper (w : SpanWindow α) (x : α) : α := if pos w.hi < pos x then x else w.hi

def fits (w : SpanWindow α) (x : α) : Bool := pos (w.upper pos x) - pos (w.lower pos x) ≤ span

def extend (w : SpanWindow α) (x : α) : SpanWindow α :=
  if w.fits pos span x then ⟨w.lower pos x, w.upper pos x, w.count + 1⟩ else single x

def run (w : SpanWindow α) (xs : List α) : SpanWindow α := xs.foldl (extend pos span) w

/-- The points since the last reset, when those before `xs` were `recent`. -/
def since (w : SpanWindow α) (recent : List α) : List α → List α
  | [] => recent
  | x :: xs =>
    since (w.extend pos span x) (if w.fits pos span x then recent ++ [x] else [x]) xs

def resets (w : SpanWindow α) : List α → Nat
  | [] => 0
  | x :: xs => (!w.fits pos span x).toNat + resets (w.extend pos span x) xs

variable {pos span}

theorem run_cons (w : SpanWindow α) (x : α) (xs : List α) :
    w.run pos span (x :: xs) = (w.extend pos span x).run pos span xs := rfl

theorem run_append (w : SpanWindow α) (xs ys : List α) :
    w.run pos span (xs ++ ys) = (w.run pos span xs).run pos span ys := List.foldl_append

theorem extend_of_fits {w : SpanWindow α} {x : α} (h : w.fits pos span x = true) :
    w.extend pos span x = ⟨w.lower pos x, w.upper pos x, w.count + 1⟩ := if_pos h

theorem extend_of_not_fits {w : SpanWindow α} {x : α} (h : w.fits pos span x = false) :
    w.extend pos span x = single x := if_neg (Bool.eq_false_iff.mp h)

theorem pos_lower (pos : α → Nat) (w : SpanWindow α) (x : α) :
    pos (w.lower pos x) = min (pos x) (pos w.lo) := by
  unfold lower
  split <;> omega

theorem pos_upper (pos : α → Nat) (w : SpanWindow α) (x : α) :
    pos (w.upper pos x) = max (pos x) (pos w.hi) := by
  unfold upper
  split <;> omega

/-! ## What a window knows -/

variable (pos span) in
/-- The window is that of the points `xs`. -/
structure Covers (w : SpanWindow α) (xs : List α) : Prop where
  count : w.count = xs.length
  lo_mem : w.lo ∈ xs
  lo_le : ∀ x ∈ xs, pos w.lo ≤ pos x
  hi_mem : w.hi ∈ xs
  le_hi : ∀ x ∈ xs, pos x ≤ pos w.hi
  width : pos w.hi - pos w.lo ≤ span

theorem covers_single (x : α) : (single x).Covers pos span [x] where
  count := rfl
  lo_mem := List.mem_singleton_self x
  lo_le := by simp [single]
  hi_mem := List.mem_singleton_self x
  le_hi := by simp [single]
  width := by simp [single]

theorem Covers.extend {w : SpanWindow α} {xs : List α} (h : w.Covers pos span xs) (x : α) :
    (w.extend pos span x).Covers pos span
      (if w.fits pos span x then xs ++ [x] else [x]) := by
  cases hfits : w.fits pos span x with
  | false =>
    rw [extend_of_not_fits hfits]
    exact covers_single x
  | true =>
    rw [extend_of_fits hfits, if_pos rfl]
    have hlower := pos_lower pos w x
    have hupper := pos_upper pos w x
    refine ⟨?_, ?_, ?_, ?_, ?_, of_decide_eq_true hfits⟩
    · show w.count + 1 = (xs ++ [x]).length
      rw [List.length_append, h.count]
      rfl
    · show w.lower pos x ∈ xs ++ [x]
      unfold lower
      split <;> simp [h.lo_mem]
    · intro y hy
      show pos (w.lower pos x) ≤ pos y
      rcases List.mem_append.mp hy with hy | hy
      · have hle := h.lo_le y hy
        omega
      · rw [List.mem_singleton.mp hy]
        omega
    · show w.upper pos x ∈ xs ++ [x]
      unfold upper
      split <;> simp [h.hi_mem]
    · intro y hy
      show pos y ≤ pos (w.upper pos x)
      rcases List.mem_append.mp hy with hy | hy
      · have hle := h.le_hi y hy
        omega
      · rw [List.mem_singleton.mp hy]
        omega

/-- **A window is that of the points since it started over.** -/
theorem covers_run {w : SpanWindow α} {recent : List α} (h : w.Covers pos span recent)
    (xs : List α) : (w.run pos span xs).Covers pos span (w.since pos span recent xs) := by
  induction xs generalizing w recent with
  | nil => exact h
  | cons x xs ih => exact ih (h.extend x)

/-- Those points are the last ones. -/
theorem since_suffix (w : SpanWindow α) (recent xs : List α) :
    w.since pos span recent xs <:+ recent ++ xs := by
  induction xs generalizing w recent with
  | nil => exact ⟨[], (List.append_nil recent).symm⟩
  | cons x xs ih =>
    show since pos span _ _ xs <:+ _
    cases hfits : w.fits pos span x with
    | true =>
      rw [List.append_cons recent x xs]
      exact ih _ (recent ++ [x])
    | false => exact (ih _ [x]).trans ⟨recent, rfl⟩

/-! ## Points within one span -/

variable (pos span) in
/-- The window lies in the span from `base` on. -/
structure Inside (w : SpanWindow α) (base : Nat) : Prop where
  lo : base ≤ pos w.lo
  hi : pos w.hi ≤ base + span

variable {w : SpanWindow α} {x : α} {xs : List α} {base : Nat}

theorem inside_single (hlo : base ≤ pos x) (hhi : pos x ≤ base + span) :
    (single x).Inside pos span base := ⟨hlo, hhi⟩

theorem Inside.fits (h : w.Inside pos span base) (hlo : base ≤ pos x)
    (hhi : pos x ≤ base + span) : w.fits pos span x = true := by
  have hl := h.lo
  have hh := h.hi
  unfold SpanWindow.fits
  rw [decide_eq_true_eq, pos_lower pos, pos_upper pos]
  omega

theorem Inside.extend (h : w.Inside pos span base) (hlo : base ≤ pos x)
    (hhi : pos x ≤ base + span) : (w.extend pos span x).Inside pos span base := by
  have hl := h.lo
  have hh := h.hi
  rw [extend_of_fits (h.fits hlo hhi)]
  refine ⟨?_, ?_⟩
  · show base ≤ pos (w.lower pos x)
    rw [pos_lower pos]
    omega
  · show pos (w.upper pos x) ≤ base + span
    rw [pos_upper pos]
    omega

/-- From inside the span there is no way out of it. -/
theorem Inside.resets (h : w.Inside pos span base)
    (hxs : ∀ x ∈ xs, base ≤ pos x ∧ pos x ≤ base + span) : w.resets pos span xs = 0 := by
  induction xs generalizing w with
  | nil => rfl
  | cons x xs ih =>
    obtain ⟨hlo, hhi⟩ := hxs x List.mem_cons_self
    show (!w.fits pos span x).toNat + _ = 0
    rw [h.fits hlo hhi, ih (h.extend hlo hhi) fun y hy => hxs y (List.mem_cons_of_mem x hy)]
    rfl

/-- **Among points within one span a window starts over at most once.** -/
theorem resets_le_one (hxs : ∀ x ∈ xs, base ≤ pos x ∧ pos x ≤ base + span) :
    w.resets pos span xs ≤ 1 := by
  induction xs generalizing w with
  | nil => exact Nat.zero_le 1
  | cons x xs ih =>
    have hrest : ∀ y ∈ xs, base ≤ pos y ∧ pos y ≤ base + span :=
      fun y hy => hxs y (List.mem_cons_of_mem x hy)
    show (!w.fits pos span x).toNat + _ ≤ 1
    cases hfits : w.fits pos span x with
    | true => simpa using ih hrest
    | false =>
      -- what the window held before is gone
      obtain ⟨hlo, hhi⟩ := hxs x List.mem_cons_self
      rw [extend_of_not_fits hfits, (inside_single hlo hhi).resets hrest]
      exact Nat.le_refl 1

theorem count_of_no_resets (h : w.resets pos span xs = 0) :
    (w.run pos span xs).count = w.count + xs.length := by
  induction xs generalizing w with
  | nil => rfl
  | cons x xs ih =>
    obtain ⟨hx, hrest⟩ := Nat.add_eq_zero_iff.mp h
    have hfits : w.fits pos span x = true := by
      cases hfits : w.fits pos span x with
      | true => rfl
      | false => rw [hfits] at hx; cases hx
    rw [run_cons, ih hrest, extend_of_fits hfits, List.length_cons]
    show w.count + 1 + xs.length = w.count + (xs.length + 1)
    omega

/-- The count after a reset by a point of the span. -/
theorem count_of_reset (hlo : base ≤ pos x) (hhi : pos x ≤ base + span)
    (hxs : ∀ x ∈ xs, base ≤ pos x ∧ pos x ≤ base + span) (hfits : w.fits pos span x = false) :
    (w.run pos span (x :: xs)).count = xs.length + 1 := by
  rw [run_cons, extend_of_not_fits hfits, count_of_no_resets ((inside_single hlo hhi).resets hxs)]
  exact Nat.add_comm 1 xs.length

theorem exists_reset (h : w.resets pos span xs ≠ 0) :
    ∃ before x rest, xs = before ++ x :: rest ∧
      (w.run pos span before).fits pos span x = false := by
  induction xs generalizing w with
  | nil => exact absurd rfl h
  | cons x xs ih =>
    cases hfits : w.fits pos span x with
    | false => exact ⟨[], x, xs, rfl, hfits⟩
    | true =>
      have hrest : (w.extend pos span x).resets pos span xs ≠ 0 := by
        intro hzero
        apply h
        show (!w.fits pos span x).toNat + _ = 0
        rw [hfits, hzero]
        rfl
      obtain ⟨before, y, rest, rfl, hreset⟩ := ih hrest
      exact ⟨x :: before, y, rest, rfl, hreset⟩

/-- **The points of one span bring the count up to any number**, whatever a reset takes. -/
theorem reaches (w : SpanWindow α) {xs : Nat → α}
    (hxs : ∀ i, base ≤ pos (xs i) ∧ pos (xs i) ≤ base + span) (n : Nat) :
    ∃ m ≤ 2 * n, n ≤ (w.run pos span ((List.range m).map xs)).count := by
  have hall : ∀ m, ∀ x ∈ (List.range m).map xs, base ≤ pos x ∧ pos x ≤ base + span := by
    intro m x hx
    obtain ⟨i, -, rfl⟩ := List.mem_map.mp hx
    exact hxs i
  by_cases hresets : w.resets pos span ((List.range n).map xs) = 0
  · refine ⟨n, by omega, ?_⟩
    rw [count_of_no_resets hresets, List.length_map, List.length_range]
    omega
  · obtain ⟨before, x, rest, hsplit, hfits⟩ := exists_reset hresets
    have hlength := congrArg List.length hsplit
    rw [List.length_map, List.length_range, List.length_append, List.length_cons] at hlength
    refine ⟨n + before.length, by omega, ?_⟩
    -- the reset, what follows it among the first `n`, and as many more as came before it
    let more := (List.range before.length).map fun i => xs (n + i)
    have hmap : (List.range (n + before.length)).map xs = before ++ x :: (rest ++ more) := by
      rw [List.range_add, List.map_append, hsplit, List.map_map, List.append_assoc]
      rfl
    have hin := hall (n + before.length)
    rw [hmap] at hin ⊢
    obtain ⟨-, hin⟩ := List.forall_mem_append.mp hin
    obtain ⟨⟨hlo, hhi⟩, hin⟩ := List.forall_mem_cons.mp hin
    rw [run_append, count_of_reset hlo hhi hin hfits, List.length_append, List.length_map,
      List.length_range]
    omega

end SpanWindow
