import Mathlib.Logic.Function.Iterate
import Mathlib.Tactic.Common

/-!
# Timers that reload

A timer counts pulses down to zero. The pulse after that is an underflow: it reloads the counter
from the latch and, in one-shot mode, stops the timer.

* `underflows_eq`, `count_iterate`, `running_iterate` — any number of pulses at once
* `iterate_cascade`, `cascadeUnderflows_eq` — a second timer that counts the underflows of a first
-/

@[ext]
structure ReloadTimer where
  count : Nat
  latch : Nat
  oneShot : Bool
  running : Bool

namespace ReloadTimer

/-- The next pulse is an underflow. -/
def fires (t : ReloadTimer) : Bool := t.running && t.count == 0

def pulse (t : ReloadTimer) : ReloadTimer :=
  if t.running then
    if t.count = 0 then { t with count := t.latch, running := !t.oneShot }
    else { t with count := t.count - 1 }
  else t

/-- The underflows among the next `n` pulses. -/
def underflows : Nat → ReloadTimer → Nat
  | 0, _ => 0
  | n + 1, t => t.fires.toNat + underflows n t.pulse

variable {t : ReloadTimer}

theorem pulse_of_stopped (h : t.running = false) : t.pulse = t := by
  unfold pulse
  rw [h]
  rfl

theorem fires_of_stopped (h : t.running = false) : t.fires = false := by
  unfold fires
  rw [h]
  rfl

theorem pulse_of_pos (h : t.running = true) (hpos : 0 < t.count) :
    t.pulse = { t with count := t.count - 1 } := by
  unfold pulse
  rw [if_pos h, if_neg (Nat.ne_of_gt hpos)]

theorem pulse_of_zero (h : t.running = true) (hzero : t.count = 0) :
    t.pulse = { t with count := t.latch, running := !t.oneShot } := by
  unfold pulse
  rw [if_pos h, if_pos hzero]

theorem fires_of_pos (hpos : 0 < t.count) : t.fires = false := by
  unfold fires
  rw [beq_eq_false_iff_ne.mpr (Nat.ne_of_gt hpos), Bool.and_false]

theorem underflows_add (m n : Nat) (t : ReloadTimer) :
    underflows (m + n) t = underflows m t + underflows n (pulse^[m] t) := by
  induction m generalizing t with
  | zero => rw [Nat.zero_add]; exact (Nat.zero_add _).symm
  | succ m ih =>
    rw [Nat.succ_add_eq_add_succ, Nat.add_succ, Function.iterate_succ_apply]
    show t.fires.toNat + underflows (m + n) t.pulse = t.fires.toNat + underflows m t.pulse + _
    rw [ih, Nat.add_assoc]

/-! ## A stopped timer -/

theorem iterate_of_stopped (h : t.running = false) (n : Nat) : pulse^[n] t = t :=
  Function.iterate_fixed (pulse_of_stopped h) n

theorem underflows_of_stopped (h : t.running = false) (n : Nat) : underflows n t = 0 := by
  induction n with
  | zero => rfl
  | succ n ih =>
    show t.fires.toNat + underflows n t.pulse = 0
    rw [fires_of_stopped h, pulse_of_stopped h, ih]
    rfl

/-! ## Down to zero -/

theorem countdown (h : t.running = true) {n : Nat} (hn : n ≤ t.count) :
    pulse^[n] t = { t with count := t.count - n } ∧ underflows n t = 0 := by
  induction n generalizing t with
  | zero => exact ⟨rfl, rfl⟩
  | succ n ih =>
    have hpulse := pulse_of_pos h (by omega : 0 < t.count)
    obtain ⟨hiterate, hunderflows⟩ := ih (t := t.pulse) (by rw [hpulse]; exact h)
      (by rw [hpulse]; show n ≤ t.count - 1; omega)
    constructor
    · rw [Function.iterate_succ_apply, hiterate, hpulse]
      show ({ t with count := t.count - 1 - n } : ReloadTimer) = _
      rw [Nat.sub_sub, Nat.add_comm 1 n]
    · show t.fires.toNat + underflows n t.pulse = 0
      rw [fires_of_pos (by omega : 0 < t.count), hunderflows]
      rfl

/-- The pulse that underflows, with those that lead there. -/
theorem reload (h : t.running = true) :
    pulse^[t.count + 1] t = { t with count := t.latch, running := !t.oneShot } ∧
      underflows (t.count + 1) t = 1 := by
  obtain ⟨hiterate, hunderflows⟩ := countdown h (Nat.le_refl t.count)
  rw [Nat.sub_self] at hiterate
  constructor
  · rw [Function.iterate_succ_apply', hiterate]
    exact pulse_of_zero h rfl
  · rw [underflows_add, hunderflows, hiterate, Nat.zero_add]
    show (t.running && true).toNat + 0 = 1
    rw [h]
    rfl

/-! ## Periods -/

/-- From a full counter on there is an underflow every `latch + 1` pulses. -/
theorem periodic (h : t.running = true) (hmode : t.oneShot = false) (hfull : t.count = t.latch)
    (n : Nat) :
    pulse^[n] t = { t with count := t.latch - n % (t.latch + 1) } ∧
      underflows n t = n / (t.latch + 1) := by
  induction n using Nat.strongRecOn with
  | ind n ih =>
    rcases Nat.lt_or_ge n (t.latch + 1) with hlt | hge
    · obtain ⟨hiterate, hunderflows⟩ := countdown h (n := n) (by omega)
      rw [Nat.mod_eq_of_lt hlt, Nat.div_eq_of_lt hlt, hiterate, hunderflows, hfull]
      exact ⟨rfl, rfl⟩
    · obtain ⟨m, rfl⟩ := Nat.exists_eq_add_of_le hge
      obtain ⟨hreload, hone⟩ := reload h
      have hback : pulse^[t.latch + 1] t = t := by
        rw [← hfull, hreload]
        exact ReloadTimer.ext hfull.symm rfl rfl (by simp [h, hmode])
      rw [hfull] at hone
      obtain ⟨hiterate, hunderflows⟩ := ih m (by omega)
      constructor
      · rw [Nat.add_comm, Function.iterate_add_apply, hback, hiterate, Nat.add_mod_right]
      · rw [underflows_add, hback, hone, hunderflows, Nat.add_comm (t.latch + 1) m,
          Nat.add_div_right m (Nat.succ_pos _), Nat.add_comm]

/-! ## Any number of pulses -/

/-- What is left of `n` pulses after the first underflow. -/
theorem past_reload (h : t.running = true) {n : Nat} (hn : t.count < n) :
    pulse^[n] t = pulse^[n - t.count - 1] { t with count := t.latch, running := !t.oneShot } ∧
      underflows n t = 1 +
        underflows (n - t.count - 1) { t with count := t.latch, running := !t.oneShot } := by
  obtain ⟨hiterate, hunderflows⟩ := reload h
  have hsplit : n = t.count + 1 + (n - t.count - 1) := by omega
  constructor
  · conv_lhs => rw [hsplit, Nat.add_comm, Function.iterate_add_apply, hiterate]
  · conv_lhs => rw [hsplit, underflows_add, hunderflows, hiterate]

/-- **The underflows of a running timer.** -/
theorem underflows_eq (h : t.running = true) (n : Nat) :
    underflows n t =
      if n ≤ t.count then 0
      else if t.oneShot then 1
      else 1 + (n - t.count - 1) / (t.latch + 1) := by
  split
  · rename_i hn
    exact (countdown h hn).2
  · rename_i hn
    rw [(past_reload h (by omega)).2]
    split
    · rename_i hmode
      rw [underflows_of_stopped (by simp [hmode])]
    · rename_i hmode
      have hmode' : t.oneShot = false := Bool.eq_false_iff.mpr hmode
      rw [(periodic (t := { t with count := t.latch, running := !t.oneShot }) (by simp [hmode'])
        hmode' rfl _).2]

/-- **The counter after `n` pulses.** -/
theorem count_iterate (h : t.running = true) (n : Nat) :
    (pulse^[n] t).count =
      if n ≤ t.count then t.count - n
      else if t.oneShot then t.latch
      else t.latch - (n - t.count - 1) % (t.latch + 1) := by
  split
  · rename_i hn
    rw [(countdown h hn).1]
  · rename_i hn
    rw [(past_reload h (by omega)).1]
    split
    · rename_i hmode
      rw [iterate_of_stopped (by simp [hmode])]
    · rename_i hmode
      have hmode' : t.oneShot = false := Bool.eq_false_iff.mpr hmode
      rw [(periodic (t := { t with count := t.latch, running := !t.oneShot }) (by simp [hmode'])
        hmode' rfl _).1]

/-- Only the first underflow of a one-shot timer stops it. -/
theorem running_iterate (h : t.running = true) (n : Nat) :
    (pulse^[n] t).running = (!t.oneShot || decide (n ≤ t.count)) := by
  rcases Nat.lt_or_ge t.count n with hn | hn
  · rw [(past_reload h hn).1, decide_eq_false (by omega), Bool.or_false]
    cases hmode : t.oneShot with
    | true => rw [iterate_of_stopped rfl]
    | false => rw [(periodic rfl rfl rfl _).1]
  · rw [(countdown h hn).1, decide_eq_true hn, Bool.or_true]
    exact h

/-! ## Cascades -/

/-- A clock of two timers of which the second counts the underflows of the first. -/
def cascade (p : ReloadTimer × ReloadTimer) : ReloadTimer × ReloadTimer :=
  (p.1.pulse, if p.1.fires then p.2.pulse else p.2)

/-- The underflows of the second timer among the next `n` clocks. -/
def cascadeUnderflows : Nat → ReloadTimer × ReloadTimer → Nat
  | 0, _ => 0
  | n + 1, p => (p.1.fires && p.2.fires).toNat + cascadeUnderflows n (cascade p)

/-- **The underflows of the first timer are the pulses of the second.** -/
theorem iterate_cascade (n : Nat) (t u : ReloadTimer) :
    cascade^[n] (t, u) = (pulse^[n] t, pulse^[underflows n t] u) := by
  induction n generalizing t u with
  | zero => rfl
  | succ n ih =>
    rw [Function.iterate_succ_apply, Function.iterate_succ_apply]
    show cascade^[n] (t.pulse, if t.fires then u.pulse else u) =
      (pulse^[n] t.pulse, pulse^[t.fires.toNat + underflows n t.pulse] u)
    rw [ih, Nat.add_comm, Function.iterate_add_apply]
    cases t.fires <;> rfl

theorem cascadeUnderflows_eq (n : Nat) (t u : ReloadTimer) :
    cascadeUnderflows n (t, u) = underflows (underflows n t) u := by
  induction n generalizing t u with
  | zero => rfl
  | succ n ih =>
    show (t.fires && u.fires).toNat +
        cascadeUnderflows n (t.pulse, if t.fires then u.pulse else u) =
      underflows (t.fires.toNat + underflows n t.pulse) u
    rw [ih, underflows_add]
    cases t.fires <;> simp [underflows]

end ReloadTimer
