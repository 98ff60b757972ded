import Mathlib.Logic.Function.Iterate
import M68kMachine.Core.Chipset
import M68kMachine.Core.Cia

/-!
# Batching device time is invisible

Both clocked devices keep the CPU clocks that do not make up one of their own in `carry`. Ticked by
`a` and then by `b` they end up where one tick by `a + b` leads.

* `divider_add` — what a carry is for
* `Cia.tickEclock_eq` — the idle shortcut skips nothing
* `batching_is_invisible` — the two devices
-/

namespace M68kMachine

/-- Clocks divided in two portions, with the remainder carried over. -/
theorem divider_add (x b p : Nat) : x / p + (x % p + b) / p = (x + b) / p := by
  rcases Nat.eq_zero_or_pos p with rfl | hp
  · simp
  · conv_rhs => rw [← Nat.div_add_mod x p, Nat.add_assoc, Nat.mul_add_div hp]

namespace Cia

/-! ## The idle shortcut -/

/-- An idle chip is left alone by the E-clock. -/
theorem tickOneEclock_of_idle {c : Cia} (h : c.isIdle = true) : c.tickOneEclock = c := by
  unfold isIdle at h
  simp only [Bool.and_eq_true, decide_eq_true_eq] at h
  obtain ⟨⟨⟨ha, hb⟩, hqueue⟩, hdelay⟩ := h
  have hA : c.tickTimerA = (false, c) := by
    have hcounts : c.timerACounts = false := by
      unfold timerACounts
      rw [ha]
      rfl
    unfold tickTimerA
    rw [hcounts]
    rfl
  have hB : c.tickTimerB false = c := by
    have hcounts : c.timerBCounts false = false := by
      unfold timerBCounts
      rw [hb]
      rfl
    unfold tickTimerB
    rw [hcounts]
    rfl
  have hK : c.tickKeyboard = c := by
    unfold tickKeyboard
    split
    · rfl
    · simp only [hqueue, Nat.lt_irrefl, and_false, if_false, hdelay]
      rw [if_neg (by decide), show 0 - 1 = c.kbdDelay by omega]
  unfold tickOneEclock
  simp only [hA, hB, hK, ite_self]

variable (c : Cia)

/-- **The shortcut skips nothing.** -/
theorem tickEclock_eq (n : Nat) : c.tickEclock n = tickOneEclock^[n] c := by
  unfold tickEclock
  split
  · rename_i hidle
    exact (Function.iterate_fixed (tickOneEclock_of_idle hidle) n).symm
  · rfl

/-! ## The carry -/

def withCarry (c : Cia) (carry : Nat) : Cia := { c with carry := carry }

variable (r : Nat)

theorem underflowA_withCarry : (c.withCarry r).underflowA = c.underflowA.withCarry r :=
  (apply_ite (fun c => withCarry c r) (c.cra &&& craRunmode ≠ 0)
    { c.raise Icr.ta with cra := c.cra &&& ~~~craStart } (c.raise Icr.ta)).symm

theorem underflowB_withCarry : (c.withCarry r).underflowB = c.underflowB.withCarry r :=
  (apply_ite (fun c => withCarry c r) (c.crb &&& crbRunmode ≠ 0)
    { c.raise Icr.tb with crb := c.crb &&& ~~~crbStart } (c.raise Icr.tb)).symm

theorem tickTimerA_withCarry :
    (c.withCarry r).tickTimerA = (c.tickTimerA.1, c.tickTimerA.2.withCarry r) := by
  have hcounts : (c.withCarry r).timerACounts = c.timerACounts := rfl
  unfold tickTimerA
  rw [hcounts]
  split
  · have hstep : stepTimer (c.withCarry r).timerA (c.withCarry r).latchA =
      stepTimer c.timerA c.latchA := rfl
    rw [hstep]
    rcases stepTimer c.timerA c.latchA with ⟨_ | _, count⟩
    · rfl
    · exact congrArg (Prod.mk true) (underflowA_withCarry { c with timerA := count } r)
  · rfl

theorem tickTimerB_withCarry (underflow : Bool) :
    (c.withCarry r).tickTimerB underflow = (c.tickTimerB underflow).withCarry r := by
  have hcounts : (c.withCarry r).timerBCounts underflow = c.timerBCounts underflow := rfl
  unfold tickTimerB
  rw [hcounts]
  split
  · have hstep : stepTimer (c.withCarry r).timerB (c.withCarry r).latchB =
      stepTimer c.timerB c.latchB := rfl
    rw [hstep]
    rcases stepTimer c.timerB c.latchB with ⟨_ | _, count⟩
    · rfl
    · exact underflowB_withCarry { c with timerB := count } r
  · rfl

theorem landKeycode_withCarry : (c.withCarry r).landKeycode = c.landKeycode.withCarry r := by
  unfold landKeycode nextKeycode
  rw [show (c.withCarry r).keyboardQueue = c.keyboardQueue from rfl]
  cases c.keyboardQueue.pop.1 <;> rfl

theorem tickKeyboard_withCarry : (c.withCarry r).tickKeyboard = c.tickKeyboard.withCarry r := by
  by_cases hmode : c.cra &&& craSpmode ≠ 0
  · have hmode' : (c.withCarry r).cra &&& craSpmode ≠ 0 := hmode
    unfold tickKeyboard
    rw [if_pos hmode, if_pos hmode']
  · have hmode' : ¬(c.withCarry r).cra &&& craSpmode ≠ 0 := hmode
    unfold tickKeyboard
    rw [if_neg hmode, if_neg hmode']
    have hdelay : ∀ delay, (if delay = 1 then
        ({ c.withCarry r with kbdDelay := delay - 1 } : Cia).landKeycode
        else { c.withCarry r with kbdDelay := delay - 1 }) =
        (if delay = 1 then ({ c with kbdDelay := delay - 1 } : Cia).landKeycode
        else { c with kbdDelay := delay - 1 }).withCarry r := by
      intro delay
      by_cases hlands : delay = 1
      · rw [if_pos hlands, if_pos hlands]
        exact landKeycode_withCarry { c with kbdDelay := delay - 1 } r
      · rw [if_neg hlands, if_neg hlands]
        rfl
    exact hdelay _

theorem tickOneEclock_withCarry : (c.withCarry r).tickOneEclock = c.tickOneEclock.withCarry r := by
  unfold tickOneEclock
  simp only [tickTimerA_withCarry, tickTimerB_withCarry]
  generalize c.tickTimerA.2.tickTimerB c.tickTimerA.1 = timers
  have hid : (timers.withCarry r).id = timers.id := rfl
  rw [hid]
  split
  · exact tickKeyboard_withCarry timers r
  · rfl

theorem iterate_withCarry (n : Nat) :
    tickOneEclock^[n] (c.withCarry r) = (tickOneEclock^[n] c).withCarry r := by
  induction n generalizing c with
  | zero => rfl
  | succ n ih =>
    rw [Function.iterate_succ_apply, Function.iterate_succ_apply, tickOneEclock_withCarry, ih]

/-- A tick runs the whole E-clocks and keeps the rest, with nothing left out. -/
theorem tick_eq (a p : Nat) :
    c.tick a p =
      let total := (c.carry + a) % 0x100000000
      let after := (tickOneEclock^[total / p] c).withCarry (total % p)
      (after.irqPending, after) := by
  have hafter : (c.tick a p).2 =
      (tickOneEclock^[(c.carry + a) % 0x100000000 / p] c).withCarry
        ((c.carry + a) % 0x100000000 % p) := by
    unfold tick
    simp only
    generalize (c.carry + a) % 0x100000000 = total
    split
    · rw [tickEclock_eq]
      exact iterate_withCarry c (total % p) (total / p)
    · rename_i hnone
      rw [Nat.eq_zero_of_not_pos hnone]
      rfl
  exact Prod.ext (congrArg irqPending hafter) hafter

/-! ## What an E-clock can do -/

/-- Timer A counts, or underflows: that raises its source and may stop it. -/
theorem tickTimerA_cases : (∃ count, c.tickTimerA = (false, { c with timerA := count })) ∨
      ∃ count cra, (cra = c.cra ∨ cra = c.cra &&& ~~~craStart) ∧
        c.tickTimerA = (true, { c.raise Icr.ta with timerA := count, cra := cra }) := by
  unfold tickTimerA
  split
  · rcases stepTimer c.timerA c.latchA with ⟨_ | _, count⟩
    · exact .inl ⟨count, rfl⟩
    · simp only [if_true]
      unfold underflowA
      simp only
      split
      · exact .inr ⟨count, _, .inr rfl, rfl⟩
      · exact .inr ⟨count, _, .inl rfl, rfl⟩
  · exact .inl ⟨c.timerA, rfl⟩

theorem tickTimerB_cases (c : Cia) (taUnderflow : Bool) :
    let underflow := c.timerBCounts taUnderflow && (stepTimer c.timerB c.latchB).1
    (underflow = false ∧ ∃ count, c.tickTimerB taUnderflow = { c with timerB := count }) ∨
      underflow = true ∧ ∃ count crb, (crb = c.crb ∨ crb = c.crb &&& ~~~crbStart) ∧
        c.tickTimerB taUnderflow = { c.raise Icr.tb with timerB := count, crb := crb } := by
  unfold tickTimerB
  split
  · rename_i hcounts
    simp only [hcounts, Bool.true_and]
    rcases stepTimer c.timerB c.latchB with ⟨_ | _, count⟩
    · exact .inl ⟨rfl, count, rfl⟩
    · refine .inr ⟨rfl, ?_⟩
      simp only [if_true]
      unfold underflowB
      simp only
      split
      · exact ⟨count, _, .inr rfl, rfl⟩
      · exact ⟨count, _, .inl rfl, rfl⟩
  · rename_i hcounts
    refine .inl ⟨?_, c.timerB, rfl⟩
    rw [Bool.eq_false_iff.mpr hcounts]
    rfl

/-- The handshake goes on, or a code lands. -/
theorem tickKeyboard_cases :
    (∃ delay queue, c.tickKeyboard = { c with kbdDelay := delay, keyboardQueue := queue }) ∨
      ∃ delay queue sdr, c.tickKeyboard =
        { c.raise Icr.sp with
          kbdDelay := delay, keyboardQueue := queue, sdr := sdr, kbdLoaded := true } := by
  unfold tickKeyboard
  split
  · exact .inl ⟨c.kbdDelay, c.keyboardQueue, rfl⟩
  · simp only
    generalize (if c.kbdDelay = 0 ∧ c.kbdLoaded = false ∧ 0 < c.keyboardQueue.len
      then keyboardHandshakeTicks else c.kbdDelay) = delay
    split
    · unfold landKeycode nextKeycode
      rcases c.keyboardQueue.pop.1 with _ | raw
      · exact .inl ⟨delay - 1, _, rfl⟩
      · exact .inr ⟨delay - 1, _, _, rfl⟩
    · exact .inl ⟨delay - 1, c.keyboardQueue, rfl⟩

/-! ## What stays latched -/

/-- Only the mask decides which sources count, and no clock takes a source back. -/
structure Latches (c c' : Cia) : Prop where
  icrMask : c'.icrMask = c.icrMask
  icrData : ∃ raised, c'.icrData = c.icrData ||| raised

theorem Latches.refl : Latches c c :=
  ⟨rfl, 0, by simp⟩

theorem Latches.trans {c c' c'' : Cia} (h : Latches c c') (h' : Latches c' c'') :
    Latches c c'' := by
  obtain ⟨first, hfirst⟩ := h.icrData
  obtain ⟨second, hsecond⟩ := h'.icrData
  exact ⟨h'.icrMask.trans h.icrMask, first ||| second,
    by rw [hsecond, hfirst, BitVec.or_assoc]⟩

theorem Latches.irqPending {c c' : Cia} (h : Latches c c') (hirq : c.irqPending = true) :
    c'.irqPending = true := by
  obtain ⟨raised, hraised⟩ := h.icrData
  unfold Cia.irqPending at hirq ⊢
  rw [hraised, h.icrMask]
  simp only [ne_eq, decide_not, Bool.not_eq_true', decide_eq_false_iff_not] at hirq ⊢
  intro hzero
  refine hirq (BitVec.eq_of_getLsbD_eq fun i hi => ?_)
  have hbit := congrArg (fun byte : Byte => byte.getLsbD i) hzero
  simp only [BitVec.getLsbD_and, BitVec.getLsbD_or] at hbit ⊢
  revert hbit
  cases c.icrData.getLsbD i <;> simp

theorem latches_tickTimerA : Latches c c.tickTimerA.2 := by
  rcases tickTimerA_cases c with ⟨count, h⟩ | ⟨count, cra, -, h⟩
  · rw [h]
    exact ⟨rfl, 0, by simp⟩
  · rw [h]
    exact ⟨rfl, _, rfl⟩

theorem latches_tickTimerB (underflow : Bool) : Latches c (c.tickTimerB underflow) := by
  rcases tickTimerB_cases c underflow with ⟨-, count, h⟩ | ⟨-, count, crb, -, h⟩
  · rw [h]
    exact ⟨rfl, 0, by simp⟩
  · rw [h]
    exact ⟨rfl, _, rfl⟩

theorem latches_tickKeyboard : Latches c c.tickKeyboard := by
  rcases tickKeyboard_cases c with ⟨delay, queue, h⟩ | ⟨delay, queue, sdr, h⟩
  · rw [h]
    exact ⟨rfl, 0, by simp⟩
  · rw [h]
    exact ⟨rfl, _, rfl⟩

theorem latches_tickOneEclock : Latches c c.tickOneEclock := by
  unfold tickOneEclock
  have htimers := (latches_tickTimerA c).trans (latches_tickTimerB c.tickTimerA.2 c.tickTimerA.1)
  simp only
  split
  · exact htimers.trans (latches_tickKeyboard _)
  · exact htimers

theorem latches_iterate (n : Nat) : Latches c (tickOneEclock^[n] c) := by
  induction n generalizing c with
  | zero => exact .refl c
  | succ n ih => exact (latches_tickOneEclock c).trans (ih c.tickOneEclock)

theorem latches_tick (a p : Nat) : Latches c (c.tick a p).2 := by
  rw [tick_eq]
  have hrun := latches_iterate c ((c.carry + a) % 0x100000000 / p)
  exact ⟨hrun.icrMask, hrun.icrData⟩

/-! ## Two ticks -/

theorem tick_tick {c : Cia} {a b : Nat} (p : Nat) (h : c.carry + a + b < 0x100000000) :
    (c.tick a p).2.tick b p = c.tick (a + b) p := by
  have hcarry := Nat.mod_le (c.carry + a) p
  rw [tick_eq (c.tick a p).2, tick_eq c a, tick_eq c (a + b)]
  simp only
  -- Neither of the three sums wraps.
  rw [Nat.mod_eq_of_lt (by omega : c.carry + a < 0x100000000),
    Nat.mod_eq_of_lt (by omega : c.carry + (a + b) < 0x100000000), ← Nat.add_assoc]
  generalize c.carry + a = x at h hcarry
  have hrest : ((tickOneEclock^[x / p] c).withCarry (x % p)).carry = x % p := rfl
  rw [hrest, Nat.mod_eq_of_lt (by omega : x % p + b < 0x100000000), iterate_withCarry,
    ← Function.iterate_add_apply, Nat.add_comm (_ / p), divider_add]
  have hmod : (x % p + b) % p = (x + b) % p := by simp
  rw [hmod]
  rfl

theorem irq_tick_tick {c : Cia} {a b : Nat} (p : Nat) (h : c.carry + a + b < 0x100000000) :
    ((c.tick a p).1 || ((c.tick a p).2.tick b p).1) = (c.tick (a + b) p).1 := by
  rw [← tick_tick p h]
  cases hfirst : (c.tick a p).1 with
  | false => exact Bool.false_or _
  | true => exact ((latches_tick (c.tick a p).2 b p).irqPending hfirst).symm

end Cia

namespace Chipset

variable (c : Chipset)

theorem moveBeam_moveBeam (a b p : Nat) : (c.moveBeam a p).moveBeam b p = c.moveBeam (a + b) p := by
  have hmod : ((c.carry + a) % p + b) % p = (c.carry + (a + b)) % p := by
    rw [← Nat.add_assoc]
    simp
  have hclocks := divider_add (c.carry + a) b p
  rw [Nat.add_assoc] at hclocks
  unfold moveBeam
  simp only [hmod, ← hclocks]
  generalize (c.carry + a) / p = first
  generalize ((c.carry + a) % p + b) / p = second
  have hclamp : min (min (c.totalColourClocks + first) u64Max + second) u64Max =
      min (c.totalColourClocks + (first + second)) u64Max := by
    omega
  rw [hclamp]

/-- What a number of frame boundaries does, none of them included. -/
def wrapped (c : Chipset) (n : Nat) : Chipset := if 0 < n then c.wrapFrames n else c

theorem wrapped_wrapped (m n : Nat) : (c.wrapped m).wrapped n = c.wrapped (m + n) := by
  rcases Nat.eq_zero_or_pos m with rfl | hm
  · simp [wrapped]
  rcases Nat.eq_zero_or_pos n with rfl | hn
  · simp [wrapped]
  unfold wrapped
  rw [if_pos hm, if_pos hn, if_pos (by omega)]
  unfold wrapFrames raiseInt
  have hframes : min (min (c.frames + m) u64Max + n) u64Max = min (c.frames + (m + n)) u64Max := by
    omega
  have hlof : (if n % 2 = 1 then !(if m % 2 = 1 then !c.lof else c.lof)
      else if m % 2 = 1 then !c.lof else c.lof) = if (m + n) % 2 = 1 then !c.lof else c.lof := by
    rcases Nat.mod_two_eq_zero_or_one m with h | h <;>
      rcases Nat.mod_two_eq_zero_or_one n with h' | h' <;> simp [Nat.add_mod, h, h']
  simp only [hframes, hlof, BitVec.or_assoc, BitVec.or_self]

theorem wrapped_moveBeam (n b p : Nat) :
    (c.wrapped n).moveBeam b p = (c.moveBeam b p).wrapped n := by
  unfold wrapped
  split <;> rfl

@[simp] theorem lines_wrapped (n : Nat) : (c.wrapped n).lines = c.lines := by
  unfold wrapped
  split <;> rfl

@[simp] theorem linesPerFrame_wrapped (n : Nat) :
    (c.wrapped n).linesPerFrame = c.linesPerFrame := by
  unfold wrapped
  split <;> rfl

/-- Frame boundaries a move of the beam crosses. -/
def boundaries (c : Chipset) (a p : Nat) : Nat :=
  (c.moveBeam a p).lines / c.linesPerFrame - c.lines / c.linesPerFrame

theorem tick_eq (a p : Nat) :
    c.tick a p =
      (⟨(c.moveBeam a (max p 1)).lines - c.lines, c.boundaries a (max p 1)⟩,
        (c.moveBeam a (max p 1)).wrapped (c.boundaries a (max p 1))) := rfl

/-- The beam only moves on, and stops where its counter does. -/
theorem lines_moveBeam_moveBeam (a b p : Nat) :
    (c.moveBeam a p).lines ≤ ((c.moveBeam a p).moveBeam b p).lines ∧
      (c.lines ≤ (c.moveBeam a p).lines ∨
        ((c.moveBeam a p).moveBeam b p).lines = (c.moveBeam a p).lines) := by
  unfold lines
  have hfirst : (c.moveBeam a p).totalColourClocks =
      min (c.totalColourClocks + (c.carry + a) / p) u64Max := rfl
  have hsecond : ((c.moveBeam a p).moveBeam b p).totalColourClocks =
      min ((c.moveBeam a p).totalColourClocks + ((c.moveBeam a p).carry + b) / p) u64Max := rfl
  generalize ((c.moveBeam a p).carry + b) / p = second at hsecond
  generalize (c.carry + a) / p = first at hfirst
  constructor
  · exact Nat.div_le_div_right (by omega)
  · rcases Nat.lt_or_ge (c.moveBeam a p).totalColourClocks c.totalColourClocks with h | h
    · -- The counter was past its end.
      right
      congr 1
      omega
    · exact .inl (Nat.div_le_div_right h)

theorem tick_tick (a b p : Nat) :
    ((c.tick a p).2.tick b p).2 = (c.tick (a + b) p).2 ∧
      (c.tick a p).1.linesStarted + ((c.tick a p).2.tick b p).1.linesStarted =
        (c.tick (a + b) p).1.linesStarted ∧
      (c.tick a p).1.framesWrapped + ((c.tick a p).2.tick b p).1.framesWrapped =
        (c.tick (a + b) p).1.framesWrapped := by
  rw [tick_eq (c.tick a p).2, tick_eq c a, tick_eq c (a + b)]
  generalize max p 1 = q
  obtain ⟨hle, hcase⟩ := lines_moveBeam_moveBeam c a b q
  have hframes : c.boundaries a q + ((c.moveBeam a q).wrapped (c.boundaries a q)).boundaries b q =
      c.boundaries (a + b) q := by
    have hle' := Nat.div_le_div_right (c := c.linesPerFrame) hle
    have hcase' : c.lines / c.linesPerFrame ≤ (c.moveBeam a q).lines / c.linesPerFrame ∨
        ((c.moveBeam a q).moveBeam b q).lines / c.linesPerFrame =
          (c.moveBeam a q).lines / c.linesPerFrame :=
      hcase.imp (fun h => Nat.div_le_div_right h) (fun h => by rw [h])
    have hlpf : (c.moveBeam a q).linesPerFrame = c.linesPerFrame := rfl
    unfold boundaries
    rw [wrapped_moveBeam, lines_wrapped, lines_wrapped, linesPerFrame_wrapped, hlpf,
      ← moveBeam_moveBeam]
    omega
  simp only
  rw [wrapped_moveBeam, wrapped_wrapped, hframes, lines_wrapped, lines_wrapped, moveBeam_moveBeam]
  rw [moveBeam_moveBeam] at hle hcase
  exact ⟨rfl, by omega, rfl⟩

end Chipset

/-- Ticking by `a` and then by `b` is ticking by `a + b`. -/
theorem batching_is_invisible :
    (∀ (c : Cia) (a b cpuClocksPerEclock : Nat), c.carry + a + b < 0x100000000 →
      let first := c.tick a cpuClocksPerEclock
      let second := first.2.tick b cpuClocksPerEclock
      let whole := c.tick (a + b) cpuClocksPerEclock
      second.2 = whole.2 ∧ (first.1 || second.1) = whole.1) ∧
    ∀ (c : Chipset) (a b cpuClocksPerColourClock : Nat),
      let first := c.tick a cpuClocksPerColourClock
      let second := first.2.tick b cpuClocksPerColourClock
      let whole := c.tick (a + b) cpuClocksPerColourClock
      second.2 = whole.2 ∧
        first.1.linesStarted + second.1.linesStarted = whole.1.linesStarted ∧
        first.1.framesWrapped + second.1.framesWrapped = whole.1.framesWrapped := by
  constructor
  · intro c a b p h
    exact ⟨congrArg Prod.snd (Cia.tick_tick p h), Cia.irq_tick_tick p h⟩
  · intro c a b p
    exact c.tick_tick a b p

/-- Timer A in one-shot mode, which runs out in the second of the two portions. -/
theorem batching_is_invisible_one_shot :
    let c : Cia := { Cia.new .a with timerA := 40, latchA := 40, cra := 0x09, icrMask := 0x01 }
    ((c.tick 700 20).2.tick 400 20).2 = (c.tick 1100 20).2 ∧
      ((c.tick 700 20).1 || ((c.tick 700 20).2.tick 400 20).1) = (c.tick 1100 20).1 :=
  batching_is_invisible.1 _ 700 400 20 (by decide)

end M68kMachine
