import M68kMachine.Library.ReloadTimer
import M68kMachine.Properties.CiaDeadline

/-!
# What the CIA timers count

To either timer an E-clock is at most one pulse of a `ReloadTimer`: to timer A every one, to a
timer B in cascade those in which timer A underflows.

* `asTimerA_tickOneEclock`, `asTimerB_tickOneEclock` — one E-clock
* `taUnderflows_eq`, `tbUnderflows_eq` — the underflows of `n` of them
* `timers_closed_form` — the underflows, the counters and the sources in closed form
-/

namespace M68kMachine

namespace Cia

/-! ## The timers -/

def asTimerA (c : Cia) : ReloadTimer where
  count := c.timerA.toNat
  latch := c.latchA.toNat
  oneShot := c.cra &&& craRunmode ≠ 0
  running := c.timerACounts

def asTimerB (c : Cia) : ReloadTimer where
  count := c.timerB.toNat
  latch := c.latchB.toNat
  oneShot := c.crb &&& crbRunmode ≠ 0
  running := c.crb &&& crbStart ≠ 0

/-- Timer B counts the underflows of timer A; the `CNT` gate is always open. -/
def Cascaded (c : Cia) : Prop := c.crbInmode = 2 ∨ c.crbInmode = 3

instance (c : Cia) : Decidable c.Cascaded := inferInstanceAs (Decidable (_ ∨ _))

/-- Timer B underflows in the next E-clock. -/
def tbFires (c : Cia) : Bool :=
  let (taUnderflow, c) := c.tickTimerA
  c.timerBCounts taUnderflow && (stepTimer c.timerB c.latchB).1

/-- How many of the next `n` E-clocks have the event in them. -/
def clocksWith (event : Cia → Bool) : Nat → Cia → Nat
  | 0, _ => 0
  | n + 1, c => (event c).toNat + clocksWith event n c.tickOneEclock

/-- The underflows of timer A, and of timer B, in the next `n` E-clocks. -/
def taUnderflows (c : Cia) (n : Nat) : Nat := clocksWith (fun c => c.tickTimerA.1) n c

def tbUnderflows (c : Cia) (n : Nat) : Nat := clocksWith tbFires n c

/-! ## One E-clock -/

theorem stepTimer_fst (count latch : Word) : (stepTimer count latch).1 = (count.toNat == 0) := by
  unfold stepTimer
  split
  · rename_i h
    rw [h]
    rfl
  · rename_i h
    exact (beq_eq_false_iff_ne.mpr fun hzero => h (eq_zero_of_toNat hzero)).symm

/-- The timers and their sources, left as they are. -/
structure SameTimers (c c' : Cia) : Prop where
  timerA : c'.timerA = c.timerA
  timerB : c'.timerB = c.timerB
  latchA : c'.latchA = c.latchA
  latchB : c'.latchB = c.latchB
  cra : c'.cra = c.cra
  crb : c'.crb = c.crb
  ta : c'.icrData.getLsbD Icr.ta = c.icrData.getLsbD Icr.ta
  tb : c'.icrData.getLsbD Icr.tb = c.icrData.getLsbD Icr.tb

variable (c : Cia)

theorem sameTimers_tickKeyboard : SameTimers c c.tickKeyboard := by
  rcases tickKeyboard_cases c with ⟨delay, queue, h⟩ | ⟨delay, queue, sdr, h⟩
  · rw [h]
    exact ⟨rfl, rfl, rfl, rfl, rfl, rfl, rfl, rfl⟩
  · rw [h]
    refine ⟨rfl, rfl, rfl, rfl, rfl, rfl, ?_, ?_⟩
    · exact (getLsbD_icrData_raise c Icr.sp (by decide)).trans (Bool.or_false _)
    · exact (getLsbD_icrData_raise c Icr.sp (by decide)).trans (Bool.or_false _)

/-! ## Timer A -/

/-- An underflow of timer A, from the reloaded counter. -/
theorem asTimerA_underflowA {c : Cia} (h : c.timerACounts = true) :
    c.underflowA.asTimerA = { c.asTimerA with running := !c.asTimerA.oneShot } := by
  unfold underflowA
  simp only
  split
  · rename_i hmode
    have hrun : c.asTimerA.oneShot = true := decide_eq_true hmode
    refine ReloadTimer.ext rfl rfl ?_ ?_
    · show decide (c.cra &&& ~~~craStart &&& craRunmode ≠ 0) = decide (c.cra &&& craRunmode ≠ 0)
      rw [and_not_start c.cra craRunmode rfl]
    · show (decide (c.cra &&& ~~~craStart &&& craStart ≠ 0) && _) = !c.asTimerA.oneShot
      rw [hrun, BitVec.and_assoc]
      simp
  · rename_i hmode
    have hrun : c.asTimerA.oneShot = false := decide_eq_false hmode
    exact ReloadTimer.ext rfl rfl rfl (by rw [hrun]; exact h)

theorem tickTimerA_fst : c.tickTimerA.1 = c.asTimerA.fires := by
  unfold tickTimerA
  show _ = (c.timerACounts && c.timerA.toNat == 0)
  split
  · rename_i hcounts
    rw [hcounts, Bool.true_and]
    exact stepTimer_fst c.timerA c.latchA
  · rename_i hcounts
    rw [Bool.eq_false_iff.mpr hcounts]
    rfl

theorem asTimerA_tickTimerA : c.tickTimerA.2.asTimerA = c.asTimerA.pulse := by
  by_cases hcounts : c.timerACounts = true
  · have hrun : c.asTimerA.running = true := hcounts
    unfold tickTimerA
    rw [if_pos hcounts]
    rcases Nat.eq_zero_or_pos c.timerA.toNat with hzero | hpos
    · rw [eq_zero_of_toNat hzero, stepTimer_zero]
      rw [ReloadTimer.pulse_of_zero hrun hzero]
      exact asTimerA_underflowA (c := { c with timerA := c.latchA }) hcounts
    · rw [stepTimer_of_pos hpos, ReloadTimer.pulse_of_pos hrun hpos]
      exact ReloadTimer.ext (toNat_pred hpos) rfl rfl rfl
  · have hcounts' : c.timerACounts = false := Bool.eq_false_iff.mpr hcounts
    have hstopped : c.asTimerA.running = false := hcounts'
    unfold tickTimerA
    rw [hcounts', ReloadTimer.pulse_of_stopped hstopped]
    rfl

/-- What timer A leaves alone, and the source it raises. -/
structure AsideB (c c' : Cia) : Prop where
  timerB : c'.timerB = c.timerB
  latchB : c'.latchB = c.latchB
  crb : c'.crb = c.crb
  tb : c'.icrData.getLsbD Icr.tb = c.icrData.getLsbD Icr.tb

theorem asideB_tickTimerA : AsideB c c.tickTimerA.2 ∧
    c.tickTimerA.2.icrData.getLsbD Icr.ta =
      (c.icrData.getLsbD Icr.ta || c.asTimerA.fires) := by
  rw [← tickTimerA_fst]
  rcases tickTimerA_cases c with ⟨count, h⟩ | ⟨count, cra, -, h⟩
  · rw [h]
    exact ⟨⟨rfl, rfl, rfl, rfl⟩, (Bool.or_false _).symm⟩
  · rw [h]
    refine ⟨⟨rfl, rfl, rfl, ?_⟩, getLsbD_icrData_raise c Icr.ta (by decide)⟩
    exact (getLsbD_icrData_raise c Icr.ta (by decide)).trans (Bool.or_false _)

/-! ## Timer B -/

/-- The next E-clock is a pulse to timer B. -/
def pulsesB (c : Cia) : Bool :=
  if c.crbInmode = 0 then true else if c.crbInmode = 1 then false else c.asTimerA.fires

theorem asTimerB_underflowB {c : Cia} (h : c.asTimerB.running = true) :
    c.underflowB.asTimerB = { c.asTimerB with running := !c.asTimerB.oneShot } := by
  unfold underflowB
  simp only
  split
  · rename_i hmode
    have hrun : c.asTimerB.oneShot = true := decide_eq_true hmode
    refine ReloadTimer.ext rfl rfl ?_ ?_
    · show decide (c.crb &&& ~~~crbStart &&& crbRunmode ≠ 0) = decide (c.crb &&& crbRunmode ≠ 0)
      rw [and_not_start c.crb crbRunmode rfl]
    · show decide (c.crb &&& ~~~crbStart &&& crbStart ≠ 0) = !c.asTimerB.oneShot
      rw [hrun, BitVec.and_assoc]
      simp
  · rename_i hmode
    have hrun : c.asTimerB.oneShot = false := decide_eq_false hmode
    exact ReloadTimer.ext rfl rfl rfl (by rw [hrun]; exact h)

/-- Timer B under a pulse, or none. -/
theorem asTimerB_tickTimerB (underflow : Bool) :
    (c.tickTimerB underflow).asTimerB =
      if c.timerBCounts underflow then c.asTimerB.pulse else c.asTimerB := by
  unfold tickTimerB
  split
  · rename_i hcounts
    have hrun : c.asTimerB.running = true := by
      unfold timerBCounts at hcounts
      rw [Bool.and_eq_true] at hcounts
      exact hcounts.1
    rcases Nat.eq_zero_or_pos c.timerB.toNat with hzero | hpos
    · rw [eq_zero_of_toNat hzero, stepTimer_zero, ReloadTimer.pulse_of_zero hrun hzero]
      exact asTimerB_underflowB (c := { c with timerB := c.latchB }) hrun
    · rw [stepTimer_of_pos hpos, ReloadTimer.pulse_of_pos hrun hpos]
      exact ReloadTimer.ext (toNat_pred hpos) rfl rfl rfl
  · rfl

/-- What timer B leaves alone, and the source it raises. -/
structure AsideA (c c' : Cia) : Prop where
  asTimerA : c'.asTimerA = c.asTimerA
  crbInmode : c'.crbInmode = c.crbInmode
  ta : c'.icrData.getLsbD Icr.ta = c.icrData.getLsbD Icr.ta

theorem asideA_tickTimerB (underflow : Bool) : AsideA c (c.tickTimerB underflow) ∧
    (c.tickTimerB underflow).icrData.getLsbD Icr.tb =
      (c.icrData.getLsbD Icr.tb ||
        (c.timerBCounts underflow && (stepTimer c.timerB c.latchB).1)) := by
  rcases tickTimerB_cases c underflow with ⟨hnone, count, h⟩ | ⟨hone, count, crb, hcrb, h⟩
  · rw [h, hnone]
    exact ⟨⟨rfl, rfl, rfl⟩, (Bool.or_false _).symm⟩
  · rw [h, hone]
    refine ⟨⟨rfl, ?_, ?_⟩, getLsbD_icrData_raise c Icr.tb (by decide)⟩
    · show (crb &&& crbInmodeMask) >>> crbInmodeShift = c.crbInmode
      rcases hcrb with rfl | rfl
      · rfl
      · rw [and_not_start c.crb crbInmodeMask rfl]
        rfl
    · exact (getLsbD_icrData_raise c Icr.tb (by decide)).trans (Bool.or_false _)

/-! ## Both timers -/

theorem sameTimers_tickOneEclock :
    SameTimers (c.tickTimerA.2.tickTimerB c.tickTimerA.1) c.tickOneEclock := by
  unfold tickOneEclock
  simp only
  split
  · exact sameTimers_tickKeyboard _
  · exact ⟨rfl, rfl, rfl, rfl, rfl, rfl, rfl, rfl⟩

theorem SameTimers.asTimerA {c c' : Cia} (h : SameTimers c c') : c'.asTimerA = c.asTimerA := by
  unfold Cia.asTimerA timerACounts
  rw [h.timerA, h.latchA, h.cra]

theorem SameTimers.asTimerB {c c' : Cia} (h : SameTimers c c') : c'.asTimerB = c.asTimerB := by
  unfold Cia.asTimerB
  rw [h.timerB, h.latchB, h.crb]

theorem AsideB.asTimerB {c c' : Cia} (h : AsideB c c') : c'.asTimerB = c.asTimerB := by
  unfold Cia.asTimerB
  rw [h.timerB, h.latchB, h.crb]

theorem AsideB.crbInmode {c c' : Cia} (h : AsideB c c') : c'.crbInmode = c.crbInmode := by
  unfold Cia.crbInmode
  rw [h.crb]

/-- Timer B counts if it runs and is given a pulse. -/
theorem timerBCounts_tickTimerA :
    c.tickTimerA.2.timerBCounts c.tickTimerA.1 = (c.asTimerB.running && c.pulsesB) := by
  obtain ⟨haside, -⟩ := asideB_tickTimerA c
  unfold timerBCounts pulsesB
  rw [haside.crbInmode, haside.crb, tickTimerA_fst]
  rfl

theorem tbFires_eq : c.tbFires = (c.pulsesB && c.asTimerB.fires) := by
  obtain ⟨haside, -⟩ := asideB_tickTimerA c
  unfold tbFires
  simp only
  rw [timerBCounts_tickTimerA, stepTimer_fst, haside.timerB, Bool.and_comm c.asTimerB.running,
    Bool.and_assoc]
  rfl

/-- **To timer A an E-clock is a pulse.** -/
theorem asTimerA_tickOneEclock : c.tickOneEclock.asTimerA = c.asTimerA.pulse := by
  rw [(sameTimers_tickOneEclock c).asTimerA, (asideA_tickTimerB _ _).1.asTimerA,
    asTimerA_tickTimerA]

/-- **To timer B an E-clock is a pulse or nothing.** -/
theorem asTimerB_tickOneEclock :
    c.tickOneEclock.asTimerB = if c.pulsesB then c.asTimerB.pulse else c.asTimerB := by
  rw [(sameTimers_tickOneEclock c).asTimerB, asTimerB_tickTimerB, timerBCounts_tickTimerA,
    (asideB_tickTimerA c).1.asTimerB]
  cases hrun : c.asTimerB.running with
  | true => rw [Bool.true_and]
  | false => simp [ReloadTimer.pulse_of_stopped hrun]

theorem crbInmode_tickOneEclock : c.tickOneEclock.crbInmode = c.crbInmode := by
  have hkeyboard : c.tickOneEclock.crbInmode =
      (c.tickTimerA.2.tickTimerB c.tickTimerA.1).crbInmode := by
    unfold crbInmode
    rw [(sameTimers_tickOneEclock c).crb]
  rw [hkeyboard, (asideA_tickTimerB _ _).1.crbInmode, (asideB_tickTimerA c).1.crbInmode]

theorem ta_tickOneEclock : c.tickOneEclock.icrData.getLsbD Icr.ta =
    (c.icrData.getLsbD Icr.ta || c.tickTimerA.1) := by
  rw [(sameTimers_tickOneEclock c).ta, (asideA_tickTimerB _ _).1.ta, (asideB_tickTimerA c).2,
    tickTimerA_fst]

theorem tb_tickOneEclock : c.tickOneEclock.icrData.getLsbD Icr.tb =
    (c.icrData.getLsbD Icr.tb || c.tbFires) := by
  rw [(sameTimers_tickOneEclock c).tb, (asideA_tickTimerB _ _).2, (asideB_tickTimerA c).1.tb]
  rfl

/-! ## Any number of E-clocks -/

theorem asTimerA_iterate (n : Nat) :
    (tickOneEclock^[n] c).asTimerA = ReloadTimer.pulse^[n] c.asTimerA :=
  Function.Semiconj.iterate_right (f := asTimerA) asTimerA_tickOneEclock n c

theorem taUnderflows_eq (n : Nat) : c.taUnderflows n = ReloadTimer.underflows n c.asTimerA := by
  unfold taUnderflows
  induction n generalizing c with
  | zero => rfl
  | succ n ih =>
    show c.tickTimerA.1.toNat + clocksWith _ n c.tickOneEclock =
      c.asTimerA.fires.toNat + ReloadTimer.underflows n c.asTimerA.pulse
    rw [ih, asTimerA_tickOneEclock, tickTimerA_fst]

theorem Cascaded.next {c : Cia} (h : c.Cascaded) : c.tickOneEclock.Cascaded := by
  unfold Cascaded
  rw [crbInmode_tickOneEclock]
  exact h

theorem Cascaded.pulsesB {c : Cia} (h : c.Cascaded) : c.pulsesB = c.asTimerA.fires := by
  unfold Cia.pulsesB
  rcases h with h | h <;> simp [h]

/-- **In cascade the two timers are a `ReloadTimer.cascade`.** -/
theorem Cascaded.cascade {c : Cia} (h : c.Cascaded) :
    (c.tickOneEclock.asTimerA, c.tickOneEclock.asTimerB) =
      ReloadTimer.cascade (c.asTimerA, c.asTimerB) := by
  rw [asTimerA_tickOneEclock, asTimerB_tickOneEclock, h.pulsesB]
  rfl

theorem Cascaded.iterate {c : Cia} (h : c.Cascaded) (n : Nat) :
    ((tickOneEclock^[n] c).asTimerA, (tickOneEclock^[n] c).asTimerB) =
      ReloadTimer.cascade^[n] (c.asTimerA, c.asTimerB) := by
  induction n generalizing c with
  | zero => rfl
  | succ n ih =>
    rw [Function.iterate_succ_apply, Function.iterate_succ_apply, ih h.next, h.cascade]

theorem Cascaded.asTimerB_iterate {c : Cia} (h : c.Cascaded) (n : Nat) :
    (tickOneEclock^[n] c).asTimerB = ReloadTimer.pulse^[c.taUnderflows n] c.asTimerB := by
  have hrun := h.iterate n
  rw [ReloadTimer.iterate_cascade, ← taUnderflows_eq] at hrun
  exact congrArg Prod.snd hrun

theorem Cascaded.tbUnderflows_eq {c : Cia} (h : c.Cascaded) (n : Nat) :
    c.tbUnderflows n = ReloadTimer.underflows (c.taUnderflows n) c.asTimerB := by
  rw [taUnderflows_eq, ← ReloadTimer.cascadeUnderflows_eq]
  unfold tbUnderflows
  induction n generalizing c with
  | zero => rfl
  | succ n ih =>
    show c.tbFires.toNat + clocksWith tbFires n c.tickOneEclock =
      (c.asTimerA.fires && c.asTimerB.fires).toNat +
        ReloadTimer.cascadeUnderflows n (ReloadTimer.cascade (c.asTimerA, c.asTimerB))
    rw [ih h.next, tbFires_eq, h.pulsesB, h.cascade]

/-- A source is set once its event has happened. -/
theorem getLsbD_iterate {event : Cia → Bool} {i : Nat}
    (hstep : ∀ c : Cia, c.tickOneEclock.icrData.getLsbD i = (c.icrData.getLsbD i || event c))
    (n : Nat) (c : Cia) : (tickOneEclock^[n] c).icrData.getLsbD i =
      (c.icrData.getLsbD i || decide (0 < clocksWith event n c)) := by
  induction n generalizing c with
  | zero => exact (Bool.or_false _).symm
  | succ n ih =>
    rw [Function.iterate_succ_apply, ih, hstep, Bool.or_assoc]
    show _ = (_ || decide (0 < (event c).toNat + clocksWith event n c.tickOneEclock))
    cases event c with
    | false => simp
    | true => simp [Nat.add_comm 1]

/-! ## The closed form -/

/-- The underflows of timer A, its counter and whether it still counts, after `n` E-clocks. -/
theorem taUnderflows_closed {c : Cia} (h : c.timerACounts = true) (n : Nat) :
    c.taUnderflows n = (if n ≤ c.timerA.toNat then 0
        else if c.cra &&& craRunmode ≠ 0 then 1
        else 1 + (n - c.timerA.toNat - 1) / (c.latchA.toNat + 1)) ∧
      (tickOneEclock^[n] c).timerA.toNat = (if n ≤ c.timerA.toNat then c.timerA.toNat - n
        else if c.cra &&& craRunmode ≠ 0 then c.latchA.toNat
        else c.latchA.toNat - (n - c.timerA.toNat - 1) % (c.latchA.toNat + 1)) ∧
      (tickOneEclock^[n] c).timerACounts =
        (decide (c.cra &&& craRunmode = 0) || decide (n ≤ c.timerA.toNat)) := by
  have hrun : c.asTimerA.running = true := h
  have hafter := asTimerA_iterate c n
  refine ⟨?_, ?_, ?_⟩
  · rw [taUnderflows_eq, ReloadTimer.underflows_eq hrun]
    simp only [asTimerA, decide_eq_true_eq]
  · rw [show (tickOneEclock^[n] c).timerA.toNat = (tickOneEclock^[n] c).asTimerA.count from rfl,
      hafter, ReloadTimer.count_iterate hrun]
    simp only [asTimerA, decide_eq_true_eq]
  · rw [show (tickOneEclock^[n] c).timerACounts = (tickOneEclock^[n] c).asTimerA.running from rfl,
      hafter, ReloadTimer.running_iterate hrun]
    simp [asTimerA]

theorem tbUnderflows_closed {c : Cia} (h : c.crb &&& crbStart ≠ 0) (hcascade : c.Cascaded)
    (n : Nat) :
    let k := c.taUnderflows n
    c.tbUnderflows n = (if k ≤ c.timerB.toNat then 0
        else if c.crb &&& crbRunmode ≠ 0 then 1
        else 1 + (k - c.timerB.toNat - 1) / (c.latchB.toNat + 1)) ∧
      (tickOneEclock^[n] c).timerB.toNat = (if k ≤ c.timerB.toNat then c.timerB.toNat - k
        else if c.crb &&& crbRunmode ≠ 0 then c.latchB.toNat
        else c.latchB.toNat - (k - c.timerB.toNat - 1) % (c.latchB.toNat + 1)) ∧
      ((tickOneEclock^[n] c).crb &&& crbStart ≠ 0 ↔
        c.crb &&& crbRunmode = 0 ∨ k ≤ c.timerB.toNat) := by
  have hrun : c.asTimerB.running = true := decide_eq_true h
  have hafter := hcascade.asTimerB_iterate n
  refine ⟨?_, ?_, ?_⟩
  · rw [hcascade.tbUnderflows_eq, ReloadTimer.underflows_eq hrun]
    simp only [asTimerB, decide_eq_true_eq]
  · rw [show (tickOneEclock^[n] c).timerB.toNat = (tickOneEclock^[n] c).asTimerB.count from rfl,
      hafter, ReloadTimer.count_iterate hrun]
    simp only [asTimerB, decide_eq_true_eq]
  · have hstart : decide ((tickOneEclock^[n] c).crb &&& crbStart ≠ 0) =
        (!c.asTimerB.oneShot || decide (c.taUnderflows n ≤ c.asTimerB.count)) :=
      (congrArg ReloadTimer.running hafter).trans (ReloadTimer.running_iterate hrun _)
    simpa [asTimerB] using Bool.eq_iff_iff.mp hstart

/-- **The timers follow the closed form.** `n` E-clocks at once are `n` single steps; timer A
underflows after its counter and then every `latch + 1` E-clocks or never again, timer B does so
with the underflows of timer A, and the sources show the underflows. -/
theorem timers_closed_form (c : Cia) (n : Nat) :
    let after := c.tickEclock n
    let k := c.taUnderflows n
    after = tickOneEclock^[n] c ∧
      (c.timerACounts = true →
        k = (if n ≤ c.timerA.toNat then 0
          else if c.cra &&& craRunmode ≠ 0 then 1
          else 1 + (n - c.timerA.toNat - 1) / (c.latchA.toNat + 1)) ∧
        after.timerA.toNat = (if n ≤ c.timerA.toNat then c.timerA.toNat - n
          else if c.cra &&& craRunmode ≠ 0 then c.latchA.toNat
          else c.latchA.toNat - (n - c.timerA.toNat - 1) % (c.latchA.toNat + 1)) ∧
        after.timerACounts =
          (decide (c.cra &&& craRunmode = 0) || decide (n ≤ c.timerA.toNat))) ∧
      (c.crb &&& crbStart ≠ 0 → c.Cascaded →
        c.tbUnderflows n = (if k ≤ c.timerB.toNat then 0
          else if c.crb &&& crbRunmode ≠ 0 then 1
          else 1 + (k - c.timerB.toNat - 1) / (c.latchB.toNat + 1)) ∧
        after.timerB.toNat = (if k ≤ c.timerB.toNat then c.timerB.toNat - k
          else if c.crb &&& crbRunmode ≠ 0 then c.latchB.toNat
          else c.latchB.toNat - (k - c.timerB.toNat - 1) % (c.latchB.toNat + 1)) ∧
        (after.crb &&& crbStart ≠ 0 ↔ c.crb &&& crbRunmode = 0 ∨ k ≤ c.timerB.toNat)) ∧
      after.icrData.getLsbD Icr.ta = (c.icrData.getLsbD Icr.ta || decide (0 < k)) ∧
      after.icrData.getLsbD Icr.tb =
        (c.icrData.getLsbD Icr.tb || decide (0 < c.tbUnderflows n)) := by
  simp only
  rw [tickEclock_eq]
  refine ⟨rfl, fun h => taUnderflows_closed h n, fun h hcascade => tbUnderflows_closed h hcascade n,
    ?_, ?_⟩
  · exact getLsbD_iterate ta_tickOneEclock n c
  · exact getLsbD_iterate tb_tickOneEclock n c

/-- Timer A, with a period of three E-clocks, feeds a one-shot timer B. -/
theorem timers_closed_form_cascade :
    let c : Cia := { Cia.new .b with
      timerA := 1, latchA := 2, cra := 0x01, timerB := 2, latchB := 9, crb := 0x49 }
    c.taUnderflows 12 = 4 ∧ (c.tickEclock 12).timerA.toNat = 1 ∧
      c.tbUnderflows 12 = 1 ∧ (c.tickEclock 12).timerB.toNat = 9 := by
  intro c
  obtain ⟨-, hA, hB, -⟩ := timers_closed_form c 12
  obtain ⟨hunderflows, hcount, -⟩ := hA (by decide)
  obtain ⟨hcascaded, hcountB, -⟩ := hB (by decide) (by decide)
  rw [hunderflows] at hcascaded hcountB
  exact ⟨hunderflows.trans (by decide), hcount.trans (by decide), hcascaded.trans (by decide),
    hcountB.trans (by decide)⟩

end Cia

end M68kMachine
