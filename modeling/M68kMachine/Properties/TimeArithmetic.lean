import M68kMachine.Machine.CheckedTime
import M68kMachine.Properties.BoundaryRequests

/-!
# Time does not overflow, but for one sum

Everything that advances the clock stays within its width in every reachable state, except the `u32`
sum of a CIA's carry and the clocks of a flush. The exact condition is that what has accumulated,
with the step's clocks added and saturated, still has room for the carries.

* `tickChecked_eq`, `clocksUntilEventChecked_eq`, … — the checked function returns, and agrees
* `ClocksFit` — the room for the carries
* `runChecked_iff` — a run returns if and only if every tick of it has the room
-/

namespace M68kMachine

open Transition

variable {δ ρ π : Type}

/-! ## The CIAs -/

namespace Cia

theorem stepTimerChecked_eq (count latch : Word) :
    stepTimerChecked count latch = some (stepTimer count latch) := by
  unfold stepTimerChecked stepTimer
  split
  · rfl
  · rename_i h
    have hpos : 0 < count.toNat := by
      refine Nat.pos_iff_ne_zero.mpr fun hzero => h ?_
      exact BitVec.eq_of_toNat_eq hzero
    rw [Checked.sub_of_le hpos, ← toNat_pred hpos]
    show some (false, BitVec.ofNat 16 (count - 1).toNat) = _
    rw [BitVec.ofNat_toNat, BitVec.setWidth_eq]

variable (c : Cia) {p : Nat}

theorem tickTimerAChecked_eq : c.tickTimerAChecked = some c.tickTimerA := by
  unfold tickTimerAChecked tickTimerA
  split
  · rw [stepTimerChecked_eq]
    rfl
  · rfl

theorem tickTimerBChecked_eq (taUnderflow : Bool) :
    c.tickTimerBChecked taUnderflow = some (c.tickTimerB taUnderflow) := by
  unfold tickTimerBChecked tickTimerB
  split
  · rw [stepTimerChecked_eq]
    rfl
  · rfl

/-- The head lies in the queue, and a code is taken off only where there is one. -/
theorem nextKeycodeChecked_eq : c.nextKeycodeChecked = some c.nextKeycode := by
  unfold nextKeycodeChecked
  split
  · rename_i h
    unfold nextKeycode RingBuffer.pop
    rw [if_pos h]
  · have hhead : c.keyboardQueue.head < 16 := c.keyboardQueue.head_lt
    have hlimit : u32Limit = 0x100000000 := rfl
    rw [Checked.add_of_lt (by omega), Checked.sub_of_le (by omega)]
    rfl

theorem landKeycodeChecked_eq : c.landKeycodeChecked = some c.landKeycode := by
  unfold landKeycodeChecked landKeycode
  rw [nextKeycodeChecked_eq]
  rcases c.nextKeycode with ⟨_ | raw, c⟩ <;> rfl

theorem tickKeyboardChecked_eq : c.tickKeyboardChecked = some c.tickKeyboard := by
  unfold tickKeyboardChecked tickKeyboard
  split
  · rfl
  · dsimp only
    generalize (if c.kbdDelay = 0 ∧ c.kbdLoaded = false ∧ 0 < c.keyboardQueue.len then
      keyboardHandshakeTicks else c.kbdDelay) = delay
    by_cases hpos : 0 < delay
    · rw [if_pos hpos, Checked.sub_of_le hpos]
      by_cases hone : delay = 1
      · subst hone
        exact landKeycodeChecked_eq _
      · have hleft : ¬delay - 1 = 0 := by omega
        rw [if_neg hone]
        exact if_neg hleft
    · have hzero : delay = 0 := by omega
      subst hzero
      rfl

theorem tickOneEclockChecked_eq : c.tickOneEclockChecked = some c.tickOneEclock := by
  unfold tickOneEclockChecked tickOneEclock
  rw [tickTimerAChecked_eq]
  show (c.tickTimerA.2.tickTimerBChecked c.tickTimerA.1).bind _ = _
  rw [tickTimerBChecked_eq, Option.bind_some]
  dsimp only
  split
  · exact tickKeyboardChecked_eq _
  · rfl

theorem tickEclockChecked_eq (ticks : Nat) :
    c.tickEclockChecked ticks = some (c.tickEclock ticks) := by
  unfold tickEclockChecked tickEclock
  split
  · rfl
  · exact Checked.iterate_of_total tickOneEclockChecked_eq ticks c

/-- **The sum is all that can overflow.** -/
theorem tickChecked_of_lt {c : Cia} {cpuClocks : Nat} (hp : 0 < p)
    (h : c.carry + cpuClocks < u32Limit) :
    c.tickChecked cpuClocks p = some (c.tick cpuClocks p) := by
  unfold tickChecked tick
  rw [Nat.mod_eq_of_lt h, Checked.add_of_lt h]
  show (Checked.div _ p).bind _ = _
  rw [Checked.div_of_pos hp, Option.bind_some]
  show (Checked.rem _ p).bind _ = _
  rw [Checked.rem_of_pos hp, Option.bind_some]
  dsimp only
  split
  · rw [tickEclockChecked_eq]
    rfl
  · rfl

theorem tickChecked_of_le {c : Cia} {cpuClocks : Nat} (h : u32Limit ≤ c.carry + cpuClocks) :
    c.tickChecked cpuClocks p = none := by
  unfold tickChecked
  rw [Checked.add_of_le h]
  rfl

theorem dueChecked_eq (running : Bool) (count : Word) :
    dueChecked running count = some (if running then some (count.toNat + 1) else none) := by
  unfold dueChecked
  have hlt := count.isLt
  have hlimit : u32Limit = 0x100000000 := rfl
  split
  · rw [Checked.add_of_lt (by omega)]
    rfl
  · rfl

/-- **An event is never too far away.** -/
theorem clocksUntilEventChecked_eq {c : Cia} (hwf : c.Wf) (hp : p < 0x10000) :
    c.clocksUntilEventChecked p = some (c.clocksUntilEvent p) := by
  have htimerA : dueChecked c.timerACounts c.timerA = some c.timerAEvent := dueChecked_eq _ _
  have htimerB : dueChecked (c.crb &&& crbStart ≠ 0 ∧ c.crbInmode = 0) c.timerB =
      some c.timerBEvent := by
    rw [dueChecked_eq]
    unfold timerBEvent
    simp only [decide_eq_true_eq]
  unfold clocksUntilEventChecked clocksUntilEvent
  rw [htimerA, htimerB]
  simp only [Option.bind_eq_bind, Option.bind_some]
  cases hnearest : nearest [c.timerAEvent, c.timerBEvent, c.keyboardEvent] with
  | none => rfl
  | some eclocks =>
    have hbound := (events_bounds hwf (nearest_eq_some.mp hnearest).1).2
    have hproduct : eclocks * p ≤ 0x10000 * 0xFFFF := Nat.mul_le_mul hbound (by omega)
    have hlimit : u64Limit = 0x10000000000000000 := rfl
    dsimp only
    rw [Checked.mul_of_lt (by omega)]
    rfl

end Cia

/-! ## The beam -/

namespace Chipset

/-- A quotient moves on by no more than its dividend. -/
theorem quotient_moves {a b k x : Nat} (hk : 0 < k) (h : b ≤ a + x) : b / k - a / k ≤ x := by
  have hlt : b / k < a / k + x + 1 := by
    rw [Nat.div_lt_iff_lt_mul hk]
    have ha : a < (a / k + 1) * k := by
      rw [Nat.add_mul, Nat.one_mul, Nat.mul_comm]
      exact Nat.lt_mul_div_succ a hk
    have hx : x ≤ x * k := Nat.le_mul_of_pos_right x hk
    calc b ≤ a + x := h
      _ < (a / k + 1) * k + x * k := by omega
      _ = (a / k + x + 1) * k := by
        rw [← Nat.add_mul]
        congr 1
        omega
  omega

/-- **The beam never overflows**: a `u32` of clocks is less than a `u32` of lines. -/
theorem tickChecked_eq {c : Chipset} {cpuClocks : Nat} (hframe : 0 < c.linesPerFrame)
    (hmax : c.totalColourClocks ≤ u64Max) (hcarry : c.carry < cpuClocksPerColourClock)
    (hclocks : cpuClocks < u32Limit) :
    c.tickChecked cpuClocks cpuClocksPerColourClock =
      some (c.tick cpuClocks cpuClocksPerColourClock) := by
  have hdivider : max cpuClocksPerColourClock 1 = 4 := rfl
  have hcarry' : c.carry < 4 := hcarry
  have hu64 : u64Limit = 0x10000000000000000 := rfl
  have hu32 : u32Limit = 0x100000000 := rfl
  have hline : 0 < palColourClocksPerLine := by decide
  have hfour : 0 < 4 := by decide
  have hmoved : (c.moveBeam cpuClocks 4).totalColourClocks ≤
      c.totalColourClocks + (c.carry + cpuClocks) / 4 := Nat.min_le_left _ _
  have hforth : c.totalColourClocks ≤ (c.moveBeam cpuClocks 4).totalColourClocks :=
    Nat.le_min.mpr ⟨Nat.le_add_right _ _, hmax⟩
  have hlines : c.lines ≤ (c.moveBeam cpuClocks 4).lines := Nat.div_le_div_right hforth
  have hframes := Nat.div_le_div_right (c := c.linesPerFrame) hlines
  have hlinesLe : (c.moveBeam cpuClocks 4).lines - c.lines ≤ (c.carry + cpuClocks) / 4 :=
    quotient_moves hline hmoved
  have hframesLe := quotient_moves hframe
    (show (c.moveBeam cpuClocks 4).lines ≤ c.lines + (c.carry + cpuClocks) / 4 by omega)
  unfold tickChecked tick
  rw [hdivider]
  dsimp only
  rw [Checked.add_of_lt (by omega)]
  simp only [Option.bind_eq_bind, Option.bind_some]
  rw [Checked.div_of_pos hfour, Checked.rem_of_pos hfour]
  simp only [Option.bind_some]
  rw [Checked.div_of_pos hline, Checked.div_of_pos hline]
  simp only [Option.bind_some]
  show (Checked.sub (c.moveBeam cpuClocks 4).lines c.lines).bind _ = _
  rw [Checked.sub_of_le hlines, Option.bind_some, Checked.div_of_pos hframe, Option.bind_some,
    Checked.div_of_pos hframe, Option.bind_some]
  show (Checked.sub ((c.moveBeam cpuClocks 4).lines / c.linesPerFrame)
    (c.lines / c.linesPerFrame)).bind _ = _
  rw [Checked.sub_of_le hframes, Option.bind_some]
  -- neither cast loses a bit
  rw [Nat.mod_eq_of_lt (by omega : (c.moveBeam cpuClocks 4).lines - c.lines < u32Limit),
    Nat.mod_eq_of_lt (by omega : (c.moveBeam cpuClocks 4).lines / c.linesPerFrame -
      c.lines / c.linesPerFrame < u32Limit)]
  rfl

theorem clocksUntilLineBoundaryChecked_eq {c : Chipset}
    (hcarry : c.carry < cpuClocksPerColourClock) :
    c.clocksUntilLineBoundaryChecked cpuClocksPerColourClock =
      some (c.clocksUntilLineBoundary cpuClocksPerColourClock) := by
  have hline : palColourClocksPerLine = 227 := rfl
  have hdivider : cpuClocksPerColourClock = 4 := rfl
  have hu64 : u64Limit = 0x10000000000000000 := rfl
  have hu32 : u32Limit = 0x100000000 := rfl
  have hpos : c.hpos < palColourClocksPerLine := Nat.mod_lt _ (by decide)
  rw [hdivider] at hcarry ⊢
  unfold clocksUntilLineBoundaryChecked clocksUntilLineBoundary
  rw [Checked.sub_of_le (Nat.le_of_lt hpos)]
  simp only [Option.bind_eq_bind, Option.bind_some]
  rw [Checked.mul_of_lt (by omega), Option.bind_some, Checked.sub_of_le (by omega),
    Option.bind_some, Nat.mod_eq_of_lt (by omega)]

end Chipset

/-! ## The devices -/

namespace BusDevices

/-- The carries the two CIAs' sums start from are those before the tick. -/
theorem carry_todTicks (c : Cia) (n : Nat) : (Cia.todTick^[n] c).carry = c.carry := by
  induction n generalizing c with
  | zero => rfl
  | succ n ih =>
    rw [Function.iterate_succ_apply, ih, (Cia.beside_todTick c).carry]

theorem ciaB_tickCiaA (d : BusDevices δ ρ π) (cpuClocks : Nat) :
    (d.tickCiaA cpuClocks).ciaB = d.ciaB := by
  unfold tickCiaA raisePorts
  dsimp only
  split <;> rfl

variable [BlockDevice δ] [PacketBackend ρ] [PciBackend π]

theorem carry_beforeCias (d : BusDevices δ ρ π) (cpuClocks : Nat) :
    (d.beforeCias cpuClocks).ciaA.carry = d.ciaA.carry ∧
      (d.beforeCias cpuClocks).ciaB.carry = d.ciaB.carry := by
  have hgraphics := sameClocks_tickGraphics
    ((d.tickBeam cpuClocks).2.tickTod (d.tickBeam cpuClocks).1) (d.tickBeam cpuClocks).1
  have htod :
      ((d.tickBeam cpuClocks).2.tickTod (d.tickBeam cpuClocks).1).ciaA.carry = d.ciaA.carry ∧
      ((d.tickBeam cpuClocks).2.tickTod (d.tickBeam cpuClocks).1).ciaB.carry = d.ciaB.carry :=
    ⟨carry_todTicks _ _, carry_todTicks _ _⟩
  unfold beforeCias
  dsimp only
  split
  · have hengines := (raises_tickEngines
      (((d.tickBeam cpuClocks).2.tickTod (d.tickBeam cpuClocks).1).tickGraphics
        (d.tickBeam cpuClocks).1)).sameClocks
    rw [hengines.ciaA, hengines.ciaB, hgraphics.ciaA, hgraphics.ciaB]
    exact htod
  · rw [hgraphics.ciaA, hgraphics.ciaB]
    exact htod

/-- A `u32` of clocks has room for the carries. -/
structure CarriesFit (d : BusDevices δ ρ π) (cpuClocks : Nat) : Prop where
  ciaA : d.ciaA.carry + cpuClocks < u32Limit
  ciaB : d.ciaB.carry + cpuClocks < u32Limit

/-- `tick_exact` overflows in the sums of the CIAs or not at all. -/
theorem tickExactChecked_of_fit {d : BusDevices δ ρ π} (h : d.Clocked) {cpuClocks : Nat}
    (hclocks : cpuClocks < u32Limit) (hfit : d.CarriesFit cpuClocks) :
    d.tickExactChecked cpuClocks = some (d.tickExact cpuClocks) := by
  obtain ⟨hcarryA, hcarryB⟩ := carry_beforeCias d cpuClocks
  have hA : (d.beforeCias cpuClocks).ciaA.tickChecked cpuClocks cpuClocksPerEclock =
      some ((d.beforeCias cpuClocks).ciaA.tick cpuClocks cpuClocksPerEclock) :=
    Cia.tickChecked_of_lt (by decide) (hcarryA.symm ▸ hfit.ciaA)
  have hB : ((d.beforeCias cpuClocks).tickCiaA cpuClocks).ciaB.tickChecked cpuClocks
        cpuClocksPerEclock =
      some (((d.beforeCias cpuClocks).tickCiaA cpuClocks).ciaB.tick cpuClocks
        cpuClocksPerEclock) := by
    rw [ciaB_tickCiaA]
    exact Cia.tickChecked_of_lt (by decide) (hcarryB.symm ▸ hfit.ciaB)
  unfold tickExactChecked
  rw [Chipset.tickChecked_eq h.frame h.beamClocks h.beamCarry hclocks]
  show ((d.beforeCias cpuClocks).ciaA.tickChecked cpuClocks cpuClocksPerEclock).bind _ = _
  rw [hA, Option.bind_some]
  show (((d.beforeCias cpuClocks).tickCiaA cpuClocks).ciaB.tickChecked cpuClocks
    cpuClocksPerEclock).bind _ = _
  rw [hB, Option.bind_some]
  rfl

theorem tickExactChecked_of_not_fit {d : BusDevices δ ρ π} (h : d.Clocked) {cpuClocks : Nat}
    (hclocks : cpuClocks < u32Limit) (hfit : ¬d.CarriesFit cpuClocks) :
    d.tickExactChecked cpuClocks = none := by
  obtain ⟨hcarryA, hcarryB⟩ := carry_beforeCias d cpuClocks
  unfold tickExactChecked
  rw [Chipset.tickChecked_eq h.frame h.beamClocks h.beamCarry hclocks]
  show ((d.beforeCias cpuClocks).ciaA.tickChecked cpuClocks cpuClocksPerEclock).bind _ = _
  by_cases hfitA : d.ciaA.carry + cpuClocks < u32Limit
  · have hfitB : u32Limit ≤ d.ciaB.carry + cpuClocks :=
      Nat.not_lt.mp fun hfitB => hfit ⟨hfitA, hfitB⟩
    rw [Cia.tickChecked_of_lt (by decide) (hcarryA.symm ▸ hfitA), Option.bind_some]
    show (((d.beforeCias cpuClocks).tickCiaA cpuClocks).ciaB.tickChecked cpuClocks
      cpuClocksPerEclock).bind _ = _
    rw [ciaB_tickCiaA, Cia.tickChecked_of_le (hcarryB.symm ▸ hfitB)]
    rfl
  · rw [Cia.tickChecked_of_le (hcarryA.symm ▸ Nat.not_lt.mp hfitA)]
    rfl

end BusDevices

namespace MachineBus

open BusDevices

theorem deadlineChecked_eq {d : BusDevices δ ρ π} (h : d.Clocked) :
    deadlineChecked d = some (deadline d) := by
  unfold deadlineChecked
  rw [Chipset.clocksUntilLineBoundaryChecked_eq h.beamCarry]
  simp only [Option.bind_eq_bind, Option.bind_some]
  rw [Cia.clocksUntilEventChecked_eq h.ciaA.wf (by decide), Option.bind_some,
    Cia.clocksUntilEventChecked_eq h.ciaB.wf (by decide)]
  rfl

variable {b : MachineBus δ ρ π}

theorem recomputeNextEventChecked_eq (h : b.devices.Clocked) :
    b.recomputeNextEventChecked = some b.recomputeNextEvent := by
  unfold recomputeNextEventChecked
  rw [deadlineChecked_eq h]
  rfl

variable [BlockDevice δ] [PacketBackend ρ] [PciBackend π]

theorem flushChecked_of_fit (h : b.devices.Clocked) (hpending : b.pendingClocks < u32Limit)
    (hfit : b.devices.CarriesFit b.pendingClocks) : b.flushChecked = some b.flush := by
  unfold flushChecked flush
  split
  · rfl
  · rw [tickExactChecked_of_fit h hpending hfit]
    exact recomputeNextEventChecked_eq (b := { b with
      devices := b.devices.tickExact b.pendingClocks, pendingClocks := 0 })
      (clocked_tickExact h b.pendingClocks)

theorem flushChecked_of_not_fit (h : b.devices.Clocked) (hzero : b.pendingClocks ≠ 0)
    (hpending : b.pendingClocks < u32Limit) (hfit : ¬b.devices.CarriesFit b.pendingClocks) :
    b.flushChecked = none := by
  unfold flushChecked
  rw [if_neg hzero, tickExactChecked_of_not_fit h hpending hfit]
  rfl

/-- What has accumulated after a tick of `cpuClocks`. -/
def accumulated (b : MachineBus δ ρ π) (cpuClocks : Long) : Nat :=
  min (b.pendingClocks + cpuClocks.toNat) u32Max

/-- The clocks a tick leaves accumulated have room for the carry of either CIA. -/
def ClocksFit (b : MachineBus δ ρ π) (cpuClocks : Long) : Prop :=
  b.devices.CarriesFit (b.accumulated cpuClocks)

omit [BlockDevice δ] [PacketBackend ρ] [PciBackend π] in
theorem accumulated_lt (b : MachineBus δ ρ π) (cpuClocks : Long) :
    b.accumulated cpuClocks < u32Limit :=
  Nat.lt_of_le_of_lt (Nat.min_le_right _ _) (by decide)

omit [BlockDevice δ] [PacketBackend ρ] [PciBackend π] in
/-- Below the deadline there is room. -/
theorem carriesFit_of_lt {d : BusDevices δ ρ π} {n m : Nat} (h : d.QuietUntil n) (hm : m < n) :
    d.CarriesFit m := by
  have hle := quietUntil_le h
  have hA : d.ciaA.carry < 20 := h.clocked.ciaA.carry
  have hB : d.ciaB.carry < 20 := h.clocked.ciaB.carry
  have hlimit : u32Limit = 0x100000000 := rfl
  constructor <;> omega

theorem tickChecked_of_fit (h : b.Timely) {cpuClocks : Long} (hfit : b.ClocksFit cpuClocks) :
    b.tickChecked cpuClocks = some (b.tick cpuClocks) := by
  unfold tickChecked tick
  dsimp only
  split
  · exact flushChecked_of_fit (b := { b with pendingClocks := b.accumulated cpuClocks })
      h.quiet.clocked (b.accumulated_lt cpuClocks) hfit
  · rfl

/-- Where there is no room the tick reaches the deadline, and the flush overflows. -/
theorem tickChecked_of_not_fit (h : b.Timely) {cpuClocks : Long} (hfit : ¬b.ClocksFit cpuClocks) :
    b.tickChecked cpuClocks = none := by
  have hdue : b.nextEventClocks ≤ b.accumulated cpuClocks :=
    Nat.not_lt.mp fun hlt => hfit (carriesFit_of_lt h.quiet hlt)
  have hzero : b.accumulated cpuClocks ≠ 0 := by
    have hpending := h.pending
    omega
  unfold tickChecked
  dsimp only
  rw [if_pos (show b.nextEventClocks ≤ min (b.pendingClocks + cpuClocks.toNat) u32Max from hdue)]
  exact flushChecked_of_not_fit (b := { b with pendingClocks := b.accumulated cpuClocks })
    h.quiet.clocked hzero (b.accumulated_lt cpuClocks) hfit

/-- **The flush of an access never overflows.** -/
theorem flushChecked_eq (h : b.Timely) : b.flushChecked = some b.flush := by
  have hfit := carriesFit_of_lt h.quiet h.pending
  have hlimit : u32Limit = 0x100000000 := rfl
  have hle := quietUntil_le h.quiet
  have hpending := h.pending
  exact flushChecked_of_fit h.quiet.clocked (by omega) hfit

/-- The room an operation needs. -/
def OpFits (b : MachineBus δ ρ π) : BusOp δ ρ π → Prop
  | .guest (.tick cpuClocks) => b.ClocksFit cpuClocks
  | _ => True

theorem stepChecked_of_fit (h : b.Timely) (op : BusOp δ ρ π) (hfit : b.OpFits op) :
    b.stepChecked op = some (b.step op) := by
  have hother : (do
      let _ ← b.flushChecked
      let _ ← deadlineChecked (b.step op).devices
      some (b.step op)) = some (b.step op) := by
    rw [flushChecked_eq h, deadlineChecked_eq (timely_step h op).quiet.clocked]
    rfl
  cases op with
  | guest op =>
    cases op with
    | tick cpuClocks => exact tickChecked_of_fit h hfit
    | access a => exact hother
  | host op => exact hother
  | attach card => exact hother

theorem stepChecked_of_not_fit (h : b.Timely) (op : BusOp δ ρ π) (hfit : ¬b.OpFits op) :
    b.stepChecked op = none := by
  cases op with
  | guest op =>
    cases op with
    | tick cpuClocks => exact tickChecked_of_not_fit h hfit
    | access a => exact absurd trivial hfit
  | host op => exact absurd trivial hfit
  | attach card => exact absurd trivial hfit

/-- **Time overflows in the sum of a CIA's carry only.** From a reachable state a run goes through
without an overflow if and only if what every tick leaves accumulated has room for the carries; the
beam and the deadlines always have. -/
theorem time_fits_iff {b : MachineBus δ ρ π} (h : b.Reachable) :
    (∀ ops : List (BusOp δ ρ π),
      b.runChecked ops = some (run step b ops) ↔ Each step OpFits b ops) ∧
    deadlineChecked b.devices = some (deadline b.devices) ∧
    ∀ cpuClocks < u32Limit, b.devices.chipset.tickChecked cpuClocks cpuClocksPerColourClock =
      some (b.devices.chipset.tick cpuClocks cpuClocksPerColourClock) := by
  have hclocked := h.timely.quiet.clocked
  refine ⟨fun ops => ?_, deadlineChecked_eq hclocked, fun cpuClocks hclocks => ?_⟩
  · exact foldlM_eq_run_iff (fun _ op hb => timely_step hb op)
      (fun _ op hb => stepChecked_of_fit hb op) (fun _ op hb => stepChecked_of_not_fit hb op)
      h.timely
  · exact Chipset.tickChecked_eq hclocked.frame hclocked.beamClocks hclocked.beamCarry hclocks

/-- The most clocks a tick can be given, on a machine whose carries are clear. -/
theorem time_fits_iff_first :
    portsEnabled.runChecked [.guest (.tick 0xFFFFFFFF)] =
      some (run step portsEnabled [.guest (.tick 0xFFFFFFFF)]) := by
  refine ((time_fits_iff reachable_portsEnabled).1 _).mpr (each_cons.mpr ⟨?_, each_nil⟩)
  constructor <;> decide

/-- A machine one clock past its first raster line: the CIAs' carries are nine. -/
def carrying : MachineBus MemDisk Empty Empty :=
  run step (MachineBus.new (fun _ => 0) (ByteSlice.zero 0)) [.guest (.tick 909)]

/-- The most clocks a tick can be given overflow there. -/
theorem carry_sum_overflows :
    carrying.Reachable ∧ carrying.tickChecked 0xFFFFFFFF = none := by
  have hreachable : carrying.Reachable := (Transition.Reachable.start ⟨_, _, rfl⟩).run _
  refine ⟨hreachable, tickChecked_of_not_fit hreachable.timely ?_⟩
  rintro ⟨hfit, -⟩
  have hsum : ¬carrying.devices.ciaA.carry + carrying.accumulated 0xFFFFFFFF < u32Limit := by
    decide
  exact hsum hfit

end MachineBus

end M68kMachine
