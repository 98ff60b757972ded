import M68kMachine.Properties.CiaDeadline
import M68kMachine.Properties.LevelIrqs

/-!
# The deadline of the lazy clock

Between a flush and the deadline that `recomputeNextEvent` finds, ticking changes nothing the CPU
could be interrupted for: the beam stays on its line and the CIAs only count (`tickExact_of_quiet`).

* `Clocked` — the carries are below their dividers, a code on its way in is queued
* `QuietUntil` — nothing happens within a number of clocks
* `Micro`, `Timely` — the small steps a bus takes, and that the deadline it stored stays sound
-/

namespace M68kMachine

variable {δ ρ π : Type} {c : Cia} {n : Nat}

/-! ## The beam -/

namespace Chipset

variable {c : Chipset}

theorem lines_moveBeam {m : Nat} (hmax : c.totalColourClocks ≤ u64Max)
    (h : m < c.clocksUntilLineBoundary cpuClocksPerColourClock) :
    (c.moveBeam m cpuClocksPerColourClock).lines = c.lines ∧
      c.clocksUntilLineBoundary cpuClocksPerColourClock - m ≤
        (c.moveBeam m cpuClocksPerColourClock).clocksUntilLineBoundary
          cpuClocksPerColourClock := by
  have htotal : (c.moveBeam m cpuClocksPerColourClock).totalColourClocks =
      min (c.totalColourClocks + (c.carry + m) / 4) u64Max := rfl
  have hcarry : (c.moveBeam m cpuClocksPerColourClock).carry = (c.carry + m) % 4 := rfl
  have hbound : m < (227 - c.totalColourClocks % 227) * 4 - c.carry := h
  generalize c.moveBeam m cpuClocksPerColourClock = after at htotal hcarry
  constructor
  · show after.totalColourClocks / 227 = c.totalColourClocks / 227
    omega
  · show (227 - c.totalColourClocks % 227) * 4 - c.carry - m ≤
      (227 - after.totalColourClocks % 227) * 4 - after.carry
    omega

/-- On its way to the line boundary the beam starts no line and wraps no frame. -/
theorem tick_of_line {m : Nat} (hmax : c.totalColourClocks ≤ u64Max)
    (h : m < c.clocksUntilLineBoundary cpuClocksPerColourClock) :
    c.tick m cpuClocksPerColourClock =
      (⟨0, 0⟩, c.moveBeam m cpuClocksPerColourClock) := by
  have hlines := (lines_moveBeam hmax h).1
  have hboundaries : c.boundaries m cpuClocksPerColourClock = 0 := by
    unfold boundaries
    rw [hlines, Nat.sub_self]
  rw [tick_eq, show max cpuClocksPerColourClock 1 = cpuClocksPerColourClock from rfl, hboundaries,
    hlines, Nat.sub_self]
  rfl

theorem or_bit_of_set {w : Word} {i : Nat} (h : w.getLsbD i = true) :
    w ||| ((1 : Word) <<< i) = w := by
  refine BitVec.eq_of_getLsbD_eq fun j hj => ?_
  rw [BitVec.getLsbD_or]
  rcases Nat.decEq j i with hne | rfl
  · have hoff : ((1 : Word) <<< i).getLsbD j = false := by
      rw [BitVec.getLsbD_shiftLeft]
      by_cases hlt : j < i
      · simp [hlt]
      · have hone : (1 : Word).getLsbD (j - i) = false := by
          rw [show (1 : Word) = 1#16 from rfl, BitVec.getLsbD_one]
          simp only [Bool.and_eq_false_iff, decide_eq_false_iff_not]
          omega
        rw [hone, Bool.and_false]
    rw [hoff, Bool.or_false]
  · rw [h, Bool.true_or]

theorem raiseInt_of_set {i : Nat} (h : c.intreq.getLsbD i = true) : c.raiseInt i = c := by
  show { c with intreq := c.intreq ||| ((1 : Word) <<< i) } = c
  rw [or_bit_of_set h]

end Chipset

namespace BusDevices

theorem raisePorts_of_set {d : BusDevices δ ρ π} {irq : Bool}
    (h : irq = true → d.chipset.intreq.getLsbD Chipset.Intbit.ports = true) :
    d.raisePorts irq = d := by
  unfold raisePorts raiseInt
  split
  · rename_i hirq
    rw [Chipset.raiseInt_of_set (h hirq)]
  · rfl

theorem raiseExter_of_set {d : BusDevices δ ρ π} {irq : Bool}
    (h : irq = true → d.chipset.intreq.getLsbD Chipset.Intbit.exter = true) :
    d.raiseExter irq = d := by
  unfold raiseExter raiseInt
  split
  · rename_i hirq
    rw [Chipset.raiseInt_of_set (h hirq)]
  · rfl

end BusDevices

/-! ## Quiet until a deadline -/

/-- A chip whose carry is below the divider it is ticked with. -/
structure Cia.Timed (c : Cia) : Prop where
  wf : c.Wf
  carry : c.carry < cpuClocksPerEclock

theorem Cia.Timed.of_beside {c c' : Cia} (h : c.Timed) (hb : Cia.Beside c c') : c'.Timed := by
  refine ⟨h.wf.of_beside hb, ?_⟩
  rw [hb.carry]
  exact h.carry

theorem Cia.Timed.tick (h : c.Timed) (m : Nat) : (c.tick m cpuClocksPerEclock).2.Timed := by
  refine ⟨Cia.wf_tick h.wf m _, ?_⟩
  rw [Cia.tick_eq]
  exact Nat.mod_lt _ (by decide)

theorem Cia.Timed.todTicks (h : c.Timed) (n : Nat) : (Cia.todTick^[n] c).Timed := by
  induction n generalizing c with
  | zero => exact h
  | succ n ih => exact ih (h.of_beside (Cia.beside_todTick c))

theorem Cia.QuietFor.mono {p n' : Nat} (h : c.QuietFor p n) (hn : n' ≤ n) :
    c.QuietFor p n' := fun e he => Nat.le_trans hn (h e he)

namespace BusDevices

/-- The clocks of the machine in order. -/
structure Clocked (d : BusDevices δ ρ π) : Prop where
  beamCarry : d.chipset.carry < cpuClocksPerColourClock
  beamClocks : d.chipset.totalColourClocks ≤ Chipset.u64Max
  ciaA : d.ciaA.Timed
  ciaB : d.ciaB.Timed
  frame : 0 < d.chipset.linesPerFrame

/-- Nothing happens on its own within `n` clocks. -/
structure QuietUntil (d : BusDevices δ ρ π) (n : Nat) : Prop where
  clocked : d.Clocked
  levels : d.LevelIrqs
  line : n ≤ d.chipset.clocksUntilLineBoundary cpuClocksPerColourClock
  ciaA : d.ciaA.QuietFor cpuClocksPerEclock n
  ciaB : d.ciaB.QuietFor cpuClocksPerEclock n

theorem tickGraphics_zero {d : BusDevices δ ρ π}
    (h : d.graphicsIrq = true → d.chipset.intreq.getLsbD Chipset.Intbit.ports = true) :
    d.tickGraphics ⟨0, 0⟩ = d := by
  unfold tickGraphics
  split
  · rfl
  · rename_i card hcard
    unfold graphicsIrq at h
    rw [hcard] at h
    have hsame : ({ d with graphics := some card } : BusDevices δ ρ π) = d := by
      rw [← hcard]
    show ({ d with graphics := some card } : BusDevices δ ρ π).raisePorts card.irqPending = d
    rw [hsame]
    exact raisePorts_of_set h

section Engines

variable [BlockDevice δ] [PacketBackend ρ] [PciBackend π] {d : BusDevices δ ρ π}

/-- **A tick that ends before the deadline** only counts. -/
theorem tickExact_of_quiet {n m : Nat} (h : d.QuietUntil n) (hm : m < n) :
    d.tickExact m =
      { d with
        chipset := d.chipset.moveBeam m cpuClocksPerColourClock
        ciaA := (d.ciaA.tick m cpuClocksPerEclock).2
        ciaB := (d.ciaB.tick m cpuClocksPerEclock).2 } := by
  have hbeam : d.tickBeam m = (⟨0, 0⟩,
      { d with chipset := d.chipset.moveBeam m cpuClocksPerColourClock }) := by
    unfold tickBeam
    rw [Chipset.tick_of_line h.clocked.beamClocks (Nat.lt_of_lt_of_le hm h.line)]
  have hA := (Cia.tick_of_quietFor h.ciaA hm).1.irqPending
  have hB := (Cia.tick_of_quietFor h.ciaB hm).1.irqPending
  have hbefore : d.beforeCias m =
      { d with chipset := d.chipset.moveBeam m cpuClocksPerColourClock } := by
    unfold beforeCias
    rw [hbeam]
    exact tickGraphics_zero (d := { d with
      chipset := d.chipset.moveBeam m cpuClocksPerColourClock }) h.levels.graphics
  have hciaA : ∀ d' : BusDevices δ ρ π, (d'.tickCiaA m) =
      ({ d' with ciaA := (d'.ciaA.tick m cpuClocksPerEclock).2 }).raisePorts
        (d'.ciaA.tick m cpuClocksPerEclock).2.irqPending := fun d' => rfl
  have hciaB : ∀ d' : BusDevices δ ρ π, (d'.tickCiaB m) =
      ({ d' with ciaB := (d'.ciaB.tick m cpuClocksPerEclock).2 }).raiseExter
        (d'.ciaB.tick m cpuClocksPerEclock).2.irqPending := fun d' => rfl
  -- A CIA that pulls after the tick pulled before it, and its latch is set.
  rw [tickExact_eq, hbefore, hciaA, raisePorts_of_set, hciaB, raiseExter_of_set]
  · intro hirq
    exact h.levels.ciaB (hB ▸ hirq)
  · intro hirq
    exact h.levels.ciaA (hA ▸ hirq)

theorem quietUntil_tickExact {n m : Nat} (h : d.QuietUntil n) (hm : m < n) :
    (d.tickExact m).QuietUntil (n - m) ∧
      (d.tickExact m).chipset.pendingLevel = d.chipset.pendingLevel := by
  have hlevels := levelIrqs_tickExact d m
  rw [tickExact_of_quiet h hm] at hlevels ⊢
  have hline := (Chipset.lines_moveBeam h.clocked.beamClocks (Nat.lt_of_lt_of_le hm h.line)).2
  have hline' := Nat.sub_le_sub_right h.line m
  refine ⟨⟨⟨?_, ?_, ?_, ?_, h.clocked.frame⟩, hlevels, Nat.le_trans hline' hline, ?_, ?_⟩, rfl⟩
  · exact Nat.mod_lt _ (by decide)
  · exact Nat.min_le_right _ _
  · exact h.clocked.ciaA.tick m
  · exact h.clocked.ciaB.tick m
  · exact (Cia.tick_of_quietFor h.ciaA hm).2
  · exact (Cia.tick_of_quietFor h.ciaB hm).2

/-- Exact ticks, one after the other. -/
def ticksExact (d : BusDevices δ ρ π) (clocks : List Nat) : BusDevices δ ρ π :=
  Transition.run tickExact d clocks

/-- **Until the deadline the level stays**, however the clocks are portioned. -/
theorem pendingLevel_ticksExact (clocks : List Nat) : ∀ {d : BusDevices δ ρ π} {n : Nat},
    d.QuietUntil n → clocks.sum < n →
    (d.ticksExact clocks).chipset.pendingLevel = d.chipset.pendingLevel := by
  induction clocks with
  | nil =>
    intro d n _ _
    rfl
  | cons m clocks ih =>
    intro d n h hsum
    rw [List.sum_cons] at hsum
    obtain ⟨hquiet, hlevel⟩ := quietUntil_tickExact h (by omega : m < n)
    exact (ih hquiet (by omega)).trans hlevel

/-! ## Any tick -/

/-- The CIAs and the beam as they were. -/
structure SameClocks (d d' : BusDevices δ ρ π) : Prop where
  ciaA : d'.ciaA = d.ciaA
  ciaB : d'.ciaB = d.ciaB
  beam : d.chipset.SameBeam d'.chipset

omit [BlockDevice δ] [PacketBackend ρ] [PciBackend π] in
theorem Raises.sameClocks {d' : BusDevices δ ρ π} (h : Raises d d') : SameClocks d d' :=
  ⟨h.ciaA, h.ciaB, h.beam⟩

omit [BlockDevice δ] [PacketBackend ρ] [PciBackend π] in
theorem Clocked.of_same {d' : BusDevices δ ρ π} (h : d.Clocked) (hs : SameClocks d d') :
    d'.Clocked := by
  refine ⟨?_, ?_, ?_, ?_, hs.beam.frame h.frame⟩
  · rw [hs.beam.carry]
    exact h.beamCarry
  · rw [hs.beam.totalColourClocks]
    exact h.beamClocks
  · rw [hs.ciaA]
    exact h.ciaA
  · rw [hs.ciaB]
    exact h.ciaB

omit [BlockDevice δ] [PacketBackend ρ] [PciBackend π] in
theorem sameClocks_tickGraphics (d : BusDevices δ ρ π) (beam : Chipset.BeamAdvance) :
    SameClocks d (d.tickGraphics beam) := by
  unfold tickGraphics
  split
  · exact ⟨rfl, rfl, rfl, rfl, id⟩
  · simp only
    generalize Graffity.signalVerticalRetrace^[beam.framesWrapped] _ = signalled
    have hraise := (Raises.refl { d with graphics := some signalled }).raisePorts
      signalled.irqPending
    exact ⟨hraise.ciaA, hraise.ciaB, hraise.beam⟩

theorem clocked_tickExact (h : d.Clocked) (m : Nat) : (d.tickExact m).Clocked := by
  have hbeam : ((d.tickBeam m).2.tickTod (d.tickBeam m).1).Clocked := by
    have hsame : (((d.chipset.moveBeam m (max cpuClocksPerColourClock 1)).wrapped
        (d.chipset.boundaries m (max cpuClocksPerColourClock 1)))).carry =
          (d.chipset.carry + m) % cpuClocksPerColourClock ∧
        (((d.chipset.moveBeam m (max cpuClocksPerColourClock 1)).wrapped
          (d.chipset.boundaries m (max cpuClocksPerColourClock 1)))).totalColourClocks ≤
            Chipset.u64Max ∧
        (((d.chipset.moveBeam m (max cpuClocksPerColourClock 1)).wrapped
          (d.chipset.boundaries m (max cpuClocksPerColourClock 1)))).linesPerFrame =
            d.chipset.linesPerFrame := by
      unfold Chipset.wrapped
      split <;> exact ⟨rfl, Nat.min_le_right _ _, rfl⟩
    refine ⟨?_, hsame.2.1, h.ciaA.todTicks _, h.ciaB.todTicks _, hsame.2.2.symm ▸ h.frame⟩
    show (((d.chipset.moveBeam m (max cpuClocksPerColourClock 1)).wrapped
      (d.chipset.boundaries m (max cpuClocksPerColourClock 1)))).carry < _
    rw [hsame.1]
    exact Nat.mod_lt _ (by decide)
  have hbefore : (d.beforeCias m).Clocked := by
    have hgraphics := hbeam.of_same (sameClocks_tickGraphics _ (d.tickBeam m).1)
    unfold beforeCias
    simp only
    split
    · exact hgraphics.of_same (raises_tickEngines _).sameClocks
    · exact hgraphics
  rw [tickExact_eq]
  generalize d.beforeCias m = before at hbefore
  have hA : (before.tickCiaA m).Clocked := by
    have hticked : ({ before with ciaA := (before.ciaA.tick m cpuClocksPerEclock).2 } :
        BusDevices δ ρ π).Clocked :=
      ⟨hbefore.beamCarry, hbefore.beamClocks, hbefore.ciaA.tick m, hbefore.ciaB, hbefore.frame⟩
    exact hticked.of_same ((Raises.refl _).raisePorts _).sameClocks
  generalize before.tickCiaA m = ticked at hA
  have hticked : ({ ticked with ciaB := (ticked.ciaB.tick m cpuClocksPerEclock).2 } :
      BusDevices δ ρ π).Clocked :=
    ⟨hA.beamCarry, hA.beamClocks, hA.ciaA, hA.ciaB.tick m, hA.frame⟩
  exact hticked.of_same ((Raises.refl _).raiseExter _).sameClocks

end Engines

end BusDevices

/-! ## The deadline -/

/-- A chip's deadline is ahead of it, and nothing comes before. -/
theorem Cia.Timed.deadline (h : c.Timed) (hn : c.clocksUntilEvent cpuClocksPerEclock = some n) :
    0 < n ∧ c.QuietFor cpuClocksPerEclock n := by
  refine ⟨?_, Cia.quietFor_of_deadline h.wf (by decide) hn⟩
  obtain ⟨e, hmem, -, rfl⟩ := Cia.deadline_event h.wf (by decide) hn
  have hpos := (Cia.events_bounds h.wf hmem).1
  have hcarry := h.carry
  have hdivider : cpuClocksPerEclock = 20 := rfl
  rw [hdivider] at hcarry ⊢
  omega

/-- The nearer of a deadline and a chip's. -/
theorem Cia.Timed.elim {c : Cia} (h : c.Timed) {line : Nat} (hline : 0 < line) :
    let nearer := (c.clocksUntilEvent cpuClocksPerEclock).elim line (min line)
    0 < nearer ∧ nearer ≤ line ∧ c.QuietFor cpuClocksPerEclock nearer := by
  cases hn : c.clocksUntilEvent cpuClocksPerEclock with
  | none => exact ⟨hline, Nat.le_refl _, Cia.quietFor_of_no_deadline hn _⟩
  | some n =>
    obtain ⟨hpos, hquiet⟩ := h.deadline hn
    exact ⟨Nat.lt_min.mpr ⟨hline, hpos⟩, Nat.min_le_left _ _, hquiet.mono (Nat.min_le_right _ _)⟩

theorem Chipset.line_bounds {c : Chipset} (h : c.carry < cpuClocksPerColourClock) :
    0 < c.clocksUntilLineBoundary cpuClocksPerColourClock ∧
      c.clocksUntilLineBoundary cpuClocksPerColourClock ≤ 908 := by
  have hcarry : c.carry < 4 := h
  show 0 < (227 - c.totalColourClocks % 227) * 4 - c.carry ∧
    (227 - c.totalColourClocks % 227) * 4 - c.carry ≤ 908
  omega

namespace BusDevices

/-- **The deadline is sound.** -/
theorem quietUntil_deadline {d : BusDevices δ ρ π} (h : d.Clocked) (hl : d.LevelIrqs) :
    d.QuietUntil (MachineBus.deadline d) ∧ 0 < MachineBus.deadline d := by
  obtain ⟨hpos, -⟩ := Chipset.line_bounds h.beamCarry
  obtain ⟨hposA, hleA, hquietA⟩ := h.ciaA.elim hpos
  obtain ⟨hposB, hleB, hquietB⟩ := h.ciaB.elim hposA
  have hdeadline : MachineBus.deadline d =
      (d.ciaB.clocksUntilEvent cpuClocksPerEclock).elim
        ((d.ciaA.clocksUntilEvent cpuClocksPerEclock).elim
          (d.chipset.clocksUntilLineBoundary cpuClocksPerColourClock)
          (min (d.chipset.clocksUntilLineBoundary cpuClocksPerColourClock)))
        (min ((d.ciaA.clocksUntilEvent cpuClocksPerEclock).elim
          (d.chipset.clocksUntilLineBoundary cpuClocksPerColourClock)
          (min (d.chipset.clocksUntilLineBoundary cpuClocksPerColourClock)))) := by
    -- The deadline is never zero, so that raising it to one changes nothing.
    exact Nat.max_eq_left hposB
  rw [hdeadline]
  exact ⟨⟨h, hl, Nat.le_trans hleB hleA, hquietA.mono hleB, hquietB⟩, hposB⟩

end BusDevices

/-! ## Keyboard and reads -/

/-- A code queued or fetched lets at most a whole handshake begin. -/
theorem Cia.quietFor_of_events {c' : Cia} (hc : c.Timed) (hcarry : c'.carry = c.carry)
    (h : ∀ e, some e ∈ c'.events → some e ∈ c.events ∨ e = keyboardHandshakeTicks)
    (hquiet : c.QuietFor cpuClocksPerEclock n) (hn : n ≤ 908) :
    c'.QuietFor cpuClocksPerEclock n := by
  intro e he
  rw [hcarry]
  rcases h e he with hold | rfl
  · exact hquiet e hold
  · have hlt : c.carry < 20 := hc.carry
    show n ≤ 709 * 20 - c.carry
    omega

/-- What is under way on a chip whose keyboard alone changed. -/
theorem Cia.events_of_keyboard {c' : Cia} {e : Nat} (he : some e ∈ c'.events)
    (hA : c'.timerAEvent = c.timerAEvent) (hB : c'.timerBEvent = c.timerBEvent) (hid : c'.id = c.id)
    (hcra : c'.cra = c.cra) (hdelay : c'.kbdDelay = c.kbdDelay) :
    some e ∈ c.events ∨ e = keyboardHandshakeTicks := by
  simp only [events, hA, hB, List.mem_cons, List.not_mem_nil, or_false] at he ⊢
  rcases he with he | he | he
  · exact .inl (.inl he)
  · exact .inl (.inr (.inl he))
  · unfold keyboardEvent at he ⊢
    rw [hid, hcra, hdelay] at he
    split at he
    · rename_i hmode
      rw [if_pos hmode]
      split at he
      · rename_i hpos
        rw [if_pos hpos]
        exact .inl (.inr (.inr he))
      · split at he
        · simp only [Option.some.injEq] at he
          exact .inr he
        · cases he
    · cases he

theorem Cia.events_read {reg e : Nat} (he : some e ∈ (c.read reg).2.events) :
    some e ∈ c.events ∨ e = keyboardHandshakeTicks := by
  have htod (reg : Nat) (he : some e ∈ (c.readTod reg).2.events) : some e ∈ c.events := by
    unfold readTod at he
    simp only at he
    split_ifs at he <;> exact he
  unfold read at he
  split at he
  -- reading `SDR` lets the next keycode in
  case h_9 => exact events_of_keyboard he rfl rfl rfl rfl rfl
  all_goals first | exact .inl he | exact .inl (htod _ he)

namespace MachineBus

open BusDevices

/-! ## The steps of a bus -/

/-- A register of a CIA was written. -/
structure CiaWritten (d d' : BusDevices δ ρ π) : Prop where
  ciaA : Cia.Beside d.ciaA d'.ciaA
  ciaB : Cia.Beside d.ciaB d'.ciaB
  chipset : d'.chipset = d.chipset

/-- The stored deadline is sound, and not reached. -/
structure Timely (b : MachineBus δ ρ π) : Prop where
  quiet : b.devices.QuietUntil b.nextEventClocks
  pending : b.pendingClocks < b.nextEventClocks

variable [BlockDevice δ] [PacketBackend ρ] [PciBackend π] {b : MachineBus δ ρ π}

/-- What operations of a bus are made of. -/
inductive Micro (b : MachineBus δ ρ π) : MachineBus δ ρ π → Prop
  | count {n : Nat} (h : n < b.nextEventClocks) : Micro b { b with pendingClocks := n }
  | flush (n : Nat) : Micro b { b with pendingClocks := n }.flush
  | aside {d : BusDevices δ ρ π} (h : Aside b.devices d) : Micro b { b with devices := d }
  | readCiaA (reg : Nat) : Micro b (b.mapDevices fun d => { d with ciaA := (d.ciaA.read reg).2 })
  | readCiaB (reg : Nat) : Micro b (b.mapDevices fun d => { d with ciaB := (d.ciaB.read reg).2 })
  | writeCia {d : BusDevices δ ρ π} (h : CiaWritten b.devices d) (hflushed : b.pendingClocks = 0) :
    Micro b ({ b with devices := d }.recomputeNextEvent.mapDevices reassertLevelIrqs)
  | queueKeycode (raw : Byte) :
    Micro b (b.mapDevices fun d => { d with ciaA := d.ciaA.queueKeycode raw })
  | request (r : Bool) : Micro b { b with boundaryRequest := r }

omit [BlockDevice δ] [PacketBackend ρ] [PciBackend π] in
/-- The deadline after it was computed. -/
theorem timely_recompute (h : b.devices.Clocked) (hl : b.devices.LevelIrqs)
    (hflushed : b.pendingClocks = 0) : b.recomputeNextEvent.Timely := by
  obtain ⟨hquiet, hpos⟩ := quietUntil_deadline h hl
  refine ⟨hquiet, ?_⟩
  show b.pendingClocks < deadline b.devices
  omega

theorem timely_flush (h : b.Timely) (n : Nat) : { b with pendingClocks := n }.flush.Timely := by
  unfold flush
  split
  · rename_i hzero
    have hzero' : n = 0 := hzero
    refine ⟨h.quiet, ?_⟩
    show n < b.nextEventClocks
    have hpending := h.pending
    omega
  · exact timely_recompute (clocked_tickExact h.quiet.clocked n)
      (levelIrqs_tickExact b.devices n) rfl

omit [BlockDevice δ] [PacketBackend ρ] [PciBackend π] in
theorem line_of_sameBeam {c c' : Chipset} (h : c.SameBeam c') :
    c'.clocksUntilLineBoundary cpuClocksPerColourClock =
      c.clocksUntilLineBoundary cpuClocksPerColourClock := by
  unfold Chipset.clocksUntilLineBoundary Chipset.hpos
  rw [h.carry, h.totalColourClocks]

omit [BlockDevice δ] [PacketBackend ρ] [PciBackend π] in
theorem quietUntil_aside {d d' : BusDevices δ ρ π} {n : Nat} (h : d.QuietUntil n)
    (ha : Aside d d') : d'.QuietUntil n := by
  obtain ⟨pins, hA⟩ := ha.ciaA
  refine ⟨⟨?_, ?_, ?_, ?_, ha.beam.frame h.clocked.frame⟩, ha.levels h.levels, ?_, ?_, ?_⟩
  · rw [ha.beam.carry]
    exact h.clocked.beamCarry
  · rw [ha.beam.totalColourClocks]
    exact h.clocked.beamClocks
  · rw [hA]
    exact h.clocked.ciaA.of_beside ⟨rfl, rfl, rfl⟩
  · rw [ha.ciaB]
    exact h.clocked.ciaB
  · rw [line_of_sameBeam ha.beam]
    exact h.line
  · rw [hA]
    exact h.ciaA
  · rw [ha.ciaB]
    exact h.ciaB

omit [BlockDevice δ] [PacketBackend ρ] [PciBackend π] in
theorem quietUntil_le {d : BusDevices δ ρ π} {n : Nat} (h : d.QuietUntil n) : n ≤ 908 :=
  Nat.le_trans h.line (Chipset.line_bounds h.clocked.beamCarry).2

/-- **Every step keeps the deadline sound.** -/
theorem timely_micro {b' : MachineBus δ ρ π} (h : b.Timely) (hm : Micro b b') : b'.Timely := by
  have hle := quietUntil_le h.quiet
  have hpending := h.pending
  obtain ⟨⟨hcarry, hclocks, hA, hB, hframe⟩, hlevels, hline, hquietA, hquietB⟩ := h.quiet
  cases hm with
  | count hn => exact ⟨h.quiet, hn⟩
  | flush n => exact timely_flush h n
  | aside ha =>
    exact ⟨quietUntil_aside h.quiet ha, hpending⟩
  | readCiaA reg =>
    have hread := Cia.beside_read b.devices.ciaA reg
    refine ⟨⟨⟨hcarry, hclocks, hA.of_beside hread, hB, hframe⟩,
      ⟨?_, hlevels.ciaB, hlevels.graphics⟩, hline, ?_, hquietB⟩, hpending⟩
    · exact fun hirq => hlevels.ciaA (Cia.irqPending_of_read hirq)
    · exact Cia.quietFor_of_events hA hread.carry (fun e he => Cia.events_read he) hquietA hle
  | readCiaB reg =>
    have hread := Cia.beside_read b.devices.ciaB reg
    refine ⟨⟨⟨hcarry, hclocks, hA, hB.of_beside hread, hframe⟩,
      ⟨hlevels.ciaA, ?_, hlevels.graphics⟩, hline, hquietA, ?_⟩, hpending⟩
    · exact fun hirq => hlevels.ciaB (Cia.irqPending_of_read hirq)
    · exact Cia.quietFor_of_events hB hread.carry (fun e he => Cia.events_read he) hquietB hle
  | @writeCia d hw hflushed =>
    have hclocked : d.Clocked := by
      refine ⟨?_, ?_, hA.of_beside hw.ciaA, hB.of_beside hw.ciaB, ?_⟩
      · rw [hw.chipset]
        exact hcarry
      · rw [hw.chipset]
        exact hclocks
      · rw [hw.chipset]
        exact hframe
    -- The deadline does not depend on the latches that are set after it was computed.
    have hraise := raises_reassert d
    have hdeadline : deadline d.reassertLevelIrqs = deadline d := by
      unfold deadline
      rw [hraise.ciaA, hraise.ciaB, line_of_sameBeam hraise.beam]
    obtain ⟨hquiet, hpos⟩ :=
      quietUntil_deadline (hclocked.of_same hraise.sameClocks) (levelIrqs_reassert d)
    rw [hdeadline] at hquiet hpos
    refine ⟨hquiet, ?_⟩
    show b.pendingClocks < deadline d
    omega
  | queueKeycode raw =>
    refine ⟨⟨⟨hcarry, hclocks, ?_, hB, hframe⟩, ⟨hlevels.ciaA, hlevels.ciaB, hlevels.graphics⟩,
      hline, ?_, hquietB⟩, hpending⟩
    · exact ⟨Cia.wf_queueKeycode hA.wf raw, hA.carry⟩
    · exact Cia.quietFor_of_events hA rfl
        (fun e he => Cia.events_of_keyboard he rfl rfl rfl rfl rfl) hquietA hle
  | request r => exact ⟨h.quiet, h.pending⟩

end MachineBus

end M68kMachine
