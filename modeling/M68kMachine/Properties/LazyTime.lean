import M68kMachine.Properties.BoundaryRequests

/-!
# Lazy device time is eager device time

Beside a bus whose every tick is applied at once, the lazy one lags: its devices are the other's
some clocks earlier, and nothing happens in these clocks. No operation finds out.

* `delayed` — the devices some clocks further on, nothing having happened in them
* `Lags` — the two buses, `lags_access` its step
* `lazy_time_is_eager_time` — the two runs
-/

namespace M68kMachine

namespace Cia

/-! ## The time-of-day clock beside the timers -/

theorem todTick_counted (c : Cia) : c.counted.todTick = c.todTick.counted := by
  have halarm (tod : Long) (equal raised : Bool) :
      ({ (if raised then ({ c.counted with tod := tod } : Cia).raise Icr.alrm
          else { c.counted with tod := tod }) with todMatching := equal } : Cia) =
        ({ (if raised then ({ c with tod := tod } : Cia).raise Icr.alrm
          else { c with tod := tod }) with todMatching := equal } : Cia).counted := by
    cases raised <;> rfl
  unfold todTick checkTodAlarm
  rw [show c.counted.todStopped = c.todStopped from rfl]
  split
  · rfl
  · exact halarm _ _ _

theorem todTick_withCarry (c : Cia) (r : Nat) :
    (c.withCarry r).todTick = c.todTick.withCarry r := by
  have halarm (tod : Long) (equal raised : Bool) :
      ({ (if raised then ({ c.withCarry r with tod := tod } : Cia).raise Icr.alrm
          else { c.withCarry r with tod := tod }) with todMatching := equal } : Cia) =
        ({ (if raised then ({ c with tod := tod } : Cia).raise Icr.alrm
          else { c with tod := tod }) with todMatching := equal } : Cia).withCarry r := by
    cases raised <;> rfl
  unfold todTick checkTodAlarm
  rw [show (c.withCarry r).todStopped = c.todStopped from rfl]
  split
  · rfl
  · exact halarm _ _ _

theorem events_todTick (c : Cia) : c.todTick.events = c.events := by
  unfold todTick checkTodAlarm
  simp only
  split_ifs <;> rfl

variable {c : Cia}

/-- Up to the next event an E-clock only counts, over and over. -/
theorem iterate_counted {j : Nat} (h : c.Clear j) : tickOneEclock^[j] c = counted^[j] c := by
  induction j generalizing c with
  | zero => rfl
  | succ j ih =>
    rw [Function.iterate_succ_apply, Function.iterate_succ_apply,
      tickOneEclock_of_clear (h.mono (by omega)), ih (clear_counted h)]

variable {p n m : Nat}

theorem clear_of_quietFor (h : c.QuietFor p n) (hm : m < n) :
    c.Clear ((c.carry + m) % 0x100000000 / p) := by
  have htotal := Nat.mod_le (c.carry + m) 0x100000000
  have hsplit := Nat.div_mul_le_self ((c.carry + m) % 0x100000000) p
  intro e he
  have hfar := h e he
  exact Nat.lt_of_mul_lt_mul_right (a := p) (by omega)

/-- The order of a quiet tick and the time of day does not matter. -/
theorem todTick_tick (h : c.QuietFor p n) (hm : m < n) :
    (c.tick m p).2.todTick = (c.todTick.tick m p).2 := by
  have hclear := clear_of_quietFor h hm
  have hcarry : c.todTick.carry = c.carry := (beside_todTick c).carry
  have hclear' : c.todTick.Clear ((c.carry + m) % 0x100000000 / p) := by
    unfold Clear
    rw [events_todTick]
    exact hclear
  rw [tick_eq, tick_eq]
  simp only [hcarry]
  rw [iterate_counted hclear, iterate_counted hclear', todTick_withCarry]
  congr 1
  generalize (c.carry + m) % 0x100000000 / p = eclocks
  clear hclear hclear' hcarry h
  induction eclocks generalizing c with
  | zero => rfl
  | succ j ih =>
    rw [Function.iterate_succ_apply, Function.iterate_succ_apply, ih, todTick_counted]

theorem QuietFor.todTick (h : c.QuietFor p n) : c.todTick.QuietFor p n := by
  intro e he
  rw [events_todTick] at he
  rw [(beside_todTick c).carry]
  exact h e he

theorem todTicks_tick (h : c.QuietFor p n) (hm : m < n) (k : Nat) :
    Cia.todTick^[k] (c.tick m p).2 = ((Cia.todTick^[k] c).tick m p).2 := by
  induction k generalizing c with
  | zero => rfl
  | succ k ih =>
    rw [Function.iterate_succ_apply, Function.iterate_succ_apply, todTick_tick h hm, ih h.todTick]

theorem Timed.tick_zero (h : c.Timed) : (c.tick 0 cpuClocksPerEclock).2 = c := by
  have hcarry : c.carry < 20 := h.carry
  have htotal : (c.carry + 0) % 0x100000000 = c.carry := by omega
  have hnone : c.carry / cpuClocksPerEclock = 0 := Nat.div_eq_of_lt hcarry
  have hrest : c.carry % cpuClocksPerEclock = c.carry := Nat.mod_eq_of_lt hcarry
  rw [tick_eq]
  simp only [htotal, hnone, hrest]
  rfl

end Cia

namespace BusDevices

variable {δ ρ π : Type} {d : BusDevices δ ρ π}

/-! ## Devices some clocks further on -/

/-- The beam and the timers `m` clocks further on. -/
def delayed (d : BusDevices δ ρ π) (m : Nat) : BusDevices δ ρ π :=
  { d with
    chipset := d.chipset.moveBeam m cpuClocksPerColourClock
    ciaA := (d.ciaA.tick m cpuClocksPerEclock).2
    ciaB := (d.ciaB.tick m cpuClocksPerEclock).2 }

theorem delayed_zero (h : d.Clocked) : d.delayed 0 = d := by
  have hcarry : d.chipset.carry < 4 := h.beamCarry
  have hbeam : d.chipset.moveBeam 0 cpuClocksPerColourClock = d.chipset := by
    have hnone : (d.chipset.carry + 0) / cpuClocksPerColourClock = 0 := Nat.div_eq_of_lt hcarry
    have hrest : (d.chipset.carry + 0) % cpuClocksPerColourClock = d.chipset.carry :=
      Nat.mod_eq_of_lt hcarry
    unfold Chipset.moveBeam
    rw [hnone, hrest, Nat.add_zero, Nat.min_eq_left h.beamClocks]
  unfold delayed
  rw [hbeam, h.ciaA.tick_zero, h.ciaB.tick_zero]

/-- The CIAs taken for others. -/
def withCias (d : BusDevices δ ρ π) (a b : Cia) : BusDevices δ ρ π :=
  { d with ciaA := a, ciaB := b }

theorem withCias_raisePorts (d : BusDevices δ ρ π) (a b : Cia) (irq : Bool) :
    (d.withCias a b).raisePorts irq = (d.raisePorts irq).withCias a b := by
  unfold raisePorts
  split <;> rfl

theorem withCias_tickGraphics (d : BusDevices δ ρ π) (a b : Cia) (beam : Chipset.BeamAdvance) :
    (d.withCias a b).tickGraphics beam = (d.tickGraphics beam).withCias a b := by
  unfold tickGraphics
  rw [show (d.withCias a b).graphics = d.graphics from rfl]
  split
  · rfl
  · rename_i card _
    exact withCias_raisePorts
      { d with graphics := some (Graffity.signalVerticalRetrace^[beam.framesWrapped] card) } a b _

section Engines

variable [BlockDevice δ] [PacketBackend ρ] [PciBackend π]

theorem withCias_tickEngines (d : BusDevices δ ρ π) (a b : Cia) :
    (d.withCias a b).tickEngines = d.tickEngines.withCias a b := by
  have hmirage (d : BusDevices δ ρ π) :
      (d.withCias a b).tickMirage = d.tickMirage.withCias a b := by
    unfold tickMirage
    rw [show (d.withCias a b).mirage = d.mirage from rfl]
    split
    · rfl
    · rename_i m _
      exact withCias_raisePorts { d with mirage := some m.tick } a b _
  have hhostblk (d : BusDevices δ ρ π) :
      (d.withCias a b).tickHostblk = d.tickHostblk.withCias a b := by
    unfold tickHostblk
    rw [show (d.withCias a b).hostblk = d.hostblk from rfl]
    split
    · rfl
    · rename_i m _
      exact withCias_raisePorts
        { d with hostblk := some (m.tick d.ram).1, ram := (m.tick d.ram).2 } a b _
  have hpktport (d : BusDevices δ ρ π) :
      (d.withCias a b).tickPktport = d.tickPktport.withCias a b := by
    unfold tickPktport
    rw [show (d.withCias a b).pktport = d.pktport from rfl]
    split
    · rfl
    · rename_i m _
      exact withCias_raisePorts
        { d with pktport := some (m.tick d.ram).1, ram := (m.tick d.ram).2 } a b _
  have hpcibridge (d : BusDevices δ ρ π) :
      (d.withCias a b).tickPcibridge = d.tickPcibridge.withCias a b := by
    unfold tickPcibridge
    rw [show (d.withCias a b).pcibridge = d.pcibridge from rfl]
    split
    · rfl
    · rename_i m _
      exact withCias_raisePorts { d with
        pcibridge := some (m.tick d.ram).1.irqPending.2, ram := (m.tick d.ram).2 } a b _
  unfold tickEngines
  rw [hmirage, hhostblk, hpktport, hpcibridge]

/-- A tick, with the CIAs taken through it on their own. -/
def tickRest (d : BusDevices δ ρ π) (chipset : Chipset) (beam : Chipset.BeamAdvance) :
    BusDevices δ ρ π :=
  let d := ({ d with chipset := chipset }).tickGraphics beam
  if 0 < beam.linesStarted then d.tickEngines else d

theorem tickExact_parts (d : BusDevices δ ρ π) (a b : Cia) {m : Nat} {chipset : Chipset}
    {beam : Chipset.BeamAdvance}
    (hbeam : d.chipset.tick m cpuClocksPerColourClock = (beam, chipset))
    {ciaA ciaB : Cia}
    (hA : ciaA = ((Cia.todTick^[beam.framesWrapped] a).tick m cpuClocksPerEclock).2)
    (hB : ciaB = ((Cia.todTick^[beam.linesStarted] b).tick m cpuClocksPerEclock).2) :
    (d.withCias a b).tickExact m =
      (((d.tickRest chipset beam).withCias ciaA ciaB).raisePorts ciaA.irqPending).raiseExter
        ciaB.irqPending := by
  subst hA hB
  have htick : (d.withCias a b).tickBeam m =
      (beam, ({ d with chipset := chipset } : BusDevices δ ρ π).withCias a b) := by
    unfold tickBeam
    rw [show (d.withCias a b).chipset = d.chipset from rfl, hbeam]
    rfl
  have hbefore : (d.withCias a b).beforeCias m = (d.tickRest chipset beam).withCias
      (Cia.todTick^[beam.framesWrapped] a) (Cia.todTick^[beam.linesStarted] b) := by
    have hgraphics := withCias_tickGraphics { d with chipset := chipset }
      (Cia.todTick^[beam.framesWrapped] a) (Cia.todTick^[beam.linesStarted] b) beam
    have htod : (({ d with chipset := chipset } : BusDevices δ ρ π).withCias a b).tickTod beam =
        ({ d with chipset := chipset } : BusDevices δ ρ π).withCias
          (Cia.todTick^[beam.framesWrapped] a) (Cia.todTick^[beam.linesStarted] b) := rfl
    unfold beforeCias
    rw [htick]
    simp only
    rw [htod, hgraphics, withCias_tickEngines]
    unfold tickRest
    simp only
    split <;> rfl
  rw [tickExact_eq, hbefore]
  generalize d.tickRest chipset beam = rest
  generalize Cia.todTick^[beam.framesWrapped] a = todA
  generalize Cia.todTick^[beam.linesStarted] b = todB
  -- CIA-A's request is raised before CIA-B counts, which does not see it
  have hlate (irq : Bool) : ((rest.withCias (todA.tick m cpuClocksPerEclock).2 todB).raisePorts
      irq).tickCiaB m =
      ((rest.withCias (todA.tick m cpuClocksPerEclock).2
        (todB.tick m cpuClocksPerEclock).2).raisePorts irq).raiseExter
        (todB.tick m cpuClocksPerEclock).2.irqPending := by
    cases irq <;> rfl
  exact hlate _

/-- **Quiet clocks and the rest of a tick.** -/
theorem tickExact_delayed {d : BusDevices δ ρ π} {n m k : Nat} (h : d.QuietUntil n) (hm : m < n)
    (hfits : m + k < 0x100000000 - cpuClocksPerEclock) :
    (d.delayed m).tickExact k = d.tickExact (m + k) := by
  have hbeam := Chipset.tick_of_line h.clocked.beamClocks (Nat.lt_of_lt_of_le hm h.line)
  obtain ⟨hchipset, hlines, hframes⟩ := d.chipset.tick_tick m k cpuClocksPerColourClock
  rw [hbeam] at hchipset hlines hframes
  have hcarry : cpuClocksPerEclock = 20 := rfl
  have hA := h.clocked.ciaA.carry
  have hB := h.clocked.ciaB.carry
  rw [hcarry] at hfits hA hB
  have hwhole : d.chipset.tick (m + k) cpuClocksPerColourClock =
      (((d.chipset.moveBeam m cpuClocksPerColourClock).tick k cpuClocksPerColourClock).1,
        ((d.chipset.moveBeam m cpuClocksPerColourClock).tick k cpuClocksPerColourClock).2) := by
    refine Prod.ext ?_ hchipset.symm
    have hext (x y : Chipset.BeamAdvance) (hl : 0 + y.linesStarted = x.linesStarted)
        (hf : 0 + y.framesWrapped = x.framesWrapped) : x = y := by
      cases x
      cases y
      simp only [Nat.zero_add] at hl hf
      rw [hl, hf]
    exact hext _ _ hlines hframes
  have hciaA (j : Nat) : ((Cia.todTick^[j] (d.ciaA.tick m cpuClocksPerEclock).2).tick k
      cpuClocksPerEclock).2 = ((Cia.todTick^[j] d.ciaA).tick (m + k) cpuClocksPerEclock).2 := by
    have hcarry := (h.clocked.ciaA.todTicks j).carry
    rw [Cia.todTicks_tick h.ciaA hm, Cia.tick_tick _ (by omega)]
  have hciaB (j : Nat) : ((Cia.todTick^[j] (d.ciaB.tick m cpuClocksPerEclock).2).tick k
      cpuClocksPerEclock).2 = ((Cia.todTick^[j] d.ciaB).tick (m + k) cpuClocksPerEclock).2 := by
    have hcarry := (h.clocked.ciaB.todTicks j).carry
    rw [Cia.todTicks_tick h.ciaB hm, Cia.tick_tick _ (by omega)]
  have hfirst := tickExact_parts
    { d with chipset := d.chipset.moveBeam m cpuClocksPerColourClock }
    (d.ciaA.tick m cpuClocksPerEclock).2 (d.ciaB.tick m cpuClocksPerEclock).2
    (Prod.mk.eta (p := (d.chipset.moveBeam m cpuClocksPerColourClock).tick k
      cpuClocksPerColourClock)).symm (hciaA _).symm (hciaB _).symm
  exact hfirst.trans (tickExact_parts d d.ciaA d.ciaB hwhole rfl rfl).symm

end Engines

/-! ## Operations that the quiet clocks do not see -/

/-- An operation on the devices and quiet clocks, in either order. -/
def Slips (f : BusDevices δ ρ π → BusDevices δ ρ π) (d : BusDevices δ ρ π) (m : Nat) : Prop :=
  f (d.delayed m) = (f d).delayed m

theorem delayed_raisePorts (d : BusDevices δ ρ π) (m : Nat) (irq : Bool) :
    (d.delayed m).raisePorts irq = (d.raisePorts irq).delayed m := by
  unfold raisePorts
  split <;> rfl

theorem delayed_raiseExter (d : BusDevices δ ρ π) (m : Nat) (irq : Bool) :
    (d.delayed m).raiseExter irq = (d.raiseExter irq).delayed m := by
  unfold raiseExter
  split <;> rfl

/-- The requests of the two CIAs, unchanged by `m` clocks. -/
structure SameRequests (d : BusDevices δ ρ π) (m : Nat) : Prop where
  ciaA : (d.ciaA.tick m cpuClocksPerEclock).2.irqPending = d.ciaA.irqPending
  ciaB : (d.ciaB.tick m cpuClocksPerEclock).2.irqPending = d.ciaB.irqPending

theorem QuietUntil.sameRequests {n m : Nat} (h : d.QuietUntil n) (hm : m < n) : d.SameRequests m :=
  ⟨(Cia.tick_of_quietFor h.ciaA hm).1.irqPending, (Cia.tick_of_quietFor h.ciaB hm).1.irqPending⟩

theorem slips_reassert {m : Nat} (h : d.SameRequests m) : Slips reassertLevelIrqs d m := by
  show (((d.delayed m).raisePorts (d.ciaA.tick m cpuClocksPerEclock).2.irqPending).raiseExter
    (d.ciaB.tick m cpuClocksPerEclock).2.irqPending).raisePorts d.graphicsIrq = _
  rw [h.ciaA, h.ciaB, delayed_raisePorts, delayed_raiseExter, delayed_raisePorts]
  rfl

section Boards

variable [BlockDevice δ] [PciBackend π]

/-- A board does not see them. -/
theorem readRole_delayed (d : BusDevices δ ρ π) (m : Nat) (role : BoardRole) (offset : Nat) :
    (d.delayed m).readRole role offset =
      ((d.readRole role offset).1, (d.readRole role offset).2.delayed m) := by
  cases role with
  | mirage =>
    simp only [readRole, show (d.delayed m).mirage = d.mirage from rfl]
    split
    · rename_i card _
      exact Prod.ext rfl
        (delayed_raisePorts { d with mirage := some (card.read offset).2 } m _)
    · rfl
  | input =>
    simp only [readRole, show (d.delayed m).input = d.input from rfl]
    split
    · exact Prod.ext rfl (delayed_raisePorts d m _)
    · rfl
  | pcibridge =>
    simp only [readRole, show (d.delayed m).pcibridge = d.pcibridge from rfl]
    split <;> rfl
  | graphics board =>
    simp only [readRole, show (d.delayed m).graphics = d.graphics from rfl]
    split <;> rfl
  | _ => rfl

theorem readBoard_delayed (d : BusDevices δ ρ π) (m idx : Nat) (address : Long) :
    (d.delayed m).readBoard idx address =
      ((d.readBoard idx address).1, (d.readBoard idx address).2.delayed m) := by
  have hplacement : (d.delayed m).autoconfig.placement idx = d.autoconfig.placement idx := rfl
  have hrole : (d.delayed m).boardRole idx = d.boardRole idx := rfl
  unfold readBoard
  rw [hplacement, hrole]
  split
  · rfl
  · exact readRole_delayed d m _ _

theorem slips_writeRole {d : BusDevices δ ρ π} {m : Nat} (h : d.SameRequests m)
    (role : BoardRole) (offset : Nat) (value : Byte) :
    Slips (fun d => d.writeRole role offset value) d m := by
  unfold Slips
  cases role with
  | mirage =>
    simp only [writeRole, show (d.delayed m).mirage = d.mirage from rfl]
    split
    · rename_i card _
      exact delayed_raisePorts { d with mirage := some (card.write offset value) } m _
    · rfl
  | fastRam =>
    simp only [writeRole, show (d.delayed m).ram = d.ram from rfl]
    split <;> rfl
  | hostblk =>
    simp only [writeRole, show (d.delayed m).hostblk = d.hostblk from rfl]
    split
    · rename_i card _
      exact delayed_raisePorts { d with hostblk := some (card.write offset value) } m _
    · rfl
  | input =>
    simp only [writeRole, show (d.delayed m).input = d.input from rfl]
    split
    · rename_i card _
      exact delayed_raisePorts { d with input := some (card.write offset value) } m _
    · rfl
  | pktport =>
    simp only [writeRole, show (d.delayed m).pktport = d.pktport from rfl]
    split
    · rename_i card _
      exact delayed_raisePorts { d with pktport := some (card.write offset value) } m _
    · rfl
  | pcibridge =>
    simp only [writeRole, show (d.delayed m).pcibridge = d.pcibridge from rfl]
    split
    · rename_i card _
      exact delayed_raisePorts
        { d with pcibridge := some (card.write offset value).irqPending.2 } m _
    · rfl
  | graphics board =>
    simp only [writeRole, show (d.delayed m).graphics = d.graphics from rfl]
    split
    · -- the level sources are asserted again, and pull as they did
      rename_i card _
      exact slips_reassert (d := { d with graphics := some (card.write board offset value) })
        ⟨h.ciaA, h.ciaB⟩
    · rfl
  | rtg => rfl
  | unclaimed => rfl

theorem slips_writeBoard {d : BusDevices δ ρ π} {m : Nat} (h : d.SameRequests m) (idx : Nat)
    (address : Long) (value : Byte) : Slips (fun d => d.writeBoard idx address value) d m := by
  have hplacement : (d.delayed m).autoconfig.placement idx = d.autoconfig.placement idx := rfl
  have hrole : (d.delayed m).boardRole idx = d.boardRole idx := rfl
  unfold Slips writeBoard
  simp only [hplacement, hrole]
  split
  · rfl
  · exact slips_writeRole h _ _ value

end Boards

end BusDevices

namespace MachineBus

open BusDevices Transition

variable {δ ρ π : Type}

/-! ## The bus that lags -/

/-- `e` has been ticked at once, `l` still has to catch up. -/
structure Lags (l e : MachineBus δ ρ π) : Prop where
  devices : e.devices = l.devices.delayed l.pendingClocks
  pending : e.pendingClocks = 0

variable {l e : MachineBus δ ρ π}

theorem Lags.of_synced (hd : l.devices = e.devices) (hl : l.pendingClocks = 0)
    (he : e.pendingClocks = 0) (hclocked : l.devices.Clocked) : Lags l e := by
  refine ⟨?_, he⟩
  rw [hl, delayed_zero hclocked]
  exact hd.symm

/-- An operation the quiet clocks do not see. -/
theorem Lags.slips (h : Lags l e) {f : BusDevices δ ρ π → BusDevices δ ρ π}
    (hf : Slips f l.devices l.pendingClocks) : Lags (l.mapDevices f) (e.mapDevices f) := by
  refine ⟨?_, h.pending⟩
  show f e.devices = (f l.devices).delayed l.pendingClocks
  rw [h.devices]
  exact hf

theorem Lags.requested (h : Lags l e) (x y : Nat) :
    Lags (l.requestBoundary x) (e.requestBoundary y) := by
  have hsame (b : MachineBus δ ρ π) (x : Nat) : (b.requestBoundary x).devices = b.devices ∧
      (b.requestBoundary x).pendingClocks = b.pendingClocks := by
    unfold requestBoundary
    split <;> exact ⟨rfl, rfl⟩
  refine ⟨?_, (hsame e y).2.trans h.pending⟩
  rw [(hsame e y).1, (hsame l x).1, (hsame l x).2]
  exact h.devices

/-- Neither the interrupt level nor the frame count tells the two apart. -/
theorem Lags.level (h : Lags l e) :
    l.pendingIrqLevel = e.pendingIrqLevel ∧ l.frames = e.frames := by
  unfold pendingIrqLevel frames
  rw [h.devices]
  exact ⟨rfl, rfl⟩

variable [BlockDevice δ] [PacketBackend ρ] [PciBackend π]

/-- Caught up, it is where the other one is. -/
theorem Lags.caughtUp (h : Lags l e) (ht : l.Timely) : l.flush.devices = e.flush.devices := by
  have he : e.flush = e := if_pos h.pending
  rw [he]
  unfold MachineBus.flush
  split
  · rename_i hzero
    rw [h.devices, hzero, delayed_zero ht.quiet.clocked]
  · rw [h.devices]
    exact tickExact_of_quiet ht.quiet ht.pending

/-- The same answer of both, and the one lags as before. -/
def Together {α : Type} (x y : α × MachineBus δ ρ π) : Prop := x.1 = y.1 ∧ Lags x.2 y.2

omit [BlockDevice δ] [PacketBackend ρ] [PciBackend π] in
theorem Lags.together {α : Type} (h : Lags l e) (value : α) : Together (value, l) (value, e) :=
  ⟨rfl, h⟩

/-- An operation that catches up first. -/
theorem Lags.caught (h : Lags l e) (ht : l.Timely) (f : BusDevices δ ρ π → BusDevices δ ρ π)
    (hclocked : (f l.flush.devices).Clocked) :
    Lags (l.flush.mapDevices f) (e.flush.mapDevices f) :=
  .of_synced (congrArg f (h.caughtUp ht)) (pendingClocks_flush l) (pendingClocks_flush e) hclocked

theorem lags_readCia (h : Lags l e) (ht : l.Timely) (address : Long) :
    Together (l.readCia address) (e.readCia address) := by
  have hclocked := ((asks_readCia l address).timely ht).quiet.clocked
  have hd := h.caughtUp ht
  have hpending (b : MachineBus δ ρ π) : (b.readCia address).2.pendingClocks = 0 := by
    unfold readCia
    simp only
    split <;> exact pendingClocks_flush b
  refine ⟨?_, .of_synced ?_ (hpending l) (hpending e) hclocked⟩
  · unfold readCia
    simp only
    rw [hd]
    split <;> rfl
  · unfold readCia mapDevices
    simp only
    rw [hd]
    split <;> rfl

theorem lags_writeCia (h : Lags l e) (ht : l.Timely) (address : Long) (value : Byte) :
    Lags (l.writeCia address value) (e.writeCia address value) := by
  have hclocked := ((steps_writeCia l address value).timely ht).quiet.clocked
  refine .of_synced ?_ (pendingClocks_flush l) (pendingClocks_flush e) hclocked
  unfold writeCia mapDevices recomputeNextEvent
  simp only
  rw [h.caughtUp ht]

theorem lags_readCustomWord (h : Lags l e) (ht : l.Timely) (address : Long) :
    Together (l.readCustomWord address) (e.readCustomWord address) := by
  have hclocked := ((asks_readCustomWord l address).timely ht).quiet.clocked
  refine ⟨?_, h.caught ht (fun d => (readCustomReg d (customOffset address)).2) hclocked⟩
  unfold readCustomWord
  simp only [h.caughtUp ht]

theorem lags_writeCustomWord (h : Lags l e) (ht : l.Timely) (address : Long) (value : Word) :
    Lags (l.writeCustomWord address value) (e.writeCustomWord address value) := by
  have hsteps := (asks_flush l).toSteps.trans
    (steps_aside (aside_writeCustomReg l.flush.devices (customOffset address) value))
  exact (h.caught ht _ (hsteps.timely ht).quiet.clocked).requested _ _

/-! ## The accesses -/

omit [BlockDevice δ] [PacketBackend ρ] [PciBackend π] in
/-- What an access decodes by. -/
theorem Lags.decoding (h : Lags l e) : e.devices.ram = l.devices.ram ∧
    e.devices.overlay = l.devices.overlay ∧ e.devices.rom = l.devices.rom ∧
    e.devices.extRom = l.devices.extRom ∧ e.devices.autoconfig = l.devices.autoconfig ∧
    e.devices.pcibridgeWindow = l.devices.pcibridgeWindow ∧
    e.devices.pcibridge = l.devices.pcibridge := by
  rw [h.devices]
  exact ⟨rfl, rfl, rfl, rfl, rfl, rfl, rfl⟩

omit [BlockDevice δ] [PacketBackend ρ] [PciBackend π] in
theorem Lags.fastRegion (h : Lags l e) (address : Long) :
    fastRegion e.devices address = fastRegion l.devices address := by
  rw [h.devices]
  rfl

theorem lags_readByte (h : Lags l e) (ht : l.Timely) (address : Long) :
    Together (l.readByte address) (e.readByte address) := by
  have hslow : Together (l.readByteSlow address) (e.readByteSlow address) := by
    obtain ⟨hram, hoverlay, hrom, hext, hchain, -, -⟩ := h.decoding
    unfold readByteSlow overlaid
    simp only [hram, hoverlay, hrom, hext, hchain]
    split_ifs
    · exact h.together _
    · exact h.together _
    · exact h.together _
    · exact lags_readCia h ht address
    · obtain ⟨hword, hlags⟩ := lags_readCustomWord h ht (evenAddress address)
      refine ⟨?_, hlags⟩
      unfold readCustomByte
      simp only [hword]
    · exact h.together _
    · exact h.together _
    · split
      · rename_i idx _
        have hboard := readBoard_delayed l.devices l.pendingClocks idx address
        have hlags := h.slips (f := fun d => (d.readBoard idx address).2) (congrArg Prod.snd hboard)
        rw [← h.devices] at hboard
        exact ⟨(congrArg Prod.fst hboard).symm, hlags.requested _ _⟩
      · exact h.together _
  unfold readByte
  rw [h.fastRegion]
  split
  · exact h.together _
  · exact hslow

omit [BlockDevice δ] [PacketBackend ρ] [PciBackend π] in
/-- One access after another. -/
theorem Together.pair {α β γ : Type} {x y : α × MachineBus δ ρ π}
    {f : MachineBus δ ρ π → β × MachineBus δ ρ π} (g : α → β → γ) (h : Together x y)
    (hf : Together (f x.2) (f y.2)) :
    Together (g x.1 (f x.2).1, (f x.2).2) (g y.1 (f y.2).1, (f y.2).2) :=
  ⟨by rw [h.1, hf.1], hf.2⟩

omit [BlockDevice δ] [PacketBackend ρ] in
theorem lags_apertureLoad (h : Lags l e) (address : Long) (width : AccessWidth) :
    (l.apertureLoad address width = none ∧ e.apertureLoad address width = none) ∨
      ∃ value l' e', l.apertureLoad address width = some (value, l') ∧
        e.apertureLoad address width = some (value, e') ∧ Lags l' e' := by
  obtain ⟨-, -, -, -, -, hwindow, hcard⟩ := h.decoding
  unfold apertureLoad pcibridgeApertureSized pcibridgeTarget
  rw [hwindow, hcard]
  split
  · exact .inr ⟨_, _, _, rfl, rfl, h.slips rfl⟩
  · exact .inl ⟨rfl, rfl⟩

theorem lags_readWord (h : Lags l e) (ht : l.Timely) (address : Long) :
    Together (l.readWord address) (e.readWord address) := by
  have hbytes : Together (l.readWordBytes address) (e.readWordBytes address) := by
    have hfirst := lags_readByte h ht address
    exact hfirst.pair (f := fun b => b.readByte (address + 1)) be16
      (lags_readByte hfirst.2 ((asks_readByte l address).timely ht) _)
  have hoverlaid : overlaid e.devices address = overlaid l.devices address := by
    rw [h.devices]
    rfl
  have hload : fastLoad e.devices address 2 = fastLoad l.devices address 2 := by
    unfold fastLoad
    rw [h.fastRegion]
  unfold readWord
  rw [hoverlaid, hload]
  split
  · exact lags_readCustomWord h ht address
  · split
    · exact h.together _
    · rcases lags_apertureLoad h address .w16 with ⟨hl, he⟩ | ⟨value, l', e', hl, he, hlags⟩
      · rw [hl, he]
        exact hbytes
      · rw [hl, he]
        exact hlags.together _

theorem lags_readLong (h : Lags l e) (ht : l.Timely) (address : Long) :
    Together (l.readLong address) (e.readLong address) := by
  have hload : fastLoad e.devices address 4 = fastLoad l.devices address 4 := by
    unfold fastLoad
    rw [h.fastRegion]
  unfold readLong
  rw [hload]
  split
  · exact h.together _
  · rcases lags_apertureLoad h address .w32 with ⟨hl, he⟩ | ⟨value, l', e', hl, he, hlags⟩
    · rw [hl, he]
      have hfirst := lags_readWord h ht address
      exact hfirst.pair (f := fun b => b.readWord (address + 2)) (· ++ ·)
        (lags_readWord hfirst.2 ((asks_readWord l address).timely ht) _)
    · rw [hl, he]
      exact hlags.together _

omit [BlockDevice δ] [PacketBackend ρ] [PciBackend π] in
/-- A store into RAM. -/
theorem lags_fastStore (h : Lags l e) (address : Long) (bytes : List Byte) :
    (fastStore l.devices address bytes = none ∧ fastStore e.devices address bytes = none) ∨
      ∃ dl de, fastStore l.devices address bytes = some dl ∧
        fastStore e.devices address bytes = some de ∧
        Lags { l with devices := dl } { e with devices := de } := by
  obtain ⟨hram, -⟩ := h.decoding
  unfold fastStore
  rw [hram]
  split
  · exact .inl ⟨rfl, rfl⟩
  · rename_i region off _
    split
    · exact .inr ⟨_, _, rfl, rfl, h.slips (f := fun d =>
        { d with ram := storeRegion l.devices.ram region off bytes }) rfl⟩
    · exact .inl ⟨rfl, rfl⟩

theorem lags_writeByteSlow (h : Lags l e) (ht : l.Timely) (address : Long) (value : Byte) :
    Lags (l.writeByteSlow address value) (e.writeByteSlow address value) := by
  obtain ⟨-, -, -, -, hchain, -, -⟩ := h.decoding
  unfold writeByteSlow
  rw [hchain]
  split_ifs
  · exact h.slips rfl
  · exact lags_writeCia h ht address value
  · obtain ⟨hword, hlags⟩ := lags_readCustomWord h ht (evenAddress address)
    unfold writeCustomByte
    simp only
    rw [hword]
    exact lags_writeCustomWord hlags ((asks_readCustomWord l _).timely ht) _ _
  · split
    · rename_i idx _
      exact h.slips (slips_writeBoard (ht.quiet.sameRequests ht.pending) idx address value)
    · exact h

theorem lags_writeByte (h : Lags l e) (ht : l.Timely) (address : Long) (value : Byte) :
    Lags (l.writeByte address value) (e.writeByte address value) := by
  unfold writeByte
  rcases lags_fastStore h address [value] with ⟨hl, he⟩ | ⟨dl, de, hl, he, hlags⟩
  · rw [hl, he]
    simp only
    split
    · exact h.slips rfl
    · exact (lags_writeByteSlow h ht address value).requested _ _
  · rw [hl, he]
    exact hlags

omit [BlockDevice δ] [PacketBackend ρ] in
theorem lags_apertureStore (h : Lags l e) (address : Long) (width : AccessWidth) (value : Long) :
    (l.apertureStore address width value = none ∧ e.apertureStore address width value = none) ∨
      ∃ l' e', l.apertureStore address width value = some l' ∧
        e.apertureStore address width value = some e' ∧ Lags l' e' := by
  obtain ⟨-, -, -, -, -, hwindow, hcard⟩ := h.decoding
  unfold apertureStore pcibridgeApertureSized pcibridgeTarget
  rw [hwindow, hcard]
  split
  · rename_i k dev _ _
    have hstored := h.slips (f := fun d =>
      { d with pcibridge := some (dev.writeApertureSized k width value).irqPending.2 }) rfl
    refine .inr ⟨_, _, rfl, rfl, ?_⟩
    split
    · exact (hstored.slips (f := fun d => d.raisePorts true)
        (delayed_raisePorts _ _ true)).requested _ _
    · exact hstored
  · exact .inl ⟨rfl, rfl⟩

theorem lags_writeWord (h : Lags l e) (ht : l.Timely) (address : Long) (value : Word) :
    Lags (l.writeWord address value) (e.writeWord address value) := by
  unfold writeWord
  split
  · exact lags_writeCustomWord h ht address value
  · rcases lags_fastStore h address (toBytes16 value) with ⟨hl, he⟩ | ⟨dl, de, hl, he, hlags⟩
    · rw [hl, he]
      simp only
      rcases lags_apertureStore h address .w16 (value.setWidth 32) with
        ⟨hl, he⟩ | ⟨l', e', hl, he, hlags⟩
      · rw [hl, he]
        exact lags_writeByte (lags_writeByte h ht _ _) ((asks_writeByte l _ _).timely ht) _ _
      · rw [hl, he]
        exact hlags
    · rw [hl, he]
      exact hlags

theorem lags_writeLong (h : Lags l e) (ht : l.Timely) (address value : Long) :
    Lags (l.writeLong address value) (e.writeLong address value) := by
  unfold writeLong
  rcases lags_fastStore h address (toBytes32 value) with ⟨hl, he⟩ | ⟨dl, de, hl, he, hlags⟩
  · rw [hl, he]
    simp only
    rcases lags_apertureStore h address .w32 value with ⟨hl, he⟩ | ⟨l', e', hl, he, hlags⟩
    · rw [hl, he]
      exact lags_writeWord (lags_writeWord h ht _ _) ((asks_writeWord l _ _).timely ht) _ _
    · rw [hl, he]
      exact hlags
  · rw [hl, he]
    exact hlags

/-- **No access finds out.** -/
theorem lags_access (h : Lags l e) (ht : l.Timely) (a : Access) :
    Together (l.access a) (e.access a) := by
  cases a with
  | readByte address =>
    obtain ⟨hvalue, hlags⟩ := lags_readByte h ht address
    exact ⟨congrArg (·.setWidth 32) hvalue, hlags⟩
  | readWord address =>
    obtain ⟨hvalue, hlags⟩ := lags_readWord h ht address
    exact ⟨congrArg (·.setWidth 32) hvalue, hlags⟩
  | readLong address => exact lags_readLong h ht address
  | writeByte address value => exact ⟨rfl, lags_writeByte h ht address value⟩
  | writeWord address value => exact ⟨rfl, lags_writeWord h ht address value⟩
  | writeLong address value => exact ⟨rfl, lags_writeLong h ht address value⟩

/-! ## The two runs -/

/-- Advance time at once, whatever is still pending. -/
def tickEager (b : MachineBus δ ρ π) (cpuClocks : Long) : MachineBus δ ρ π :=
  b.mapDevices fun d => d.tickExact cpuClocks.toNat

/-- An operation of the CPU with `tick` for its ticks, and the value it reads. -/
def perform (tick : MachineBus δ ρ π → Long → MachineBus δ ρ π) (b : MachineBus δ ρ π) :
    GuestOp → Long × MachineBus δ ρ π
  | .tick cpuClocks => (0, tick b cpuClocks)
  | .access a => b.access a

/-- The values read, and the interrupt level and the frame count after every operation. -/
def observed (tick : MachineBus δ ρ π → Long → MachineBus δ ρ π) :
    MachineBus δ ρ π → List GuestOp → List (Long × Nat × Nat)
  | _, [] => []
  | b, op :: ops =>
    let (value, b) := perform tick b op
    (value, b.pendingIrqLevel, b.frames) :: observed tick b ops

/-- What a tick adds up to stays twenty clocks below the end of its counter. -/
def Fits : MachineBus δ ρ π → List GuestOp → Prop
  | _, [] => True
  | b, op :: ops =>
    (∀ cpuClocks, op = .tick cpuClocks →
      b.pendingClocks + cpuClocks.toNat < 0x100000000 - cpuClocksPerEclock) ∧
      Fits (perform tick b op).2 ops

theorem lags_tick (h : Lags l e) (ht : l.Timely) (cpuClocks : Long)
    (hfits : l.pendingClocks + cpuClocks.toNat < 0x100000000 - cpuClocksPerEclock) :
    Lags (l.tick cpuClocks) (e.tickEager cpuClocks) := by
  have htick := (steps_tick l cpuClocks).timely ht
  have htotal : min (l.pendingClocks + cpuClocks.toNat) u32Max =
      l.pendingClocks + cpuClocks.toNat := by
    have hcarry : cpuClocksPerEclock = 20 := rfl
    have hmax : u32Max = 0xFFFFFFFF := rfl
    omega
  have hexact : (e.tickEager cpuClocks).devices =
      l.devices.tickExact (l.pendingClocks + cpuClocks.toNat) := by
    show e.devices.tickExact cpuClocks.toNat = _
    rw [h.devices]
    exact tickExact_delayed ht.quiet ht.pending hfits
  have hpending := ht.pending
  unfold tick at htick ⊢
  simp only [htotal] at htick ⊢
  generalize l.pendingClocks + cpuClocks.toNat = total at hexact htick ⊢
  split at htick
  · rename_i hreached
    have hpos : total ≠ 0 := by
      omega
    have hflush : ({ l with pendingClocks := total } : MachineBus δ ρ π).flush.devices =
        l.devices.tickExact total := by
      unfold MachineBus.flush
      rw [if_neg hpos]
      rfl
    rw [if_pos hreached]
    exact .of_synced (hflush.trans hexact.symm) (pendingClocks_flush _) h.pending
      htick.quiet.clocked
  · rename_i hbefore
    rw [if_neg hbefore]
    exact ⟨hexact.trans (tickExact_of_quiet ht.quiet (Nat.lt_of_not_le hbefore)), h.pending⟩

theorem lags_observed (ops : List GuestOp) : ∀ {l e : MachineBus δ ρ π}, Lags l e → l.Timely →
    Fits l ops → observed tick l ops = observed tickEager e ops := by
  induction ops with
  | nil => exact fun _ _ _ => rfl
  | cons op ops ih =>
    intro l e h ht hfits
    obtain ⟨hfirst, hrest⟩ := hfits
    have hstep : Together (perform tick l op) (perform tickEager e op) ∧
        (perform tick l op).2.Timely := by
      cases op with
      | tick cpuClocks =>
        exact ⟨⟨rfl, lags_tick h ht cpuClocks (hfirst cpuClocks rfl)⟩,
          (steps_tick l cpuClocks).timely ht⟩
      | access a => exact ⟨lags_access h ht a, (asks_access l a).timely ht⟩
    obtain ⟨⟨hvalue, hlags⟩, htimely⟩ := hstep
    obtain ⟨hlevel, hframes⟩ := hlags.level
    unfold observed
    simp only
    rw [hvalue, hlevel, hframes, ih hlags htimely hrest]

/-- **Lazy time is eager time**, where the two runs begin with no clocks pending. -/
theorem lazy_time_is_eager_time {b : MachineBus δ ρ π} (h : b.Reachable)
    (hflushed : b.pendingClocks = 0) {ops : List GuestOp} (hfits : Fits b ops) :
    observed tick b ops = observed tickEager b ops :=
  lags_observed ops (.of_synced rfl hflushed hflushed h.timely.quiet.clocked) h.timely hfits

/-- A machine as it was built. -/
def built : MachineBus MemDisk Empty Empty := MachineBus.new (fun _ => 0) (ByteSlice.zero 0)

/-- Two portions, a look at the beam, and the rest of the frame. -/
theorem lazy_time_is_eager_time_frame :
    observed tick built [.tick 700, .tick 300, .access (.readWord 0xDFF006), .tick 282296] =
      observed tickEager built
        [.tick 700, .tick 300, .access (.readWord 0xDFF006), .tick 282296] := by
  refine lazy_time_is_eager_time (.start ⟨_, _, rfl⟩) rfl ?_
  refine ⟨?_, ?_, ?_, ?_, trivial⟩
  · rintro _ ⟨⟩
    decide
  · rintro _ ⟨⟩
    decide
  · rintro _ ⟨⟩
  · rintro _ ⟨⟩
    decide

/-- With a clock pending, a tick completes the frame for the lazy bus one clock earlier. -/
theorem lazy_time_is_ahead_of_pending_clocks :
    let b := run step built [.guest (.tick 1)]
    b.Reachable ∧ b.pendingClocks = 1 ∧ Fits b [.tick 283295] ∧
      observed tick b [.tick 283295] ≠ observed tickEager b [.tick 283295] := by
  intro b
  refine ⟨(Transition.Reachable.start ⟨_, _, rfl⟩).run _, by decide, ⟨?_, trivial⟩, ?_⟩
  · rintro _ ⟨⟩
    decide
  · decide +kernel

end MachineBus

end M68kMachine
