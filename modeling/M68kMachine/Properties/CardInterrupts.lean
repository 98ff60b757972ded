import M68kMachine.Cards.PciFunctions
import M68kMachine.Properties.LevelIrqs

/-!
# The cards that pull INT2

Six cards pull `PORTS`. A tick that crosses a raster line asks five of them, and raises the latch
for each that pulls. The input card is heard only when one of its registers is touched, so a pushed
event shows at a line only if the latch is set for another reason.

* `Int2Honest` — every card that pulls has its latch set
* `othersAssert` — something that a tick asks pulls when it is asked
* `portsSet_tickExact` — where the latch of a tick comes from
* `int2Honest_tickExact_iff` — when a tick leaves every card honest
-/

namespace M68kMachine

open Transition
open Chipset (BeamAdvance)

variable {δ ρ π : Type}

/-- The latch of INT2. -/
def Chipset.portsSet (c : Chipset) : Bool := c.intreq.getLsbD Intbit.ports

def Chipset.raisePorts (c : Chipset) (irq : Bool) : Chipset :=
  if irq then c.raiseInt Intbit.ports else c

theorem Chipset.portsSet_raiseInt (c : Chipset) {i : Nat} (h : i ≠ Intbit.ports) :
    (c.raiseInt i).portsSet = c.portsSet := by
  have hbit : ((1 : Word) <<< i).getLsbD Intbit.ports = false := by
    rw [BitVec.getLsbD_shiftLeft]
    rcases Nat.lt_or_ge Intbit.ports i with hlt | hge
    · simp [hlt]
    · have hpos : Intbit.ports - i ≠ 0 := by omega
      rw [show ((1 : Word).getLsbD (Intbit.ports - i)) = decide (Intbit.ports - i = 0) by
        simp [BitVec.getLsbD_one], decide_eq_false hpos, Bool.and_false]
  show (c.intreq ||| ((1 : Word) <<< i)).getLsbD Intbit.ports = _
  rw [BitVec.getLsbD_or, hbit, Bool.or_false]
  rfl

@[simp] theorem Chipset.portsSet_raisePorts (c : Chipset) (irq : Bool) :
    (c.raisePorts irq).portsSet = (c.portsSet || irq) := by
  unfold raisePorts
  cases irq with
  | false => exact (Bool.or_false _).symm
  | true =>
    rw [Bool.or_true]
    exact c.getLsbD_raiseInt_self (by decide)

def Chipset.raiseExter (c : Chipset) (irq : Bool) : Chipset :=
  if irq then c.raiseInt Intbit.exter else c

@[simp] theorem Chipset.portsSet_raiseExter (c : Chipset) (irq : Bool) :
    (c.raiseExter irq).portsSet = c.portsSet := by
  cases irq with
  | false => rfl
  | true => exact c.portsSet_raiseInt (by decide)

/-- The beam raises `VERTB` only. -/
theorem Chipset.portsSet_tick (c : Chipset) (cpuClocks ccpc : Nat) :
    (c.tick cpuClocks ccpc).2.portsSet = c.portsSet := by
  unfold tick
  dsimp only
  split
  · exact portsSet_raiseInt _ (by decide)
  · rfl

namespace BusDevices

variable (d : BusDevices δ ρ π)

theorem raisePorts_eq (irq : Bool) :
    d.raisePorts irq = { d with chipset := d.chipset.raisePorts irq } := by
  cases irq <;> rfl

/-! ## Which cards pull -/

def portsSet (d : BusDevices δ ρ π) : Bool := d.chipset.portsSet

def mirageIrq (d : BusDevices δ ρ π) : Bool := d.mirage.any (·.irqPending)

def hostblkIrq (d : BusDevices δ ρ π) : Bool := d.hostblk.any (·.irqPending)

def pktportIrq (d : BusDevices δ ρ π) : Bool := d.pktport.any (·.irqPending)

def pcibridgeIrq [PciBackend π] (d : BusDevices δ ρ π) : Bool :=
  d.pcibridge.any fun dev => dev.irqPending.1

def inputIrq (d : BusDevices δ ρ π) : Bool := d.input.any (·.irqPending)

/-- Every card that pulls INT2 has its latch set. -/
structure Int2Honest [PciBackend π] (d : BusDevices δ ρ π) : Prop where
  graphics : d.graphicsIrq = true → d.portsSet = true
  mirage : d.mirageIrq = true → d.portsSet = true
  hostblk : d.hostblkIrq = true → d.portsSet = true
  pktport : d.pktportIrq = true → d.portsSet = true
  pcibridge : d.pcibridgeIrq = true → d.portsSet = true
  input : d.inputIrq = true → d.portsSet = true

/-! ## What a tick makes of each card -/

/-- The graphics card after the retraces of a tick. -/
def graphicsAfter (d : BusDevices δ ρ π) (frames : Nat) : Option Graffity :=
  d.graphics.map Graffity.signalVerticalRetrace^[frames]

theorem tickGraphics_eq (beam : BeamAdvance) :
    d.tickGraphics beam =
      { d with
        graphics := d.graphicsAfter beam.framesWrapped
        chipset := d.chipset.raisePorts
          ((d.graphicsAfter beam.framesWrapped).any (·.irqPending)) } := by
  unfold tickGraphics graphicsAfter
  split
  · rename_i hnone
    rw [hnone]
    show d = { d with graphics := none }
    rw [← hnone]
  · rename_i card hcard
    rw [hcard, raisePorts_eq]
    rfl

variable [BlockDevice δ] [PacketBackend ρ] [PciBackend π]

def mirageAfter (d : BusDevices δ ρ π) : Option (Mirage δ) := d.mirage.map (·.tick)

omit [PacketBackend ρ] [PciBackend π] in
theorem tickMirage_eq :
    d.tickMirage =
      { d with
        mirage := d.mirageAfter
        chipset := d.chipset.raisePorts (d.mirageAfter.any (·.irqPending)) } := by
  unfold tickMirage mirageAfter
  split
  · rename_i hnone
    rw [hnone]
    show d = { d with mirage := none }
    rw [← hnone]
  · rename_i m hm
    rw [hm, raisePorts_eq]
    rfl

def hostblkAfter (d : BusDevices δ ρ π) : Option (Hostblk δ) :=
  d.hostblk.map fun h => (h.tick d.ram).1

def hostblkRam (d : BusDevices δ ρ π) : GuestRam :=
  (d.hostblk.map fun h => (h.tick d.ram).2).getD d.ram

omit [PacketBackend ρ] [PciBackend π] in
theorem tickHostblk_eq :
    d.tickHostblk =
      { d with
        hostblk := d.hostblkAfter
        ram := d.hostblkRam
        chipset := d.chipset.raisePorts (d.hostblkAfter.any (·.irqPending)) } := by
  unfold tickHostblk hostblkAfter hostblkRam
  split
  · rename_i hnone
    rw [hnone]
    show d = { d with hostblk := none }
    rw [← hnone]
  · rename_i h hh
    dsimp only
    rw [hh, raisePorts_eq]
    rfl

def pktportAfter (d : BusDevices δ ρ π) : Option (Pktport ρ) :=
  d.pktport.map fun p => (p.tick d.ram).1

def pktportRam (d : BusDevices δ ρ π) : GuestRam :=
  (d.pktport.map fun p => (p.tick d.ram).2).getD d.ram

omit [BlockDevice δ] [PciBackend π] in
theorem tickPktport_eq :
    d.tickPktport =
      { d with
        pktport := d.pktportAfter
        ram := d.pktportRam
        chipset := d.chipset.raisePorts (d.pktportAfter.any (·.irqPending)) } := by
  unfold tickPktport pktportAfter pktportRam
  split
  · rename_i hnone
    rw [hnone]
    show d = { d with pktport := none }
    rw [← hnone]
  · rename_i p hp
    dsimp only
    rw [hp, raisePorts_eq]
    rfl

def pcibridgeTicked (d : BusDevices δ ρ π) : Option (PciBridge π) :=
  d.pcibridge.map fun dev => (dev.tick d.ram).1

def pcibridgeRam (d : BusDevices δ ρ π) : GuestRam :=
  (d.pcibridge.map fun dev => (dev.tick d.ram).2).getD d.ram

omit [BlockDevice δ] [PacketBackend ρ] in
/-- Asking the bridge samples its backend. -/
theorem tickPcibridge_eq :
    d.tickPcibridge =
      { d with
        pcibridge := d.pcibridgeTicked.map fun dev => dev.irqPending.2
        ram := d.pcibridgeRam
        chipset := d.chipset.raisePorts
          (d.pcibridgeTicked.any fun dev => dev.irqPending.1) } := by
  unfold tickPcibridge pcibridgeTicked pcibridgeRam
  split
  · rename_i hnone
    rw [hnone]
    show d = { d with pcibridge := none }
    rw [← hnone]
  · rename_i dev hdev
    dsimp only
    rw [hdev, raisePorts_eq]
    rfl

omit [BlockDevice δ] [PacketBackend ρ] [PciBackend π] in
theorem tickCiaA_eq (cpuClocks : Nat) :
    d.tickCiaA cpuClocks =
      { d with
        ciaA := (d.ciaA.tick cpuClocks cpuClocksPerEclock).2
        chipset := d.chipset.raisePorts (d.ciaA.tick cpuClocks cpuClocksPerEclock).1 } := by
  unfold tickCiaA
  dsimp only
  rw [raisePorts_eq]

omit [BlockDevice δ] [PacketBackend ρ] [PciBackend π] in
theorem tickCiaB_eq (cpuClocks : Nat) :
    d.tickCiaB cpuClocks =
      { d with
        ciaB := (d.ciaB.tick cpuClocks cpuClocksPerEclock).2
        chipset := d.chipset.raiseExter (d.ciaB.tick cpuClocks cpuClocksPerEclock).1 } := by
  unfold tickCiaB
  dsimp only
  generalize (d.ciaB.tick cpuClocks cpuClocksPerEclock).1 = irq
  cases irq <;> rfl

/-- The devices as the packet port finds them, and as the bridge does. -/
def atPktport (d : BusDevices δ ρ π) : BusDevices δ ρ π := { d with ram := d.hostblkRam }

def atPcibridge (d : BusDevices δ ρ π) : BusDevices δ ρ π :=
  { d with ram := d.atPktport.pktportRam }

theorem tickEngines_eq :
    d.tickEngines =
      { d with
        mirage := d.mirageAfter
        hostblk := d.hostblkAfter
        pktport := d.atPktport.pktportAfter
        pcibridge := d.atPcibridge.pcibridgeTicked.map fun dev => dev.irqPending.2
        ram := d.atPcibridge.pcibridgeRam
        chipset :=
          (((d.chipset.raisePorts (d.mirageAfter.any (·.irqPending))).raisePorts
            (d.hostblkAfter.any (·.irqPending))).raisePorts
            (d.atPktport.pktportAfter.any (·.irqPending))).raisePorts
            (d.atPcibridge.pcibridgeTicked.any fun dev => dev.irqPending.1) } := by
  unfold tickEngines
  rw [tickPcibridge_eq, tickPktport_eq, tickHostblk_eq, tickMirage_eq]
  rfl

/-- The tick crosses a raster line. -/
def CrossesLine (d : BusDevices δ ρ π) (cpuClocks : Nat) : Prop :=
  0 < (d.tickBeam cpuClocks).1.linesStarted

/-- CIA-A as a tick leaves it, and whether it pulls then. -/
def ciaAAfter (d : BusDevices δ ρ π) (cpuClocks : Nat) : Bool × Cia :=
  (Cia.todTick^[(d.tickBeam cpuClocks).1.framesWrapped] d.ciaA).tick cpuClocks cpuClocksPerEclock

/-- Something the tick asks pulls when it is asked. -/
def othersAssert (d : BusDevices δ ρ π) (cpuClocks : Nat) : Bool :=
  (d.graphicsAfter (d.tickBeam cpuClocks).1.framesWrapped).any (·.irqPending) ||
    d.mirageAfter.any (·.irqPending) || d.hostblkAfter.any (·.irqPending) ||
    d.atPktport.pktportAfter.any (·.irqPending) ||
    (d.atPcibridge.pcibridgeTicked.any fun dev => dev.irqPending.1) ||
    (d.ciaAAfter cpuClocks).1

/-- What a tick that crosses a line leaves of the cards, and of the latch. -/
structure Polled (d d' : BusDevices δ ρ π) (cpuClocks : Nat) : Prop where
  graphics : d'.graphics = d.graphicsAfter (d.tickBeam cpuClocks).1.framesWrapped
  mirage : d'.mirage = d.mirageAfter
  hostblk : d'.hostblk = d.hostblkAfter
  pktport : d'.pktport = d.atPktport.pktportAfter
  pcibridge : d'.pcibridge = d.atPcibridge.pcibridgeTicked.map fun dev => dev.irqPending.2
  input : d'.input = d.input
  ports : d'.portsSet = (d.portsSet || d.othersAssert cpuClocks)

/-- **Where the cards and the latch of a tick come from.** -/
theorem polled_tickExact {d : BusDevices δ ρ π} {cpuClocks : Nat} (h : d.CrossesLine cpuClocks) :
    Polled d (d.tickExact cpuClocks) cpuClocks := by
  have hbefore : d.beforeCias cpuClocks =
      (((d.tickBeam cpuClocks).2.tickTod (d.tickBeam cpuClocks).1).tickGraphics
        (d.tickBeam cpuClocks).1).tickEngines := if_pos h
  have hbeam : (d.tickBeam cpuClocks).2.chipset.portsSet = d.chipset.portsSet :=
    d.chipset.portsSet_tick _ _
  rw [tickExact_eq, hbefore, tickCiaB_eq, tickCiaA_eq, tickEngines_eq, tickGraphics_eq]
  refine ⟨rfl, rfl, rfl, rfl, rfl, rfl, ?_⟩
  unfold portsSet othersAssert
  dsimp only
  simp only [Chipset.portsSet_raiseExter, Chipset.portsSet_raisePorts]
  rw [← hbeam]
  simp only [Bool.or_assoc]
  rfl

/-- **A tick across a line leaves every card honest exactly when the input card, which is not asked,
is not the only one that pulls.** -/
theorem int2Honest_tickExact_iff [LevelPciBackend π] {d : BusDevices δ ρ π} {cpuClocks : Nat}
    (h : d.CrossesLine cpuClocks) :
    (d.tickExact cpuClocks).Int2Honest ↔
      (d.inputIrq = true → d.portsSet = true ∨ d.othersAssert cpuClocks = true) := by
  have hpolled := polled_tickExact h
  have hports : (d.tickExact cpuClocks).portsSet = true ↔
      d.portsSet = true ∨ d.othersAssert cpuClocks = true := by
    rw [hpolled.ports, Bool.or_eq_true]
  have hinput : (d.tickExact cpuClocks).inputIrq = d.inputIrq := by
    unfold inputIrq
    rw [hpolled.input]
  constructor
  · intro hhonest hirq
    exact hports.mp (hhonest.input (hinput.trans hirq))
  · intro hshown
    refine ⟨fun hirq => ?_, fun hirq => ?_, fun hirq => ?_, fun hirq => ?_, fun hirq => ?_,
      fun hirq => hports.mpr (hshown (hinput.symm.trans hirq))⟩
    · unfold graphicsIrq at hirq
      rw [hpolled.graphics] at hirq
      exact hports.mpr (.inr (by unfold othersAssert; rw [hirq]; simp))
    · unfold mirageIrq at hirq
      rw [hpolled.mirage] at hirq
      exact hports.mpr (.inr (by unfold othersAssert; rw [hirq]; simp))
    · unfold hostblkIrq at hirq
      rw [hpolled.hostblk] at hirq
      exact hports.mpr (.inr (by unfold othersAssert; rw [hirq]; simp))
    · unfold pktportIrq at hirq
      rw [hpolled.pktport] at hirq
      exact hports.mpr (.inr (by unfold othersAssert; rw [hirq]; simp))
    · -- the bridge is asked once by the tick and once more here
      have hasked : (d.atPcibridge.pcibridgeTicked.any fun dev => dev.irqPending.1) = true := by
        unfold pcibridgeIrq at hirq
        rw [hpolled.pcibridge, Option.any_map] at hirq
        rw [← hirq]
        refine congrArg (fun p => Option.any p d.atPcibridge.pcibridgeTicked) (funext fun dev => ?_)
        exact dev.irqPending_again.symm
      exact hports.mpr (.inr (by unfold othersAssert; rw [hasked]; simp))

end BusDevices

/-! ## Runs -/

namespace MachineBus

variable [BlockDevice δ] [PacketBackend ρ] [PciBackend π]

/-- Whenever the pending clocks are applied and cross a line, every card is honest then. -/
def HonestAtLines (b : MachineBus δ ρ π) : Prop :=
  ∀ cpuClocks, b.devices.CrossesLine cpuClocks → (b.devices.tickExact cpuClocks).Int2Honest

/-- The input card pulls only with the latch set, or with another about to set it. -/
def InputShown (b : MachineBus δ ρ π) : Prop :=
  ∀ cpuClocks, b.devices.CrossesLine cpuClocks →
    b.devices.inputIrq = true → b.devices.portsSet = true ∨ b.devices.othersAssert cpuClocks = true

/-- **INT2 is a level at every raster line exactly when the input card is shown in every state.** -/
theorem int2_level_triggered [LevelPciBackend π] (b : MachineBus δ ρ π) (ops : List (BusOp δ ρ π)) :
    Always step HonestAtLines b ops ↔ Always step InputShown b ops := by
  have hiff : ∀ b : MachineBus δ ρ π, b.HonestAtLines ↔ b.InputShown := by
    intro b
    constructor
    · exact fun h cpuClocks hline =>
        (BusDevices.int2Honest_tickExact_iff hline).mp (h cpuClocks hline)
    · exact fun h cpuClocks hline =>
        (BusDevices.int2Honest_tickExact_iff hline).mpr (h cpuClocks hline)
  constructor
  · exact fun h before after hsplit => (hiff _).mp (h before after hsplit)
  · exact fun h before after hsplit => (hiff _).mpr (h before after hsplit)

/-- A machine with the input card at `$40000000`, its interrupt enabled. -/
def inputMachine : MachineBus MemDisk Empty Empty :=
  run step (MachineBus.new (fun _ => 0) (ByteSlice.zero 0))
    [.attach (.input []), .guest (.access (.writeByte 0xE80044 0x40)),
      .guest (.access (.writeByte 0xE80045 0x00)), .guest (.access (.writeByte 0x40000027 1))]

/-- The guest holds the latch set while a key is pushed. -/
theorem int2_level_triggered_latched :
    Always step HonestAtLines inputMachine [] ∧
      (run step inputMachine [.guest (.access (.writeWord 0xDFF09C 0x8008)),
        .host (.pushInput (.key 1 true 0))]).HonestAtLines := by
  have hidle : inputMachine.devices.inputIrq = false := by decide
  have hset : (run step inputMachine [.guest (.access (.writeWord 0xDFF09C 0x8008)),
      .host (.pushInput (.key 1 true 0))]).devices.portsSet = true := by decide
  exact ⟨(int2_level_triggered inputMachine []).mpr (always_nil.mpr fun _ _ hirq =>
      absurd (hidle.symm.trans hirq) (by decide)),
    ((int2_level_triggered _ []).mpr (always_nil.mpr fun _ _ _ => .inl hset)).first⟩

/-- **A key pushed with the latch clear**: a tick leaves the card pulling and the latch clear. -/
theorem pushed_key_lost :
    let b := run step inputMachine [.host (.pushInput (.key 1 true 0))]
    b.Reachable ∧ b.devices.CrossesLine 1000 ∧ ¬b.HonestAtLines ∧
      (b.tick 1000).devices.inputIrq = true ∧ (b.tick 1000).devices.portsSet = false := by
  intro b
  have hline : 0 < (b.devices.tickBeam 1000).1.linesStarted := by decide
  have hticked : (b.devices.tickExact 1000).inputIrq = true ∧
      (b.devices.tickExact 1000).portsSet = false := by decide
  have hreach : b.Reachable :=
    ((Transition.Reachable.start ⟨_, _, rfl⟩).run _ : inputMachine.Reachable).run _
  refine ⟨hreach, hline, fun h => ?_, by decide, by decide⟩
  have hset := (h 1000 hline).input hticked.1
  exact absurd (hset.symm.trans hticked.2) (by decide)

end MachineBus

end M68kMachine
