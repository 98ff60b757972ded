import Mathlib.Logic.Relation
import M68kMachine.Library.Transition
import M68kMachine.Machine.Bus

/-!
# Runs of the machine bus

What can happen to a `MachineBus`: the CPU ticks it and accesses it, the board layer attaches
cards, feeds its input and looks at its memory.

* `Access`, `GuestOp` — the CPU's side
* `HostOp` — the board layer's calls on a bus that runs
* `Attach` — the builders
* `BusOp`, `step`, `Reachable` — all of them, and the states they lead to
* `Stirred`, `Driven`, `Changed` — what ticks and reads, register writes and all accesses do, in
  small steps
-/

namespace M68kMachine

open Relation Transition

/-- A CPU access. -/
inductive Access
  | readByte (address : Long)
  | readWord (address : Long)
  | readLong (address : Long)
  | writeByte (address : Long) (value : Byte)
  | writeWord (address : Long) (value : Word)
  | writeLong (address : Long) (value : Long)

/-- The CPU's side of the bus. -/
inductive GuestOp
  | tick (cpuClocks : Long)
  | access (a : Access)

/-- An event a host pushes into the input card. -/
inductive InputPush
  | key (keycode : Byte) (down : Bool) (qualifier : Word)
  | button (button : Byte) (down : Bool) (qualifier : Word)
  | char (ch : Char) (down : Bool)
  | pointerMotion (x y : Long) (qualifier : Word)

/-- The board layer's calls on a running bus. -/
inductive HostOp
  | takeBoundaryRequest
  | mouseDelta (dx dy : Byte)
  | mouseButton (button : Chipset.MouseButton) (pressed : Bool)
  | queueKeycode (raw : Byte)
  | takeSerialByte
  | pushSerialInByte (byte : Byte)
  | setNtsc (ntsc : Bool)
  | pushInput (event : InputPush)
  | mirageMediaChange (unit : Nat)
  | hostblkMediaChange (unit : Byte)
  | inspectConfig (bdf : Pci.Bdf) (offset : Word) (width : AccessWidth)
  | storeRam (addr : Long) (bytes : List Byte)
  | storeFastWindow (off : Nat) (value : Byte)
  | clearDeviceWriteSpans

/-- The builders, and the attachment of a device-write log. -/
inductive Attach (δ ρ π : Type)
  | mirage (unit : Byte) (device : δ)
  | hostblk (unit : Byte) (device : δ) (writeProtect : Bool) (diagRom : List Byte)
  | graphics (vram : ByteSlice)
  | graphicsZorroIII (vram : ByteSlice)
  | fastRam (mem : ByteSlice)
  | input (diagRom : List Byte)
  | pktport (backend : ρ) (diagRom : List Byte)
  | rtgboard (vram : ByteSlice) (catalog : List Rtgboard.ModeDescriptor)
  | pcibridge (backend : π)
  | extRom (extRom : ByteSlice)
  | floppy (presence : Floppy.FloppyPresence)
  | deviceWriteLog (capacity : Option Nat)

inductive BusOp (δ ρ π : Type)
  | guest (op : GuestOp)
  | host (op : HostOp)
  | attach (card : Attach δ ρ π)

namespace NativeInput

def push (c : NativeInput) : InputPush → NativeInput
  | .key keycode down qualifier => (c.pushKey keycode down qualifier).2
  | .button button down qualifier => (c.pushButton button down qualifier).2
  | .char ch down => (c.pushChar ch down).2
  | .pointerMotion x y qualifier => (c.pushPointerMotion x y qualifier).2

end NativeInput

namespace BusDevices

variable {δ ρ π : Type}

def setDeviceWriteLog (d : BusDevices δ ρ π) (capacity : Option Nat) : BusDevices δ ρ π :=
  { d with ram := { d.ram with writeLog := capacity.map DeviceWriteLog.new } }

def clearDeviceWriteSpans (d : BusDevices δ ρ π) : BusDevices δ ρ π :=
  { d with ram := { d.ram with writeLog := d.ram.writeLog.map DeviceWriteLog.clear } }

/-- A store through `fast_ram_window_mut`: the window is clamped to the buffer. -/
def storeFastWindow (d : BusDevices δ ρ π) (off : Nat) (value : Byte) : BusDevices δ ρ π :=
  match d.ram.fastWindow, d.ram.fastRam with
  | some (_, windowLen), some mem =>
    if off < min windowLen.toNat mem.size then
      { d with ram := { d.ram with fastRam := some (mem.set off value) } }
    else d
  | _, _ => d

/-- What a board layer's call does to the devices. -/
def host [PciBackend π] (d : BusDevices δ ρ π) : HostOp → BusDevices δ ρ π
  | .takeBoundaryRequest => d
  | .mouseDelta dx dy => d.mouseDelta dx dy
  | .mouseButton button pressed => d.mouseButton button pressed
  | .queueKeycode raw => { d with ciaA := d.ciaA.queueKeycode raw }
  | .takeSerialByte => { d with chipset := d.chipset.takeSerialByte.2 }
  | .pushSerialInByte byte => { d with chipset := d.chipset.pushSerialInByte byte }
  | .setNtsc ntsc => { d with chipset := d.chipset.setNtsc ntsc }
  | .pushInput event => { d with input := d.input.map fun dev => dev.push event }
  | .mirageMediaChange unit => { d with mirage := d.mirage.map fun m => m.notifyMediaChange unit }
  | .hostblkMediaChange unit =>
    { d with hostblk := d.hostblk.map fun h => h.notifyMediaChange unit }
  | .inspectConfig bdf offset width =>
    { d with
      pcibridge := d.pcibridge.map fun dev =>
        { dev with backend := (PciBackend.configRead dev.backend bdf offset width).2 } }
  | .storeRam addr bytes => { d with ram := (GuestMemory.store d.ram addr bytes).getD d.ram }
  | .storeFastWindow off value => d.storeFastWindow off value
  | .clearDeviceWriteSpans => d.clearDeviceWriteSpans

def attach (d : BusDevices δ ρ π) : Attach δ ρ π → BusDevices δ ρ π
  | .mirage unit device => d.withMirage unit device
  | .hostblk unit device writeProtect diagRom => d.withHostblk unit device writeProtect diagRom
  | .graphics vram => d.attachGraphics (Graffity.withVariant .zorroII vram)
  | .graphicsZorroIII vram => d.attachGraphics (Graffity.withVariant .zorroIII vram)
  | .fastRam mem => d.withFastRam mem
  | .input diagRom => d.withInput diagRom
  | .pktport backend diagRom => d.withPktport backend diagRom
  | .rtgboard vram catalog => d.withRtgboard vram catalog
  | .pcibridge backend => d.withPcibridge backend
  | .extRom extRom => d.withExtRom extRom
  | .floppy presence => d.withFloppy presence
  | .deviceWriteLog capacity => d.setDeviceWriteLog capacity

end BusDevices

namespace MachineBus

variable {δ ρ π : Type} [BlockDevice δ] [PacketBackend ρ] [PciBackend π]

/-- An access and the value it reads, zero for a write. -/
def access (b : MachineBus δ ρ π) : Access → Long × MachineBus δ ρ π
  | .readByte a => ((b.readByte a).1.setWidth 32, (b.readByte a).2)
  | .readWord a => ((b.readWord a).1.setWidth 32, (b.readWord a).2)
  | .readLong a => b.readLong a
  | .writeByte a value => (0, b.writeByte a value)
  | .writeWord a value => (0, b.writeWord a value)
  | .writeLong a value => (0, b.writeLong a value)

def stepGuest (b : MachineBus δ ρ π) : GuestOp → MachineBus δ ρ π
  | .tick cpuClocks => b.tick cpuClocks
  | .access a => (b.access a).2

def stepHost (b : MachineBus δ ρ π) (op : HostOp) : MachineBus δ ρ π :=
  match op with
  | .takeBoundaryRequest => b.takeBoundaryRequest.2
  | op => b.mapDevices fun d => d.host op

def step (b : MachineBus δ ρ π) : BusOp δ ρ π → MachineBus δ ρ π
  | .guest op => b.stepGuest op
  | .host op => b.stepHost op
  | .attach card => b.mapDevices fun d => d.attach card

/-- The states of a machine that was built over some RAM and ROM. -/
def Reachable (b : MachineBus δ ρ π) : Prop :=
  Transition.Reachable (fun b => ∃ chipRam rom, b = MachineBus.new chipRam rom) step b

end MachineBus

/-! ## Stores of the CPU -/

namespace MachineBus

variable {δ ρ π : Type} {d d' : BusDevices δ ρ π} {r : GuestRam} {address : Long} {off : Nat}
  {bs : List Byte}

theorem fastRegionMut_chip (h : fastRegionMut r address = some (.chip, off)) :
    inRange chipRamBase chipRamEnd address = true ∧ off = address.toNat := by
  unfold fastRegionMut at h
  split at h
  · exact ⟨‹_›, (congrArg Prod.snd (Option.some.inj h)).symm⟩
  · split at h
    · obtain ⟨_, _, heq⟩ := Option.map_eq_some_iff.mp h
      cases heq
    · cases h

theorem fastRegionMut_fast {mem : ByteSlice} (h : fastRegionMut r address = some (.fast mem, off)) :
    inRange chipRamBase chipRamEnd address = false ∧ fastOffset r address = some off ∧
      r.fastRam = some mem := by
  unfold fastRegionMut at h
  split at h
  · cases h
  · rename_i hchip
    split at h
    · rename_i off' hoff
      obtain ⟨mem', hmem, heq⟩ := Option.map_eq_some_iff.mp h
      cases heq
      exact ⟨Bool.eq_false_iff.mpr hchip, hoff, hmem⟩
    · cases h

theorem fastStore_eq_some (h : fastStore d address bs = some d') : ∃ region off,
    fastRegionMut d.ram address = some (region, off) ∧
      off + bs.length ≤ region.size ∧ d' = { d with ram := storeRegion d.ram region off bs } := by
  unfold fastStore at h
  split at h
  · cases h
  · rename_i region off hregion
    split at h
    · cases h
      exact ⟨region, off, hregion, ‹_›, rfl⟩
    · cases h

end MachineBus

/-! ## What the operations are made of -/

namespace BusDevices

open MachineBus

variable {δ ρ π : Type} [BlockDevice δ] [PacketBackend ρ] [PciBackend π]

/-- One part of the machine goes on by itself, or is read. -/
inductive Stir (d : BusDevices δ ρ π) : BusDevices δ ρ π → Prop
  | raiseInt (i : Nat) : Stir d (d.raiseInt i)
  | beam (cpuClocks : Nat) : Stir d (d.tickBeam cpuClocks).2
  | tod (beam : Chipset.BeamAdvance) : Stir d (d.tickTod beam)
  | retrace {g : Graffity} (hg : d.graphics = some g) (n : Nat) :
    Stir d { d with graphics := some (Graffity.signalVerticalRetrace^[n] g) }
  | tickMirage {m : Mirage δ} (hm : d.mirage = some m) : Stir d { d with mirage := some m.tick }
  | tickHostblk {h : Hostblk δ} (hh : d.hostblk = some h) :
    Stir d { d with hostblk := some (h.tick d.ram).1, ram := (h.tick d.ram).2 }
  | tickPktport {p : Pktport ρ} (hp : d.pktport = some p) :
    Stir d { d with pktport := some (p.tick d.ram).1, ram := (p.tick d.ram).2 }
  | tickPcibridge {c : PciBridge π} (hc : d.pcibridge = some c) :
    Stir d { d with pcibridge := some (c.tick d.ram).1, ram := (c.tick d.ram).2 }
  | tickCiaA (cpuClocks : Nat) :
    Stir d { d with ciaA := (d.ciaA.tick cpuClocks cpuClocksPerEclock).2 }
  | tickCiaB (cpuClocks : Nat) :
    Stir d { d with ciaB := (d.ciaB.tick cpuClocks cpuClocksPerEclock).2 }
  | readCiaA (reg : Nat) : Stir d { d with ciaA := (d.ciaA.read reg).2 }
  | readCiaB (reg : Nat) : Stir d { d with ciaB := (d.ciaB.read reg).2 }
  | readCustom (offset : Nat) : Stir d (readCustomReg d offset).2
  | readMirage {m : Mirage δ} (hm : d.mirage = some m) (offset : Nat) :
    Stir d { d with mirage := some (m.read offset).2 }
  | readGraphics {g : Graffity} (hg : d.graphics = some g) (board offset : Nat) :
    Stir d { d with graphics := some (g.read board offset).2 }
  | readPcibridge {c : PciBridge π} (hc : d.pcibridge = some c) (offset : Nat) :
    Stir d { d with pcibridge := some (c.read offset).2 }
  | readSized {c : PciBridge π} (hc : d.pcibridge = some c) (k : Nat) (width : AccessWidth) :
    Stir d { d with pcibridge := some (c.readApertureSized k width).2 }
  | irqPending {c : PciBridge π} (hc : d.pcibridge = some c) :
    Stir d { d with pcibridge := some c.irqPending.2 }

/-- A register of a chip or of a card is written. -/
inductive Drive (d : BusDevices δ ρ π) : BusDevices δ ρ π → Prop
  | stir {d' : BusDevices δ ρ π} (h : Stir d d') : Drive d d'
  | ciaA (reg : Nat) (value : Byte) : Drive d (writeCiaA d reg value)
  | ciaB (reg : Nat) (value : Byte) : Drive d (writeCiaB d reg value)
  | custom (offset : Nat) (value : Word) : Drive d (writeCustomReg d offset value)
  | mirage {m : Mirage δ} (hm : d.mirage = some m) (offset : Nat) (value : Byte) :
    Drive d { d with mirage := some (m.write offset value) }
  | hostblk {h : Hostblk δ} (hh : d.hostblk = some h) (offset : Nat) (value : Byte) :
    Drive d { d with hostblk := some (h.write offset value) }
  | input {c : NativeInput} (hc : d.input = some c) (offset : Nat) (value : Byte) :
    Drive d { d with input := some (c.write offset value) }
  | pktport {p : Pktport ρ} (hp : d.pktport = some p) (offset : Nat) (value : Byte) :
    Drive d { d with pktport := some (p.write offset value) }
  | rtg (offset : Nat) (value : Byte) :
    Drive d { d with rtg := d.rtg.map fun r => r.write offset value }
  | pcibridge {c : PciBridge π} (hc : d.pcibridge = some c) (offset : Nat) (value : Byte) :
    Drive d { d with pcibridge := some (c.write offset value) }
  | writeSized {c : PciBridge π} (hc : d.pcibridge = some c) (k : Nat) (width : AccessWidth)
    (value : Long) : Drive d { d with pcibridge := some (c.writeApertureSized k width value) }
  | graphics {g : Graffity} (hg : d.graphics = some g) (board offset : Nat) (value : Byte) :
    Drive d { d with graphics := some (g.write board offset value) }

/-- A board is placed, or the CPU stores to RAM. -/
inductive Change (d : BusDevices δ ρ π) : BusDevices δ ρ π → Prop
  | drive {d' : BusDevices δ ρ π} (h : Drive d d') : Change d d'
  | config (address : Long) (value : Byte) :
    Change d { d with autoconfig := d.autoconfig.write address value }.refreshWindows
  | chip (off : Nat) (bs : List Byte) : Change d { d with ram := storeRegion d.ram .chip off bs }
  | fast {mem : ByteSlice} (hmem : d.ram.fastRam = some mem) (off : Nat) (bs : List Byte) :
    Change d { d with ram := storeRegion d.ram (.fast mem) off bs }

variable {d d' : BusDevices δ ρ π}

abbrev Stirred : BusDevices δ ρ π → BusDevices δ ρ π → Prop := ReflTransGen Stir

abbrev Driven : BusDevices δ ρ π → BusDevices δ ρ π → Prop := ReflTransGen Drive

abbrev Changed : BusDevices δ ρ π → BusDevices δ ρ π → Prop := ReflTransGen Change

theorem Stirred.driven (h : Stirred d d') : Driven d d' :=
  ReflTransGen.mono (fun _ _ => .stir) d d' h

theorem Driven.changed (h : Driven d d') : Changed d d' :=
  ReflTransGen.mono (fun _ _ => .drive) d d' h

theorem Stirred.changed (h : Stirred d d') : Changed d d' := h.driven.changed

theorem stirred_raisePorts (d : BusDevices δ ρ π) (irq : Bool) : Stirred d (d.raisePorts irq) := by
  cases irq with
  | false => exact .refl
  | true => exact .single (.raiseInt _)

theorem stirred_raiseExter (d : BusDevices δ ρ π) (irq : Bool) : Stirred d (d.raiseExter irq) := by
  cases irq with
  | false => exact .refl
  | true => exact .single (.raiseInt _)

theorem stirred_reassert (d : BusDevices δ ρ π) : Stirred d d.reassertLevelIrqs :=
  ((stirred_raisePorts d _).trans (stirred_raiseExter _ _)).trans (stirred_raisePorts _ _)

/-- A step after which a card is asked for its interrupt. -/
theorem Stir.polled (h : Stir d d') (irq : Bool) : Stirred d (d'.raisePorts irq) :=
  (ReflTransGen.single h).trans (stirred_raisePorts d' irq)

theorem Drive.polled (h : Drive d d') (irq : Bool) : Driven d (d'.raisePorts irq) :=
  (ReflTransGen.single h).trans (stirred_raisePorts d' irq).driven

theorem stirred_tickEngines (d : BusDevices δ ρ π) : Stirred d d.tickEngines := by
  have hmirage (d : BusDevices δ ρ π) : Stirred d d.tickMirage := by
    unfold tickMirage
    split
    · exact .refl
    · rename_i m hm
      exact (Stir.tickMirage hm).polled _
  have hhostblk (d : BusDevices δ ρ π) : Stirred d d.tickHostblk := by
    unfold tickHostblk
    split
    · exact .refl
    · rename_i h hh
      exact (Stir.tickHostblk hh).polled _
  have hpktport (d : BusDevices δ ρ π) : Stirred d d.tickPktport := by
    unfold tickPktport
    split
    · exact .refl
    · rename_i p hp
      exact (Stir.tickPktport hp).polled _
  have hbridge (d : BusDevices δ ρ π) : Stirred d d.tickPcibridge := by
    unfold tickPcibridge
    split
    · exact .refl
    · rename_i c hc
      -- The card is asked for its interrupt after the tick.
      exact (ReflTransGen.single (.tickPcibridge hc)).trans ((Stir.irqPending rfl).polled _)
  exact (((hmirage d).trans (hhostblk _)).trans (hpktport _)).trans (hbridge _)

theorem stirred_tickExact (d : BusDevices δ ρ π) (cpuClocks : Nat) :
    Stirred d (d.tickExact cpuClocks) := by
  have hgraphics (d : BusDevices δ ρ π) (beam : Chipset.BeamAdvance) :
      Stirred d (d.tickGraphics beam) := by
    unfold tickGraphics
    split
    · exact .refl
    · rename_i g hg
      exact (Stir.retrace hg beam.framesWrapped).polled _
  have hciaA (d : BusDevices δ ρ π) : Stirred d (d.tickCiaA cpuClocks) :=
    (Stir.tickCiaA cpuClocks).polled _
  have hciaB (d : BusDevices δ ρ π) : Stirred d (d.tickCiaB cpuClocks) :=
    (ReflTransGen.single (.tickCiaB cpuClocks)).trans (stirred_raiseExter _ _)
  have hbeam : Stirred d (((d.tickBeam cpuClocks).2.tickTod
      (d.tickBeam cpuClocks).1).tickGraphics (d.tickBeam cpuClocks).1) :=
    ((ReflTransGen.single (.beam cpuClocks)).tail (.tod _)).trans (hgraphics _ _)
  unfold tickExact
  dsimp only
  split
  · exact ((hbeam.trans (stirred_tickEngines _)).trans (hciaA _)).trans (hciaB _)
  · exact (hbeam.trans (hciaA _)).trans (hciaB _)

theorem stirred_readBoard (d : BusDevices δ ρ π) (idx : Nat) (address : Long) :
    Stirred d (d.readBoard idx address).2 := by
  unfold readBoard
  split
  · exact .refl
  unfold readRole
  split
  · split
    · rename_i m hm
      exact (Stir.readMirage hm _).polled _
    · exact .refl
  · exact .refl
  · exact .refl
  · split
    · exact stirred_raisePorts d _
    · exact .refl
  · exact .refl
  · exact .refl
  · split
    · rename_i c hc
      exact .single (.readPcibridge hc _)
    · exact .refl
  · split
    · rename_i g hg
      exact .single (.readGraphics hg _ _)
    · exact .refl
  · exact .refl

theorem driven_writeRole (d : BusDevices δ ρ π) {role : BoardRole} (hrole : role ≠ .fastRam)
    (offset : Nat) (value : Byte) : Driven d (d.writeRole role offset value) := by
  unfold writeRole
  split
  · split
    · rename_i m hm
      exact (Drive.mirage hm offset value).polled _
    · exact .refl
  · exact absurd rfl hrole
  · split
    · rename_i h hh
      exact (Drive.hostblk hh offset value).polled _
    · exact .refl
  · split
    · rename_i c hc
      exact (Drive.input hc offset value).polled _
    · exact .refl
  · split
    · rename_i p hp
      exact (Drive.pktport hp offset value).polled _
    · exact .refl
  · exact .single (.rtg offset value)
  · split
    · rename_i c hc
      have hwritten := ReflTransGen.single (Drive.pcibridge hc offset value)
      exact hwritten.trans ((Stir.irqPending rfl).polled _).driven
    · exact .refl
  · split
    · rename_i board _ g hg
      have hwritten := ReflTransGen.single (Drive.graphics hg board offset value)
      exact hwritten.trans (stirred_reassert _).driven
    · exact .refl
  · exact .refl

theorem changed_writeBoard (d : BusDevices δ ρ π) (idx : Nat) (address : Long) (value : Byte) :
    Changed d (d.writeBoard idx address value) := by
  unfold writeBoard
  split
  · exact .refl
  by_cases hrole : d.boardRole idx = .fastRam
  · rw [hrole]
    simp only [writeRole]
    split
    · rename_i mem hmem
      exact .single (.fast hmem _ [value])
    · exact .refl
  · exact (driven_writeRole d hrole _ value).changed

end BusDevices

namespace MachineBus

open BusDevices

variable {δ ρ π : Type} (b : MachineBus δ ρ π) (address : Long)

theorem devices_requestBoundary (before : Nat) :
    (b.requestBoundary before).devices = b.devices := by
  unfold requestBoundary
  split <;> rfl

variable [BlockDevice δ] [PacketBackend ρ] [PciBackend π]

theorem stirred_flush : Stirred b.devices b.flush.devices := by
  unfold flush
  split
  · exact .refl
  · exact stirred_tickExact _ _

theorem stirred_tick (cpuClocks : Long) : Stirred b.devices (b.tick cpuClocks).devices := by
  unfold tick
  dsimp only
  split
  · exact stirred_flush { b with pendingClocks := min (b.pendingClocks + cpuClocks.toNat) u32Max }
  · exact .refl

theorem stirred_readCia : Stirred b.devices (b.readCia address).2.devices := by
  unfold readCia
  dsimp only
  split
  · exact (stirred_flush b).tail (.readCiaA _)
  · exact (stirred_flush b).tail (.readCiaB _)

theorem stirred_readCustomWord : Stirred b.devices (b.readCustomWord address).2.devices :=
  (stirred_flush b).tail (.readCustom _)

theorem stirred_readByte : Stirred b.devices (b.readByte address).2.devices := by
  have hslow : Stirred b.devices (b.readByteSlow address).2.devices := by
    unfold readByteSlow
    dsimp only
    split_ifs
    -- The arms are in the order of the address map.
    · exact .refl
    · exact .refl
    · exact .refl
    · exact stirred_readCia b address
    · exact stirred_readCustomWord b _
    · exact .refl
    · exact .refl
    · split
      · rw [devices_requestBoundary]
        exact stirred_readBoard _ _ _
      · exact .refl
  unfold readByte
  split
  · exact .refl
  · exact hslow

variable {value : Long} {b' : MachineBus δ ρ π}

theorem stirred_apertureLoad {width : AccessWidth}
    (h : b.apertureLoad address width = some (value, b')) : Stirred b.devices b'.devices := by
  unfold apertureLoad at h
  split at h
  · rename_i k c hk hc
    cases h
    exact .single (.readSized hc k width)
  · cases h

theorem stirred_readWord : Stirred b.devices (b.readWord address).2.devices := by
  unfold readWord
  split
  · exact stirred_readCustomWord b address
  · split
    · exact .refl
    · split
      · rename_i h
        exact stirred_apertureLoad b address h
      · exact (stirred_readByte b address).trans (stirred_readByte _ _)

theorem stirred_readLong : Stirred b.devices (b.readLong address).2.devices := by
  unfold readLong
  split
  · exact .refl
  · split
    · rename_i h
      exact stirred_apertureLoad b address h
    · exact (stirred_readWord b address).trans (stirred_readWord _ _)

theorem driven_writeCia (value : Byte) : Driven b.devices (b.writeCia address value).devices := by
  have hreg (d : BusDevices δ ρ π) (isCiaA : Bool) (reg : Nat) :
      Drive d (if isCiaA then writeCiaA d reg value else writeCiaB d reg value) := by
    split
    · exact .ciaA reg value
    · exact .ciaB reg value
  exact ((stirred_flush b).driven.tail (hreg _ _ _)).trans (stirred_reassert _).driven

theorem driven_writeCustomWord (value : Word) :
    Driven b.devices (b.writeCustomWord address value).devices := by
  unfold writeCustomWord
  dsimp only
  rw [devices_requestBoundary]
  exact (stirred_flush b).driven.tail (.custom _ value)

theorem driven_writeCustomByte (value : Byte) :
    Driven b.devices (b.writeCustomByte address value).devices :=
  (stirred_readCustomWord b _).driven.trans (driven_writeCustomWord _ _ _)

theorem driven_apertureStore {width : AccessWidth}
    (h : b.apertureStore address width value = some b') : Driven b.devices b'.devices := by
  unfold apertureStore at h
  split at h
  · rename_i k c hk hc
    have hwritten := ReflTransGen.single (Drive.writeSized hc k width value)
    have hcard := hwritten.trans (Stirred.driven (.single (.irqPending rfl)))
    dsimp only at h
    split at h
    · cases h
      rw [devices_requestBoundary]
      exact hcard.trans (stirred_raisePorts _ true).driven
    · cases h
      exact hcard
  · cases h

theorem changed_fastStore {d d' : BusDevices δ ρ π} {bs : List Byte}
    (h : fastStore d address bs = some d') : Changed d d' := by
  obtain ⟨region, off, hregion, -, rfl⟩ := fastStore_eq_some h
  cases region with
  | chip => exact .single (.chip off bs)
  | fast mem => exact .single (.fast (fastRegionMut_fast hregion).2.2 off bs)

theorem changed_writeByte (value : Byte) :
    Changed b.devices (b.writeByte address value).devices := by
  have hslow : Changed b.devices (b.writeByteSlow address value).devices := by
    unfold writeByteSlow
    split_ifs
    · exact .single (.config address value)
    · exact (driven_writeCia b address value).changed
    · exact (driven_writeCustomByte b address value).changed
    · split
      · exact changed_writeBoard b.devices _ address value
      · exact .refl
  unfold writeByte
  split
  · rename_i hstored
    exact changed_fastStore address hstored
  · split
    · exact .single (.chip _ [value])
    · rw [devices_requestBoundary]
      exact hslow

/-- A write that goes to the aperture, or on to narrower ones. -/
theorem changed_apertureStore_getD {fallback : MachineBus δ ρ π} (width : AccessWidth)
    (value : Long) (h : Changed b.devices fallback.devices) :
    Changed b.devices ((b.apertureStore address width value).getD fallback).devices := by
  cases hs : b.apertureStore address width value with
  | none => exact h
  | some b' => exact (driven_apertureStore b address hs).changed

theorem changed_writeWord (value : Word) :
    Changed b.devices (b.writeWord address value).devices := by
  unfold writeWord
  split
  · exact (driven_writeCustomWord b address value).changed
  · split
    · rename_i hstored
      exact changed_fastStore address hstored
    · exact changed_apertureStore_getD b address .w16 _
        ((changed_writeByte b _ _).trans (changed_writeByte _ _ _))

theorem changed_writeLong (value : Long) :
    Changed b.devices (b.writeLong address value).devices := by
  unfold writeLong
  split
  · rename_i hstored
    exact changed_fastStore address hstored
  · exact changed_apertureStore_getD b address .w32 _
      ((changed_writeWord b _ _).trans (changed_writeWord _ _ _))

/-- **Every operation of the guest is made of small steps.** -/
theorem changed_stepGuest (op : GuestOp) : Changed b.devices (b.stepGuest op).devices := by
  cases op with
  | tick cpuClocks => exact (stirred_tick b cpuClocks).changed
  | access a =>
    cases a with
    | readByte address => exact (stirred_readByte b address).changed
    | readWord address => exact (stirred_readWord b address).changed
    | readLong address => exact (stirred_readLong b address).changed
    | writeByte address value => exact changed_writeByte b address value
    | writeWord address value => exact changed_writeWord b address value
    | writeLong address value => exact changed_writeLong b address value

end MachineBus

end M68kMachine
