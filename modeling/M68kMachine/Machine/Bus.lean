import M68kMachine.Machine.Devices

/-!
# The machine bus

`MachineBus` of `lib.rs`: the devices behind a lazy clock and the decoding of every CPU access.
`tick` only counts; `flush` applies the clocks, at the deadline `recomputeNextEvent` found or before
an access that could see them.

* `tick`, `flush`, `recomputeNextEvent` — the lazy clock
* `fastRegion`, `fastRegionMut` — the regions an access reaches without the decoding chain
* `readByte` … `writeLong` — the accesses
* `BusOp`, `run` — everything the guest and the host can do to a bus
-/

namespace M68kMachine

abbrev overlayEnd : Nat := 0x00080000
abbrev ciaBase : Nat := 0x00A00000
abbrev ciaEnd : Nat := 0x00C00000
abbrev customBase : Nat := 0x00DFF000
abbrev customEnd : Nat := 0x00E00000

/-- `u32::MAX`. -/
abbrev u32Max : Nat := 0xFFFFFFFF

structure MachineBus (δ ρ π : Type) where
  devices : BusDevices δ ρ π
  /-- The clocks ticked since the last flush. -/
  pendingClocks : Nat
  /-- How many clocks after the last flush something could change on its own. -/
  nextEventClocks : Nat
  boundaryRequest : Bool

namespace MachineBus

variable {δ ρ π : Type}

def pendingIrqLevel (b : MachineBus δ ρ π) : Nat := b.devices.chipset.pendingLevel

def frames (b : MachineBus δ ρ π) : Nat := b.devices.chipset.frames

/-- Change the devices only. -/
def mapDevices (b : MachineBus δ ρ π) (f : BusDevices δ ρ π → BusDevices δ ρ π) :
    MachineBus δ ρ π :=
  { b with devices := f b.devices }

/-! ## The lazy clock -/

/-- The nearest of the next raster line and the two CIAs' next events, never zero. -/
def deadline (d : BusDevices δ ρ π) : Nat :=
  let line := d.chipset.clocksUntilLineBoundary cpuClocksPerColourClock
  let orA := (d.ciaA.clocksUntilEvent cpuClocksPerEclock).elim line (min line)
  let orB := (d.ciaB.clocksUntilEvent cpuClocksPerEclock).elim orA (min orA)
  max orB 1

def recomputeNextEvent (b : MachineBus δ ρ π) : MachineBus δ ρ π :=
  { b with nextEventClocks := deadline b.devices }

def new (chipRam : Buffer Byte chipRamSize) (rom : ByteSlice) : MachineBus δ ρ π :=
  recomputeNextEvent
    { devices := BusDevices.new chipRam rom
      pendingClocks := 0
      nextEventClocks := 1
      boundaryRequest := false }

/-- Note in the boundary request that the interrupt level moved away from `before`. -/
def requestBoundary (b : MachineBus δ ρ π) (before : Nat) : MachineBus δ ρ π :=
  if b.pendingIrqLevel ≠ before then { b with boundaryRequest := true } else b

def takeBoundaryRequest (b : MachineBus δ ρ π) : Bool × MachineBus δ ρ π :=
  (b.boundaryRequest, { b with boundaryRequest := false })

def nextEventDeadlineClocks (b : MachineBus δ ρ π) : Nat :=
  max (b.nextEventClocks - b.pendingClocks) 1

variable [BlockDevice δ] [PacketBackend ρ] [PciBackend π]

def flush (b : MachineBus δ ρ π) : MachineBus δ ρ π :=
  if b.pendingClocks = 0 then b
  else
    { b with devices := b.devices.tickExact b.pendingClocks, pendingClocks := 0 }.recomputeNextEvent

/-- Advance time by `cpuClocks`, by counting them until the deadline is reached. -/
def tick (b : MachineBus δ ρ π) (cpuClocks : Long) : MachineBus δ ρ π :=
  let b := { b with pendingClocks := min (b.pendingClocks + cpuClocks.toNat) u32Max }
  if b.nextEventClocks ≤ b.pendingClocks then b.flush else b

/-! ## Regions reached without the decoding chain -/

/-- The address lies in `base … last - 1`. -/
def inRange (base last : Nat) (address : Long) : Bool :=
  base ≤ address.toNat && address.toNat < last

theorem inRange_iff {base last : Nat} {address : Long} :
    inRange base last address = true ↔ base ≤ address.toNat ∧ address.toNat < last := by
  simp [inRange]

theorem inRange_eq_false {base last : Nat} {address : Long} :
    inRange base last address = false ↔ address.toNat < base ∨ last ≤ address.toNat := by
  simp only [inRange, Bool.and_eq_false_iff, decide_eq_false_iff_not]
  omega

/-- The overlay answers for reads here. -/
def overlaid (d : BusDevices δ ρ π) (address : Long) : Bool :=
  d.overlay && address.toNat < overlayEnd

/-- The offset of `address` in fast RAM's placed window. -/
def fastOffset (r : GuestRam) (address : Long) : Option Nat :=
  match r.fastWindow with
  | none => none
  | some (base, len) =>
    if base.toNat ≤ address.toNat ∧ address.toNat - base.toNat < len.toNat then
      some (address.toNat - base.toNat)
    else none

/-- The slice behind an address that is read, and an offset that may be past its end. -/
def fastRegion (d : BusDevices δ ρ π) (address : Long) : Option (ByteSlice × Nat) :=
  if inRange chipRamBase chipRamEnd address && !overlaid d address then
    some (⟨chipRamSize, d.ram.chipRam⟩, address.toNat)
  else
    match fastOffset d.ram address with
    | some off => d.ram.fastRam.map fun mem => (mem, off)
    | none =>
      if d.rom.size = romWindowSize ∧ inRange romBase romEnd address then
        some (d.rom, address.toNat - romBase)
      else none

/-- The RAM region behind an address that is written. -/
inductive RamRegion
  | chip
  | fast (mem : ByteSlice)

def RamRegion.size : RamRegion → Nat
  | .chip => chipRamSize
  | .fast mem => mem.size

/-- `fast_region_mut`. The overlay does not cover writes. -/
def fastRegionMut (r : GuestRam) (address : Long) : Option (RamRegion × Nat) :=
  if inRange chipRamBase chipRamEnd address then some (.chip, address.toNat)
  else
    match fastOffset r address with
    | some off => r.fastRam.map fun mem => (.fast mem, off)
    | none => none

/-- Store bytes into a region from `off` on. -/
def storeRegion (r : GuestRam) : RamRegion → Nat → List Byte → GuestRam
  | .chip, off, bs => { r with chipRam := r.chipRam.setFrom off bs }
  | .fast mem, off, bs => { r with fastRam := some { mem with bytes := mem.bytes.setFrom off bs } }

/-- `get_mut(off..off + n)` and the store through it; `none` when the span leaves the slice. -/
def fastStore (d : BusDevices δ ρ π) (address : Long) (bs : List Byte) :
    Option (BusDevices δ ρ π) :=
  match fastRegionMut d.ram address with
  | none => none
  | some (region, off) =>
    if off + bs.length ≤ region.size then
      some { d with ram := storeRegion d.ram region off bs }
    else none

/-- `get(off..off + n)` at an address. -/
def fastLoad (d : BusDevices δ ρ π) (address : Long) (n : Nat) : Option (List Byte) :=
  match fastRegion d address with
  | none => none
  | some (region, off) => (List.range n).mapM fun i => region.get? (off + i)

/-! ## CIA and custom-chip accesses -/

/-- CIA-A answers at odd addresses; the register is in bits 8 to 11. -/
def ciaSelect (address : Long) : Bool × Nat :=
  (address &&& 1 ≠ 0, ((address >>> 8) &&& 0x0F).toNat)

def readCia (b : MachineBus δ ρ π) (address : Long) : Byte × MachineBus δ ρ π :=
  let b := b.flush
  let (isCiaA, reg) := ciaSelect address
  if isCiaA then
    ((b.devices.ciaA.read reg).1,
      b.mapDevices fun d => { d with ciaA := (d.ciaA.read reg).2 })
  else
    ((b.devices.ciaB.read reg).1,
      b.mapDevices fun d => { d with ciaB := (d.ciaB.read reg).2 })

/-- CIA-A's port A drives the overlay. -/
def writeCiaA (d : BusDevices δ ρ π) (reg : Nat) (value : Byte) : BusDevices δ ρ π :=
  let ciaA := d.ciaA.write reg value
  { d with ciaA := ciaA, overlay := ciaA.ovlAsserted }

/-- CIA-B's port B drives the floppy. -/
def writeCiaB (d : BusDevices δ ρ π) (reg : Nat) (value : Byte) : BusDevices δ ρ π :=
  let ciaB := d.ciaB.write reg value
  if reg % 16 = Cia.Reg.prb then
    { d with ciaB := ciaB, floppy := d.floppy.onPrbWrite d.ciaB.prb ciaB.prb }.syncFloppyStatus
  else { d with ciaB := ciaB }

def writeCia (b : MachineBus δ ρ π) (address : Long) (value : Byte) : MachineBus δ ρ π :=
  let b := b.flush
  let (isCiaA, reg) := ciaSelect address
  let b := b.mapDevices fun d => if isCiaA then writeCiaA d reg value else writeCiaB d reg value
  b.recomputeNextEvent.mapDevices BusDevices.reassertLevelIrqs

/-- The register offset of a custom-chip address. -/
def customOffset (address : Long) : Nat :=
  ((address - BitVec.ofNat 32 customBase) &&& 0x1FE).toNat

/-- A custom-chip register as the devices answer it. -/
def readCustomReg (d : BusDevices δ ρ π) (offset : Nat) : Word × BusDevices δ ρ π :=
  if Blitter.Reg.isBlitter offset then (d.blitter.read offset, d)
  else
    let (value, chipset) := d.chipset.read offset
    -- `BBUSY` and `BZERO` are read through `DMACONR`
    (if offset = Chipset.Reg.dmaconr then value ||| d.blitter.dmaconrBits else value,
      { d with chipset := chipset })

def readCustomWord (b : MachineBus δ ρ π) (address : Long) : Word × MachineBus δ ρ π :=
  let b := b.flush
  ((readCustomReg b.devices (customOffset address)).1,
    b.mapDevices fun d => (readCustomReg d (customOffset address)).2)

/-- Run an armed blit to completion and raise its interrupt. -/
def runBlitter (d : BusDevices δ ρ π) : BusDevices δ ρ π :=
  let (ran, blitter, mem) := d.blitter.executeLogged ⟨d.ram.chipRam, d.ram.writeLog⟩
  let d :=
    { d with
      blitter := blitter
      ram := { d.ram with chipRam := mem.ram, writeLog := mem.log } }
  if ran then d.raiseInt Chipset.Intbit.blit else d

def writeCustomReg (d : BusDevices δ ρ π) (offset : Nat) (value : Word) : BusDevices δ ρ π :=
  if Blitter.Reg.isBlitter offset then
    let (armed, blitter) := d.blitter.write offset value
    let d := { d with blitter := blitter }
    if armed then runBlitter d else d
  else { d with chipset := d.chipset.write offset value }.reassertLevelIrqs

def writeCustomWord (b : MachineBus δ ρ π) (address : Long) (value : Word) : MachineBus δ ρ π :=
  let written := b.flush.mapDevices fun d => writeCustomReg d (customOffset address) value
  written.requestBoundary b.pendingIrqLevel

/-! ## Byte accesses -/

def evenAddress (address : Long) : Long := address &&& ~~~1

/-- A byte of a word-wide register. -/
def readCustomByte (b : MachineBus δ ρ π) (address : Long) : Byte × MachineBus δ ρ π :=
  let (word, b) := b.readCustomWord (evenAddress address)
  (if address &&& 1 = 0 then (word >>> 8).setWidth 8 else word.setWidth 8, b)

/-- The decoding chain of `read_byte` behind the fast path. -/
def readByteSlow (b : MachineBus δ ρ π) (address : Long) : Byte × MachineBus δ ρ π :=
  let d := b.devices
  if overlaid d address then (readMirrored d.rom 0 address, b)
  else if h : address.toNat < chipRamEnd then (d.ram.chipRam ⟨address.toNat, h⟩, b)
  else if AutoConfig.respondsTo address then (d.autoconfig.read address, b)
  else if inRange ciaBase ciaEnd address then b.readCia address
  else if inRange customBase customEnd address then b.readCustomByte address
  else if inRange extRomBase (extRomBase + extRomWindowSize) address && d.extRom.size ≠ 0 then
    (readMirrored d.extRom extRomBase address, b)
  else if inRange romBase romEnd address && d.rom.size ≠ 0 then
    (readMirrored d.rom romBase address, b)
  else
    match d.autoconfig.boardAt address with
    | some idx =>
      ((d.readBoard idx address).1,
        (b.mapDevices fun d => (d.readBoard idx address).2).requestBoundary b.pendingIrqLevel)
    | none => (openBusByte, b)

def readByte (b : MachineBus δ ρ π) (address : Long) : Byte × MachineBus δ ρ π :=
  match (fastRegion b.devices address).bind fun region => region.1.get? region.2 with
  | some byte => (byte, b)
  | none => b.readByteSlow address

/-- A byte write to a word-wide register is merged into its value. -/
def writeCustomByte (b : MachineBus δ ρ π) (address : Long) (value : Byte) : MachineBus δ ρ π :=
  let aligned := evenAddress address
  let (current, b) := b.readCustomWord aligned
  let merged : Word :=
    if address &&& 1 = 0 then (current &&& 0x00FF) ||| (value.setWidth 16 <<< 8)
    else (current &&& 0xFF00) ||| value.setWidth 16
  b.writeCustomWord aligned merged

def writeByteSlow (b : MachineBus δ ρ π) (address : Long) (value : Byte) : MachineBus δ ρ π :=
  if AutoConfig.respondsTo address then
    b.mapDevices fun d =>
      { d with autoconfig := d.autoconfig.write address value }.refreshWindows
  else if inRange ciaBase ciaEnd address then b.writeCia address value
  else if inRange customBase customEnd address then b.writeCustomByte address value
  else
    match b.devices.autoconfig.boardAt address with
    | some idx => b.mapDevices fun d => d.writeBoard idx address value
    -- ROM and open bus discard the write
    | none => b

def writeByte (b : MachineBus δ ρ π) (address : Long) (value : Byte) : MachineBus δ ρ π :=
  match fastStore b.devices address [value] with
  | some d => { b with devices := d }
  | none =>
    if address.toNat < chipRamEnd then
      b.mapDevices fun d =>
        { d with ram := { d.ram with chipRam := d.ram.chipRam.set address.toNat value } }
    else (b.writeByteSlow address value).requestBoundary b.pendingIrqLevel

/-! ## Word and longword accesses -/

def pcibridgeTarget (d : BusDevices δ ρ π) (address : Long) : Option Nat :=
  match d.pcibridgeWindow with
  | none => none
  | some (base, len) =>
    if address.toNat < base.toNat ∨ len.toNat ≤ address.toNat - base.toNat then none
    else some (address.toNat - base.toNat)

/-- The aperture offset of a naturally aligned access to `pcibridge`. -/
def pcibridgeApertureSized (d : BusDevices δ ρ π) (address : Long) (width : AccessWidth) :
    Option Nat :=
  if address.toNat % width.bytes ≠ 0 then none
  else
    match pcibridgeTarget d address with
    | none => none
    | some offset =>
      if Pcibridge.apertureBaseOffset ≤ offset then some (offset - Pcibridge.apertureBaseOffset)
      else none

/-- A sized read of the aperture, when the access reaches an attached card's. -/
def apertureLoad (b : MachineBus δ ρ π) (address : Long) (width : AccessWidth) :
    Option (Long × MachineBus δ ρ π) :=
  match pcibridgeApertureSized b.devices address width, b.devices.pcibridge with
  | some k, some dev =>
    some ((dev.readApertureSized k width).1,
      b.mapDevices fun d => { d with pcibridge := some (dev.readApertureSized k width).2 })
  | _, _ => none

/-- A sized write to the aperture; the card is asked for its interrupt afterwards. -/
def apertureStore (b : MachineBus δ ρ π) (address : Long) (width : AccessWidth) (value : Long) :
    Option (MachineBus δ ρ π) :=
  match pcibridgeApertureSized b.devices address width, b.devices.pcibridge with
  | some k, some dev =>
    let (irq, dev) := (dev.writeApertureSized k width value).irqPending
    let b := b.mapDevices fun d => { d with pcibridge := some dev }
    some (if irq then (b.mapDevices (·.raisePorts true)).requestBoundary b.pendingIrqLevel else b)
  | _, _ => none

/-- Two byte reads in ascending order. -/
def readWordBytes (b : MachineBus δ ρ π) (address : Long) : Word × MachineBus δ ρ π :=
  let (hi, b) := b.readByte address
  let (lo, b) := b.readByte (address + 1)
  (be16 hi lo, b)

def readWord (b : MachineBus δ ρ π) (address : Long) : Word × MachineBus δ ρ π :=
  if !overlaid b.devices address && inRange customBase customEnd address then
    b.readCustomWord address
  else
    match fastLoad b.devices address 2 with
    | some bytes => (be16 (bytes.getD 0 0) (bytes.getD 1 0), b)
    | none =>
      match b.apertureLoad address .w16 with
      | some (value, b) => (value.setWidth 16, b)
      | none => b.readWordBytes address

def readLong (b : MachineBus δ ρ π) (address : Long) : Long × MachineBus δ ρ π :=
  match fastLoad b.devices address 4 with
  | some bytes =>
    (be32 (bytes.getD 0 0) (bytes.getD 1 0) (bytes.getD 2 0) (bytes.getD 3 0), b)
  | none =>
    match b.apertureLoad address .w32 with
    | some (value, b) => (value, b)
    | none =>
      let (hi, b) := b.readWord address
      let (lo, b) := b.readWord (address + 2)
      (hi ++ lo, b)

/-- The two bytes of a word, most significant first. -/
def toBytes16 (value : Word) : List Byte := [(value >>> 8).setWidth 8, value.setWidth 8]

def writeWordBytes (b : MachineBus δ ρ π) (address : Long) (value : Word) : MachineBus δ ρ π :=
  (b.writeByte address ((value >>> 8).setWidth 8)).writeByte (address + 1) (value.setWidth 8)

def writeWord (b : MachineBus δ ρ π) (address : Long) (value : Word) : MachineBus δ ρ π :=
  if inRange customBase customEnd address then b.writeCustomWord address value
  else
    match fastStore b.devices address (toBytes16 value) with
    | some d => { b with devices := d }
    | none =>
      (b.apertureStore address .w16 (value.setWidth 32)).getD (b.writeWordBytes address value)

def writeLong (b : MachineBus δ ρ π) (address : Long) (value : Long) : MachineBus δ ρ π :=
  match fastStore b.devices address (toBytes32 value) with
  | some d => { b with devices := d }
  | none =>
    (b.apertureStore address .w32 value).getD
      ((b.writeWord address ((value >>> 16).setWidth 16)).writeWord (address + 2)
        (value.setWidth 16))

end MachineBus

end M68kMachine
