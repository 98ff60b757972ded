import M68kMachine.Core.Autoconfig
import M68kMachine.Core.GuestRam

/-!
# The `pcibridge` shim and the virtual PCI bus

The register file of `pcibridge.rs` over a PCI backend: configuration cycles composed in `CFG_*`
registers, a memory aperture, and the four INTx lines behind an enable mask. `VirtualPciBus`, the
backend of `pci.rs`, forwards to the devices in its slots.
-/

namespace M68kMachine

open Autoconfig

namespace Pci

/-- The address of a PCI function. -/
structure Bdf where
  bus : Byte
  device : Byte
  function : Byte
  deriving DecidableEq

/-- `AccessWidth::from_bytes`. -/
def accessWidthOfBytes (n : Byte) : Option AccessWidth :=
  if n = 1 then some .w8 else if n = 2 then some .w16 else if n = 4 then some .w32 else none

/-- The answer of an absent device, as wide as the access. -/
def allOnes : AccessWidth → Long
  | .w8 => 0xFF
  | .w16 => 0xFFFF
  | .w32 => 0xFFFFFFFF

/-- The interrupt pin register of configuration space. -/
abbrev interruptPin : Word := 0x3D

end Pci

open Pci

/-- What stands behind the bridge. -/
class PciBackend (π : Type) where
  configRead : π → Bdf → Word → AccessWidth → Long × π
  configWrite : π → Bdf → Word → AccessWidth → Long → π
  memRead : π → Quad → AccessWidth → Long × π
  memWrite : π → Quad → AccessWidth → Long → π
  intxLevels : π → Long × π
  tick {μ : Type} [GuestMemory μ] : π → μ → π × μ

/-- The INTx lines are levels: sampling them does not change them. -/
class LevelPciBackend (π : Type) [PciBackend π] : Prop where
  intxLevels_again (b : π) :
    (PciBackend.intxLevels (PciBackend.intxLevels b).2).1 = (PciBackend.intxLevels b).1

/-- A backend stores to guest memory only through the borrow it is handed. -/
class LawfulPciBackend (π : Type) [PciBackend π] : Prop where
  touched_tick {μ : Type} [GuestMemory μ] (b : π) (mem : μ) :
    GuestMemory.Touched mem (PciBackend.tick b mem).2

/-- A machine without the bridge has no backend. -/
instance : PciBackend Empty where
  configRead b := nomatch b
  configWrite b := nomatch b
  memRead b := nomatch b
  memWrite b := nomatch b
  intxLevels b := nomatch b
  tick b := nomatch b

instance : LevelPciBackend Empty where
  intxLevels_again b := nomatch b

instance : LawfulPciBackend Empty where
  touched_tick b := nomatch b

/-! ## The virtual bus -/

/-- A function on the virtual bus. -/
class PciDevice (δ : Type) where
  configRead : δ → Word → AccessWidth → Long × δ
  configWrite : δ → Word → AccessWidth → Long → δ
  /-- The base and length of a BAR that decodes. -/
  barWindow : δ → Nat → Option (Quad × Quad)
  barRead : δ → Nat → Quad → AccessWidth → Long × δ
  barWrite : δ → Nat → Quad → AccessWidth → Long → δ
  intxLevel : δ → Bool
  tick {μ : Type} [GuestMemory μ] : δ → μ → δ × μ

structure VirtualSlot (δ : Type) where
  bdf : Bdf
  device : δ

/-- The functions of the virtual bus, in the order the host attached them. -/
structure VirtualPciBus (δ : Type) where
  devices : List (VirtualSlot δ)

namespace VirtualPciBus

variable {δ : Type} [PciDevice δ]

/-- Replace the device in a slot. -/
def setDevice (v : VirtualPciBus δ) (i : Nat) (device : δ) : VirtualPciBus δ :=
  { v with devices := v.devices.modify i fun slot => { slot with device := device } }

/-- The first slot that holds the function. -/
def find (v : VirtualPciBus δ) (bdf : Bdf) : Option (Nat × VirtualSlot δ) :=
  (v.devices.zipIdx.find? fun slot => slot.1.bdf = bdf).map fun slot => (slot.2, slot.1)

/-- The BAR of a device that decodes an address, and the offset into it. -/
def decode (device : δ) (addr : Quad) : Option (Nat × Quad) :=
  (List.range 6).findSome? fun bar =>
    match PciDevice.barWindow device bar with
    | some (base, len) =>
      if base.toNat ≤ addr.toNat ∧ addr.toNat - base.toNat < len.toNat then some (bar, addr - base)
      else none
    | none => none

/-- The first slot with a BAR that decodes an address. -/
def target (v : VirtualPciBus δ) (addr : Quad) : Option (Nat × δ × Nat × Quad) :=
  v.devices.zipIdx.findSome? fun slot =>
    (decode slot.1.device addr).map fun hit => (slot.2, slot.1.device, hit.1, hit.2)

/-- The line of one slot, by the device's own interrupt pin. -/
def slotLevel (levels : Long) (slot : VirtualSlot δ) : Long × VirtualSlot δ :=
  if PciDevice.intxLevel slot.device then
    let (value, device) := PciDevice.configRead slot.device interruptPin .w8
    let pin := value.toNat % 0x100
    (if 1 ≤ pin ∧ pin ≤ 4 then levels ||| ((1 : Long) <<< (pin - 1)) else levels,
      { slot with device := device })
  else (levels, slot)

/-- The lines of every slot, each device sampled in turn. -/
def levelsOf (levels : Long) : List (VirtualSlot δ) → Long × List (VirtualSlot δ)
  | [] => (levels, [])
  | slot :: rest =>
    let (levels, slot) := slotLevel levels slot
    let (levels, rest) := levelsOf levels rest
    (levels, slot :: rest)

def tickAll {μ : Type} [GuestMemory μ] : List (VirtualSlot δ) → μ → List (VirtualSlot δ) × μ
  | [], mem => ([], mem)
  | slot :: rest, mem =>
    let (device, mem) := PciDevice.tick slot.device mem
    let (rest, mem) := tickAll rest mem
    ({ slot with device := device } :: rest, mem)

instance : PciBackend (VirtualPciBus δ) where
  configRead v bdf offset width :=
    match v.find bdf with
    | some (i, slot) =>
      let (value, device) := PciDevice.configRead slot.device offset width
      (value, v.setDevice i device)
    | none => (allOnes width, v)
  configWrite v bdf offset width value :=
    match v.find bdf with
    | some (i, slot) => v.setDevice i (PciDevice.configWrite slot.device offset width value)
    | none => v
  memRead v addr width :=
    match v.target addr with
    | some (i, device, bar, rel) =>
      let (value, device) := PciDevice.barRead device bar rel width
      (value, v.setDevice i device)
    | none => (allOnes width, v)
  memWrite v addr width value :=
    match v.target addr with
    | some (i, device, bar, rel) => v.setDevice i (PciDevice.barWrite device bar rel width value)
    | none => v
  intxLevels v := ((levelsOf 0 v.devices).1, ⟨(levelsOf 0 v.devices).2⟩)
  tick v mem := (⟨(tickAll v.devices mem).1⟩, (tickAll v.devices mem).2)

end VirtualPciBus

namespace Pcibridge

abbrev manufacturer : Word := 0x07DB
abbrev product : Byte := 6
abbrev windowBytes : Nat := 0x01000000
abbrev protocolVersion : Long := 2
abbrev apertureBaseOffset : Nat := 0x00800000

/-! ### Register offsets (`mod reg`) -/

namespace Reg

abbrev version : Nat := 0x00
abbrev cfgAddr : Nat := 0x04
abbrev cfgWidth : Nat := 0x08
abbrev cfgData : Nat := 0x0C
abbrev cfgOp : Nat := 0x10
abbrev cfgStatus : Nat := 0x14
abbrev apertureBase : Nat := 0x18
abbrev intxStatus : Nat := 0x1C
abbrev intxEnable : Nat := 0x20
abbrev intxTest : Nat := 0x24

end Reg

/-! ### `CFG_STATUS` bits (`mod status`) -/

namespace Status

abbrev rejected : Byte := 0x01
abbrev completed : Byte := 0x02

end Status

end Pcibridge

open Pcibridge

structure PciBridge (π : Type) where
  backend : π
  cfgAddr : Long
  cfgWidth : Byte
  cfgData : Long
  cfgStatus : Byte
  apertureBase : Long
  intxEnable : Byte
  intxTest : Byte

namespace PciBridge

variable {π μ : Type}

def new (backend : π) : PciBridge π where
  backend := backend
  cfgAddr := 0
  cfgWidth := 0
  cfgData := 0
  cfgStatus := 0
  apertureBase := 0
  intxEnable := 0
  intxTest := 0

def boardSpec : BoardSpec where
  boardType := ertZorroIII
  product := product
  flags := erffZorroIII ||| erffExtended
  manufacturer := manufacturer
  serial := 0
  initDiagVec := 0
  sizeBytes := BitVec.ofNat 32 windowBytes

/-- Byte lanes swapped across the width of the access. -/
def swapLanes (value : Long) : AccessWidth → Long
  | .w8 => value
  | .w16 => (be16 (byteOf value 3) (byteOf value 2)).setWidth 32
  | .w32 => be32 (byteOf value 3) (byteOf value 2) (byteOf value 1) (byteOf value 0)

/-- The function `CFG_ADDR` names. -/
def cfgBdf (d : PciBridge π) : Bdf where
  bus := (d.cfgAddr >>> 20).setWidth 8
  device := (d.cfgAddr >>> 15).setWidth 8 &&& 0x1F
  function := (d.cfgAddr >>> 12).setWidth 8 &&& 0x7

/-- The PCI memory address `k` bytes into the aperture. -/
def apertureAddr (d : PciBridge π) (k : Nat) : Quad :=
  d.apertureBase.setWidth 64 + BitVec.ofNat 64 k

variable [PciBackend π]

/-- A configuration cycle. Ill-formed operations are rejected before the backend is reached. -/
def cfgOp (d : PciBridge π) (op : Byte) : PciBridge π :=
  if 1 < op.toNat ∨ d.cfgAddr &&& 0xF0000000 ≠ 0 then { d with cfgStatus := Status.rejected }
  else
    match accessWidthOfBytes d.cfgWidth with
    | none => { d with cfgStatus := Status.rejected }
    | some width =>
      let offset : Word := d.cfgAddr.setWidth 16 &&& 0x0FFF
      if offset.toNat % width.bytes ≠ 0 then { d with cfgStatus := Status.rejected }
      else if op = 0 then
        let (data, backend) := PciBackend.configRead d.backend d.cfgBdf offset width
        { d with cfgData := data, backend := backend, cfgStatus := Status.completed }
      else
        { d with
          backend := PciBackend.configWrite d.backend d.cfgBdf offset width d.cfgData
          cfgStatus := Status.completed }

/-- One access to the aperture. -/
def memRead (d : PciBridge π) (k : Nat) (width : AccessWidth) : Long × PciBridge π :=
  let (value, backend) := PciBackend.memRead d.backend (d.apertureAddr k) width
  (value, { d with backend := backend })

def memWrite (d : PciBridge π) (k : Nat) (width : AccessWidth) (value : Long) : PciBridge π :=
  { d with backend := PciBackend.memWrite d.backend (d.apertureAddr k) width value }

def readAperture (d : PciBridge π) (k : Nat) : Byte × PciBridge π :=
  let (value, d) := d.memRead k .w8
  (value.setWidth 8, d)

def writeAperture (d : PciBridge π) (k : Nat) (value : Byte) : PciBridge π :=
  d.memWrite k .w8 (value.setWidth 32)

def readApertureSized (d : PciBridge π) (k : Nat) (width : AccessWidth) : Long × PciBridge π :=
  let (value, d) := d.memRead k width
  (swapLanes value width, d)

def writeApertureSized (d : PciBridge π) (k : Nat) (width : AccessWidth) (value : Long) :
    PciBridge π :=
  d.memWrite k width (swapLanes value width)

/-- The four lines as the guest sees them, the test register's included. -/
def intxStatus (d : PciBridge π) : Byte × PciBridge π :=
  let (levels, backend) := PciBackend.intxLevels d.backend
  (((levels ||| d.intxTest.setWidth 32) &&& 0x0F).setWidth 8, { d with backend := backend })

/-- Whether the card asserts INT2. Asking samples the backend. -/
def irqPending (d : PciBridge π) : Bool × PciBridge π :=
  (d.intxStatus.1 &&& d.intxEnable ≠ 0, d.intxStatus.2)

def tick [GuestMemory μ] (d : PciBridge π) (mem : μ) : PciBridge π × μ :=
  let (backend, mem) := PciBackend.tick d.backend mem
  ({ d with backend := backend }, mem)

/-- Whether an offset falls in the aperture half of the window. -/
def inAperture (o : Nat) : Bool := apertureBaseOffset ≤ o && o < windowBytes

def read (d : PciBridge π) (o : Nat) : Byte × PciBridge π :=
  if inSlot o Reg.version then (byteOf protocolVersion (o - Reg.version), d)
  else if inSlot o Reg.cfgAddr then (byteOf d.cfgAddr (o - Reg.cfgAddr), d)
  else if inSlot o Reg.cfgWidth then (lowByte o Reg.cfgWidth d.cfgWidth, d)
  else if inSlot o Reg.cfgData then (byteOf d.cfgData (o - Reg.cfgData), d)
  else if inSlot o Reg.cfgOp then (0, d)
  else if inSlot o Reg.cfgStatus then (lowByte o Reg.cfgStatus d.cfgStatus, d)
  else if inSlot o Reg.apertureBase then (byteOf d.apertureBase (o - Reg.apertureBase), d)
  else if inSlot o Reg.intxStatus then
    let (status, d) := d.intxStatus
    (lowByte o Reg.intxStatus status, d)
  else if inSlot o Reg.intxEnable then (lowByte o Reg.intxEnable d.intxEnable, d)
  else if inSlot o Reg.intxTest then (lowByte o Reg.intxTest d.intxTest, d)
  else if inAperture o then d.readAperture (o - apertureBaseOffset)
  else (0, d)

def write (d : PciBridge π) (o : Nat) (value : Byte) : PciBridge π :=
  if inSlot o Reg.version then d
  else if inSlot o Reg.cfgAddr then
    { d with cfgAddr := setByteOf d.cfgAddr (o - Reg.cfgAddr) value }
  else if inSlot o Reg.cfgWidth then
    if o - Reg.cfgWidth = 3 then { d with cfgWidth := value } else d
  else if inSlot o Reg.cfgData then
    { d with cfgData := setByteOf d.cfgData (o - Reg.cfgData) value }
  else if inSlot o Reg.cfgOp then if o - Reg.cfgOp = 3 then d.cfgOp value else d
  else if inSlot o Reg.cfgStatus then
    if o - Reg.cfgStatus = 3 then { d with cfgStatus := d.cfgStatus &&& ~~~value } else d
  else if inSlot o Reg.apertureBase then
    { d with apertureBase := setByteOf d.apertureBase (o - Reg.apertureBase) value }
  else if inSlot o Reg.intxStatus then d
  else if inSlot o Reg.intxEnable then
    if o - Reg.intxEnable = 3 then { d with intxEnable := value &&& 0x0F } else d
  else if inSlot o Reg.intxTest then
    if o - Reg.intxTest = 3 then { d with intxTest := value &&& 0x0F } else d
  else if inAperture o then d.writeAperture (o - apertureBaseOffset) value
  else d

/-! ## The interrupt line -/

/-- **Asking for the interrupt line does not move it.** -/
theorem irqPending_again [LevelPciBackend π] (d : PciBridge π) :
    d.irqPending.2.irqPending.1 = d.irqPending.1 := by
  unfold irqPending intxStatus
  simp only [LevelPciBackend.intxLevels_again d.backend]

theorem touched_tick [LawfulPciBackend π] [GuestMemory μ] (d : PciBridge π) (mem : μ) :
    GuestMemory.Touched mem (d.tick mem).2 := LawfulPciBackend.touched_tick d.backend mem

end PciBridge

end M68kMachine
