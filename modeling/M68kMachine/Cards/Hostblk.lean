import M68kMachine.Core.Autoconfig
import M68kMachine.Core.Block
import M68kMachine.Core.GuestMemory
import M68kMachine.Library.RingBuffer

/-!
# The `hostblk` doorbell block card

The register file and transfer engine of `hostblk.rs`. The driver writes the address of a 20-byte
descriptor to `DOORBELL`; it waits in the submission ring until `tick` executes it and appends the
result to the completion ring, which the driver reads at `COMPLETION_PTR` and retires with
`COMPLETION_ADVANCE`.

The card is generic in the block device behind its units and in the guest memory.
-/

namespace M68kMachine

open Autoconfig

namespace Hostblk

abbrev manufacturer : Word := 0x07DB
abbrev product : Byte := 1
abbrev windowBytes : Long := 0x01000000
abbrev romBase : Nat := 0x1000
abbrev unitCount : Nat := 8
abbrev submitQueueCapacity : Nat := 8
abbrev completionQueueCapacity : Nat := 8
abbrev descLen : Long := 20
abbrev protocolVersion : Long := 1

/-! ### Register offsets (`mod reg`) -/

namespace Reg

abbrev unitSelect : Nat := 0x00
abbrev unitPresent : Nat := 0x04
abbrev unitWriteProtect : Nat := 0x08
abbrev unitChangeCount : Nat := 0x0C
abbrev unitSectorsHi : Nat := 0x10
abbrev unitSectorsLo : Nat := 0x14
abbrev doorbell : Nat := 0x18
abbrev submitOverflow : Nat := 0x1C
abbrev completionPtr : Nat := 0x20
abbrev completionError : Nat := 0x24
abbrev completionActual : Nat := 0x28
abbrev completionAdvance : Nat := 0x2C
abbrev completionCount : Nat := 0x30
abbrev intEnable : Nat := 0x34
abbrev submitCapacity : Nat := 0x38
abbrev version : Nat := 0x3C

end Reg

/-! ### Descriptor commands and completion error codes (`mod cmd`, `mod err`) -/

namespace Cmd

abbrev read : Byte := 1
abbrev write : Byte := 2
abbrev flush : Byte := 3

end Cmd

namespace Err

abbrev ok : Byte := 0
abbrev badUnit : Byte := 1
abbrev writeProtected : Byte := 2
abbrev invalidCommand : Byte := 3
abbrev invalidLength : Byte := 4
abbrev misaligned : Byte := 5
abbrev outOfRange : Byte := 6
abbrev badAddress : Byte := 7
abbrev ioError : Byte := 8

end Err

/-- The structure a doorbell write names by address. -/
structure Descriptor where
  command : Byte
  unit : Byte
  length : Long
  offset : Quad
  buffer : Long

/-- One completion: the submitted pointer, the result and the bytes moved. -/
structure CompletionEntry where
  ptr : Long
  error : Byte
  actual : Long
  deriving DecidableEq, Inhabited

/-- `Ring<T, N>`. -/
abbrev Ring (α : Type) (n : Nat) := RingBuffer α n

/-- An attached unit: its backing store, write protection and media-change counter. -/
structure AttachedUnit (δ : Type) where
  device : δ
  writeProtect : Bool
  changeCount : Long

end Hostblk

open Hostblk

/-- `hostblk`'s register file and transfer engine. `diagRom` is the constant `DIAG_ROM`. -/
structure Hostblk (δ : Type) where
  units : Fin unitCount → Option (AttachedUnit δ)
  unitSelect : Byte
  doorbellAcc : Long
  submitQueue : Ring Long submitQueueCapacity
  submitOverflow : Long
  completionQueue : Ring CompletionEntry completionQueueCapacity
  intEnable : Byte
  diagRom : List Byte

namespace Hostblk

variable {δ μ : Type}

def new (diagRom : List Byte) : Hostblk δ where
  units := fun _ => none
  unitSelect := 0
  doorbellAcc := 0
  submitQueue := RingBuffer.new (by decide)
  submitOverflow := 0
  completionQueue := RingBuffer.new (by decide)
  intEnable := 0
  diagRom := diagRom

def boardSpec : BoardSpec where
  boardType := ertZorroIII ||| ertfDiagvalid
  product := product
  flags := erffZorroIII ||| erffExtended
  manufacturer := manufacturer
  serial := 0
  initDiagVec := BitVec.ofNat 16 romBase
  sizeBytes := windowBytes

/-- The slot a unit number names; `none` when it is out of range. -/
def unitSlot (unit : Byte) : Option (Fin unitCount) :=
  if h : unit.toNat < unitCount then some ⟨unit.toNat, h⟩ else none

def setUnit (h : Hostblk δ) (u : Fin unitCount) (a : AttachedUnit δ) : Hostblk δ :=
  { h with units := fun i => if i = u then some a else h.units i }

/-- Attach a disk; an out-of-range unit is ignored. -/
def attachUnit (h : Hostblk δ) (unit : Byte) (device : δ) (writeProtect : Bool) : Hostblk δ :=
  match unitSlot unit with
  | some u => h.setUnit u ⟨device, writeProtect, 0⟩
  | none => h

/-- Bump a unit's media-change counter. -/
def notifyMediaChange (h : Hostblk δ) (unit : Byte) : Hostblk δ :=
  match unitSlot unit with
  | some u =>
    match h.units u with
    | some a => h.setUnit u { a with changeCount := a.changeCount + 1 }
    | none => h
  | none => h

def irqPending (h : Hostblk δ) : Bool := h.intEnable != 0 && h.completionQueue.len != 0

/-! ## The transfer engine -/

/-- Read a descriptor out of guest memory; `none` for a misaligned or unreachable pointer. -/
def readDescriptor [GuestMemory μ] (ptr : Long) (mem : μ) : Option Descriptor :=
  if ptr.toNat % 4 ≠ 0 then none
  else
    match GuestMemory.ramSlice mem ptr descLen with
    | none => none
    | some d =>
      let at32 (i : Nat) : Long :=
        be32 (d.getD i 0) (d.getD (i + 1) 0) (d.getD (i + 2) 0) (d.getD (i + 3) 0)
      some
        { command := d.getD 0 0
          unit := d.getD 1 0
          length := at32 4
          offset := be64 (at32 8) (at32 12)
          buffer := at32 16 }

/-- The attached unit a descriptor names. -/
def unitIndex (h : Hostblk δ) (unit : Byte) : Option (Fin unitCount × AttachedUnit δ) :=
  match unitSlot unit with
  | some u => (h.units u).map fun a => (u, a)
  | none => none

/-- `buf[off..off + 512]` as a sector. -/
def sectorAt (buf : List Byte) (off : Nat) : Sector := Vector.ofFn fun i => buf.getD (off + i) 0

/-- `buf[off..off + 512].copy_from_slice(&sector)`. -/
def storeSector (buf : List Byte) (off : Nat) (sector : Sector) : List Byte :=
  buf.take off ++ sector.toList ++ buf.drop (off + sectorBytes)

/-- What the sector loop leaves behind: error code, bytes moved, the device and the buffer. -/
structure TransferResult (δ : Type) where
  error : Byte
  actual : Long
  device : δ
  buf : List Byte

/-- The sector loop of `transfer` from index `i` on; `actual` counts the sectors that landed. -/
def transferSectors [BlockDevice δ] (isWrite : Bool) (startLba : Quad) :
    (remaining i : Nat) → δ → Sector → List Byte → Long → TransferResult δ
  | 0, _, dev, _, buf, actual => ⟨Err.ok, actual, dev, buf⟩
  | remaining + 1, i, dev, sectorBuf, buf, actual =>
    let lba := startLba + BitVec.ofNat 64 i
    let off := i * sectorBytes
    if isWrite then
      let sector := sectorAt buf off
      match BlockDevice.writeSector dev lba sector with
      | (false, dev) => ⟨Err.ioError, actual, dev, buf⟩
      | (true, dev) =>
        transferSectors isWrite startLba remaining (i + 1) dev sector buf (actual + 512)
    else
      match BlockDevice.readSector dev lba sectorBuf with
      | (false, _, dev) => ⟨Err.ioError, actual, dev, buf⟩
      | (true, sector, dev) =>
        transferSectors isWrite startLba remaining (i + 1) dev sector (storeSector buf off sector)
          (actual + 512)

/-- Run a `READ` or `WRITE` to completion, every guest-supplied field checked first. -/
def transfer [BlockDevice δ] [GuestMemory μ] (h : Hostblk δ) (u : Fin unitCount)
    (unit : AttachedUnit δ)
    (desc : Descriptor) (mem : μ) (isWrite : Bool) : (Byte × Long) × Hostblk δ × μ :=
  if isWrite && unit.writeProtect then ((Err.writeProtected, 0), h, mem)
  else if desc.length = 0 ∨ desc.length.toNat % sectorBytes ≠ 0 then
    ((Err.invalidLength, 0), h, mem)
  else if desc.offset.toNat % sectorBytes ≠ 0 then ((Err.misaligned, 0), h, mem)
  else
    let sectorCount := desc.length.toNat / sectorBytes
    let startLba := BitVec.ofNat 64 (desc.offset.toNat / sectorBytes)
    match checkedAdd startLba (BitVec.ofNat 64 sectorCount) with
    | none => ((Err.outOfRange, 0), h, mem)
    | some endLba =>
      if (BlockDevice.sectorCount unit.device).toNat < endLba.toNat then
        ((Err.outOfRange, 0), h, mem)
      else
        match GuestMemory.ramSliceMut mem desc.buffer desc.length with
        | none => ((Err.badAddress, 0), h, mem)
        | some (buf, put) =>
          let r := transferSectors isWrite startLba sectorCount 0 unit.device zeroSector buf 0
          ((r.error, r.actual), h.setUnit u { unit with device := r.device }, put r.buf)

/-- Execute the request at `ptr`: error code and byte count. -/
def execute [BlockDevice δ] [GuestMemory μ] (h : Hostblk δ) (ptr : Long) (mem : μ) :
    (Byte × Long) × Hostblk δ × μ :=
  match readDescriptor ptr mem with
  | none => ((Err.badAddress, 0), h, mem)
  | some desc =>
    match h.unitIndex desc.unit with
    | none => ((Err.badUnit, 0), h, mem)
    | some (u, unit) =>
      if desc.command = Cmd.read then h.transfer u unit desc mem false
      else if desc.command = Cmd.write then h.transfer u unit desc mem true
      else if desc.command = Cmd.flush then ((Err.ok, 0), h, mem)
      else ((Err.invalidCommand, 0), h, mem)

/-- `tick` with its `debug_assert!`: whether the completion was pushed, if a request ran. -/
def tickChecked [BlockDevice δ] [GuestMemory μ] (h : Hostblk δ) (mem : μ) :
    Option Bool × Hostblk δ × μ :=
  if h.completionQueue.isFull then (none, h, mem)
  else
    match h.submitQueue.pop with
    | (none, _) => (none, h, mem)
    | (some ptr, rest) =>
      let ((error, actual), h', mem') := execute { h with submitQueue := rest } ptr mem
      let (pushed, queue) := h'.completionQueue.push ⟨ptr, error, actual⟩
      (some pushed, { h' with completionQueue := queue }, mem')

/-- Execute at most one queued request. -/
def tick [BlockDevice δ] [GuestMemory μ] (h : Hostblk δ) (mem : μ) : Hostblk δ × μ :=
  (h.tickChecked mem).2

/-! ## The register file -/

/-- The attached unit `UNIT_SELECT` names. -/
def selectedUnit (h : Hostblk δ) : Option (AttachedUnit δ) :=
  match unitSlot h.unitSelect with
  | some u => h.units u
  | none => none

def read [BlockDevice δ] (h : Hostblk δ) (o : Nat) : Byte :=
  let sectors : Quad := (h.selectedUnit.map fun u => BlockDevice.sectorCount u.device).getD 0
  let head := h.completionQueue.peek
  if inSlot o Reg.unitSelect then lowByte o Reg.unitSelect h.unitSelect
  else if inSlot o Reg.unitPresent then lowByte o Reg.unitPresent (bit h.selectedUnit.isSome)
  else if inSlot o Reg.unitWriteProtect then
    lowByte o Reg.unitWriteProtect (bit (h.selectedUnit.any (·.writeProtect)))
  else if inSlot o Reg.unitChangeCount then
    byteOf ((h.selectedUnit.map (·.changeCount)).getD 0) (o - Reg.unitChangeCount)
  else if inSlot o Reg.unitSectorsHi then
    byteOf ((sectors >>> 32).setWidth 32) (o - Reg.unitSectorsHi)
  else if inSlot o Reg.unitSectorsLo then byteOf (sectors.setWidth 32) (o - Reg.unitSectorsLo)
  else if inSlot o Reg.submitOverflow then byteOf h.submitOverflow (o - Reg.submitOverflow)
  else if inSlot o Reg.completionPtr then
    byteOf ((head.map (·.ptr)).getD 0) (o - Reg.completionPtr)
  else if inSlot o Reg.completionError then
    lowByte o Reg.completionError ((head.map (·.error)).getD 0)
  else if inSlot o Reg.completionActual then
    byteOf ((head.map (·.actual)).getD 0) (o - Reg.completionActual)
  else if inSlot o Reg.completionCount then
    byteOf (BitVec.ofNat 32 h.completionQueue.len) (o - Reg.completionCount)
  else if inSlot o Reg.intEnable then lowByte o Reg.intEnable h.intEnable
  else if inSlot o Reg.submitCapacity then
    byteOf (BitVec.ofNat 32 submitQueueCapacity) (o - Reg.submitCapacity)
  else if inSlot o Reg.version then byteOf protocolVersion (o - Reg.version)
  else diagRomByte h.diagRom romBase o

/-- Queue a descriptor pointer, or drop it and count the drop when the ring is full. -/
def submit (h : Hostblk δ) (ptr : Long) : Hostblk δ :=
  match h.submitQueue.push ptr with
  | (true, queue) => { h with submitQueue := queue }
  | (false, _) => { h with submitOverflow := h.submitOverflow + 1 }

def write (h : Hostblk δ) (o : Nat) (value : Byte) : Hostblk δ :=
  if inSlot o Reg.unitSelect then
    if o - Reg.unitSelect = 3 then { h with unitSelect := value } else h
  else if inSlot o Reg.doorbell then
    let h := { h with doorbellAcc := setByteOf h.doorbellAcc (o - Reg.doorbell) value }
    if o - Reg.doorbell = 3 then h.submit h.doorbellAcc else h
  else if inSlot o Reg.completionAdvance then
    if o - Reg.completionAdvance = 3 then
      { h with completionQueue := h.completionQueue.pop.2 }
    else h
  else if inSlot o Reg.intEnable then
    if o - Reg.intEnable = 3 then { h with intEnable := value } else h
  else h

/-! ## What a tick does to memory -/

/-- A refused request leaves memory alone; one that runs stores what was read. -/
theorem touched_transfer [BlockDevice δ] [GuestMemory μ] (h : Hostblk δ) (u : Fin unitCount)
    (unit : AttachedUnit δ) (desc : Descriptor) (mem : μ) (isWrite : Bool) :
    GuestMemory.Touched mem (h.transfer u unit desc mem isWrite).2.2 := by
  unfold transfer
  split_ifs with hprotected hlength hoffset
  · exact .refl mem
  · exact .refl mem
  · exact .refl mem
  · dsimp only
    split
    · exact .refl mem
    · split_ifs with hend
      · exact .refl mem
      · cases hgrant : GuestMemory.ramSliceMut mem desc.buffer desc.length with
        | none => exact .refl mem
        | some view => exact .put _ (.refl mem) hgrant

theorem touched_execute [BlockDevice δ] [GuestMemory μ] (h : Hostblk δ) (ptr : Long) (mem : μ) :
    GuestMemory.Touched mem (h.execute ptr mem).2.2 := by
  unfold execute
  split
  · exact .refl mem
  · split
    · exact .refl mem
    · split_ifs
      · exact touched_transfer h _ _ _ mem false
      · exact touched_transfer h _ _ _ mem true
      · exact .refl mem
      · exact .refl mem

theorem touched_tick [BlockDevice δ] [GuestMemory μ] (h : Hostblk δ) (mem : μ) :
    GuestMemory.Touched mem (h.tick mem).2 := by
  unfold tick tickChecked
  split
  · exact .refl mem
  · split
    · exact .refl mem
    · exact touched_execute _ _ mem

end Hostblk

end M68kMachine
