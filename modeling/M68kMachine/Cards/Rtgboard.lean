import M68kMachine.Core.Autoconfig
import M68kMachine.Core.GuestRam

/-!
# The native RTG display board

The mode registers and the VRAM aperture of `rtgboard.rs`. The guest fills in `SET_*` and writes
`COMMIT`; a mode of the catalog that fits VRAM becomes the current one, any other is rejected.
-/

namespace M68kMachine

open Autoconfig

namespace Rtgboard

abbrev manufacturer : Word := 0x07DB
abbrev product : Byte := 4
abbrev windowBytes : Long := 0x01000000
abbrev vramBase : Nat := 0x00100000
abbrev protocolVersion : Long := 1

/-! ### Pixel formats (`mod format`) -/

namespace Format

abbrev rgb565 : Byte := 0
abbrev rgbx8888 : Byte := 1
abbrev bgrx8888 : Byte := 2
abbrev invalid : Byte := 0xFF

def bytesPerPixel (format : Byte) : Option Long :=
  if format = rgb565 then some 2
  else if format = rgbx8888 ∨ format = bgrx8888 then some 4
  else none

end Format

/-! ### Register offsets (`mod reg`) -/

namespace Reg

abbrev modeCount : Nat := 0x00
abbrev modeIndex : Nat := 0x04
abbrev modeWidth : Nat := 0x08
abbrev modeHeight : Nat := 0x0C
abbrev modeFormat : Nat := 0x10
abbrev setWidth : Nat := 0x14
abbrev setHeight : Nat := 0x18
abbrev setFormat : Nat := 0x1C
abbrev setStride : Nat := 0x20
abbrev setFbOffset : Nat := 0x24
abbrev commit : Nat := 0x28
abbrev status : Nat := 0x2C
abbrev curWidth : Nat := 0x30
abbrev curHeight : Nat := 0x34
abbrev curFormat : Nat := 0x38
abbrev curStride : Nat := 0x3C
abbrev curFbOffset : Nat := 0x40
abbrev vramBytes : Nat := 0x44
abbrev version : Nat := 0x48

end Reg

/-! ### `STATUS` bits (`mod status`) -/

namespace Status

abbrev rejected : Byte := 0x01
abbrev applied : Byte := 0x02

end Status

/-- One mode of the catalog. -/
structure ModeDescriptor where
  width : Long
  height : Long
  format : Byte
  deriving DecidableEq

structure AppliedMode where
  width : Long
  height : Long
  format : Byte
  stride : Long
  fbOffset : Long
  deriving DecidableEq

end Rtgboard

open Rtgboard

structure RtgBoard where
  vram : ByteSlice
  catalog : List ModeDescriptor
  modeIndex : Nat
  setWidth : Long
  setHeight : Long
  setFormat : Byte
  setStride : Long
  setFbOffset : Long
  status : Byte
  current : Option AppliedMode

namespace RtgBoard

def new (vram : ByteSlice) (catalog : List ModeDescriptor) : RtgBoard where
  vram := vram
  catalog := catalog
  modeIndex := 0
  setWidth := 0
  setHeight := 0
  setFormat := Format.invalid
  setStride := 0
  setFbOffset := 0
  status := 0
  current := none

def boardSpec : BoardSpec where
  boardType := ertZorroIII
  product := product
  flags := erffZorroIII ||| erffExtended
  manufacturer := manufacturer
  serial := 0
  initDiagVec := 0
  sizeBytes := windowBytes

/-- `vram.len() as u32`. -/
def vramLen (r : RtgBoard) : Long := BitVec.ofNat 32 r.vram.size

/-- Whether a mode's rows fit their stride and its last row ends inside VRAM. -/
def modeFits (width : Long) (format : Byte) (stride fbOffset height vramLen : Long) : Bool :=
  match Format.bytesPerPixel format with
  | none => false
  | some bpp =>
    match checkedMul width bpp, checkedMul height stride with
    | some rowBytes, some span =>
      match checkedAdd fbOffset span with
      | some frameEnd => rowBytes.toNat ≤ stride.toNat && frameEnd.toNat ≤ vramLen.toNat
      | none => false
    | _, _ => false

/-- The mode the `SET_*` registers describe. -/
def staged (r : RtgBoard) : AppliedMode :=
  ⟨r.setWidth, r.setHeight, r.setFormat, r.setStride, r.setFbOffset⟩

def commit (r : RtgBoard) : RtgBoard :=
  if (r.catalog.any fun m => m = ⟨r.setWidth, r.setHeight, r.setFormat⟩) &&
      modeFits r.setWidth r.setFormat r.setStride r.setFbOffset r.setHeight r.vramLen then
    { r with current := some r.staged, status := Status.applied }
  else { r with status := Status.rejected }

def catalogEntry (r : RtgBoard) : Option ModeDescriptor := r.catalog[r.modeIndex]?

/-- The VRAM offset behind an offset into the window. The end of the aperture saturates. -/
def vramOffset (r : RtgBoard) (o : Nat) : Option Nat :=
  if vramBase ≤ o ∧ o < min (vramBase + r.vramLen.toNat) 0xFFFFFFFF then some (o - vramBase)
  else none

def read (r : RtgBoard) (o : Nat) : Byte :=
  let entry := r.catalogEntry
  let mode := r.current
  if inSlot o Reg.modeCount then byteOf (BitVec.ofNat 32 r.catalog.length) (o - Reg.modeCount)
  else if inSlot o Reg.modeIndex then 0
  else if inSlot o Reg.modeWidth then byteOf ((entry.map (·.width)).getD 0) (o - Reg.modeWidth)
  else if inSlot o Reg.modeHeight then byteOf ((entry.map (·.height)).getD 0) (o - Reg.modeHeight)
  else if inSlot o Reg.modeFormat then
    lowByte o Reg.modeFormat ((entry.map (·.format)).getD Format.invalid)
  else if inSlot o Reg.setWidth then byteOf r.setWidth (o - Reg.setWidth)
  else if inSlot o Reg.setHeight then byteOf r.setHeight (o - Reg.setHeight)
  else if inSlot o Reg.setFormat then lowByte o Reg.setFormat r.setFormat
  else if inSlot o Reg.setStride then byteOf r.setStride (o - Reg.setStride)
  else if inSlot o Reg.setFbOffset then byteOf r.setFbOffset (o - Reg.setFbOffset)
  else if inSlot o Reg.commit then 0
  else if inSlot o Reg.status then lowByte o Reg.status r.status
  else if inSlot o Reg.curWidth then byteOf ((mode.map (·.width)).getD 0) (o - Reg.curWidth)
  else if inSlot o Reg.curHeight then byteOf ((mode.map (·.height)).getD 0) (o - Reg.curHeight)
  else if inSlot o Reg.curFormat then
    lowByte o Reg.curFormat ((mode.map (·.format)).getD Format.invalid)
  else if inSlot o Reg.curStride then byteOf ((mode.map (·.stride)).getD 0) (o - Reg.curStride)
  else if inSlot o Reg.curFbOffset then
    byteOf ((mode.map (·.fbOffset)).getD 0) (o - Reg.curFbOffset)
  else if inSlot o Reg.vramBytes then byteOf r.vramLen (o - Reg.vramBytes)
  else if inSlot o Reg.version then byteOf protocolVersion (o - Reg.version)
  else ((r.vramOffset o).bind r.vram.get?).getD 0

def write (r : RtgBoard) (o : Nat) (value : Byte) : RtgBoard :=
  if inSlot o Reg.modeIndex then
    if o - Reg.modeIndex = 3 then { r with modeIndex := value.toNat } else r
  else if inSlot o Reg.setWidth then
    { r with setWidth := setByteOf r.setWidth (o - Reg.setWidth) value }
  else if inSlot o Reg.setHeight then
    { r with setHeight := setByteOf r.setHeight (o - Reg.setHeight) value }
  else if inSlot o Reg.setFormat then
    if o - Reg.setFormat = 3 then { r with setFormat := value } else r
  else if inSlot o Reg.setStride then
    { r with setStride := setByteOf r.setStride (o - Reg.setStride) value }
  else if inSlot o Reg.setFbOffset then
    { r with setFbOffset := setByteOf r.setFbOffset (o - Reg.setFbOffset) value }
  else if inSlot o Reg.commit then if o - Reg.commit = 3 then r.commit else r
  else if inSlot o Reg.status then
    if o - Reg.status = 3 then { r with status := r.status &&& ~~~value } else r
  else
    match r.vramOffset o with
    | some i => { r with vram := r.vram.set i value }
    | none => r

/-! ### Longword accesses, as the bus splits them -/

/-- `move.l` from a register: four byte reads, in address order. -/
def readLong (r : RtgBoard) (o : Nat) : Long :=
  be32 (r.read o) (r.read (o + 1)) (r.read (o + 2)) (r.read (o + 3))

/-- `move.l` to a register: four byte writes, in address order. -/
def writeLong (r : RtgBoard) (o : Nat) (value : Long) : RtgBoard :=
  (((r.write o (byteOf value 0)).write (o + 1) (byteOf value 1)).write (o + 2)
    (byteOf value 2)).write (o + 3) (byteOf value 3)

end RtgBoard

end M68kMachine
