import M68kMachine.Cards.Pcibridge
import M68kMachine.Cards.VirtioNet
import M68kMachine.Library.Buffer

/-!
# PCI configuration space

`ConfigSpace` of `pci.rs`: the 256-byte type-0 header of a virtual function. The identity and the
capability chain are an image nothing writes, `COMMAND` and the six BARs registers beside it.
-/

namespace M68kMachine

open Pci VirtioNetStub

namespace Pci

/-- The sizes a memory BAR can have. -/
structure BarSize where
  size : Long
  atLeast : 16 ≤ size.toNat
  powerOfTwo : ∃ k, size.toNat = 2 ^ k

inductive BarKind
  | none
  | mem32 (size : BarSize)

structure ConfigSpaceIdentity where
  vendorId : Word
  deviceId : Word
  revision : Byte
  classBase : Byte
  classSub : Byte
  progIf : Byte
  subsystemVendor : Word
  subsystemId : Word
  interruptPin : Byte

/-! ### `COMMAND` bits (`mod command_bits`) and `STATUS` -/

namespace CommandBits

abbrev ioEnable : Byte := 0x01
abbrev memoryEnable : Byte := 0x02
abbrev busMaster : Byte := 0x04
abbrev writableMask : Byte := ioEnable ||| memoryEnable ||| busMaster

end CommandBits

abbrev statusCapList : Byte := 0x10

/-! ### Header offsets (`mod off`) -/

namespace Off

abbrev vendorId : Nat := 0x00
abbrev deviceId : Nat := 0x02
abbrev command : Nat := 0x04
abbrev status : Nat := 0x06
abbrev revision : Nat := 0x08
abbrev progIf : Nat := 0x09
abbrev classSub : Nat := 0x0A
abbrev classBase : Nat := 0x0B
abbrev headerType : Nat := 0x0E
abbrev bar0 : Nat := 0x10
abbrev capPointer : Nat := 0x34
abbrev subsystemVendor : Nat := 0x2C
abbrev subsystemId : Nat := 0x2E
abbrev interruptPin : Nat := 0x3D

end Off

abbrev configSpaceLen : Nat := 256

/-- `write_u16` into the image. -/
def writeU16 (image : Buffer Byte configSpaceLen) (offset : Nat) (value : Word) :
    Buffer Byte configSpaceLen := image.setFrom offset (toLE16 value)

end Pci

structure ConfigSpace where
  /-- Everything but `COMMAND`, `STATUS` and the BARs. -/
  image : Buffer Byte configSpaceLen
  command : Byte
  barKinds : Fin 6 → BarKind
  barRegs : Fin 6 → Long
  capsInstalled : Bool

namespace ConfigSpace

def new (identity : ConfigSpaceIdentity) (bars : Fin 6 → BarKind) : ConfigSpace :=
  let image : Buffer Byte configSpaceLen := fun _ => 0
  let image := writeU16 image Off.vendorId identity.vendorId
  let image := writeU16 image Off.deviceId identity.deviceId
  let image := image.set Off.revision identity.revision
  let image := image.set Off.progIf identity.progIf
  let image := image.set Off.classSub identity.classSub
  let image := image.set Off.classBase identity.classBase
  let image := image.set Off.headerType 0x00
  let image := writeU16 image Off.subsystemVendor identity.subsystemVendor
  let image := writeU16 image Off.subsystemId identity.subsystemId
  let image := image.set Off.interruptPin identity.interruptPin
  { image := image
    command := 0
    barKinds := bars
    barRegs := fun _ => 0
    capsInstalled := false }

/-- Place a pre-encoded capability chain and point at it. -/
def installCapabilities (c : ConfigSpace) (firstOffset : Word) (bytes : List Byte) : ConfigSpace :=
  { c with
    image := (c.image.setFrom firstOffset.toNat bytes).set Off.capPointer (firstOffset.setWidth 8)
    capsInstalled := true }

def memorySpaceEnabled (c : ConfigSpace) : Bool := c.command &&& CommandBits.memoryEnable ≠ 0

/-- The base and length of a BAR that decodes. There are six. -/
def barWindow (c : ConfigSpace) (bar : Nat) : Option (Quad × Quad) :=
  if !c.memorySpaceEnabled then none
  else if h : bar < 6 then
    match c.barKinds ⟨bar, h⟩ with
    | .none => none
    | .mem32 s => some ((c.barRegs ⟨bar, h⟩).setWidth 64, s.size.setWidth 64)
  else none

/-- The BAR register a byte falls in, and its lane in it. -/
def barIndex (offset : Nat) : Option (Fin 6 × Nat) :=
  if h : Off.bar0 ≤ offset ∧ offset < Off.bar0 + 24 then
    some (⟨(offset - Off.bar0) / 4, by omega⟩, (offset - Off.bar0) % 4)
  else none

def readByte (c : ConfigSpace) (offset : Nat) : Byte :=
  if offset = Off.command then c.command
  else if offset = Off.command + 1 then 0
  else if offset = Off.status then if c.capsInstalled then statusCapList else 0
  else if offset = Off.status + 1 then 0
  else
    match barIndex offset with
    | some (bar, lane) => laneLE (c.barRegs bar) lane
    | none => (c.image.get? offset).getD 0

/-- Merge a byte into a BAR; the bits below its size are wired to zero. -/
def writeBarByte (c : ConfigSpace) (bar : Fin 6) (lane : Nat) (byte : Byte) : ConfigSpace :=
  match c.barKinds bar with
  | .none => c
  | .mem32 s =>
    let merged := mergeLE (c.barRegs bar) lane byte
    { c with barRegs := fun i => if i = bar then merged &&& ~~~(s.size - 1) else c.barRegs i }

/-- Everything but `COMMAND` and the BARs is read-only. -/
def writeByte (c : ConfigSpace) (offset : Nat) (byte : Byte) : ConfigSpace :=
  if offset = Off.command then
    { c with
      command :=
        (c.command &&& ~~~CommandBits.writableMask) ||| (byte &&& CommandBits.writableMask) }
  else
    match barIndex offset with
    | some (bar, lane) => c.writeBarByte bar lane byte
    | none => c

/-- An access that runs past the end of the space is answered by nobody. -/
def read (c : ConfigSpace) (offset : Word) (width : AccessWidth) : Long :=
  if configSpaceLen < offset.toNat + width.bytes then allOnes width
  else composeLanes width fun lane => c.readByte (offset.toNat + lane)

def write (c : ConfigSpace) (offset : Word) (width : AccessWidth) (value : Long) : ConfigSpace :=
  if configSpaceLen < offset.toNat + width.bytes then c
  else
    (List.range width.bytes).foldl
      (fun c lane => c.writeByte (offset.toNat + lane) (laneLE value lane)) c

end ConfigSpace

end M68kMachine
