import M68kMachine.Core.Registers
import M68kMachine.Library.RingBuffer

/-!
# The custom-chip register file

The registers of `chipset.rs`: the interrupt latches, the beam counter, the serial port and the
latches a renderer reads. The beam position is derived from `totalColourClocks` on every read;
`tick` adds to it and reports the lines and frames crossed.

`coarse_tick_streak`, a host diagnostic no other function reads, is left out.
-/

namespace M68kMachine

namespace Chipset

/-! ### Register offsets (`mod reg`) -/

namespace Reg

@[match_pattern] abbrev dmaconr : Nat := 0x002
@[match_pattern] abbrev vposr : Nat := 0x004
@[match_pattern] abbrev vhposr : Nat := 0x006
@[match_pattern] abbrev joy0dat : Nat := 0x00A
@[match_pattern] abbrev joy1dat : Nat := 0x00C
@[match_pattern] abbrev adkconr : Nat := 0x010
@[match_pattern] abbrev potgor : Nat := 0x016
@[match_pattern] abbrev serdatr : Nat := 0x018
@[match_pattern] abbrev dskbytr : Nat := 0x01A
@[match_pattern] abbrev intenar : Nat := 0x01C
@[match_pattern] abbrev intreqr : Nat := 0x01E
@[match_pattern] abbrev dskpth : Nat := 0x020
@[match_pattern] abbrev dskptl : Nat := 0x022
@[match_pattern] abbrev dsklen : Nat := 0x024
@[match_pattern] abbrev serdat : Nat := 0x030
@[match_pattern] abbrev serper : Nat := 0x032
@[match_pattern] abbrev potgo : Nat := 0x034
@[match_pattern] abbrev cop1lch : Nat := 0x080
@[match_pattern] abbrev cop1lcl : Nat := 0x082
@[match_pattern] abbrev cop2lch : Nat := 0x084
@[match_pattern] abbrev cop2lcl : Nat := 0x086
@[match_pattern] abbrev copjmp1 : Nat := 0x088
@[match_pattern] abbrev copjmp2 : Nat := 0x08A
@[match_pattern] abbrev diwstrt : Nat := 0x08E
@[match_pattern] abbrev diwstop : Nat := 0x090
@[match_pattern] abbrev ddfstrt : Nat := 0x092
@[match_pattern] abbrev ddfstop : Nat := 0x094
@[match_pattern] abbrev dmacon : Nat := 0x096
@[match_pattern] abbrev intena : Nat := 0x09A
@[match_pattern] abbrev intreq : Nat := 0x09C
@[match_pattern] abbrev adkcon : Nat := 0x09E
@[match_pattern] abbrev bplcon0 : Nat := 0x100
@[match_pattern] abbrev bplcon1 : Nat := 0x102
@[match_pattern] abbrev bplcon2 : Nat := 0x104
@[match_pattern] abbrev bpl1mod : Nat := 0x108
@[match_pattern] abbrev bpl2mod : Nat := 0x10A
@[match_pattern] abbrev spr0pth : Nat := 0x120
@[match_pattern] abbrev spr0ptl : Nat := 0x122
@[match_pattern] abbrev spr0pos : Nat := 0x140
@[match_pattern] abbrev spr0ctl : Nat := 0x142
@[match_pattern] abbrev spr0data : Nat := 0x144
@[match_pattern] abbrev spr0datb : Nat := 0x146

/-- `BPL1PTH` … `BPL6PTL`, a high and a low half for each plane. -/
abbrev bpl1pth : Nat := 0x0E0
abbrev bpl6ptl : Nat := 0x0F6

abbrev color00 : Nat := 0x180
abbrev color31 : Nat := 0x1BE

end Reg

/-! ### Interrupt bits (`mod intbit`) -/

namespace Intbit

abbrev tbe : Nat := 0
abbrev ports : Nat := 3
abbrev vertb : Nat := 5
abbrev blit : Nat := 6
abbrev rbf : Nat := 11
abbrev exter : Nat := 13
abbrev inten : Nat := 14
abbrev setclr : Nat := 15

end Intbit

abbrev palLinesPerFrame : Nat := 312
abbrev palColourClocksPerLine : Nat := 227
abbrev ntscLinesPerFrame : Nat := 262
abbrev vposrAgnusId : Word := 0x2000
abbrev serialBufCap : Nat := 32
abbrev serialInBufCap : Nat := 32

/-- `u64::MAX`, where the saturating counters stop. -/
abbrev u64Max : Nat := 0xFFFFFFFFFFFFFFFF

/-- How far the beam moved during one `tick`. -/
structure BeamAdvance where
  linesStarted : Nat
  framesWrapped : Nat
  deriving DecidableEq

inductive MouseButton
  | left
  | right
  | middle
  deriving DecidableEq

end Chipset

open Chipset

/-- The custom-chip register file. -/
structure Chipset where
  intena : Word
  intreq : Word
  dmacon : Word
  adkcon : Word
  totalColourClocks : Nat
  /-- CPU clocks that do not make up a colour clock yet. -/
  carry : Nat
  frames : Nat
  linesPerFrame : Nat
  lof : Bool
  joy0dat : Word
  joy1dat : Word
  potgor : Word
  potgo : Word
  cop1lc : Long
  cop2lc : Long
  copjmp1Hit : Bool
  copjmp2Hit : Bool
  bplpt : Vector Long 6
  bplcon0 : Word
  bplcon1 : Word
  bplcon2 : Word
  bpl1mod : Word
  bpl2mod : Word
  diwstrt : Word
  diwstop : Word
  ddfstrt : Word
  ddfstop : Word
  color : Vector Word 32
  spr0pt : Long
  spr0pos : Word
  spr0ctl : Word
  spr0data : Word
  spr0datb : Word
  dskpt : Long
  dsklen : Word
  serdat : Word
  serper : Word
  serialBuf : RingBuffer Byte serialBufCap
  serialInBuf : RingBuffer Byte serialInBufCap
  serialInOverrun : Bool

namespace Chipset

def new : Chipset where
  intena := 0
  intreq := 0
  dmacon := 0
  adkcon := 0
  totalColourClocks := 0
  carry := 0
  frames := 0
  linesPerFrame := palLinesPerFrame
  lof := false
  joy0dat := 0
  joy1dat := 0
  potgor := 0xFFFF
  potgo := 0
  cop1lc := 0
  cop2lc := 0
  copjmp1Hit := false
  copjmp2Hit := false
  bplpt := Vector.replicate 6 0
  bplcon0 := 0
  bplcon1 := 0
  bplcon2 := 0
  bpl1mod := 0
  bpl2mod := 0
  diwstrt := 0
  diwstop := 0
  ddfstrt := 0
  ddfstop := 0
  color := Vector.replicate 32 0
  spr0pt := 0
  spr0pos := 0
  spr0ctl := 0
  spr0data := 0
  spr0datb := 0
  dskpt := 0
  dsklen := 0
  serdat := 0
  serper := 0
  serialBuf := RingBuffer.new (by decide)
  serialInBuf := RingBuffer.new (by decide)
  serialInOverrun := false

/-! ## Host input -/

def setNtsc (c : Chipset) (ntsc : Bool) : Chipset :=
  { c with linesPerFrame := if ntsc then ntscLinesPerFrame else palLinesPerFrame }

def mouseDelta (c : Chipset) (dx dy : Byte) : Chipset :=
  let x : Byte := c.joy0dat.setWidth 8
  let y : Byte := (c.joy0dat >>> 8).setWidth 8
  { c with joy0dat := (y + dy) ++ (x + dx) }

def mouseButton (c : Chipset) (button : MouseButton) (pressed : Bool) : Chipset :=
  let drive (i : Nat) : Chipset :=
    { c with
      potgor :=
        if pressed then c.potgor &&& ~~~((1 : Word) <<< i) else c.potgor ||| ((1 : Word) <<< i) }
  match button with
  -- the left button is a CIA-A pin
  | .left => c
  | .right => drive 10
  | .middle => drive 8

/-- Raise an interrupt source. -/
def raiseInt (c : Chipset) (i : Nat) : Chipset := { c with intreq := c.intreq ||| (1 <<< i) }

def takeSerialByte (c : Chipset) : Option Byte × Chipset :=
  ((c.serialBuf.pop).1, { c with serialBuf := (c.serialBuf.pop).2 })

/-- A full debug channel drops the byte. -/
def pushSerialByte (c : Chipset) (byte : Byte) : Chipset :=
  { c with serialBuf := (c.serialBuf.push byte).2 }

/-- Hand one byte from the host to the guest's receiver. -/
def pushSerialInByte (c : Chipset) (byte : Byte) : Chipset :=
  match c.serialInBuf.push byte with
  | (true, buf) => { c with serialInBuf := buf }.raiseInt Intbit.rbf
  | (false, _) => { c with serialInOverrun := true }

/-- Whether a byte pushed now is accepted. -/
def serialInHasRoom (c : Chipset) : Bool := c.serialInBuf.len < serialInBufCap

/-! ## The beam -/

def hpos (c : Chipset) : Nat := c.totalColourClocks % palColourClocksPerLine

def vpos (c : Chipset) : Nat := c.totalColourClocks / palColourClocksPerLine % c.linesPerFrame

def vposr (c : Chipset) : Word :=
  (if c.lof then 1 <<< 15 else 0) ||| vposrAgnusId ||| BitVec.ofNat 16 (c.vpos / 256 % 2)

def vhposr (c : Chipset) : Word := BitVec.ofNat 16 (c.vpos % 256 * 256 + c.hpos % 256)

/-- Raster lines crossed since reset. -/
def lines (c : Chipset) : Nat := c.totalColourClocks / palColourClocksPerLine

/-- Move the beam on by `cpuClocks`, without what a frame boundary does. -/
def moveBeam (c : Chipset) (cpuClocks ccpc : Nat) : Chipset :=
  { c with
    carry := (c.carry + cpuClocks) % ccpc
    totalColourClocks := min (c.totalColourClocks + (c.carry + cpuClocks) / ccpc) u64Max }

/-- A number of frame boundaries: the frame counter, the field toggle and `VERTB`. -/
def wrapFrames (c : Chipset) (n : Nat) : Chipset :=
  { c with
    frames := min (c.frames + n) u64Max
    lof := if n % 2 = 1 then !c.lof else c.lof }.raiseInt Intbit.vertb

/-- Advance the frame clock by `cpuClocks` CPU cycles. -/
def tick (c : Chipset) (cpuClocks cpuClocksPerColourClock : Nat) : BeamAdvance × Chipset :=
  let after := c.moveBeam cpuClocks (max cpuClocksPerColourClock 1)
  let framesWrapped := after.lines / c.linesPerFrame - c.lines / c.linesPerFrame
  (⟨after.lines - c.lines, framesWrapped⟩,
    if 0 < framesWrapped then after.wrapFrames framesWrapped else after)

/-- CPU clocks until the beam next crosses a raster line boundary. -/
def clocksUntilLineBoundary (c : Chipset) (cpuClocksPerColourClock : Nat) : Nat :=
  (palColourClocksPerLine - c.hpos) * cpuClocksPerColourClock - c.carry

/-! ## The register file -/

/-- Reading consumes the oldest receive byte and reports the overrun at most once. -/
def readSerdatr (c : Chipset) : Word × Chipset :=
  let idle : Word := 0x3800
  match c.serialInBuf.pop with
  | (some byte, buf) =>
    (idle ||| (1 <<< 14) ||| byte.setWidth 16 ||| (if c.serialInOverrun then 1 <<< 15 else 0),
      { c with serialInBuf := buf, serialInOverrun := false })
  | (none, _) => (idle, { c with serialInOverrun := false })

def read (c : Chipset) (offset : Nat) : Word × Chipset :=
  match offset with
  | Reg.vposr => (c.vposr, c)
  | Reg.vhposr => (c.vhposr, c)
  | Reg.intenar => (c.intena, c)
  | Reg.intreqr => (c.intreq, c)
  | Reg.dmaconr => (c.dmacon, c)
  | Reg.adkconr => (c.adkcon, c)
  | Reg.joy0dat => (c.joy0dat, c)
  | Reg.joy1dat => (c.joy1dat, c)
  | Reg.potgor => (c.potgor, c)
  | Reg.serdatr => c.readSerdatr
  | Reg.dskbytr => (0, c)
  | _ => (0xFFFF, c)

/-- Bit 15 decides whether the other bits are set or cleared. -/
def applySetclr (current value : Word) : Word :=
  let bits := value &&& 0x7FFF
  if value &&& (1 <<< Intbit.setclr) ≠ 0 then current ||| bits else current &&& ~~~bits

def setPtrHi (ptr : Long) (value : Word) : Long := value ++ (ptr.setWidth 16 : Word)

def setPtrLo (ptr : Long) (value : Word) : Long := ((ptr >>> 16).setWidth 16 : Word) ++ value

/-- One half of a bitplane pointer. -/
def writeBplpt (c : Chipset) (offset : Nat) (value : Word) : Chipset :=
  let plane := (offset - Reg.bpl1pth) / 4
  let ptr := c.bplpt.toList.getD plane 0
  { c with
    bplpt := c.bplpt.setIfInBounds plane
      (if offset % 4 = 0 then setPtrHi ptr value else setPtrLo ptr value) }

def write (c : Chipset) (offset : Nat) (value : Word) : Chipset :=
  match offset with
  | Reg.intena => { c with intena := applySetclr c.intena value }
  | Reg.intreq => { c with intreq := applySetclr c.intreq value }
  | Reg.dmacon => { c with dmacon := applySetclr c.dmacon value }
  | Reg.adkcon => { c with adkcon := applySetclr c.adkcon value }
  | Reg.cop1lch => { c with cop1lc := setPtrHi c.cop1lc value }
  | Reg.cop1lcl => { c with cop1lc := setPtrLo c.cop1lc value }
  | Reg.cop2lch => { c with cop2lc := setPtrHi c.cop2lc value }
  | Reg.cop2lcl => { c with cop2lc := setPtrLo c.cop2lc value }
  | Reg.copjmp1 => { c with copjmp1Hit := true }
  | Reg.copjmp2 => { c with copjmp2Hit := true }
  | Reg.bplcon0 => { c with bplcon0 := value }
  | Reg.bplcon1 => { c with bplcon1 := value }
  | Reg.bplcon2 => { c with bplcon2 := value }
  | Reg.bpl1mod => { c with bpl1mod := value }
  | Reg.bpl2mod => { c with bpl2mod := value }
  | Reg.diwstrt => { c with diwstrt := value }
  | Reg.diwstop => { c with diwstop := value }
  | Reg.ddfstrt => { c with ddfstrt := value }
  | Reg.ddfstop => { c with ddfstop := value }
  | Reg.spr0pth => { c with spr0pt := setPtrHi c.spr0pt value }
  | Reg.spr0ptl => { c with spr0pt := setPtrLo c.spr0pt value }
  | Reg.spr0pos => { c with spr0pos := value }
  | Reg.spr0ctl => { c with spr0ctl := value }
  | Reg.spr0data => { c with spr0data := value }
  | Reg.spr0datb => { c with spr0datb := value }
  | Reg.dskpth => { c with dskpt := setPtrHi c.dskpt value }
  | Reg.dskptl => { c with dskpt := setPtrLo c.dskpt value }
  | Reg.dsklen => { c with dsklen := value }
  -- the write completes at once, and the driver waits for `TBE` before the next byte
  | Reg.serdat =>
    ({ c with serdat := value }.pushSerialByte (value.setWidth 8)).raiseInt Intbit.tbe
  | Reg.serper => { c with serper := value }
  | Reg.potgo => { c with potgo := value }
  | _ =>
    if Reg.bpl1pth ≤ offset ∧ offset ≤ Reg.bpl6ptl ∧ offset % 2 = 0 then c.writeBplpt offset value
    else if Reg.color00 ≤ offset ∧ offset ≤ Reg.color31 then
      { c with
        color := c.color.setIfInBounds ((offset - Reg.color00) / 2) (value &&& 0x0FFF) }
    else c

/-! ## The interrupt level -/

/-- The 68k level of the highest pending source, by the hardware's grouping of the bits. -/
def levelOf (active : Word) : Nat :=
  let highest := (List.range 14).foldl (fun h i => if active.getLsbD i then i else h) 0
  if highest ≤ 2 then 1
  else if highest = 3 then 2
  else if highest ≤ 6 then 3
  else if highest ≤ 10 then 4
  else if highest ≤ 12 then 5
  else 6

/-- The 68k interrupt level the chipset is requesting, 0 for none. -/
def pendingLevel (c : Chipset) : Nat :=
  if c.intena &&& (1 <<< Intbit.inten) = 0 then 0
  else
    let active := c.intena &&& c.intreq &&& 0x3FFF
    if active = 0 then 0 else levelOf active

end Chipset

end M68kMachine
