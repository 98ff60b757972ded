import M68kMachine.Core.Autoconfig
import M68kMachine.Core.GuestRam

/-!
# The Cirrus GD542x core

The VGA register file and the BitBLT engine of `cirrus.rs`. Registers sit behind index and data
ports, the extended ones behind a lock. A blit runs inside the write of its start bit, or, with a
system source, once the last byte it expects was written.
-/

namespace M68kMachine

namespace Cirrus

inductive ChipRevision
  | gd5426
  | gd5428
  deriving DecidableEq

def ChipRevision.partId : ChipRevision → Byte
  | gd5426 => 0x90
  | gd5428 => 0x98

/-! ### VGA ports (`mod port`) -/

namespace Port

@[match_pattern] abbrev miscOutput : Nat := 0x3C2
@[match_pattern] abbrev seqIndex : Nat := 0x3C4
@[match_pattern] abbrev seqData : Nat := 0x3C5
@[match_pattern] abbrev pelMask : Nat := 0x3C6
@[match_pattern] abbrev dacReadIndex : Nat := 0x3C7
@[match_pattern] abbrev dacWriteIndex : Nat := 0x3C8
@[match_pattern] abbrev dacData : Nat := 0x3C9
@[match_pattern] abbrev miscOutputRead : Nat := 0x3CC
@[match_pattern] abbrev grIndex : Nat := 0x3CE
@[match_pattern] abbrev grData : Nat := 0x3CF
@[match_pattern] abbrev acIndexData : Nat := 0x3C0
@[match_pattern] abbrev acDataRead : Nat := 0x3C1
@[match_pattern] abbrev crtcIndexMono : Nat := 0x3B4
@[match_pattern] abbrev crtcDataMono : Nat := 0x3B5
@[match_pattern] abbrev crtcIndexColor : Nat := 0x3D4
@[match_pattern] abbrev crtcDataColor : Nat := 0x3D5
@[match_pattern] abbrev inputStatus1Mono : Nat := 0x3BA
@[match_pattern] abbrev inputStatus1Color : Nat := 0x3DA

end Port

/-! ### Register indices (`mod idx`) -/

namespace Idx

abbrev srLock : Nat := 0x06
abbrev srLockUnlocked : Byte := 0x12
abbrev srLockLocked : Byte := 0x0F
abbrev srLockUnlockMask : Byte := 0x17
abbrev srCursorAttr : Nat := 0x12
abbrev crtcId : Nat := 0x27
abbrev crtcLastStandard : Nat := 0x18
abbrev crtcEndVerticalRetrace : Nat := 0x11
abbrev grBlitWidthLo : Nat := 0x20
abbrev grBlitHeightLo : Nat := 0x22
abbrev grBlitDstPitchLo : Nat := 0x24
abbrev grBlitSrcPitchLo : Nat := 0x26
abbrev grBlitDstAddrLo : Nat := 0x28
abbrev grBlitSrcAddrLo : Nat := 0x2C
abbrev grBlitMode : Nat := 0x30
abbrev grBlitStartStatus : Nat := 0x31
abbrev grBlitRop : Nat := 0x32
abbrev grBlitModeExt : Nat := 0x33
abbrev grBlitTransparentCompare : Nat := 0x34
abbrev grBlitTransparentMask : Nat := 0x38
abbrev grFg : List Nat := [0x01, 0x11, 0x13, 0x15]
abbrev grBg : List Nat := [0x00, 0x10, 0x12, 0x14]

end Idx

/-! ### Blit control bits (`mod blit_mode`, `mod blit_modeext`, `mod blit_status`) -/

namespace BlitMode

abbrev backwards : Byte := 0x01
abbrev systemSource : Byte := 0x04
abbrev transparent : Byte := 0x08
abbrev pixelWidthMask : Byte := 0x30
abbrev pattern : Byte := 0x40
abbrev colorExpand : Byte := 0x80

end BlitMode

namespace BlitModeext

abbrev dwordGranularity : Byte := 0x01
abbrev colorExpandInvert : Byte := 0x02
abbrev solidFill : Byte := 0x04

end BlitModeext

namespace BlitStatus

abbrev start : Byte := 0x02
abbrev reset : Byte := 0x04
abbrev busyMask : Byte := 0x09

end BlitStatus

abbrev cursorPaletteSelect : Byte := 0x02
abbrev clearVerticalInterrupt : Byte := 0x10
abbrev disableVerticalInterrupt : Byte := 0x20
abbrev systemBlitCapacity : Nat := 8192
abbrev blitAddrMask : Nat := 0x1FFFFF

/-- A register of an indexed file. -/
def reg {n : Nat} (file : Vector Byte n) (i : Nat) : Byte := file[i]?.getD 0

/-- A blit that waits for `expected` bytes from the CPU, counting and dropping those past its
buffer. -/
structure SystemBlit where
  expected : Nat
  filled : Nat
  buf : List Byte
  deriving DecidableEq

/-- One component of a palette entry replaced. -/
def setComponent (palette : Nat → Nat → Byte) (index component : Nat) (value : Byte) :
    Nat → Nat → Byte :=
  fun i c => if i = index ∧ c = component then value else palette i c

/-- The raster operations. -/
def applyRop (rop source dest : Byte) : Byte :=
  match rop.toNat with
  | 0x00 => 0
  | 0x05 => source &&& dest
  | 0x06 => dest
  | 0x09 => source &&& ~~~dest
  | 0x0B => ~~~dest
  | 0x0D => source
  | 0x0E => 0xFF
  | 0x50 => ~~~source &&& dest
  | 0x59 => source ^^^ dest
  | 0x6D => source ||| dest
  | 0x90 => ~~~source &&& ~~~dest
  | 0x95 => ~~~(source ^^^ dest)
  | 0xAD => source ||| ~~~dest
  | 0xD0 => ~~~source
  | 0xD6 => ~~~source ||| dest
  | 0xDA => ~~~source ||| ~~~dest
  | _ => source

end Cirrus

open Cirrus

structure Cirrus542x where
  revision : ChipRevision
  vram : ByteSlice
  sr : Vector Byte 32
  crtc : Vector Byte 64
  gr : Vector Byte 64
  ar : Vector Byte 32
  palette : Nat → Nat → Byte
  cursorPalette : Nat → Nat → Byte
  seqIndex : Byte
  crtcIndex : Byte
  grIndex : Byte
  arIndex : Byte
  arNextIsData : Bool
  miscOutput : Byte
  pelMask : Byte
  hiddenDac : Byte
  /-- Consecutive reads of the PEL mask; the fifth reaches the hidden register. -/
  hiddenDacArm : Nat
  dacWriteIndex : Byte
  dacReadIndex : Byte
  dacComponent : Nat
  dacReadMode : Bool
  systemBlit : Option SystemBlit
  vblankPending : Bool

namespace Cirrus542x

def new (revision : ChipRevision) (vram : ByteSlice) : Cirrus542x where
  revision := revision
  vram := vram
  sr := Vector.replicate 32 0
  crtc := Vector.replicate 64 0
  gr := Vector.replicate 64 0
  ar := Vector.replicate 32 0
  palette := fun _ _ => 0
  cursorPalette := fun _ _ => 0
  seqIndex := 0
  crtcIndex := 0
  grIndex := 0
  arIndex := 0
  arNextIsData := false
  miscOutput := 0
  pelMask := 0xFF
  hiddenDac := 0
  hiddenDacArm := 0
  dacWriteIndex := 0
  dacReadIndex := 0
  dacComponent := 0
  dacReadMode := false
  systemBlit := none
  vblankPending := false

/-! ## The vertical interrupt -/

def verticalInterruptEnabled (c : Cirrus542x) : Bool :=
  reg c.crtc Idx.crtcEndVerticalRetrace &&&
    (disableVerticalInterrupt ||| clearVerticalInterrupt) = clearVerticalInterrupt

def signalVerticalRetrace (c : Cirrus542x) : Cirrus542x :=
  if c.verticalInterruptEnabled then { c with vblankPending := true } else c

def irqPending (c : Cirrus542x) : Bool := c.vblankPending && c.verticalInterruptEnabled

def inputStatus0 (c : Cirrus542x) : Byte :=
  if c.vblankPending && c.verticalInterruptEnabled then 0x80 else 0

/-! ## The blit registers -/

def blitWidth (c : Cirrus542x) : Nat :=
  ((reg c.gr (Idx.grBlitWidthLo + 1) &&& 0x07).toNat <<< 8 |||
    (reg c.gr Idx.grBlitWidthLo).toNat) + 1

def blitHeight (c : Cirrus542x) : Nat :=
  ((reg c.gr (Idx.grBlitHeightLo + 1) &&& 0x03).toNat <<< 8 |||
    (reg c.gr Idx.grBlitHeightLo).toNat) + 1

def blitPitch (c : Cirrus542x) (low : Nat) : Nat :=
  (reg c.gr (low + 1) &&& 0x1F).toNat <<< 8 ||| (reg c.gr low).toNat

def blitAddr (c : Cirrus542x) (low : Nat) : Nat :=
  (reg c.gr low).toNat ||| (reg c.gr (low + 1)).toNat <<< 8 |||
    (reg c.gr (low + 2) &&& 0x1F).toNat <<< 16

def setBlitAddr (c : Cirrus542x) (low : Nat) (address : Quad) : Cirrus542x :=
  let addr := address &&& BitVec.ofNat 64 blitAddrMask
  { c with
    gr :=
      ((c.gr.setIfInBounds low (addr.setWidth 8)).setIfInBounds (low + 1)
        ((addr >>> 8).setWidth 8)).setIfInBounds (low + 2)
        ((reg c.gr (low + 2) &&& 0xE0) ||| ((addr >>> 16).setWidth 8 &&& 0x1F)) }

def blitPixelBytes (c : Cirrus542x) : Nat :=
  let width := reg c.gr Idx.grBlitMode &&& BlitMode.pixelWidthMask
  if width = 0x00 then 1 else if width = 0x10 then 2 else if width = 0x20 then 3 else 4

/-- `next_multiple_of`. -/
def nextMultipleOf (n m : Nat) : Nat := (n + (m - 1)) / m * m

/-- The bytes a system source sends for each row. -/
def systemSourcePitch (c : Cirrus542x) (width : Nat) : Nat :=
  if reg c.gr Idx.grBlitMode &&& BlitMode.colorExpand = 0 then nextMultipleOf width 4
  else
    let pixels := (width + (c.blitPixelBytes - 1)) / c.blitPixelBytes
    let granularity :=
      if reg c.gr Idx.grBlitModeExt &&& BlitModeext.dwordGranularity ≠ 0 then 32 else 8
    nextMultipleOf pixels granularity / 8

def blitFgComponent (c : Cirrus542x) (component : Nat) : Byte :=
  reg c.gr (Idx.grFg.getD (min component 3) 0)

def blitBgComponent (c : Cirrus542x) (component : Nat) : Byte :=
  reg c.gr (Idx.grBg.getD (min component 3) 0)

/-! ## The blit engine -/

/-- What a blit takes from the registers before it starts. -/
structure BlitSetup where
  width : Nat
  height : Nat
  dstPitch : Nat
  srcPitch : Nat
  dstStart : Nat
  srcStart : Nat
  mode : Byte
  modeext : Byte
  backwards : Bool
  colorExpand : Bool
  pattern : Bool
  pixelBytes : Nat
  systemPitch : Nat
  system : Option (List Byte)

def blitSetup (c : Cirrus542x) (system : Option (List Byte)) : BlitSetup :=
  let width := min c.blitWidth (max c.vram.size 1)
  let mode := reg c.gr Idx.grBlitMode
  { width := width
    height := c.blitHeight
    dstPitch := c.blitPitch Idx.grBlitDstPitchLo
    srcPitch := c.blitPitch Idx.grBlitSrcPitchLo
    dstStart := c.blitAddr Idx.grBlitDstAddrLo
    srcStart := c.blitAddr Idx.grBlitSrcAddrLo
    mode := mode
    modeext := reg c.gr Idx.grBlitModeExt
    backwards := mode &&& BlitMode.backwards ≠ 0
    colorExpand := mode &&& BlitMode.colorExpand ≠ 0
    pattern := mode &&& BlitMode.pattern ≠ 0
    pixelBytes := c.blitPixelBytes
    systemPitch := c.systemSourcePitch width
    system := system }

def BlitSetup.transparent (p : BlitSetup) : Bool := p.mode &&& BlitMode.transparent ≠ 0

def BlitSetup.solidFill (p : BlitSetup) : Bool :=
  p.pattern && p.colorExpand && !p.transparent && p.modeext &&& BlitModeext.solidFill ≠ 0

/-- VRAM is expanded bit by bit only when it is the source. -/
def BlitSetup.expandsVram (p : BlitSetup) : Bool :=
  p.colorExpand && !p.pattern && p.system.isNone

/-- The address `x` bytes along a line in the blit's direction. -/
def BlitSetup.along (p : BlitSetup) (line x : Nat) : Option Nat :=
  if p.backwards then if x ≤ line then some (line - x) else none else some (line + x)

/-- The start of row `y`; a backwards blit stops at address zero. -/
def BlitSetup.lineStart (p : BlitSetup) (start pitch y : Nat) : Nat :=
  if p.backwards then start - y * pitch else start + y * pitch

/-- What changes from byte to byte: VRAM and the place in a bit-expanded source. -/
structure BlitState where
  vram : ByteSlice
  expandAddr : Quad
  expandCount : Nat

/-- A byte of VRAM, zero beyond its end. -/
def vramByte (vram : ByteSlice) (at? : Option Nat) : Byte :=
  (at?.bind fun i => vram.get? i).getD 0

def BlitSetup.linearBlitSource (p : BlitSetup) (vram : ByteSlice) (pattern : Bool) (y x : Nat) :
    Byte :=
  if pattern then
    let rowBytes := 8 * p.pixelBytes
    vramByte vram (some (p.srcStart / 4 * 4 + y % 8 * rowBytes + x % max rowBytes 1))
  else
    match p.system with
    | some data => data.getD (y * p.systemPitch + x) 0
    | none => vramByte vram (p.along (p.lineStart p.srcStart p.srcPitch y) x)

/-- The bit a colour-expanding blit takes for a byte of the destination. -/
def BlitSetup.expandBit (p : BlitSetup) (s : BlitState) (y x : Nat) : Bool :=
  let pixel := x / p.pixelBytes
  if p.pattern then (vramByte s.vram (some (p.srcStart + y % 8))).getLsbD (7 - pixel % 8)
  else
    match p.system with
    | some data => (data.getD (y * p.systemPitch + pixel / 8) 0).getLsbD (7 - pixel % 8)
    | none => (vramByte s.vram (some s.expandAddr.toNat)).getLsbD (7 - s.expandCount / p.pixelBytes)

/-- The next source byte of a bit-expanded VRAM source. -/
def BlitSetup.nextExpandAddr (p : BlitSetup) (address : Quad) : Quad :=
  if p.backwards then address - 1 else address + 1

/-- Eight pixels on, the source moves to its next byte. -/
def BlitSetup.stepExpand (p : BlitSetup) (s : BlitState) : BlitState :=
  if p.expandsVram then
    if s.expandCount + 1 = 8 * p.pixelBytes then
      { s with expandCount := 0, expandAddr := p.nextExpandAddr s.expandAddr }
    else { s with expandCount := s.expandCount + 1 }
  else s

/-- Whether the colour key of a plain copy holds back the pixel `x` belongs to. -/
def keyed (c : Cirrus542x) (p : BlitSetup) (vram : ByteSlice) (y x : Nat) : Bool :=
  (List.range p.pixelBytes).all fun i =>
    let source := p.linearBlitSource vram false y (x - x % p.pixelBytes + i)
    let mask := reg c.gr (Idx.grBlitTransparentMask + i)
    source &&& ~~~mask = reg c.gr (Idx.grBlitTransparentCompare + i) &&& ~~~mask

/-- The source byte of a destination byte, and whether it is held back. -/
def blitSource (c : Cirrus542x) (p : BlitSetup) (s : BlitState) (y x : Nat) : Byte × Bool :=
  let component := x % p.pixelBytes
  let lit := p.expandBit s y x
  let source :=
    if p.solidFill then c.blitFgComponent component
    else if p.colorExpand then
      if lit then c.blitFgComponent component else c.blitBgComponent component
    else p.linearBlitSource s.vram p.pattern y x
  let transparent :=
    if !p.transparent then false
    else if p.colorExpand then
      if p.modeext &&& BlitModeext.colorExpandInvert ≠ 0 then lit else !lit
    else if p.pattern then false
    else c.keyed p s.vram y x
  (source, transparent)

def blitByte (c : Cirrus542x) (p : BlitSetup) (y : Nat) (s : BlitState) (x : Nat) : BlitState :=
  let (source, transparent) := c.blitSource p s y x
  let next := p.stepExpand s
  match p.along (p.lineStart p.dstStart p.dstPitch y) x with
  | none => next
  | some dst =>
    match s.vram.get? dst with
    | none => next
    | some dest =>
      if transparent then next
      else { next with vram := next.vram.set dst (applyRop (reg c.gr Idx.grBlitRop) source dest) }

/-- A row; a partly used source byte is not carried into the next one. -/
def blitRow (c : Cirrus542x) (p : BlitSetup) (s : BlitState) (y : Nat) : BlitState :=
  let s := (List.range p.width).foldl (c.blitByte p y) s
  if p.expandsVram ∧ s.expandCount ≠ 0 then
    { s with expandCount := 0, expandAddr := p.nextExpandAddr s.expandAddr }
  else s

/-- The address registers of a finished blit point past its last byte. -/
def BlitSetup.advance (p : BlitSetup) (start span : Nat) : Quad :=
  if p.backwards then BitVec.ofNat 64 start - BitVec.ofNat 64 span
  else BitVec.ofNat 64 start + BitVec.ofNat 64 span

def executeBlit (c : Cirrus542x) (system : Option (List Byte)) : Cirrus542x :=
  let p := c.blitSetup system
  let s := (List.range p.height).foldl (c.blitRow p) ⟨c.vram, BitVec.ofNat 64 p.srcStart, 0⟩
  let dstEnd := p.advance p.dstStart ((p.height - 1) * p.dstPitch + p.width)
  let srcEnd :=
    if p.pattern || p.system.isSome then BitVec.ofNat 64 p.srcStart
    else if p.colorExpand then s.expandAddr
    else p.advance p.srcStart ((p.height - 1) * p.srcPitch + p.width)
  ({ c with vram := s.vram }.setBlitAddr Idx.grBlitDstAddrLo dstEnd).setBlitAddr
    Idx.grBlitSrcAddrLo srcEnd

/-- A system source only arms the blit. -/
def startBlit (c : Cirrus542x) : Cirrus542x :=
  if reg c.gr Idx.grBlitMode &&& BlitMode.systemSource ≠ 0 then
    { c with
      systemBlit := some ⟨max (c.systemSourcePitch c.blitWidth * c.blitHeight) 1, 0, []⟩ }
  else c.executeBlit none

/-- One byte of a system source; the last one runs the blit. -/
def feedSystemBlit (c : Cirrus542x) (byte : Byte) : Cirrus542x :=
  match c.systemBlit with
  | none => c
  | some blit =>
    let buf := if blit.filled < systemBlitCapacity then blit.buf ++ [byte] else blit.buf
    if blit.filled + 1 < blit.expected then
      { c with systemBlit := some ⟨blit.expected, blit.filled + 1, buf⟩ }
    else
      { c with systemBlit := none }.executeBlit
        (some (buf.take (min blit.expected systemBlitCapacity)))

/-! ## The VRAM aperture -/

def vramRead (c : Cirrus542x) (offset : Nat) : Byte := (c.vram.get? offset).getD openBusByte

/-- A byte written while a blit waits for its source goes to the blit. -/
def vramWrite (c : Cirrus542x) (offset : Nat) (value : Byte) : Cirrus542x :=
  if c.systemBlit.isSome then c.feedSystemBlit value
  else { c with vram := c.vram.set offset value }

/-! ## The indexed register files -/

def extensionsUnlocked (c : Cirrus542x) : Bool := reg c.sr Idx.srLock = Idx.srLockUnlocked

def readSequencer (c : Cirrus542x) : Byte :=
  let index := c.seqIndex.toNat % 0x20
  if Idx.srLock < index ∧ c.extensionsUnlocked = false then openBusByte else reg c.sr index

def writeSequencer (c : Cirrus542x) (value : Byte) : Cirrus542x :=
  let index := c.seqIndex.toNat % 0x20
  if index = Idx.srLock then
    { c with
      sr := c.sr.setIfInBounds Idx.srLock
        (if value &&& Idx.srLockUnlockMask = Idx.srLockUnlocked then Idx.srLockUnlocked
          else Idx.srLockLocked) }
  else if Idx.srLock < index ∧ c.extensionsUnlocked = false then c
  else { c with sr := c.sr.setIfInBounds index value }

def readGraphics (c : Cirrus542x) : Byte :=
  let index := c.grIndex.toNat % 0x40
  if 8 < index ∧ c.extensionsUnlocked = false then openBusByte
  else if index = Idx.grBlitStartStatus then
    let value := reg c.gr index &&& ~~~BlitStatus.busyMask
    if c.systemBlit.isSome then value ||| BlitStatus.busyMask else value
  else reg c.gr index

def writeGraphics (c : Cirrus542x) (value : Byte) : Cirrus542x :=
  let index := c.grIndex.toNat % 0x40
  if 8 < index ∧ c.extensionsUnlocked = false then c
  else
    let c := { c with gr := c.gr.setIfInBounds index value }
    if index = Idx.grBlitStartStatus then
      if value &&& BlitStatus.reset ≠ 0 then
        { c with
          systemBlit := none
          gr := c.gr.setIfInBounds Idx.grBlitStartStatus (value &&& ~~~BlitStatus.busyMask) }
      else if value &&& BlitStatus.start ≠ 0 then c.startBlit
      else c
    else c

def readCrtc (c : Cirrus542x) : Byte :=
  let index := c.crtcIndex.toNat % 0x40
  if index = Idx.crtcId then c.revision.partId
  else if Idx.crtcLastStandard < index ∧ c.extensionsUnlocked = false then openBusByte
  else reg c.crtc index

/-- `CRTC` bit 7 of register 11 write-protects registers 0 to 7, one bit of 7 excepted. -/
def writeCrtc (c : Cirrus542x) (value : Byte) : Cirrus542x :=
  let index := c.crtcIndex.toNat % 0x40
  if index = Idx.crtcId then c
  else if Idx.crtcLastStandard < index ∧ c.extensionsUnlocked = false then c
  else if reg c.crtc 0x11 &&& 0x80 ≠ 0 ∧ index ≤ 7 then
    if index = 7 then
      { c with
        crtc := c.crtc.setIfInBounds 7 ((reg c.crtc 7 &&& 0xEF) ||| (value &&& 0x10)) }
    else c
  else
    { c with
      crtc := c.crtc.setIfInBounds index value
      vblankPending :=
        if index = Idx.crtcEndVerticalRetrace ∧ value &&& clearVerticalInterrupt = 0 then false
        else c.vblankPending }

/-- The attribute port takes an index and a value in turn. -/
def writeAttribute (c : Cirrus542x) (value : Byte) : Cirrus542x :=
  let c :=
    if c.arNextIsData then { c with ar := c.ar.setIfInBounds (c.arIndex.toNat % 0x20) value }
    else { c with arIndex := value &&& 0x3F }
  { c with arNextIsData := !c.arNextIsData }

/-! ## The DAC -/

def readPelMaskOrHiddenDac (c : Cirrus542x) : Byte × Cirrus542x :=
  if c.extensionsUnlocked = false then (c.pelMask, { c with hiddenDacArm := 0 })
  else if 4 ≤ c.hiddenDacArm then (c.hiddenDac, { c with hiddenDacArm := 0 })
  else (c.pelMask, { c with hiddenDacArm := c.hiddenDacArm + 1 })

def writePelMaskOrHiddenDac (c : Cirrus542x) (value : Byte) : Cirrus542x :=
  if c.extensionsUnlocked ∧ 4 ≤ c.hiddenDacArm then
    { c with hiddenDac := value, hiddenDacArm := 0 }
  else { c with pelMask := value, hiddenDacArm := 0 }

def cursorPaletteSelected (c : Cirrus542x) : Bool :=
  reg c.sr Idx.srCursorAttr &&& cursorPaletteSelect ≠ 0

/-- Three components make up an entry; after the third the index moves on. -/
def nextComponent (component : Nat) (index : Byte) : Nat × Byte :=
  if component + 1 = 3 then (0, index + 1) else (component + 1, index)

def writeDacData (c : Cirrus542x) (value : Byte) : Cirrus542x :=
  let (component, index) := nextComponent c.dacComponent c.dacWriteIndex
  let c' :=
    if c.cursorPaletteSelected then
      { c with
        cursorPalette := setComponent c.cursorPalette (c.dacWriteIndex.toNat % 0x10)
          c.dacComponent (value &&& 0x3F) }
    else
      { c with
        palette := setComponent c.palette c.dacWriteIndex.toNat c.dacComponent (value &&& 0x3F) }
  { c' with dacComponent := component, dacWriteIndex := index }

def readDacData (c : Cirrus542x) : Byte × Cirrus542x :=
  let (component, index) := nextComponent c.dacComponent c.dacReadIndex
  (if c.cursorPaletteSelected then c.cursorPalette (c.dacReadIndex.toNat % 0x10) c.dacComponent
    else c.palette c.dacReadIndex.toNat c.dacComponent,
    { c with dacComponent := component, dacReadIndex := index })

/-! ## The ports -/

/-- Any port but the PEL mask disarms the hidden register. -/
def disarm (c : Cirrus542x) : Cirrus542x := { c with hiddenDacArm := 0 }

def regRead (c : Cirrus542x) (offset : Nat) : Byte × Cirrus542x :=
  match offset with
  | Port.pelMask => c.readPelMaskOrHiddenDac
  | Port.miscOutput => (c.inputStatus0, c.disarm)
  | Port.seqIndex => (c.seqIndex, c.disarm)
  | Port.seqData => (c.readSequencer, c.disarm)
  | Port.dacReadIndex => (if c.dacReadMode then 0x03 else 0x00, c.disarm)
  | Port.dacWriteIndex => (c.dacWriteIndex, c.disarm)
  | Port.dacData => c.disarm.readDacData
  | Port.miscOutputRead => (c.miscOutput, c.disarm)
  | Port.grIndex => (c.grIndex, c.disarm)
  | Port.grData => (c.readGraphics, c.disarm)
  | Port.acIndexData => (c.arIndex, c.disarm)
  | Port.acDataRead => (reg c.ar (c.arIndex.toNat % 0x20), c.disarm)
  | Port.crtcIndexMono => (c.crtcIndex, c.disarm)
  | Port.crtcIndexColor => (c.crtcIndex, c.disarm)
  | Port.crtcDataMono => (c.readCrtc, c.disarm)
  | Port.crtcDataColor => (c.readCrtc, c.disarm)
  -- `input_status_1` is always zero; reading it resets the attribute port
  | Port.inputStatus1Mono => (0, { c.disarm with arNextIsData := false })
  | Port.inputStatus1Color => (0, { c.disarm with arNextIsData := false })
  | _ => (openBusByte, c.disarm)

def selectDacEntry (c : Cirrus542x) (reading : Bool) (index : Byte) : Cirrus542x :=
  if reading then { c with dacReadIndex := index, dacComponent := 0, dacReadMode := true }
  else { c with dacWriteIndex := index, dacComponent := 0, dacReadMode := false }

def regWrite (c : Cirrus542x) (offset : Nat) (value : Byte) : Cirrus542x :=
  match offset with
  | Port.pelMask => c.writePelMaskOrHiddenDac value
  | Port.miscOutput => { c.disarm with miscOutput := value }
  | Port.seqIndex => { c.disarm with seqIndex := value }
  | Port.seqData => c.disarm.writeSequencer value
  | Port.dacReadIndex => c.disarm.selectDacEntry true value
  | Port.dacWriteIndex => c.disarm.selectDacEntry false value
  | Port.dacData => c.disarm.writeDacData value
  | Port.grIndex => { c.disarm with grIndex := value }
  | Port.grData => c.disarm.writeGraphics value
  | Port.acIndexData => c.disarm.writeAttribute value
  | Port.crtcIndexMono => { c.disarm with crtcIndex := value }
  | Port.crtcIndexColor => { c.disarm with crtcIndex := value }
  | Port.crtcDataMono => c.disarm.writeCrtc value
  | Port.crtcDataColor => c.disarm.writeCrtc value
  | _ => c.disarm

/-! ## Reads and the interrupt -/

/-- **No port read moves the interrupt line.** -/
theorem irqPending_regRead (c : Cirrus542x) (offset : Nat) :
    (c.regRead offset).2.irqPending = c.irqPending := by
  have hpel : c.readPelMaskOrHiddenDac.2.irqPending = c.irqPending := by
    unfold readPelMaskOrHiddenDac
    split
    · rfl
    · split <;> rfl
  unfold regRead
  split
  · exact hpel
  all_goals rfl

end Cirrus542x

end M68kMachine
