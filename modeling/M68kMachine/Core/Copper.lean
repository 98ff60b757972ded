import M68kMachine.Core.Chipset
import M68kMachine.Core.GuestRam

/-!
# The copper walk

The first half of `render.rs`: once a frame the copper list is walked from its start, its moves go
to shadow registers, and each wait for a line further down closes a band of lines.

`WAIT`'s horizontal position and `SKIP` have no effect. Of the shadow registers `bplcon2` is
latched only.
-/

namespace M68kMachine

namespace Render

abbrev copperInstrBudget : Nat := 4096
abbrev maxBands : Nat := 16

/-! ## Chip RAM -/

/-- A byte of chip RAM, zero beyond its end. -/
def readByte (ram : ByteSlice) (addr : Long) : Byte := (ram.get? addr.toNat).getD 0

def readWord (ram : ByteSlice) (addr : Long) : Word :=
  be16 (readByte ram addr) (readByte ram (addr + 1))

def setPtrHi (ptr : Long) (value : Word) : Long :=
  (ptr &&& 0x0000FFFF) ||| (value.setWidth 32 <<< 16)

def setPtrLo (ptr : Long) (value : Word) : Long := (ptr &&& 0xFFFF0000) ||| value.setWidth 32

/-! ## The shadow registers -/

abbrev dmaconDmaen : Word := 1 <<< 9
abbrev dmaconBplen : Word := 1 <<< 8
abbrev dmaconSetclr : Word := 1 <<< 15

def applyDmaconSetclr (current value : Word) : Word :=
  let bits := value &&& 0x7FFF
  if value &&& dmaconSetclr ≠ 0 then current ||| bits else current &&& ~~~bits

/-- Bitplanes are fetched under both the master enable and their own. -/
def bitplaneDmaEnabled (dmacon : Word) : Bool :=
  dmacon &&& (dmaconDmaen ||| dmaconBplen) = dmaconDmaen ||| dmaconBplen

/-- The display registers as the copper list leaves them. -/
structure CopperState where
  bplpt : Vector Long 6
  bplcon0 : Word
  bplcon1 : Word
  bplcon2 : Word
  bpl1mod : Word
  bpl2mod : Word
  diwstrt : Word
  diwstop : Word
  ddfstrt : Word
  ddfstop : Word
  color : Vector Word 32
  dmacon : Word
  cop1lc : Long
  cop2lc : Long
  spr0pt : Long

namespace CopperState

def fromChipset (chipset : Chipset) : CopperState where
  bplpt := chipset.bplpt
  bplcon0 := chipset.bplcon0
  bplcon1 := chipset.bplcon1
  bplcon2 := chipset.bplcon2
  bpl1mod := chipset.bpl1mod
  bpl2mod := chipset.bpl2mod
  diwstrt := chipset.diwstrt
  diwstop := chipset.diwstop
  ddfstrt := chipset.ddfstrt
  ddfstop := chipset.ddfstop
  color := chipset.color
  dmacon := chipset.dmacon
  cop1lc := chipset.cop1lc
  cop2lc := chipset.cop2lc
  spr0pt := chipset.spr0pt

/-- The pointer of a plane. -/
def plane (s : CopperState) (i : Nat) : Long := (s.bplpt[i]?).getD 0

def setPlane (s : CopperState) (i : Nat) (value : Long) : CopperState :=
  { s with bplpt := s.bplpt.setIfInBounds i value }

/-- One `MOVE`; a register nobody watches takes it without effect. -/
def applyMove (s : CopperState) (offset : Nat) (value : Word) : CopperState :=
  match offset with
  | 0x0E0 => s.setPlane 0 (setPtrHi (s.plane 0) value)
  | 0x0E2 => s.setPlane 0 (setPtrLo (s.plane 0) value)
  | 0x0E4 => s.setPlane 1 (setPtrHi (s.plane 1) value)
  | 0x0E6 => s.setPlane 1 (setPtrLo (s.plane 1) value)
  | 0x0E8 => s.setPlane 2 (setPtrHi (s.plane 2) value)
  | 0x0EA => s.setPlane 2 (setPtrLo (s.plane 2) value)
  | 0x0EC => s.setPlane 3 (setPtrHi (s.plane 3) value)
  | 0x0EE => s.setPlane 3 (setPtrLo (s.plane 3) value)
  | 0x0F0 => s.setPlane 4 (setPtrHi (s.plane 4) value)
  | 0x0F2 => s.setPlane 4 (setPtrLo (s.plane 4) value)
  | 0x0F4 => s.setPlane 5 (setPtrHi (s.plane 5) value)
  | 0x0F6 => s.setPlane 5 (setPtrLo (s.plane 5) value)
  | Chipset.Reg.cop1lch => { s with cop1lc := setPtrHi s.cop1lc value }
  | Chipset.Reg.cop1lcl => { s with cop1lc := setPtrLo s.cop1lc value }
  | Chipset.Reg.cop2lch => { s with cop2lc := setPtrHi s.cop2lc value }
  | Chipset.Reg.cop2lcl => { s with cop2lc := setPtrLo s.cop2lc value }
  | Chipset.Reg.bplcon0 => { s with bplcon0 := value }
  | Chipset.Reg.bplcon1 => { s with bplcon1 := value }
  | Chipset.Reg.bplcon2 => { s with bplcon2 := value }
  | Chipset.Reg.bpl1mod => { s with bpl1mod := value }
  | Chipset.Reg.bpl2mod => { s with bpl2mod := value }
  | Chipset.Reg.diwstrt => { s with diwstrt := value }
  | Chipset.Reg.diwstop => { s with diwstop := value }
  | Chipset.Reg.ddfstrt => { s with ddfstrt := value }
  | Chipset.Reg.ddfstop => { s with ddfstop := value }
  | Chipset.Reg.dmacon => { s with dmacon := applyDmaconSetclr s.dmacon value }
  | Chipset.Reg.spr0pth => { s with spr0pt := setPtrHi s.spr0pt value }
  | Chipset.Reg.spr0ptl => { s with spr0pt := setPtrLo s.spr0pt value }
  | offset =>
    if Chipset.Reg.color00 ≤ offset ∧ offset ≤ Chipset.Reg.color31 then
      let index := (offset - Chipset.Reg.color00) / 2
      { s with color := s.color.setIfInBounds index (value &&& 0x0FFF) }
    else s

end CopperState

/-- The registers that a band of lines shows. -/
structure BandState where
  bplcon0 : Word
  bplcon1 : Word
  bpl1mod : Word
  bpl2mod : Word
  diwstrt : Word
  diwstop : Word
  ddfstrt : Word
  ddfstop : Word
  color : Vector Word 32
  dmacon : Word

namespace BandState

def fromState (s : CopperState) : BandState where
  bplcon0 := s.bplcon0
  bplcon1 := s.bplcon1
  bpl1mod := s.bpl1mod
  bpl2mod := s.bpl2mod
  diwstrt := s.diwstrt
  diwstop := s.diwstop
  ddfstrt := s.ddfstrt
  ddfstop := s.ddfstop
  color := s.color
  dmacon := s.dmacon

def zeroed : BandState := ⟨0, 0, 0, 0, 0, 0, 0, 0, Vector.replicate 32 0, 0⟩

/-- A colour register of the band. -/
def colour (b : BandState) (i : Nat) : Word := (b.color[i]?).getD 0

end BandState

/-! ## Bands -/

/-- The bands that are in use, each with its first line; the last one is open. -/
structure Bands where
  list : List (Nat × BandState)

namespace Bands

def new : Bands := ⟨[(0, .zeroed)]⟩

def count (b : Bands) : Nat := b.list.length

def startLine (b : Bands) (i : Nat) : Nat := (b.list.getD i (0, .zeroed)).1

def state (b : Bands) (i : Nat) : BandState := (b.list.getD i (0, .zeroed)).2

/-- The open band takes the registers as they stand. -/
def finalize (b : Bands) (s : CopperState) : Bands :=
  ⟨b.list.modify (b.count - 1) fun band => (band.1, .fromState s)⟩

/-- The open band is closed, and the next one starts, if there is room for it. -/
def openBand (b : Bands) (newStart : Nat) (s : CopperState) : Bands :=
  let b := b.finalize s
  if b.count < maxBands then ⟨b.list ++ [(newStart, .zeroed)]⟩ else b

/-- The last band that starts at or above a line. -/
def bandIndexForLine (b : Bands) (line : Nat) : Nat :=
  ((List.range b.count).reverse.find? fun i => b.startLine i ≤ line).getD 0

end Bands

/-! ## The walk -/

/-- The line a `WAIT` is over at, from the current one on. -/
def waitVerticalTarget (vp ve : Byte) (fromLine : Nat) : Nat :=
  let want := vp &&& ve
  (((List.range 256).map (fromLine + ·)).find? fun line =>
    BitVec.ofNat 8 line &&& ve = want).getD fromLine

/-- What an instruction of the copper is. -/
inductive CopperInstr
  | move (offset : Nat) (value : Word)
  /-- `WAIT $FFFF,$FFFE`. -/
  | stop
  | wait (vp ve : Byte)
  | skip
  deriving DecidableEq

def CopperInstr.decode (w1 w2 : Word) : CopperInstr :=
  if w1 &&& 1 = 0 then .move (w1 &&& 0x1FE).toNat w2
  else if w1 = 0xFFFF ∧ w2 &&& 0xFFFE = 0xFFFE then .stop
  else if w2 &&& 1 = 0 then .wait ((w1 >>> 8).setWidth 8) ((w2 >>> 8).setWidth 8)
  else .skip

/-- The walk through a copper list. -/
structure Walk where
  pc : Long
  line : Nat
  state : CopperState
  bands : Bands
  executed : Nat

/-- The instruction at the program counter. -/
def fetchInstr (ram : ByteSlice) (pc : Long) : CopperInstr :=
  .decode (readWord ram pc) (readWord ram (pc + 2))

/-- Where a `MOVE` goes on: a strobe jumps through the list's own pointer. -/
def afterMove (s : CopperState) (offset : Nat) (pc : Long) : Long :=
  match offset with
  | Chipset.Reg.copjmp1 => s.cop1lc
  | Chipset.Reg.copjmp2 => s.cop2lc
  | _ => pc

/-- One instruction, and whether the walk goes on. -/
def copperStep (ram : ByteSlice) (w : Walk) : Walk × Bool :=
  let w' := { w with pc := w.pc + 4, executed := w.executed + 1 }
  match fetchInstr ram w.pc with
  | .move offset value =>
    let state := w.state.applyMove offset value
    ({ w' with state, pc := afterMove state offset w'.pc }, true)
  | .stop => (w', false)
  | .wait vp ve =>
    if ve ≠ 0 then
      let target := waitVerticalTarget vp ve w.line
      if w.line < target then
        ({ w' with bands := w.bands.openBand target w.state, line := target }, true)
      else (w', true)
    else (w', true)
  | .skip => (w', true)

def copperLoop (ram : ByteSlice) : Nat → Walk → Walk
  | 0, w => w
  | budget + 1, w =>
    match copperStep ram w with
    | (w, true) => copperLoop ram budget w
    | (w, false) => w

/-- The registers and the bands after the walk, and the instructions it took. -/
def runCopper (start : Long) (ram : ByteSlice) (state : CopperState) (bands : Bands) :
    CopperState × Bands × Nat :=
  let w := copperLoop ram copperInstrBudget ⟨start, 0, state, bands, 0⟩
  (w.state, w.bands.finalize w.state, w.executed)

end Render

end M68kMachine
