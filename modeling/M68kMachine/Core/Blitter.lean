import M68kMachine.Core.GuestRam

/-!
# The blitter

The registers and the two engines of `blitter.rs`. A blit runs to completion inside the write that
starts it: `executeArea` walks rows of words, `executeLine` a line of pixels. Both go straight to
chip RAM and record every word they store in the device-write log.
-/

namespace M68kMachine

namespace Blitter

/-! ### Register offsets (`mod reg`) -/

namespace Reg

@[match_pattern] abbrev bltddat : Nat := 0x000
@[match_pattern] abbrev bltcon0 : Nat := 0x040
@[match_pattern] abbrev bltcon1 : Nat := 0x042
@[match_pattern] abbrev bltafwm : Nat := 0x044
@[match_pattern] abbrev bltalwm : Nat := 0x046
@[match_pattern] abbrev bltcpth : Nat := 0x048
@[match_pattern] abbrev bltcptl : Nat := 0x04A
@[match_pattern] abbrev bltbpth : Nat := 0x04C
@[match_pattern] abbrev bltbptl : Nat := 0x04E
@[match_pattern] abbrev bltapth : Nat := 0x050
@[match_pattern] abbrev bltaptl : Nat := 0x052
@[match_pattern] abbrev bltdpth : Nat := 0x054
@[match_pattern] abbrev bltdptl : Nat := 0x056
@[match_pattern] abbrev bltsize : Nat := 0x058
@[match_pattern] abbrev bltcon0l : Nat := 0x05A
@[match_pattern] abbrev bltsizv : Nat := 0x05C
@[match_pattern] abbrev bltsizh : Nat := 0x05E
@[match_pattern] abbrev bltcmod : Nat := 0x060
@[match_pattern] abbrev bltbmod : Nat := 0x062
@[match_pattern] abbrev bltamod : Nat := 0x064
@[match_pattern] abbrev bltdmod : Nat := 0x066
@[match_pattern] abbrev bltcdat : Nat := 0x070
@[match_pattern] abbrev bltbdat : Nat := 0x072
@[match_pattern] abbrev bltadat : Nat := 0x074

/-- Whether the blitter answers at a custom-chip offset. -/
def isBlitter (offset : Nat) : Bool :=
  offset = bltddat || bltcon0 ≤ offset && offset ≤ bltdmod || bltcdat ≤ offset && offset ≤ bltadat

end Reg

abbrev dmaconrBzero : Word := 0x2000
abbrev bltcon0Usea : Word := 0x0800
abbrev bltcon0Useb : Word := 0x0400
abbrev bltcon0Usec : Word := 0x0200
abbrev bltcon0Used : Word := 0x0100
abbrev bltcon1Line : Word := 0x0001
abbrev bltcon1Desc : Word := 0x0002
abbrev bltcon1Fci : Word := 0x0004
abbrev bltcon1Ife : Word := 0x0008
abbrev bltcon1Efe : Word := 0x0010
abbrev bltcon1Sign : Word := 0x0040
abbrev bltcon1Sing : Word := 0x0002
abbrev bltcon1Aul : Word := 0x0004
abbrev bltcon1Sul : Word := 0x0008
abbrev bltcon1Sud : Word := 0x0010

/-- The four channels, the indices of `pt`, `modulo` and `dat`. -/
inductive Channel
  | a
  | b
  | c
  | d
  deriving DecidableEq

end Blitter

open Blitter

structure Blitter where
  bltcon0 : Word
  bltcon1 : Word
  bltafwm : Word
  bltalwm : Word
  pt : Channel → Long
  /-- The modulos, two's complement. -/
  modulo : Channel → Word
  dat : Channel → Word
  bltddat : Word
  widthWords : Nat
  heightRows : Nat
  /-- Whether the last blit stored nothing but zeros. -/
  zero : Bool
  pending : Bool

namespace Blitter

def new : Blitter where
  bltcon0 := 0
  bltcon1 := 0
  bltafwm := 0
  bltalwm := 0
  pt := fun _ => 0
  modulo := fun _ => 0
  dat := fun _ => 0
  bltddat := 0
  widthWords := 0
  heightRows := 0
  zero := true
  pending := false

def setPt (b : Blitter) (ch : Channel) (ptr : Long) : Blitter :=
  { b with pt := fun i => if i = ch then ptr else b.pt i }

def setModulo (b : Blitter) (ch : Channel) (value : Word) : Blitter :=
  { b with modulo := fun i => if i = ch then value else b.modulo i }

def setDat (b : Blitter) (ch : Channel) (value : Word) : Blitter :=
  { b with dat := fun i => if i = ch then value else b.dat i }

/-! ## The register file -/

/-- The bits `DMACONR` reports for the blitter. A blit is never seen under way. -/
def dmaconrBits (b : Blitter) : Word := if b.zero then dmaconrBzero else 0

def read (b : Blitter) (offset : Nat) : Word :=
  match offset with
  | Reg.bltddat => b.bltddat
  | _ => 0xFFFF

/-- Pointers are 21 bits wide. -/
def setPtrHi (ptr : Long) (value : Word) : Long :=
  (ptr &&& 0x0000FFFF) ||| ((value &&& 0x001F).setWidth 32 <<< 16)

/-- Pointers are word-aligned. -/
def setPtrLo (ptr : Long) (value : Word) : Long :=
  (ptr &&& 0xFFFF0000) ||| (value &&& 0xFFFE).setWidth 32

/-- `BLTSIZE` packs both sizes, zero standing for the maximum, and starts the blit. -/
def writeBltsize (b : Blitter) (value : Word) : Blitter :=
  let h := ((value >>> 6) &&& 0x03FF).toNat
  let w := (value &&& 0x003F).toNat
  { b with
    heightRows := if h = 0 then 1024 else h
    widthWords := if w = 0 then 64 else w
    pending := true }

def writeReg (b : Blitter) (offset : Nat) (value : Word) : Blitter :=
  match offset with
  | Reg.bltcon0 => { b with bltcon0 := value }
  | Reg.bltcon1 => { b with bltcon1 := value }
  | Reg.bltcon0l => { b with bltcon0 := (b.bltcon0 &&& 0xFF00) ||| (value &&& 0x00FF) }
  | Reg.bltafwm => { b with bltafwm := value }
  | Reg.bltalwm => { b with bltalwm := value }
  | Reg.bltapth => b.setPt .a (setPtrHi (b.pt .a) value)
  | Reg.bltaptl => b.setPt .a (setPtrLo (b.pt .a) value)
  | Reg.bltbpth => b.setPt .b (setPtrHi (b.pt .b) value)
  | Reg.bltbptl => b.setPt .b (setPtrLo (b.pt .b) value)
  | Reg.bltcpth => b.setPt .c (setPtrHi (b.pt .c) value)
  | Reg.bltcptl => b.setPt .c (setPtrLo (b.pt .c) value)
  | Reg.bltdpth => b.setPt .d (setPtrHi (b.pt .d) value)
  | Reg.bltdptl => b.setPt .d (setPtrLo (b.pt .d) value)
  | Reg.bltamod => b.setModulo .a value
  | Reg.bltbmod => b.setModulo .b value
  | Reg.bltcmod => b.setModulo .c value
  | Reg.bltdmod => b.setModulo .d value
  | Reg.bltadat => b.setDat .a value
  | Reg.bltbdat => b.setDat .b value
  | Reg.bltcdat => b.setDat .c value
  | Reg.bltsize => b.writeBltsize value
  | Reg.bltsizv => { b with heightRows := (value &&& 0x7FFF).toNat }
  | Reg.bltsizh => { b with widthWords := (value &&& 0x07FF).toNat, pending := true }
  | _ => b

/-- Write a register; whether a blit is armed afterwards. -/
def write (b : Blitter) (offset : Nat) (value : Word) : Bool × Blitter :=
  ((b.writeReg offset value).pending, b.writeReg offset value)

/-! ## Chip RAM as the blitter reaches it -/

/-- Chip RAM and the device-write log, the two things a blit changes outside its registers. -/
structure BlitRam where
  ram : Buffer Byte chipRamSize
  log : Option DeviceWriteLog

/-- The even chip RAM offset a pointer names. -/
def chipAddr (ptr : Long) : Nat := (ptr &&& 0x1FFFFE).toNat

theorem chipAddr_lt (ptr : Long) : chipAddr ptr + 1 < chipRamSize := by
  have h : (ptr &&& 0x1FFFFE).toNat ≤ (0x1FFFFE : Long).toNat := by
    rw [BitVec.toNat_and]
    exact Nat.and_le_right
  have hmax : (0x1FFFFE : Long).toNat = 0x1FFFFE := rfl
  unfold chipAddr
  simp only [chipRamSize]
  omega

def BlitRam.readWord (m : BlitRam) (ptr : Long) : Word :=
  m.ram ⟨chipAddr ptr, Nat.lt_of_succ_lt (chipAddr_lt ptr)⟩ ++
    m.ram ⟨chipAddr ptr + 1, chipAddr_lt ptr⟩

def BlitRam.writeWord (m : BlitRam) (ptr : Long) (value : Word) : BlitRam where
  ram := (m.ram.set (chipAddr ptr) ((value >>> 8).setWidth 8)).set (chipAddr ptr + 1)
    (value.setWidth 8)
  log := m.log.map fun log => log.record (BitVec.ofNat 32 (chipAddr ptr)) 2

/-! ## The logic unit -/

/-- Each bit of `lf` selects one combination of the three inputs. -/
def minterm (lf : Byte) (a b c : Word) : Word :=
  let term (i : Nat) (t : Word) : Word := if lf.getLsbD i then t else 0
  term 7 (a &&& b &&& c) ||| term 6 (a &&& b &&& ~~~c) ||| term 5 (a &&& ~~~b &&& c) |||
    term 4 (a &&& ~~~b &&& ~~~c) ||| term 3 (~~~a &&& b &&& c) ||| term 2 (~~~a &&& b &&& ~~~c) |||
    term 1 (~~~a &&& ~~~b &&& c) ||| term 0 (~~~a &&& ~~~b &&& ~~~c)

/-- The barrel shifter, carrying the previous word of the channel in. -/
def shiftCombine (prev cur : Word) (n : Nat) (desc : Bool) : Word :=
  if n = 0 then cur
  else if desc then (((cur ++ prev : Long) <<< n) >>> 16).setWidth 16
  else ((prev ++ cur : Long) >>> n).setWidth 16

/-- One bit of the fill: the carry is what was set so far in the row. -/
def fillBit (d : Word) (ife efe : Bool) (s : Word × Bool) (i : Nat) : Word × Bool :=
  let mask : Word := (1 : Word) <<< i
  let out :=
    if s.2 then
      if ife then s.1 ||| mask else if efe then s.1 ^^^ mask else s.1
    else s.1
  (out, if d &&& mask ≠ 0 then !s.2 else s.2)

/-- Fill a word from its lowest bit up; the carry moves on to the next word. -/
def applyFill (d : Word) (fillState ife efe : Bool) : Word × Bool :=
  (List.range 16).foldl (fillBit d ife efe) (d, fillState)

/-! ## Area mode -/

/-- What an area blit takes from the registers before it starts. -/
structure AreaSetup where
  useA : Bool
  useB : Bool
  useC : Bool
  useD : Bool
  ash : Nat
  bsh : Nat
  desc : Bool
  lf : Byte
  ife : Bool
  efe : Bool
  fci : Bool
  afwm : Word
  alwm : Word
  adat : Word
  bdat : Word
  step : Long
  amod : Long
  bmod : Long
  cmod : Long
  dmod : Long
  widthWords : Nat

/-- Modulos are added to word-aligned pointers, so bit 0 is ignored. -/
def even (modulo : Word) : Word := modulo &&& ~~~1

def signedStep (desc : Bool) (modulo : Word) : Long :=
  if desc then -(modulo.signExtend 32) else modulo.signExtend 32

def areaSetup (b : Blitter) : AreaSetup :=
  let desc : Bool := b.bltcon1 &&& bltcon1Desc ≠ 0
  { useA := b.bltcon0 &&& bltcon0Usea ≠ 0
    useB := b.bltcon0 &&& bltcon0Useb ≠ 0
    useC := b.bltcon0 &&& bltcon0Usec ≠ 0
    useD := b.bltcon0 &&& bltcon0Used ≠ 0
    ash := (b.bltcon0 >>> 12).toNat
    bsh := (b.bltcon1 >>> 12).toNat
    desc := desc
    lf := b.bltcon0.setWidth 8
    ife := b.bltcon1 &&& bltcon1Ife ≠ 0
    efe := b.bltcon1 &&& bltcon1Efe ≠ 0
    fci := b.bltcon1 &&& bltcon1Fci ≠ 0
    afwm := b.bltafwm
    alwm := b.bltalwm
    adat := b.dat .a
    bdat := b.dat .b
    step := if desc then -2 else 2
    amod := signedStep desc (even (b.modulo .a))
    bmod := signedStep desc (even (b.modulo .b))
    cmod := signedStep desc (even (b.modulo .c))
    dmod := signedStep desc (even (b.modulo .d))
    widthWords := b.widthWords }

/-- Fill is only done in descending mode. -/
def AreaSetup.fill (p : AreaSetup) : Bool := p.desc && (p.ife || p.efe)

/-- What changes from word to word. -/
structure AreaState where
  mem : BlitRam
  apt : Long
  bpt : Long
  cpt : Long
  dpt : Long
  aPrev : Word
  bPrev : Word
  cDat : Word
  lastD : Word
  zero : Bool
  fillState : Bool

/-- Channel A: masked at the row's ends, then shifted, whether or not it is fetched. -/
def AreaSetup.channelA (p : AreaSetup) (s : AreaState) (wordIdx : Nat) : Word × AreaState :=
  let raw := if p.useA then s.mem.readWord s.apt else p.adat
  let first := if wordIdx = 0 then raw &&& p.afwm else raw
  let masked := if wordIdx + 1 = p.widthWords then first &&& p.alwm else first
  (shiftCombine s.aPrev masked p.ash p.desc,
    { s with aPrev := masked, apt := if p.useA then s.apt + p.step else s.apt })

/-- Channel B: shifted when fetched, `BLTBDAT` as it stands otherwise. -/
def AreaSetup.channelB (p : AreaSetup) (s : AreaState) : Word × AreaState :=
  if p.useB then
    let v := s.mem.readWord s.bpt
    (shiftCombine s.bPrev v p.bsh p.desc, { s with bPrev := v, bpt := s.bpt + p.step })
  else (p.bdat, s)

/-- Channel C: a fetch loads `BLTCDAT`. -/
def AreaSetup.channelC (p : AreaSetup) (s : AreaState) : Word × AreaState :=
  if p.useC then
    let v := s.mem.readWord s.cpt
    (v, { s with cDat := v, cpt := s.cpt + p.step })
  else (s.cDat, s)

/-- The result word of one step, stored when channel D is on. -/
def AreaSetup.channelD (p : AreaSetup) (s : AreaState) (d : Word) : AreaState :=
  let s := { s with zero := s.zero && d = 0, lastD := d }
  if p.useD then { s with mem := s.mem.writeWord s.dpt d, dpt := s.dpt + p.step } else s

def AreaSetup.word (p : AreaSetup) (s : AreaState) (wordIdx : Nat) : AreaState :=
  let (a, s) := p.channelA s wordIdx
  let (b, s) := p.channelB s
  let (c, s) := p.channelC s
  let d := minterm p.lf a b c
  if p.fill then
    let (filled, fillState) := applyFill d s.fillState p.ife p.efe
    p.channelD { s with fillState := fillState } filled
  else p.channelD s d

/-- One row of words and the modulos at its end. The shifters are not cleared between rows. -/
def AreaSetup.row (p : AreaSetup) (s : AreaState) : AreaState :=
  let s := (List.range p.widthWords).foldl p.word { s with fillState := p.fci }
  { s with
    apt := if p.useA then s.apt + p.amod else s.apt
    bpt := if p.useB then s.bpt + p.bmod else s.bpt
    cpt := if p.useC then s.cpt + p.cmod else s.cpt
    dpt := if p.useD then s.dpt + p.dmod else s.dpt }

def areaStart (b : Blitter) (mem : BlitRam) : AreaState where
  mem := mem
  apt := b.pt .a
  bpt := b.pt .b
  cpt := b.pt .c
  dpt := b.pt .d
  aPrev := 0
  bPrev := 0
  cDat := b.dat .c
  lastD := 0
  zero := b.zero
  fillState := false

def executeArea (b : Blitter) (mem : BlitRam) : Blitter × BlitRam :=
  let s := b.areaSetup.row^[b.heightRows] (b.areaStart mem)
  ({ b with
      pt := fun
        | .a => s.apt
        | .b => s.bpt
        | .c => s.cpt
        | .d => s.dpt
      dat := fun ch => if ch = .c then s.cDat else b.dat ch
      zero := s.zero
      bltddat := s.lastD },
    s.mem)

/-! ## Line mode -/

/-- What a line takes from the registers before it starts. -/
structure LineSetup where
  lf : Byte
  useA : Bool
  useB : Bool
  useC : Bool
  bltcon1 : Word
  sing : Bool
  bplmod : Long
  amodStep : Word
  bmodStep : Word
  aWord : Word

def lineSetup (b : Blitter) : LineSetup where
  lf := b.bltcon0.setWidth 8
  useA := b.bltcon0 &&& bltcon0Usea ≠ 0
  useB := b.bltcon0 &&& bltcon0Useb ≠ 0
  useC := b.bltcon0 &&& bltcon0Usec ≠ 0
  bltcon1 := b.bltcon1
  sing := b.bltcon1 &&& bltcon1Sing ≠ 0
  bplmod := (b.modulo .c).signExtend 32
  amodStep := b.modulo .a
  bmodStep := b.modulo .b
  aWord := b.dat .a &&& b.bltafwm

/-- The shift within the word, the word's address, and whether the row has a dot already. -/
structure Pen where
  ash : Nat
  cpt : Long
  oneDot : Bool

/-- Move one pixel right or left, into the next word at the ends of this one. -/
def lineStepX (p : Pen) (right : Bool) : Pen :=
  if right then
    if 15 < p.ash + 1 then { p with cpt := p.cpt + 2, ash := 0 } else { p with ash := p.ash + 1 }
  else
    if p.ash = 0 then { p with cpt := p.cpt - 2, ash := 15 } else { p with ash := p.ash - 1 }

/-- Move one row down or up. -/
def lineStepY (p : Pen) (down : Bool) (bplmod : Long) : Pen :=
  { p with cpt := p.cpt + (if down then bplmod else -bplmod), oneDot := false }

/-- The step taken while the error term is not negative. -/
def LineSetup.stepSometimes (l : LineSetup) (p : Pen) : Pen :=
  let positive : Bool := l.bltcon1 &&& bltcon1Sul = 0
  if l.bltcon1 &&& bltcon1Sud ≠ 0 then lineStepY p positive l.bplmod else lineStepX p positive

/-- The step taken for every pixel. -/
def LineSetup.stepAlways (l : LineSetup) (p : Pen) : Pen :=
  let positive : Bool := l.bltcon1 &&& bltcon1Aul = 0
  if l.bltcon1 &&& bltcon1Sud ≠ 0 then lineStepX p positive else lineStepY p positive l.bplmod

structure LineState where
  mem : BlitRam
  bpt : Long
  dpt : Long
  pen : Pen
  acc : Word
  sign : Bool
  bsh : Word
  bdat : Word
  cDat : Word
  lastD : Word
  zero : Bool

/-- Fetch the line texture, when channel B is on. -/
def LineSetup.fetchB (l : LineSetup) (s : LineState) : LineState :=
  if l.useB then
    { s with
      bdat := (s.mem.readWord s.bpt).rotateRight s.bsh.toNat
      bpt := s.bpt + l.bmodStep.signExtend 32 }
  else s

def LineSetup.fetchC (l : LineSetup) (s : LineState) : LineState :=
  if l.useC then { s with cDat := s.mem.readWord s.pen.cpt } else s

def LineSetup.pixel (l : LineSetup) (s : LineState) : LineState :=
  let s := l.fetchB s
  -- a second dot in a row is only kept from being stored
  let linePixel := !l.sing || !s.pen.oneDot
  let s := l.fetchC s
  let d := minterm l.lf (l.aWord >>> s.pen.ash) (if s.bdat &&& 1 ≠ 0 then 0xFFFF else 0) s.cDat
  let dotted : Pen := { s.pen with oneDot := true }
  let pen := l.stepAlways (if s.sign then dotted else l.stepSometimes dotted)
  let acc :=
    if l.useA then s.acc + (if s.sign then l.bmodStep else l.amodStep) else s.acc
  { s with
    pen := pen
    acc := acc
    sign := acc.msb
    zero := s.zero && d = 0
    lastD := d
    mem := if l.useC && linePixel then s.mem.writeWord s.dpt d else s.mem
    dpt := pen.cpt
    bdat := s.bdat.rotateLeft 1
    bsh := (s.bsh - 1) &&& 0x000F }

def lineStart (b : Blitter) (mem : BlitRam) : LineState where
  mem := mem
  bpt := b.pt .b
  dpt := b.pt .d
  pen := ⟨(b.bltcon0 >>> 12).toNat, b.pt .c, false⟩
  acc := (b.pt .a).setWidth 16
  sign := b.bltcon1 &&& bltcon1Sign ≠ 0
  bsh := b.bltcon1 >>> 12
  bdat := (b.dat .b).rotateRight (b.bltcon1 >>> 12).toNat
  cDat := b.dat .c
  lastD := 0
  zero := b.zero

def executeLine (b : Blitter) (mem : BlitRam) : Blitter × BlitRam :=
  let s := b.lineSetup.pixel^[b.heightRows] (b.lineStart mem)
  let con1 := (b.bltcon1 &&& ~~~bltcon1Sign) ||| (if s.acc.msb then bltcon1Sign else 0)
  ({ b with
      bltcon1 := (con1 &&& 0x0FFF) ||| (s.bsh <<< 12)
      bltcon0 := (b.bltcon0 &&& 0x0FFF) ||| ((BitVec.ofNat 16 s.pen.ash &&& 0x000F) <<< 12)
      pt := fun
        | .a => (b.pt .a &&& 0xFFFF0000) ||| s.acc.setWidth 32
        | .b => s.bpt
        | .c => s.pen.cpt
        | .d => s.dpt
      dat := fun ch => if ch = .c then s.cDat else b.dat ch
      zero := s.zero
      bltddat := s.lastD },
    s.mem)

/-! ## Running a blit -/

/-- Run an armed blit to completion; whether there was one. -/
def executeLogged (b : Blitter) (mem : BlitRam) : Bool × Blitter × BlitRam :=
  if b.pending = false then (false, b, mem)
  else
    let b := { b with pending := false, zero := true }
    (true, if b.bltcon1 &&& bltcon1Line ≠ 0 then b.executeLine mem else b.executeArea mem)

/-! ## What a blit stores -/

/-- `m'` comes from `m` by word stores only. -/
inductive Stored : BlitRam → BlitRam → Prop
  | refl (m : BlitRam) : Stored m m
  | word {m m' : BlitRam} (ptr : Long) (value : Word) :
      Stored m m' → Stored m (m'.writeWord ptr value)

theorem Stored.trans {m m' m'' : BlitRam} (h : Stored m m') (h' : Stored m' m'') :
    Stored m m'' := by
  induction h' with
  | refl => exact h
  | word ptr value _ ih => exact .word ptr value ih

variable (p : AreaSetup)

theorem stored_channelD {s t : AreaState} (d : Word) (h : t.mem = s.mem) :
    Stored s.mem (p.channelD t d).mem := by
  unfold AreaSetup.channelD
  rw [← h]
  split
  · exact .word _ _ (.refl _)
  · exact .refl _

theorem mem_channelB (s : AreaState) : (p.channelB s).2.mem = s.mem := by
  unfold AreaSetup.channelB
  split <;> rfl

theorem mem_channelC (s : AreaState) : (p.channelC s).2.mem = s.mem := by
  unfold AreaSetup.channelC
  split <;> rfl

theorem stored_word (s : AreaState) (wordIdx : Nat) : Stored s.mem (p.word s wordIdx).mem := by
  have hmem : (p.channelC (p.channelB (p.channelA s wordIdx).2).2).2.mem = s.mem := by
    rw [mem_channelC, mem_channelB]
    rfl
  unfold AreaSetup.word
  dsimp only
  split <;> exact stored_channelD p _ hmem

theorem stored_row (s : AreaState) : Stored s.mem (p.row s).mem := by
  have hwords : ∀ (ws : List Nat) (t : AreaState), Stored t.mem (ws.foldl p.word t).mem := by
    intro ws
    induction ws with
    | nil => exact fun t => .refl _
    | cons w ws ih => exact fun t => (stored_word p t w).trans (ih _)
  exact hwords (List.range p.widthWords) { s with fillState := p.fci }

theorem stored_area (b : Blitter) (mem : BlitRam) : Stored mem (b.executeArea mem).2 := by
  have hrows : ∀ n, Stored mem (b.areaSetup.row^[n] (b.areaStart mem)).mem := by
    intro n
    induction n with
    | zero => exact .refl _
    | succ n ih =>
      rw [Function.iterate_succ_apply']
      exact ih.trans (stored_row _ _)
  exact hrows b.heightRows

theorem stored_pixel (l : LineSetup) (s : LineState) : Stored s.mem (l.pixel s).mem := by
  have hB : (l.fetchB s).mem = s.mem := by
    unfold LineSetup.fetchB
    split <;> rfl
  have hC : (l.fetchC (l.fetchB s)).mem = s.mem := by
    rw [← hB]
    unfold LineSetup.fetchC
    split <;> rfl
  unfold LineSetup.pixel
  dsimp only
  rw [hC]
  split
  · exact .word _ _ (.refl _)
  · exact .refl _

theorem stored_line (b : Blitter) (mem : BlitRam) : Stored mem (b.executeLine mem).2 := by
  have hpixels : ∀ n, Stored mem (b.lineSetup.pixel^[n] (b.lineStart mem)).mem := by
    intro n
    induction n with
    | zero => exact .refl _
    | succ n ih =>
      rw [Function.iterate_succ_apply']
      exact ih.trans (stored_pixel _ _)
  exact hpixels b.heightRows

/-- **A blit reaches memory through its word stores only**, in either mode. -/
theorem stored_executeLogged (b : Blitter) (mem : BlitRam) :
    Stored mem (b.executeLogged mem).2.2 := by
  unfold executeLogged
  split
  · exact .refl _
  · dsimp only
    split
    · exact stored_line _ mem
    · exact stored_area _ mem

end Blitter

end M68kMachine
