import M68kMachine.Core.Copper
import Mathlib.Logic.Function.Basic

/-!
# The planar renderer

The second half of `render.rs` and the framebuffer of `display.rs`: a frame is filled with the
background, the bitplanes are painted row by row under the band of each row, and sprite 0 is laid
over them.
-/

namespace M68kMachine

namespace Render

abbrev maxDdfWords : Nat := 128
abbrev maxPlanes : Nat := 5
abbrev maxSpriteLines : Nat := 256
abbrev outputPxPerCck : Nat := 2
abbrev maxHeight : Nat := 576

/-! ## The framebuffer -/

/-- A borrowed framebuffer: `len` pixels, of which the picture takes `width * height`. -/
structure Framebuffer where
  width : Nat
  height : Nat
  len : Nat
  pixels : Buffer Long len

namespace Framebuffer

/-- `usize` multiplication as a release build does it. -/
abbrev usizeLimit : Nat := 2 ^ 64

def new (len : Nat) (pixels : Buffer Long len) (width height : Nat) : Option Framebuffer :=
  if width = 0 ∨ height = 0 ∨ len < width * height % usizeLimit then none
  else some ⟨width, height, len, pixels⟩

def put (fb : Framebuffer) (x y : Nat) (argb : Long) : Framebuffer :=
  if x < fb.width ∧ y < fb.height then
    { fb with pixels := fb.pixels.set (y * fb.width + x) argb }
  else fb

def fill (fb : Framebuffer) (argb : Long) : Framebuffer := { fb with pixels := fun _ => argb }

/-- The pixel at a column of a row. -/
def pixel (fb : Framebuffer) (x y : Nat) : Option Long := fb.pixels.get? (y * fb.width + x)

/-- The picture lies in the pixels. -/
def Holds (fb : Framebuffer) : Prop := fb.width * fb.height ≤ fb.len

theorem Holds.row_le {fb : Framebuffer} (h : fb.Holds) {y : Nat} (hy : y < fb.height) :
    y * fb.width + fb.width ≤ fb.len := by
  have hrow : (y + 1) * fb.width ≤ fb.height * fb.width := Nat.mul_le_mul_right _ hy
  rw [Nat.succ_mul, Nat.mul_comm fb.height] at hrow
  exact hrow.trans h

theorem Holds.place_lt {fb : Framebuffer} (h : fb.Holds) {x y : Nat} (hx : x < fb.width)
    (hy : y < fb.height) : y * fb.width + x < fb.len :=
  (Nat.add_lt_add_left hx _).trans_le (h.row_le hy)

end Framebuffer

/-- `$0RGB` with each gun replicated, `0xAARRGGBB`. -/
def argbFromAmiga (color : Word) : Long :=
  let r := ((color >>> 8) &&& 0x0F).setWidth 32
  let g := ((color >>> 4) &&& 0x0F).setWidth 32
  let b := (color &&& 0x0F).setWidth 32
  0xFF000000 ||| (r * 0x11) <<< 16 ||| (g * 0x11) <<< 8 ||| (b * 0x11)

/-! ## The geometry of a band -/

structure Geometry where
  planes : Nat
  lace : Bool
  pxPerCck : Nat
  diwX0 : Nat
  diwX1 : Nat
  diwY0 : Nat
  diwY1 : Nat
  ddfWords : Nat
  bitsPerOutputPx : Nat
  fetchBitShift : Int

/-- The words of a line: whole units of eight colour clocks and one more, clipped. -/
def ddfWordsOf (ddfstrt ddfstop : Word) (hires : Bool) : Nat :=
  if ddfstrt.toNat ≤ ddfstop.toNat then
    let units := (ddfstop.toNat - ddfstrt.toNat + 7) / 8 + 1
    min (units * if hires then 2 else 1) maxDdfWords
  else 0

def decodeBand (b : BandState) : Geometry :=
  let hires : Bool := b.bplcon0 &&& 0x8000 ≠ 0
  let rawPlanes := ((b.bplcon0 >>> 12) &&& 0x7).toNat
  let bitsPerOutputPx := if hires then 2 else 1
  let vstart := (b.diwstrt >>> 8).toNat
  let vstopByte := (b.diwstop >>> 8).toNat
  let vstop := vstopByte + if vstopByte < 0x80 then 0x100 else 0
  let hstartRaw := (b.diwstrt &&& 0xFF).toNat
  let hstopRaw := (b.diwstop &&& 0xFF).toNat ||| 0x100
  let diwX0 := hstartRaw / 2 * outputPxPerCck
  let stdDdf : Int := if hires then 0x3C else 0x38
  let pf1h : Int := (b.bplcon1 &&& 0xF).toNat
  { planes := min rawPlanes maxPlanes
    lace := b.bplcon0 &&& 0x0004 ≠ 0
    pxPerCck := outputPxPerCck
    diwX0 := diwX0
    diwX1 := max (hstopRaw / 2 * outputPxPerCck) diwX0
    diwY0 := vstart
    diwY1 := max vstop vstart
    ddfWords := ddfWordsOf b.ddfstrt b.ddfstop hires
    bitsPerOutputPx := bitsPerOutputPx
    fetchBitShift :=
      ((hstartRaw : Int) - 0x81 - 2 * ((b.ddfstrt.toNat : Int) - stdDdf) - pf1h) *
        bitsPerOutputPx }

/-- What the registers of a band can say. -/
structure Geometry.Small (g : Geometry) : Prop where
  planes_le : g.planes ≤ maxPlanes
  diwX1_le : g.diwX1 ≤ 510
  diwY0_le : g.diwY0 ≤ 255
  diwY1_le : g.diwY1 ≤ 383
  ddfWords_le : g.ddfWords ≤ maxDdfWords
  bits_le : g.bitsPerOutputPx ≤ 2
  shift_le : g.fetchBitShift ≤ 510
  neg_le_shift : -400000 ≤ g.fetchBitShift

theorem high_le (word : Word) : (word >>> 8).toNat ≤ 255 := by
  rw [BitVec.toNat_ushiftRight, Nat.shiftRight_eq_div_pow]
  have := word.isLt
  omega

theorem low_le (word : Word) : (word &&& 0xFF).toNat ≤ 255 := by
  rw [BitVec.toNat_and]
  exact Nat.and_le_right

theorem hstop_le (word : Word) : (word &&& 0xFF).toNat ||| 0x100 ≤ 511 := by
  have hlow : (word &&& 0xFF).toNat < 2 ^ 9 := by
    have := low_le word
    omega
  have hor : (word &&& 0xFF).toNat ||| 0x100 < 2 ^ 9 := Nat.or_lt_two_pow hlow (by decide)
  omega

theorem scroll_le (word : Word) : (word &&& 0xF).toNat ≤ 15 := by
  rw [BitVec.toNat_and]
  exact Nat.and_le_right

theorem ddfWordsOf_le (ddfstrt ddfstop : Word) (hires : Bool) :
    ddfWordsOf ddfstrt ddfstop hires ≤ maxDdfWords := by
  unfold ddfWordsOf
  split
  · exact Nat.min_le_right _ _
  · exact Nat.zero_le _

theorem decodeBand_small (b : BandState) : (decodeBand b).Small := by
  have hvstart := high_le b.diwstrt
  have hvstop := high_le b.diwstop
  have hhstart := low_le b.diwstrt
  have hhstop := hstop_le b.diwstop
  have hscroll := scroll_le b.bplcon1
  have hddf := b.ddfstrt.isLt
  have hscale : outputPxPerCck = 2 := rfl
  unfold decodeBand
  rw [hscale]
  dsimp only
  refine ⟨Nat.min_le_right _ _, ?_, hvstart, ?_, ddfWordsOf_le _ _ _, ?_, ?_, ?_⟩
  · dsimp only
    omega
  · dsimp only
    split <;> omega
  · dsimp only
    split <;> omega
  · dsimp only
    split <;> omega
  · dsimp only
    split <;> omega

/-! ## Bitplanes -/

/-- The colour index at a fetched bit, plane 0 in its lowest bit. -/
def pixelColorIndex (words : Nat → Nat → Word) (planes relPx : Nat) : Nat :=
  (List.range planes).foldl (fun index p =>
    index ||| ((words p (relPx / 16)).getLsbD (15 - relPx % 16)).toNat <<< p) 0

/-- A pointer after one line: the words fetched and the modulo, which is signed. -/
def advancePlanePtr (ptr : Long) (words : Nat) (modulo : Word) : Long :=
  ptr + BitVec.ofNat 32 (words * 2) + modulo.signExtend 32

/-- Even planes are numbered from one. -/
def BandState.modulo (b : BandState) (p : Nat) : Word := if p % 2 = 0 then b.bpl1mod else b.bpl2mod

/-- The odd field starts one fetched row into the same buffer. -/
def oddFieldBplpt (even : Nat → Long) (ddfWords : Nat) : Nat → Long := fun p =>
  even p + BitVec.ofNat 32 (ddfWords * 2)

/-- The running pointers of the two fields, the words fetched last and the picture. -/
structure RowState where
  bplpt : Nat → Nat → Long
  words : Nat → Nat → Word
  fb : Framebuffer

/-- The words of a plane, and its pointer on to the next line. -/
def fetchPlane (ram : ByteSlice) (b : BandState) (g : Geometry) (field : Nat) (s : RowState)
    (p : Nat) : RowState :=
  let ptr := s.bplpt field p
  { s with
    words := Function.update s.words p fun w =>
      if w < g.ddfWords then readWord ram (ptr + BitVec.ofNat 32 (w * 2)) else s.words p w
    bplpt := Function.update s.bplpt field
      (Function.update (s.bplpt field) p (advancePlanePtr ptr g.ddfWords (b.modulo p))) }

/-- The colour of a pixel of the window: background where no fetched data is behind it. -/
def windowPixel (b : BandState) (g : Geometry) (words : Nat → Nat → Word) (x : Nat) : Long :=
  let srcPx : Int := ((x - g.diwX0 : Nat) : Int) * g.bitsPerOutputPx + g.fetchBitShift
  let colorIndex :=
    if 0 ≤ srcPx ∧ srcPx < (g.ddfWords : Int) * 16 then
      pixelColorIndex words g.planes srcPx.toNat
    else 0
  argbFromAmiga (b.colour (colorIndex % 0x20))

/-- The columns of a row, each with its colour. -/
def paintRow (fb : Framebuffer) (y x0 x1 : Nat) (argb : Nat → Long) : Framebuffer :=
  (List.range' x0 (x1 - x0)).foldl (fun fb x => fb.put x y (argb x)) fb

/-- The band has planes to fetch and to show. -/
def fetches (b : BandState) (g : Geometry) : Bool :=
  !(g.planes = 0 || g.ddfWords = 0 || g.diwX1 ≤ g.diwX0 || !bitplaneDmaEnabled b.dmacon)

/-- Which field an output row shows, and the row's line in it. -/
def fieldOf (lace : Bool) (row : Nat) : Nat := if lace then row % 2 else 0

def fieldLine (lace : Bool) (row : Nat) : Nat := if lace then row / 2 else row

/-- An output row `y` under the registers of its band. -/
def drawBandRow (ram : ByteSlice) (b : BandState) (field y : Nat) (s : RowState) : RowState :=
  let g := decodeBand b
  if fetches b g then
    let s := (List.range g.planes).foldl (fetchPlane ram b g field) s
    { s with fb := paintRow s.fb y g.diwX0 g.diwX1 (windowPixel b g s.words) }
  else { s with fb := paintRow s.fb y 0 s.fb.width fun _ => argbFromAmiga (b.colour 0) }

/-- The band of an output row. -/
def bandOfRow (bands : Bands) (lace : Bool) (y0 row : Nat) : BandState :=
  bands.state (bands.bandIndexForLine (y0 + fieldLine lace row))

def drawRow (ram : ByteSlice) (bands : Bands) (lace : Bool) (y0 : Nat) (s : RowState) (row : Nat) :
    RowState :=
  drawBandRow ram (bandOfRow bands lace y0 row) (fieldOf lace row) (y0 + row) s

/-- What the bands' windows have in common. -/
structure Extent where
  y0 : Nat
  y1 : Nat
  lace : Bool

def Extent.add (e : Extent) (b : BandState) : Extent :=
  let g := decodeBand b
  let e := { e with lace := e.lace || g.lace }
  if g.diwY0 < g.diwY1 then { e with y0 := min e.y0 g.diwY0, y1 := max e.y1 g.diwY1 } else e

/-- The union of the bands' windows. -/
def Bands.extent (bands : Bands) : Extent :=
  bands.list.foldl (fun e band => e.add band.2) ⟨0xFFFFFFFF, 0, false⟩

def Extent.rows (e : Extent) : Nat :=
  min (if e.lace then (e.y1 - e.y0) * 2 else e.y1 - e.y0) (maxHeight * 2)

/-- The pointers before the first row. -/
def startPointers (state : CopperState) (bands : Bands) (e : Extent) : Nat → Nat → Long :=
  let even := state.plane
  if e.lace then
    let top := decodeBand (bands.state (bands.bandIndexForLine e.y0))
    Function.update (fun _ => even) 1 (oddFieldBplpt even top.ddfWords)
  else fun _ => even

/-- The state before an output row. -/
def beforeRow (state : CopperState) (ram : ByteSlice) (bands : Bands) (fb : Framebuffer)
    (row : Nat) : RowState :=
  let e := bands.extent
  (List.range row).foldl (drawRow ram bands e.lace e.y0)
    ⟨startPointers state bands e, fun _ _ => 0, fb⟩

def drawBitplanes (state : CopperState) (ram : ByteSlice) (bands : Bands) (fb : Framebuffer) :
    Framebuffer :=
  let e := bands.extent
  if e.y1 ≤ e.y0 then fb else (beforeRow state ram bands fb e.rows).fb

/-! ## Sprite 0 -/

/-- One line of the sprite; colour 0 is transparent. -/
def drawSpriteLine (b : BandState) (wordA wordB : Word) (x0 step y : Nat) (fb : Framebuffer) :
    Framebuffer :=
  (List.range 16).foldl (fun fb bit =>
    let value := (wordA.getLsbD (15 - bit)).toNat ||| (wordB.getLsbD (15 - bit)).toNat <<< 1
    if value = 0 then fb
    else fb.put (x0 + bit * step) y (argbFromAmiga (b.colour (16 + value)))) fb

/-- The position comes from the two words before the image. -/
def drawSprite0 (state : CopperState) (ram : ByteSlice) (bands : Bands) (fb : Framebuffer) :
    Framebuffer :=
  let posWord := readWord ram state.spr0pt
  let ctlWord := readWord ram (state.spr0pt + 2)
  let vstart := (posWord >>> 8).toNat ||| (ctlWord &&& 0x04).toNat <<< 6
  let vstop := (ctlWord >>> 8).toNat ||| (ctlWord &&& 0x02).toNat <<< 7
  let hstartRaw := (posWord &&& 0xFF).toNat <<< 1 ||| (ctlWord &&& 0x01).toNat
  if vstop ≤ vstart then fb
  else
    let height := min (vstop - vstart) maxSpriteLines
    let b := bands.state (bands.bandIndexForLine vstart)
    let g := decodeBand b
    let x0 := hstartRaw / 2 * g.pxPerCck
    let step := max (g.pxPerCck / 2) 1
    (List.range height).foldl (fun fb line =>
      let addr := state.spr0pt + 4 + BitVec.ofNat 32 (line * 4)
      drawSpriteLine b (readWord ram addr) (readWord ram (addr + 2)) x0 step (vstart + line) fb) fb

/-! ## A frame -/

def render (chipset : Chipset) (ram : ByteSlice) (fb : Framebuffer) : Framebuffer :=
  let (state, bands, _) := runCopper chipset.cop1lc ram (.fromChipset chipset) .new
  let fb := fb.fill (argbFromAmiga ((bands.state 0).colour 0))
  drawSprite0 state ram bands (drawBitplanes state ram bands fb)

end Render

end M68kMachine
