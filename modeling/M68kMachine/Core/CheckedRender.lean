import M68kMachine.Core.Planar
import M68kMachine.Library.Checked

/-!
# A frame that stops where the source would panic

The functions of the renderer with their arithmetic and indexing checked, each beside the function
of `Copper.lean` or `Planar.lean` it follows.

* `runCopperChecked` — the walk of the copper list
* `decodeBandChecked` — the geometry of a band
* `drawBitplanesChecked`, `drawSprite0Checked` — what is painted
* `renderChecked` — the frame
-/

namespace M68kMachine

namespace Render

abbrev u32Limit : Nat := 2 ^ 32
abbrev i32Limit : Nat := 2 ^ 31
abbrev i64Limit : Nat := 2 ^ 63

/-! ## The copper -/

/-- Only the colours are indexed by what the list says. -/
def CopperState.applyMoveChecked (s : CopperState) (offset : Nat) (value : Word) :
    Option CopperState :=
  if Chipset.Reg.color00 ≤ offset ∧ offset ≤ Chipset.Reg.color31 then do
    let place ← Checked.sub offset Chipset.Reg.color00
    let index ← Checked.below 32 (place / 2)
    some { s with color := s.color.setIfInBounds index (value &&& 0x0FFF) }
  else some (s.applyMove offset value)

namespace Bands

def finalizeChecked (b : Bands) (s : CopperState) : Option Bands := do
  let last ← Checked.sub b.count 1
  let last ← Checked.below maxBands last
  some ⟨b.list.modify last fun band => (band.1, .fromState s)⟩

def openBandChecked (b : Bands) (newStart : Nat) (s : CopperState) : Option Bands := do
  let b ← b.finalizeChecked s
  if b.count < maxBands then do
    let next ← Checked.below maxBands b.count
    let _ ← Checked.add Framebuffer.usizeLimit next 1
    some ⟨b.list ++ [(newStart, .zeroed)]⟩
  else some b

/-- The registers of a line; the starts are looked at as a slice of `count`. -/
def stateOfLineChecked (b : Bands) (line : Nat) : Option BandState := do
  let _ ← Checked.below (maxBands + 1) b.count
  let i ← Checked.below maxBands (b.bandIndexForLine line)
  some (b.state i)

end Bands

/-- The open range of lines steps past every line it hands out. -/
def findLineChecked (want ve : Byte) : Nat → Nat → Option (Option Nat)
  | 0, _ => some none
  | n + 1, line => do
    let next ← Checked.add u32Limit line 1
    if BitVec.ofNat 8 line &&& ve = want then some (some line) else findLineChecked want ve n next

def waitVerticalTargetChecked (vp ve : Byte) (fromLine : Nat) : Option Nat := do
  let line ← findLineChecked (vp &&& ve) ve 256 fromLine
  some (line.getD fromLine)

def copperStepChecked (ram : ByteSlice) (w : Walk) : Option (Walk × Bool) := do
  let executed ← Checked.add u32Limit w.executed 1
  let w' := { w with pc := w.pc + 4, executed }
  match fetchInstr ram w.pc with
  | .move offset value => do
    let state ← w.state.applyMoveChecked offset value
    some ({ w' with state, pc := afterMove state offset w'.pc }, true)
  | .stop => some (w', false)
  | .wait vp ve =>
    if ve ≠ 0 then do
      let target ← waitVerticalTargetChecked vp ve w.line
      if w.line < target then do
        let bands ← w.bands.openBandChecked target w.state
        some ({ w' with bands, line := target }, true)
      else some (w', true)
    else some (w', true)
  | .skip => some (w', true)

def copperLoopChecked (ram : ByteSlice) : Nat → Walk → Option Walk
  | 0, w => some w
  | budget + 1, w => do
    let next ← copperStepChecked ram w
    if next.2 then copperLoopChecked ram budget next.1 else some next.1

def runCopperChecked (start : Long) (ram : ByteSlice) (state : CopperState) (bands : Bands) :
    Option (CopperState × Bands × Nat) := do
  let w ← copperLoopChecked ram copperInstrBudget ⟨start, 0, state, bands, 0⟩
  let bands ← w.bands.finalizeChecked w.state
  some (w.state, bands, w.executed)

/-! ## The framebuffer -/

def Framebuffer.putChecked (fb : Framebuffer) (x y : Nat) (argb : Long) : Option Framebuffer :=
  if x < fb.width ∧ y < fb.height then do
    let row ← Checked.mul Framebuffer.usizeLimit y fb.width
    let at' ← Checked.add Framebuffer.usizeLimit row x
    let at' ← Checked.below fb.len at'
    some { fb with pixels := fb.pixels.set at' argb }
  else some fb

def argbFromAmigaChecked (color : Word) : Option Long := do
  let r ← Checked.mul u32Limit ((color >>> 8) &&& 0x0F).toNat 0x11
  let g ← Checked.mul u32Limit ((color >>> 4) &&& 0x0F).toNat 0x11
  let b ← Checked.mul u32Limit (color &&& 0x0F).toNat 0x11
  some (0xFF000000 ||| BitVec.ofNat 32 r <<< 16 ||| BitVec.ofNat 32 g <<< 8 ||| BitVec.ofNat 32 b)

/-! ## The geometry of a band -/

/-- `div_ceil` has no sum that could be too large. -/
def ddfWordsChecked (ddfstrt ddfstop : Word) (hires : Bool) : Option Nat :=
  if ddfstrt.toNat ≤ ddfstop.toNat then do
    let span ← Checked.sub ddfstop.toNat ddfstrt.toNat
    let units ← Checked.add u32Limit ((span + 7) / 8) 1
    let words ← Checked.mul u32Limit units (if hires then 2 else 1)
    some (min words maxDdfWords)
  else some 0

def fetchBitShiftChecked (hstartRaw : Nat) (ddfstrt : Word) (stdDdf pf1h : Int) (bits : Nat) :
    Option Int := do
  let start ← Checked.signed i32Limit ((hstartRaw : Int) - 0x81)
  let early ← Checked.signed i32Limit ((ddfstrt.toNat : Int) - stdDdf)
  let early ← Checked.signed i32Limit (2 * early)
  let shift ← Checked.signed i32Limit (start - early)
  let shift ← Checked.signed i32Limit (shift - pf1h)
  Checked.signed i32Limit (shift * bits)

def decodeBandChecked (b : BandState) : Option Geometry := do
  let hires : Bool := b.bplcon0 &&& 0x8000 ≠ 0
  let rawPlanes := ((b.bplcon0 >>> 12) &&& 0x7).toNat
  let bitsPerOutputPx := if hires then 2 else 1
  let vstart := (b.diwstrt >>> 8).toNat
  let vstopByte := (b.diwstop >>> 8).toNat
  let vstop ← Checked.add u32Limit vstopByte (if vstopByte < 0x80 then 0x100 else 0)
  let hstartRaw := (b.diwstrt &&& 0xFF).toNat
  let hstopRaw := (b.diwstop &&& 0xFF).toNat ||| 0x100
  let diwX0 ← Checked.mul u32Limit (hstartRaw / 2) outputPxPerCck
  let hstop ← Checked.mul u32Limit (hstopRaw / 2) outputPxPerCck
  let ddfWords ← ddfWordsChecked b.ddfstrt b.ddfstop hires
  let stdDdf : Int := if hires then 0x3C else 0x38
  let pf1h : Int := (b.bplcon1 &&& 0xF).toNat
  let fetchBitShift ← fetchBitShiftChecked hstartRaw b.ddfstrt stdDdf pf1h bitsPerOutputPx
  some
    { planes := min rawPlanes maxPlanes
      lace := b.bplcon0 &&& 0x0004 ≠ 0
      pxPerCck := outputPxPerCck
      diwX0 := diwX0
      diwX1 := max hstop diwX0
      diwY0 := vstart
      diwY1 := max vstop vstart
      ddfWords := ddfWords
      bitsPerOutputPx := bitsPerOutputPx
      fetchBitShift := fetchBitShift }

/-! ## Bitplanes -/

def pixelColorIndexChecked (words : Nat → Nat → Word) (planes relPx : Nat) : Option Nat := do
  let word ← Checked.below maxDdfWords (relPx / 16)
  let bit ← Checked.sub 15 (relPx % 16)
  let bit ← Checked.below 16 bit
  (List.range (min maxPlanes planes)).foldlM (fun index p => do
    let p ← Checked.below 64 p
    some (index ||| ((words p word).getLsbD bit).toNat <<< p)) 0

def advancePlanePtrChecked (ptr : Long) (words : Nat) (modulo : Word) : Option Long := do
  let bytes ← Checked.mul u32Limit words 2
  some (ptr + BitVec.ofNat 32 bytes + modulo.signExtend 32)

def oddFieldBplptChecked (even : Nat → Long) (ddfWords : Nat) : Option (Nat → Long) := do
  let rowBytes ← Checked.mul u32Limit ddfWords 2
  some fun p => even p + BitVec.ofNat 32 rowBytes

/-- One word of a plane. -/
def fetchWordChecked (ram : ByteSlice) (ptr : Long) (slots : Nat → Word) (w : Nat) :
    Option (Nat → Word) := do
  let offset ← Checked.mul Framebuffer.usizeLimit w 2
  some (Function.update slots w (readWord ram (ptr + BitVec.ofNat 32 offset)))

def fetchPlaneChecked (ram : ByteSlice) (b : BandState) (g : Geometry) (field : Nat)
    (s : RowState) (p : Nat) : Option RowState := do
  let field ← Checked.below 2 field
  let p ← Checked.below 6 p
  let ptr := s.bplpt field p
  let slots ← (List.range (min maxDdfWords g.ddfWords)).foldlM (fetchWordChecked ram ptr)
    (s.words p)
  let next ← advancePlanePtrChecked ptr g.ddfWords (b.modulo p)
  some { s with
    words := Function.update s.words p slots
    bplpt := Function.update s.bplpt field (Function.update (s.bplpt field) p next) }

def windowPixelChecked (b : BandState) (g : Geometry) (words : Nat → Nat → Word) (x : Nat) :
    Option Long := do
  let totalPx ← Checked.signed i64Limit ((g.ddfWords : Int) * 16)
  let relPx ← Checked.sub x g.diwX0
  let scaled ← Checked.signed i64Limit ((relPx : Int) * g.bitsPerOutputPx)
  let srcPx ← Checked.signed i64Limit (scaled + g.fetchBitShift)
  let colorIndex ←
    if 0 ≤ srcPx ∧ srcPx < totalPx then
      pixelColorIndexChecked words g.planes (srcPx.toNat % u32Limit)
    else some 0
  let color ← b.color[colorIndex % 0x20]?
  argbFromAmigaChecked color

def paintRowChecked (fb : Framebuffer) (y x0 x1 : Nat) (argb : Nat → Option Long) :
    Option Framebuffer :=
  (List.range' x0 (x1 - x0)).foldlM (fun fb x => do
    let argb ← argb x
    fb.putChecked x y argb) fb

def drawBandRowChecked (ram : ByteSlice) (b : BandState) (field y : Nat) (s : RowState) :
    Option RowState := do
  let g ← decodeBandChecked b
  if fetches b g then do
    let s ← (List.range (min maxPlanes g.planes)).foldlM (fetchPlaneChecked ram b g field) s
    let fb ← paintRowChecked s.fb y g.diwX0 g.diwX1 (windowPixelChecked b g s.words)
    some { s with fb }
  else do
    let argb ← argbFromAmigaChecked (b.colour 0)
    let fb ← paintRowChecked s.fb y 0 s.fb.width fun _ => some argb
    some { s with fb }

def drawRowChecked (ram : ByteSlice) (bands : Bands) (lace : Bool) (y0 : Nat) (s : RowState)
    (row : Nat) : Option RowState := do
  let bandLine ← Checked.add u32Limit y0 (fieldLine lace row)
  let y ← Checked.add u32Limit y0 row
  let b ← bands.stateOfLineChecked bandLine
  drawBandRowChecked ram b (fieldOf lace row) y s

def Extent.addChecked (e : Extent) (b : BandState) : Option Extent := do
  let g ← decodeBandChecked b
  let e := { e with lace := e.lace || g.lace }
  some (if g.diwY0 < g.diwY1 then { e with y0 := min e.y0 g.diwY0, y1 := max e.y1 g.diwY1 } else e)

/-- The bands are looked at as a slice of `count`. -/
def Bands.extentChecked (bands : Bands) : Option Extent := do
  let _ ← Checked.below (maxBands + 1) bands.count
  bands.list.foldlM (fun e band => e.addChecked band.2) ⟨0xFFFFFFFF, 0, false⟩

/-- The rows of both fields; the product saturates. -/
def Extent.rowsChecked (e : Extent) : Option Nat := do
  let fieldRows ← Checked.sub e.y1 e.y0
  let rows := if e.lace then min (fieldRows * 2) (u32Limit - 1) else fieldRows
  some (min rows (maxHeight * 2))

def startPointersChecked (state : CopperState) (bands : Bands) (e : Extent) :
    Option (Nat → Nat → Long) :=
  let even := state.plane
  if e.lace then do
    let b ← bands.stateOfLineChecked e.y0
    let top ← decodeBandChecked b
    let odd ← oddFieldBplptChecked even top.ddfWords
    some (Function.update (fun _ => even) 1 odd)
  else some fun _ => even

def drawBitplanesChecked (state : CopperState) (ram : ByteSlice) (bands : Bands)
    (fb : Framebuffer) : Option Framebuffer := do
  let e ← bands.extentChecked
  if e.y1 ≤ e.y0 then some fb
  else do
    let rows ← e.rowsChecked
    let bplpt ← startPointersChecked state bands e
    let s ← (List.range rows).foldlM (drawRowChecked ram bands e.lace e.y0)
      ⟨bplpt, fun _ _ => 0, fb⟩
    some s.fb

/-! ## Sprite 0 -/

def drawSpriteBitChecked (b : BandState) (wordA wordB : Word) (x0 step y : Nat) (fb : Framebuffer)
    (bit : Nat) : Option Framebuffer := do
  let shift ← Checked.sub 15 bit
  let shift ← Checked.below 16 shift
  let value := (wordA.getLsbD shift).toNat ||| (wordB.getLsbD shift).toNat <<< 1
  if value = 0 then some fb
  else do
    let along ← Checked.mul u32Limit bit step
    let x ← Checked.add u32Limit x0 along
    let index ← Checked.add Framebuffer.usizeLimit 16 value
    let color ← b.color[index]?
    let argb ← argbFromAmigaChecked color
    fb.putChecked x y argb

def drawSpriteRowChecked (ram : ByteSlice) (ptr : Long) (b : BandState) (x0 step vstart : Nat)
    (fb : Framebuffer) (line : Nat) : Option Framebuffer := do
  let y ← Checked.add u32Limit vstart line
  let addr := ptr + 4 + BitVec.ofNat 32 (line * 4)
  (List.range 16).foldlM (drawSpriteBitChecked b (readWord ram addr) (readWord ram (addr + 2)) x0
    step y) fb

def drawSprite0Checked (state : CopperState) (ram : ByteSlice) (bands : Bands) (fb : Framebuffer) :
    Option Framebuffer :=
  let posWord := readWord ram state.spr0pt
  let ctlWord := readWord ram (state.spr0pt + 2)
  let vstart := (posWord >>> 8).toNat ||| (ctlWord &&& 0x04).toNat <<< 6
  let vstop := (ctlWord >>> 8).toNat ||| (ctlWord &&& 0x02).toNat <<< 7
  let hstartRaw := (posWord &&& 0xFF).toNat <<< 1 ||| (ctlWord &&& 0x01).toNat
  if vstop ≤ vstart then some fb
  else do
    let span ← Checked.sub vstop vstart
    let b ← bands.stateOfLineChecked vstart
    let g ← decodeBandChecked b
    let x0 ← Checked.mul u32Limit (hstartRaw / 2) g.pxPerCck
    let step := max (g.pxPerCck / 2) 1
    (List.range (min span maxSpriteLines)).foldlM
      (drawSpriteRowChecked ram state.spr0pt b x0 step vstart) fb

/-! ## A frame -/

def renderChecked (chipset : Chipset) (ram : ByteSlice) (fb : Framebuffer) :
    Option Framebuffer := do
  let walked ← runCopperChecked chipset.cop1lc ram (.fromChipset chipset) .new
  let argb ← argbFromAmigaChecked ((walked.2.1.state 0).colour 0)
  let fb ← drawBitplanesChecked walked.1 ram walked.2.1 (fb.fill argb)
  drawSprite0Checked walked.1 ram walked.2.1 fb

end Render

end M68kMachine
