import M68kMachine.Cards.Graffity
import M68kMachine.Core.Planar

/-!
# The display side of the Cirrus chip

The mode that the registers of `cirrus.rs` describe, and `render_rtg`, which converts the pixels of
its scanout. A mode that does not fit VRAM is not shown.
-/

namespace M68kMachine

open Cirrus Render

namespace Cirrus

/-- How many bits a pixel takes in VRAM. -/
inductive PixelDepth
  | bpp8
  | bpp15
  | bpp16
  | bpp24
  deriving DecidableEq

def PixelDepth.bytesPerPixel : PixelDepth → Long
  | bpp8 => 1
  | bpp15 | bpp16 => 2
  | bpp24 => 3

structure DecodedMode where
  width : Long
  height : Long
  depth : PixelDepth
  strideBytes : Long
  startOffset : Long
  deriving DecidableEq

/-- `SR_EXTENDED_MODE`. -/
abbrev Idx.srExtendedMode : Nat := 0x07

end Cirrus

namespace Cirrus542x

/-! ## `decoded_mode` -/

/-- A register as a `u32`, masked. -/
def crtc32 (c : Cirrus542x) (i : Nat) (mask : Byte) : Long := (reg c.crtc i &&& mask).setWidth 32

def displayWidth (c : Cirrus542x) : Long := (c.crtc32 0x01 0xFF + 1) * 8

def displayHeight (c : Cirrus542x) : Long :=
  let rawHeight := c.crtc32 0x12 0xFF ||| c.crtc32 0x07 0x02 <<< 7 ||| c.crtc32 0x07 0x40 <<< 3
  let doublescan : Bool := reg c.crtc 0x09 &&& 0x80 ≠ 0
  (rawHeight + 1) * if doublescan then 2 else 1

/-- The pitch register counts units of 8 bytes. -/
def displayStride (c : Cirrus542x) : Long :=
  (c.crtc32 0x13 0xFF ||| c.crtc32 0x1B 0x10 <<< 4) * 8

/-- The start address counts doublewords; panning adds bytes. -/
def displayStart (c : Cirrus542x) : Long :=
  let startUnits := c.crtc32 0x0C 0xFF <<< 8 ||| c.crtc32 0x0D 0xFF |||
    c.crtc32 0x1B 0x01 <<< 16 ||| c.crtc32 0x1B 0x04 <<< 15 ||| c.crtc32 0x1B 0x08 <<< 15
  startUnits * 4 + c.crtc32 0x08 0x60 >>> 5

/-- The depth in the hidden DAC register, which may refer to the extended mode bits. -/
def displayDepth (c : Cirrus542x) : Option PixelDepth :=
  if c.hiddenDac &&& 0x80 = 0 then some .bpp8
  else if c.hiddenDac &&& 0x40 = 0 then some .bpp15
  else
    let code := c.hiddenDac &&& 0x0F
    if code = 0x00 then some .bpp15
    else if code = 0x01 then some .bpp16
    else if code = 0x05 then some .bpp24
    else if code = 0x0F then
      let extended := reg c.sr Idx.srExtendedMode &&& 0x0E
      if extended = 0x04 then some .bpp24
      else if extended = 0x02 ∨ extended = 0x06 then some .bpp16
      else some .bpp8
    else none

/-- The offset behind the last byte that is shown. -/
def scanoutEnd (height stride start rowBytes : Long) : Option Long := do
  let span ← checkedMul (height - 1) stride
  let lastRowStart ← checkedAdd start span
  checkedAdd lastRowStart rowBytes

/-- The mode at the registers' depth, if its rows fit the stride and the scanout fits VRAM. -/
def scanout (c : Cirrus542x) (depth : PixelDepth) : Option DecodedMode :=
  match checkedMul c.displayWidth depth.bytesPerPixel with
  | none => none
  | some rowBytes =>
    if c.displayStride.toNat < rowBytes.toNat then none
    else
      match scanoutEnd c.displayHeight c.displayStride c.displayStart rowBytes with
      | none => none
      | some frameEnd =>
        -- The length of VRAM is cast to `u32`.
        if (BitVec.ofNat 32 c.vram.size).toNat < frameEnd.toNat then none
        else some ⟨c.displayWidth, c.displayHeight, depth, c.displayStride, c.displayStart⟩

def decodedMode (c : Cirrus542x) : Option DecodedMode :=
  -- Held in reset.
  if reg c.sr 0 &&& 0x03 ≠ 0x03 then none
  -- The screen is off.
  else if reg c.sr 1 &&& 0x20 ≠ 0 then none
  -- Not in a packed-pixel mode.
  else if reg c.sr Idx.srExtendedMode &&& 0x01 = 0 then none
  else if ¬(16 ≤ c.displayWidth.toNat ∧ c.displayWidth.toNat ≤ 4096) ∨
      ¬(16 ≤ c.displayHeight.toNat ∧ c.displayHeight.toNat ≤ 4096) then none
  else if c.displayStride = 0 then none
  else c.displayDepth.bind c.scanout

end Cirrus542x

/-! ## Colours -/

/-- `0xFF00_0000 | (r << 16) | (g << 8) | b`. -/
def argbOf (r g b : Long) : Long := 0xFF000000 ||| r <<< 16 ||| g <<< 8 ||| b

/-- `expand5`. -/
def expand5 (c : Word) : Long := c.setWidth 32 <<< 3 ||| c.setWidth 32 >>> 2

/-- `expand6`. -/
def expand6 (c : Word) : Long := c.setWidth 32 <<< 2 ||| c.setWidth 32 >>> 4

def argbOf555 (v : Word) : Long :=
  argbOf (expand5 (v >>> 10 &&& 0x1F)) (expand5 (v >>> 5 &&& 0x1F)) (expand5 (v &&& 0x1F))

def argbOf565 (v : Word) : Long :=
  argbOf (expand5 (v >>> 11 &&& 0x1F)) (expand6 (v >>> 5 &&& 0x3F)) (expand5 (v &&& 0x1F))

/-- `vram.get(off).copied().unwrap_or(0)`. -/
def pixelByte (vram : ByteSlice) (off : Nat) : Byte := (vram.get? off).getD 0

/-- A palette entry, its six bits a gun expanded. -/
def Cirrus542x.paletteArgb (c : Cirrus542x) (index : Byte) : Long :=
  let expand (component : Nat) := expand6 ((c.palette index.toNat component &&& 0x3F).setWidth 16)
  argbOf (expand 0) (expand 1) (expand 2)

def Graffity.decodedMode (g : Graffity) : Option DecodedMode := g.chip.decodedMode

def Graffity.paletteArgb (g : Graffity) (index : Byte) : Long := g.chip.paletteArgb index

/-! ## `render_rtg` -/

/-- Each pixel of a rectangle at the origin, row by row. -/
def Render.paintRect (fb : Framebuffer) (width height : Nat) (colour : Nat → Nat → Long) :
    Framebuffer :=
  (List.range height).foldl (fun fb y => paintRow fb y 0 width fun x => colour x y) fb

/-- The colour of a pixel of the scanout. -/
def Cirrus.DecodedMode.colour (mode : DecodedMode) (vram : ByteSlice) (palette : Byte → Long)
    (x y : Nat) : Long :=
  let rowStart := mode.startOffset.toNat + y * mode.strideBytes.toNat
  match mode.depth with
  | .bpp8 => palette (pixelByte vram (rowStart + x))
  | .bpp15 =>
    let off := rowStart + x * 2
    argbOf555 (be16 (pixelByte vram (off + 1)) (pixelByte vram off))
  | .bpp16 =>
    let off := rowStart + x * 2
    argbOf565 (be16 (pixelByte vram (off + 1)) (pixelByte vram off))
  | .bpp24 =>
    let off := rowStart + x * 3
    argbOf ((pixelByte vram (off + 2)).setWidth 32) ((pixelByte vram (off + 1)).setWidth 32)
      ((pixelByte vram off).setWidth 32)

def Render.renderRtg (mode : DecodedMode) (vram : ByteSlice) (palette : Byte → Long)
    (fb : Framebuffer) : Framebuffer :=
  paintRect fb (min mode.width.toNat fb.width) (min mode.height.toNat fb.height)
    (mode.colour vram palette)

end M68kMachine
