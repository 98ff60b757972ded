import M68kMachine.Cards.CirrusDisplay
import M68kMachine.Machine.Bus

/-!
# Screenshots

`screenshot.rs`: the picture of the card that shows one, the Graffity before the RTG board, and the
planar renderer's where neither does. A scratch framebuffer that cannot be wrapped is a panic.
-/

namespace M68kMachine

open Cirrus Render Rtgboard

/-! ## `render_rtgboard` -/

/-- The colour of a pixel of the applied mode. -/
def Rtgboard.AppliedMode.colour (m : AppliedMode) (vram : ByteSlice) (x y : Nat) : Long :=
  let rowStart := m.fbOffset.toNat + y * m.stride.toNat
  if m.format = Format.rgb565 then
    let off := rowStart + x * 2
    argbOf565 (be16 (pixelByte vram off) (pixelByte vram (off + 1)))
  else if m.format = Format.rgbx8888 then
    let off := rowStart + x * 4
    argbOf ((pixelByte vram off).setWidth 32) ((pixelByte vram (off + 1)).setWidth 32)
      ((pixelByte vram (off + 2)).setWidth 32)
  else if m.format = Format.bgrx8888 then
    let off := rowStart + x * 4
    argbOf ((pixelByte vram (off + 2)).setWidth 32) ((pixelByte vram (off + 1)).setWidth 32)
      ((pixelByte vram off).setWidth 32)
  else 0xFF000000

def renderRtgboard (m : AppliedMode) (vram : ByteSlice) (fb : Framebuffer) : Framebuffer :=
  paintRect fb (min m.width.toNat fb.width) (min m.height.toNat fb.height) (m.colour vram)

/-! ## `capture` -/

abbrev Render.maxWidth : Nat := 752

/-- A framebuffer of a picture's own geometry. -/
def scratch (width height : Nat) : Option Framebuffer :=
  Framebuffer.new (width * height) (fun _ => 0) width height

variable {δ ρ π : Type} [BlockDevice δ] [PacketBackend ρ] [PciBackend π]

namespace MachineBus

/-- Bytes of chip RAM, read over the bus one after the other. -/
def readChipRam (b : MachineBus δ ρ π) : List Nat → List Byte × MachineBus δ ρ π
  | [] => ([], b)
  | offset :: offsets =>
    let (value, b) := b.readByte (BitVec.ofNat 32 (chipRamBase + offset))
    let (values, b) := readChipRam b offsets
    (value :: values, b)

def snapshotChipRam (b : MachineBus δ ρ π) : ByteSlice × MachineBus δ ρ π :=
  let r := b.readChipRam (List.range chipRamSize)
  (⟨chipRamSize, fun i => r.1.getD i.val 0⟩, r.2)

/-- The Graffity and the mode its driver programmed. -/
def graphicsMode (b : MachineBus δ ρ π) : Option (Graffity × DecodedMode) :=
  b.devices.graphics.bind fun g => g.decodedMode.map fun mode => (g, mode)

/-- The RTG board and the mode applied to it. -/
def rtgMode (b : MachineBus δ ρ π) : Option (RtgBoard × AppliedMode) :=
  b.devices.rtg.bind fun r => r.current.map fun mode => (r, mode)

def capture (b : MachineBus δ ρ π) : Option Framebuffer × MachineBus δ ρ π :=
  match b.graphicsMode with
  | some (g, mode) =>
    ((scratch mode.width.toNat mode.height.toNat).map
      (renderRtg mode g.chip.vram g.paletteArgb), b)
  | none =>
    match b.rtgMode with
    | some (r, mode) =>
      ((scratch mode.width.toNat mode.height.toNat).map (renderRtgboard mode r.vram), b)
    | none =>
      let r := b.snapshotChipRam
      ((scratch maxWidth maxHeight).map (render r.2.devices.chipset r.1), r.2)

end MachineBus

end M68kMachine
