import M68kMachine.Hosted.Screenshot

/-!
# The picture on the host's screen

`present.rs`, and what `present_to_ramfb` and `present_to_gop` do with it: the planar picture of
chip RAM, blown up and centred in the host's framebuffer. A panic is `none`.
-/

namespace M68kMachine

open Render

/-- The largest whole-number factor that fits the host on both axes, and at least one. -/
def scaleFactor (hostW hostH srcW srcH : Nat) : Nat := max (min (hostW / srcW) (hostH / srcH)) 1

/-- `dst[dy * dst_w + dx] = px`, past over outside the host's screen. -/
def storePixel (dst : Framebuffer) (dx dy : Nat) (px : Long) : Option Framebuffer :=
  if dx < dst.width ∧ dy < dst.height then
    if dy * dst.width + dx < dst.len then some (dst.put dx dy px) else none
  else some dst

/-- Where the blown-up picture starts on an axis. -/
def letterboxOffset (host scaled : Nat) : Nat := (host - scaled) / 2

/-- The pixels of a source row, `factor` times each, in one row of the host. -/
def scaledRow (src : Framebuffer) (factor xOff sy dy : Nat) (dst : Framebuffer) :
    Option Framebuffer :=
  (List.range src.width).foldlM (fun dst sx =>
    (List.range factor).foldlM (fun dst repX =>
      storePixel dst (xOff + sx * factor + repX) dy ((src.pixel sx sy).getD 0)) dst) dst

def blitScaledCentered (dst src : Framebuffer) (background : Long) : Option Framebuffer :=
  if src.width = 0 ∨ src.height = 0 then none
  else
    let factor := scaleFactor dst.width dst.height src.width src.height
    let xOff := letterboxOffset dst.width (src.width * factor)
    let yOff := letterboxOffset dst.height (src.height * factor)
    (List.range src.height).foldlM (fun dst sy =>
      if src.len < sy * src.width + src.width then none
      else
        (List.range factor).foldlM (fun dst repY =>
          scaledRow src factor xOff sy (yOff + sy * factor + repY) dst) dst)
      (dst.fill background)

variable {δ ρ π : Type} [BlockDevice δ] [PacketBackend ρ] [PciBackend π]

/-- The frame in a canvas of its own, on the host's framebuffer with a black border. -/
def MachineBus.present (b : MachineBus δ ρ π) (host : Framebuffer) :
    Option Framebuffer × MachineBus δ ρ π :=
  let r := b.snapshotChipRam
  ((scratch maxWidth maxHeight).bind fun fb =>
    blitScaledCentered host (render r.2.devices.chipset r.1 fb) 0xFF000000, r.2)

end M68kMachine
