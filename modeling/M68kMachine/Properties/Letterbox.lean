import M68kMachine.Boards.Present
import M68kMachine.Properties.Screenshots

/-!
# Letterboxing

Each pixel of the canvas is a square of `factor` by `factor` on the host's screen, and the squares
lie side by side in the middle.

* `square_iff` — the pixels of the host that belong to a pixel of the canvas
* `painted_blitScaledCentered` — what a blit paints
* `present_shows` — the frame on the host's screen
-/

namespace M68kMachine

open Layers Render

/-! ## Squares -/

/-- On an axis, a square takes the places that are led to it by division. -/
theorem square_iff {x₀ f i x : Nat} (hf : 0 < f) :
    (x₀ + i * f ≤ x ∧ x < x₀ + i * f + f) ↔ x₀ ≤ x ∧ (x - x₀) / f = i := by
  rw [Nat.div_eq_iff hf]
  constructor
  · rintro ⟨hlo, hhi⟩
    omega
  · rintro ⟨hx, hlo, hhi⟩
    omega

/-- The place in the squares of a canvas. -/
def inSquares (x₀ f n x : Nat) : Prop := x₀ ≤ x ∧ (x - x₀) / f < n

instance (x₀ f n x : Nat) : Decidable (inSquares x₀ f n x) :=
  inferInstanceAs (Decidable (_ ∧ _))

/-- Layers of a range of which one at most covers the place. -/
theorem stack_range {α : Type} {layer : Nat → Layer α} {n k x y : Nat}
    (h : ∀ j, j ≠ k → layer j x y = none) :
    stack layer (List.range n) x y = if k < n then layer k x y else none := by
  split
  · exact stack_at (List.mem_range.mpr ‹_›) fun j _ hj => h j hj
  · refine stack_none fun j hj => h j fun he => ?_
    have := List.mem_range.mp hj
    omega

section Squares

variable (x₀ y₀ f : Nat) (px : Nat → Nat → Long)

/-- A row of squares, `dy` being the row of the host. -/
def squareRow (w sy dy : Nat) : Layer Long := fun x y =>
  if y = dy ∧ inSquares x₀ f w x then some (px ((x - x₀) / f) sy) else none

theorem stack_square (sx sy dy x y : Nat) :
    stack (fun repX => dot (x₀ + sx * f + repX) dy (px sx sy)) (List.range f) x y =
      if y = dy ∧ x₀ + sx * f ≤ x ∧ x < x₀ + sx * f + f then some (px sx sy) else none := by
  by_cases hx : x₀ + sx * f ≤ x
  · rw [stack_range (k := x - (x₀ + sx * f)) fun j hj => if_neg fun h => hj (by omega)]
    unfold dot
    split_ifs <;> first | rfl | omega
  · rw [if_neg fun h => hx h.2.1]
    exact stack_none fun j _ => if_neg fun h => hx (by omega)

theorem stack_squareRow {f : Nat} (hf : 0 < f) (w sy dy x y : Nat) :
    stack (fun sx => stack (fun repX => dot (x₀ + sx * f + repX) dy (px sx sy)) (List.range f))
      (List.range w) x y = squareRow x₀ f px w sy dy x y := by
  have hsquare (sx : Nat) := stack_square x₀ f px sx sy dy x y
  simp only [square_iff hf] at hsquare
  rw [stack_range (k := (x - x₀) / f) fun sx hsx => by
    rw [hsquare]
    exact if_neg fun h => hsx h.2.2.symm]
  rw [hsquare]
  unfold squareRow inSquares
  split_ifs <;> first | rfl | omega

/-- The rows of the host that show one row of the canvas. -/
theorem stack_squareRows {f : Nat} (hf : 0 < f) (w h x y : Nat) :
    stack (fun sy => stack (fun repY => squareRow x₀ f px w sy (y₀ + sy * f + repY))
      (List.range f)) (List.range h) x y =
      if inSquares x₀ f w x ∧ inSquares y₀ f h y then
        some (px ((x - x₀) / f) ((y - y₀) / f)) else none := by
  have hrows (sy : Nat) : stack (fun repY => squareRow x₀ f px w sy (y₀ + sy * f + repY))
      (List.range f) x y =
      if inSquares x₀ f w x ∧ y₀ + sy * f ≤ y ∧ y < y₀ + sy * f + f then
        some (px ((x - x₀) / f) sy) else none := by
    rw [stack_range (k := y - (y₀ + sy * f)) fun j hj => if_neg fun h => hj (by omega)]
    unfold squareRow inSquares
    split_ifs <;> first | rfl | omega
  simp only [square_iff hf] at hrows
  rw [stack_range (k := (y - y₀) / f) fun sy hsy => by
    rw [hrows]
    exact if_neg fun h => hsy h.2.2.symm]
  rw [hrows]
  unfold inSquares
  split_ifs <;> first | rfl | omega

end Squares

/-! ## The blit -/

/-- Painting that may panic does not, where each step does not. -/
theorem painted_foldlM {ι : Type} {paint : Framebuffer → ι → Option Framebuffer}
    {layer : ι → Layer Long} {fb : Framebuffer} (hfb : fb.Holds) (is : List ι)
    (h : ∀ fb' : Framebuffer, fb'.Holds → ∀ i ∈ is,
      ∃ fb'', paint fb' i = some fb'' ∧ Painted fb' fb'' (layer i)) :
    ∃ fb', is.foldlM paint fb = some fb' ∧ Painted fb fb' (stack layer is) := by
  induction is using List.reverseRecOn with
  | nil => exact ⟨fb, rfl, .refl fb⟩
  | append_singleton is i ih =>
    obtain ⟨fb', hfold, hpainted⟩ := ih fun fb' hfb' j hj => h fb' hfb' j (by simp [hj])
    obtain ⟨fb'', hlast, hpainted'⟩ := h fb' (hpainted.holds hfb) i (by simp)
    refine ⟨fb'', ?_, ?_⟩
    · rw [List.foldlM_append, hfold]
      simp [hlast]
    · rw [stack_concat]
      exact hpainted.trans hpainted'

theorem painted_storePixel {fb : Framebuffer} (hfb : fb.Holds) (dx dy : Nat) (px : Long) :
    ∃ fb', storePixel fb dx dy px = some fb' ∧ Painted fb fb' (dot dx dy px) := by
  unfold storePixel
  by_cases hin : dx < fb.width ∧ dy < fb.height
  · rw [if_pos hin, if_pos (hfb.place_lt hin.1 hin.2)]
    exact ⟨_, rfl, painted_put fb dx dy px⟩
  · rw [if_neg hin]
    refine ⟨fb, rfl, rfl, rfl, rfl, fun _ x y hx hy => ?_⟩
    have hdot : dot dx dy px x y = none :=
      if_neg fun (he : x = dx ∧ y = dy) => hin ⟨he.1 ▸ hx, he.2 ▸ hy⟩
    rw [hdot, Option.none_or]

/-- A pixel of the canvas. -/
def canvasPixel (src : Framebuffer) (x y : Nat) : Long := (src.pixel x y).getD 0

theorem painted_scaledRow {dst : Framebuffer} (hdst : dst.Holds) (src : Framebuffer) {factor : Nat}
    (hfactor : 0 < factor) (xOff sy dy : Nat) :
    ∃ fb, scaledRow src factor xOff sy dy dst = some fb ∧
      Painted dst fb (squareRow xOff factor (canvasPixel src) src.width sy dy) := by
  unfold scaledRow
  obtain ⟨fb, hfold, hpainted⟩ := painted_foldlM hdst (List.range src.width)
    fun fb hfb sx _ => painted_foldlM hfb (List.range factor) fun fb' hfb' repX _ =>
      painted_storePixel hfb' (xOff + sx * factor + repX) dy (canvasPixel src sx sy)
  refine ⟨fb, hfold, hpainted.congr fun x y _ => ?_⟩
  exact stack_squareRow xOff (canvasPixel src) hfactor src.width sy dy x y

theorem scaleFactor_pos (hostW hostH srcW srcH : Nat) : 0 < scaleFactor hostW hostH srcW srcH :=
  Nat.le_max_right _ _

/-- **A blit** of a canvas with pixels does not panic, and shows it in squares on the background. -/
theorem painted_blitScaledCentered {dst src : Framebuffer} (hdst : dst.Holds) (hsrc : src.Holds)
    (hwidth : 0 < src.width) (hheight : 0 < src.height) (background : Long) :
    let f := scaleFactor dst.width dst.height src.width src.height
    let x₀ := letterboxOffset dst.width (src.width * f)
    let y₀ := letterboxOffset dst.height (src.height * f)
    ∃ fb, blitScaledCentered dst src background = some fb ∧ Painted dst fb fun x y =>
      some (if inSquares x₀ f src.width x ∧ inSquares y₀ f src.height y then
        canvasPixel src ((x - x₀) / f) ((y - y₀) / f) else background) := by
  intro f x₀ y₀
  have hf : 0 < f := scaleFactor_pos _ _ _ _
  have hfill := painted_fill dst background
  let paint (dst : Framebuffer) (sy : Nat) : Option Framebuffer :=
    if src.len < sy * src.width + src.width then none
    else
      (List.range f).foldlM (fun dst repY => scaledRow src f x₀ sy (y₀ + sy * f + repY) dst) dst
  have hpaint (fb : Framebuffer) (hfb : fb.Holds) (sy : Nat) (hsy : sy ∈ List.range src.height) :
      ∃ fb', paint fb sy = some fb' ∧ Painted fb fb' (stack (fun repY =>
        squareRow x₀ f (canvasPixel src) src.width sy (y₀ + sy * f + repY)) (List.range f)) := by
    unfold paint
    rw [if_neg (Nat.not_lt.mpr (hsrc.row_le (List.mem_range.mp hsy)))]
    exact painted_foldlM hfb (List.range f) fun fb' hfb' repY _ =>
      painted_scaledRow hfb' src hf x₀ sy (y₀ + sy * f + repY)
  obtain ⟨fb, hfold, hpainted⟩ :=
    painted_foldlM (hfill.holds hdst) (List.range src.height) hpaint
  refine ⟨fb, ?_, (hfill.trans hpainted).congr fun x y _ => ?_⟩
  · unfold blitScaledCentered
    rw [if_neg (by omega)]
    exact hfold
  · unfold Layer.over
    rw [stack_squareRows x₀ y₀ (canvasPixel src) hf src.width src.height x y]
    split <;> rfl

/-! ## The factor -/

/-- The factor fits, unless it is one, and no larger one does. -/
theorem scaleFactor_largest {hostW hostH srcW srcH : Nat} (hwidth : 0 < srcW)
    (hheight : 0 < srcH) :
    let f := scaleFactor hostW hostH srcW srcH
    (f = 1 ∨ f * srcW ≤ hostW ∧ f * srcH ≤ hostH) ∧
      ∀ g, g * srcW ≤ hostW → g * srcH ≤ hostH → g ≤ f := by
  intro f
  have hf : f = max (min (hostW / srcW) (hostH / srcH)) 1 := rfl
  refine ⟨?_, fun g hgw hgh => ?_⟩
  · by_cases hone : f = 1
    · exact .inl hone
    · refine .inr ⟨(Nat.le_div_iff_mul_le hwidth).mp ?_, (Nat.le_div_iff_mul_le hheight).mp ?_⟩ <;>
        omega
  · have hw := (Nat.le_div_iff_mul_le hwidth).mpr hgw
    have hh := (Nat.le_div_iff_mul_le hheight).mpr hgh
    omega

/-! ## The frame on the host's screen -/

/-- **The frame on the host's screen.** With the overlay off it is put on a screen of any size
without a panic, and the machine is left alone. The canvas is blown up by the largest whole number
that fits, or one, centred; a pixel of the screen shows that of the canvas whose square it is in, as
the planar renderer finds it, and black elsewhere. -/
theorem present_shows {δ ρ π : Type} [BlockDevice δ] [PacketBackend ρ] [PciBackend π]
    (b : MachineBus δ ρ π) (hoverlay : b.devices.overlay = false) {host : Framebuffer}
    (hhost : host.Holds) :
    let f := scaleFactor host.width host.height maxWidth maxHeight
    let x₀ := letterboxOffset host.width (maxWidth * f)
    let y₀ := letterboxOffset host.height (maxHeight * f)
    ((f = 1 ∨ f * maxWidth ≤ host.width ∧ f * maxHeight ≤ host.height) ∧
      ∀ g, g * maxWidth ≤ host.width → g * maxHeight ≤ host.height → g ≤ f) ∧
    ∃ fb, b.present host = (some fb, b) ∧ fb.Shows host.width host.height fun x y =>
      if inSquares x₀ f maxWidth x ∧ inSquares y₀ f maxHeight y then
        (Frame.walked b.devices.chipset ⟨chipRamSize, b.devices.ram.chipRam⟩).colourAt
          ((x - x₀) / f) ((y - y₀) / f)
      else 0xFF000000 := by
  intro f x₀ y₀
  refine ⟨scaleFactor_largest (by decide) (by decide), ?_⟩
  obtain ⟨canvas, hscratch, hcw, hch, hcholds⟩ :=
    scratch_eq_some (by decide : 0 < maxWidth) (by decide : 0 < maxHeight) (by decide)
  have hrender := painted_render b.devices.chipset ⟨chipRamSize, b.devices.ram.chipRam⟩ canvas
  have hrw := hrender.width.trans hcw
  have hrh := hrender.height.trans hch
  obtain ⟨fb, hblit, hpainted⟩ := painted_blitScaledCentered hhost (hrender.holds hcholds)
    (by rw [hrw]; decide) (by rw [hrh]; decide) 0xFF000000
  rw [hrw, hrh] at hpainted
  refine ⟨fb, ?_, hpainted.width, hpainted.height, fun x y hx hy => ?_⟩
  · unfold MachineBus.present
    rw [MachineBus.snapshotChipRam_eq hoverlay]
    dsimp only
    rw [hscratch, Option.bind_some, hblit]
  · rw [hpainted.pixel hhost hx hy, Option.some_or]
    refine congrArg some (ite_congr rfl (fun hin => ?_) fun _ => rfl)
    unfold canvasPixel
    rw [hrender.pixel hcholds (hin.1.2.trans_eq hcw.symm) (hin.2.2.trans_eq hch.symm)]
    rfl

/-- The screen that one of the boards asks for. -/
def hostScreen : Framebuffer := ⟨1600, 1200, 1600 * 1200, fun _ => 0⟩

def shownMachine : MachineBus MemDisk Empty Empty :=
  let b := MachineBus.new (fun i => pictureBytes.getD i.val 0) (.zero 0)
  { b with devices := { b.devices with overlay := false, chipset := pictureChipset } }

/-- A pixel of the sprite is a square of four there, beside which is background. -/
theorem present_shows_square :
    scaleFactor hostScreen.width hostScreen.height maxWidth maxHeight = 2 ∧
      ∃ fb, shownMachine.present hostScreen = (some fb, shownMachine) ∧
        fb.pixel 0 0 = some 0xFF000000 ∧
        let x := letterboxOffset 1600 (maxWidth * 2) + 2 * 64
        let y := letterboxOffset 1200 (maxHeight * 2) + 2
        fb.pixel (x + 1) (y + 1) = some 0xFF00FF00 ∧ fb.pixel (x - 1) y = some 0xFF0000FF := by
  obtain ⟨-, fb, hfb, hshows⟩ :=
    present_shows shownMachine rfl (Nat.le_refl _ : hostScreen.Holds)
  refine ⟨by decide, fb, hfb, (hshows.pixel 0 0 (by decide) (by decide)).trans ?_, ?_, ?_⟩
  · exact congrArg some (if_neg (by decide))
  · refine (hshows.pixel _ _ (by decide) (by decide)).trans (congrArg some ?_)
    rw [if_pos (by decide)]
    decide
  · refine (hshows.pixel _ _ (by decide) (by decide)).trans (congrArg some ?_)
    rw [if_pos (by decide)]
    decide

end M68kMachine
