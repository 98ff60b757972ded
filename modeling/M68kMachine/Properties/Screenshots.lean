import M68kMachine.Hosted.Screenshot
import M68kMachine.Properties.CardsAlone
import M68kMachine.Properties.PlanarPicture
import M68kMachine.Properties.RtgboardModes

/-!
# What a screenshot shows

A mode that the Graffity decodes lies in VRAM whatever the guest wrote, and so does one that the RTG
board has applied. A screenshot shows every pixel of the card that has a mode, and of a machine
without one the planar picture of chip RAM.

* `DecodedMode.Fits` — the modes that are shown
* `Framebuffer.Shows` — a picture, pixel by pixel
* `capture_shows` — after any run
-/

namespace M68kMachine

open Cirrus Layers Render Rtgboard

/-! ## Modes that fit -/

/-- The bytes of every pixel of a picture lie in VRAM. -/
def Render.PixelsInside (start stride bpp columns rows size : Nat) : Prop :=
  ∀ x y, x < columns → y < rows → start + y * stride + (x + 1) * bpp ≤ size

/-- A picture that has pixels, whose rows fit the stride and whose last row ends in VRAM. -/
structure Cirrus.DecodedMode.Fits (m : DecodedMode) (size : Nat) : Prop where
  width : 16 ≤ m.width.toNat
  height : 16 ≤ m.height.toNat
  row : m.width.toNat * m.depth.bytesPerPixel.toNat ≤ m.strideBytes.toNat
  frame : m.startOffset.toNat + (m.height.toNat - 1) * m.strideBytes.toNat +
    m.width.toNat * m.depth.bytesPerPixel.toNat ≤ size

theorem scanoutEnd_eq_some {height stride start rowBytes frameEnd : Long}
    (hheight : 1 ≤ height.toNat)
    (h : Cirrus542x.scanoutEnd height stride start rowBytes = some frameEnd) :
    frameEnd.toNat = start.toNat + (height.toNat - 1) * stride.toNat + rowBytes.toNat := by
  unfold Cirrus542x.scanoutEnd at h
  obtain ⟨rows, hrows, h⟩ := Option.bind_eq_some_iff.mp h
  obtain ⟨lastRow, hlast, h⟩ := Option.bind_eq_some_iff.mp h
  rw [RtgBoard.checkedMul_eq_some_iff] at hrows
  rw [RtgBoard.checkedAdd_eq_some_iff] at hlast h
  have hpred : (height - 1).toNat = height.toNat - 1 := by
    rw [BitVec.toNat_sub_of_le (by simpa [BitVec.le_def] using hheight)]
    rfl
  rw [h, hlast, hrows, hpred]

variable {m : DecodedMode}

/-- **A decoded mode lies in VRAM.** -/
theorem fits_of_decodedMode {c : Cirrus542x} (h : c.decodedMode = some m) : m.Fits c.vram.size := by
  unfold Cirrus542x.decodedMode at h
  split_ifs at h with hreset hoff hplanar hgeometry hstride
  obtain ⟨depth, -, h⟩ := Option.bind_eq_some_iff.mp h
  obtain ⟨⟨hwidth, -⟩, hheight, -⟩ := not_or.mp hgeometry |>.imp not_not.mp not_not.mp
  unfold Cirrus542x.scanout at h
  split at h
  · cases h
  · rename_i rowBytes hrow
    rw [RtgBoard.checkedMul_eq_some_iff] at hrow
    split_ifs at h with hshort
    split at h
    · cases h
    · rename_i frameEnd hend
      split_ifs at h with hpast
      cases h
      have hsize : (BitVec.ofNat 32 c.vram.size).toNat ≤ c.vram.size := by
        rw [BitVec.toNat_ofNat]
        exact Nat.mod_le _ _
      have hframe := scanoutEnd_eq_some (by omega) hend
      refine ⟨hwidth, hheight, ?_, ?_⟩
      · rw [← hrow]
        exact Nat.not_lt.mp hshort
      · rw [← hrow, ← hframe]
        exact (Nat.not_lt.mp hpast).trans hsize

theorem Cirrus.DecodedMode.Fits.pixelsInside {size : Nat} (h : m.Fits size) :
    PixelsInside m.startOffset.toNat m.strideBytes.toNat m.depth.bytesPerPixel.toNat m.width.toNat
      m.height.toNat size := by
  intro x y hx hy
  have hframe := h.frame
  have hrows : y * m.strideBytes.toNat ≤ (m.height.toNat - 1) * m.strideBytes.toNat :=
    Nat.mul_le_mul_right _ (by omega)
  have hcolumns : (x + 1) * m.depth.bytesPerPixel.toNat ≤
      m.width.toNat * m.depth.bytesPerPixel.toNat := Nat.mul_le_mul_right _ hx
  omega

theorem RtgBoard.Admits.pixelsInside {r : RtgBoard} {m : AppliedMode} (h : r.Admits m) :
    ∃ bpp, Format.bytesPerPixel m.format = some bpp ∧
      PixelsInside m.fbOffset.toNat m.stride.toNat bpp.toNat m.width.toNat m.height.toNat
        r.vram.size := by
  obtain ⟨bpp, hbpp, hrow⟩ := h.row
  refine ⟨bpp, hbpp, fun x y hx hy => ?_⟩
  have hframe := h.frame
  have hcolumns : (x + 1) * bpp.toNat ≤ m.width.toNat * bpp.toNat := Nat.mul_le_mul_right _ hx
  have hrows : (y + 1) * m.stride.toNat ≤ m.height.toNat * m.stride.toNat :=
    Nat.mul_le_mul_right _ hy
  rw [Nat.succ_mul] at hrows
  omega

/-! ## Rectangles -/

theorem painted_paintRect (fb : Framebuffer) (width height : Nat) (colour : Nat → Nat → Long) :
    Painted fb (paintRect fb width height colour) fun x y =>
      if x < width ∧ y < height then some (colour x y) else none := by
  refine (painted_foldl (fun fb y => painted_paintRow fb y 0 width fun x => colour x y) fb
    (List.range height)).congr fun x y _ => ?_
  have helsewhere : ∀ j, j ≠ y → span j 0 width (fun x => colour x j) x y = none :=
    fun j hj => if_neg fun h => hj h.1.symm
  by_cases hy : y < height
  · rw [stack_at (List.mem_range.mpr hy) fun j _ hj => helsewhere j hj]
    simp [span, hy]
  · rw [if_neg fun h => hy h.2]
    exact stack_none fun j hj => helsewhere j fun he => hy (he ▸ List.mem_range.mp hj)

/-- A picture, pixel by pixel. -/
structure Render.Framebuffer.Shows (fb : Framebuffer) (columns rows : Nat)
    (colour : Nat → Nat → Long) : Prop where
  width : fb.width = columns
  height : fb.height = rows
  pixel : ∀ x y, x < columns → y < rows → fb.pixel x y = some (colour x y)

/-- A scratch framebuffer can be wrapped, and holds its picture. -/
theorem scratch_eq_some {width height : Nat} (hwidth : 0 < width) (hheight : 0 < height)
    (hsize : width * height < 2 ^ 64) : ∃ fb, scratch width height = some fb ∧
      fb.width = width ∧ fb.height = height ∧ fb.Holds := by
  refine ⟨⟨width, height, width * height, fun _ => 0⟩, ?_, rfl, rfl, Nat.le_refl _⟩
  unfold scratch Framebuffer.new
  rw [if_neg]
  rw [Nat.mod_eq_of_lt hsize]
  omega

theorem shows_scratch {width height : Nat} (hwidth : 0 < width) (hheight : 0 < height)
    (hsize : width * height < 2 ^ 64) {paint : Framebuffer → Framebuffer}
    {colour : Nat → Nat → Long}
    (h : ∀ fb : Framebuffer, fb.width = width → fb.height = height → Painted fb (paint fb)
      fun x y => if x < width ∧ y < height then some (colour x y) else none) :
    ∃ fb, (scratch width height).map paint = some fb ∧ fb.Shows width height colour := by
  obtain ⟨fb, hscratch, hfbw, hfbh, hholds⟩ := scratch_eq_some hwidth hheight hsize
  have hpainted := h fb hfbw hfbh
  refine ⟨paint fb, by rw [hscratch, Option.map_some], hpainted.width.trans hfbw,
    hpainted.height.trans hfbh, fun x y hx hy => ?_⟩
  rw [hpainted.pixel hholds (hfbw ▸ hx) (hfbh ▸ hy), if_pos ⟨hx, hy⟩, Option.some_or]

theorem area_lt (width height : Long) : width.toNat * height.toNat < 2 ^ 64 :=
  (Nat.mul_lt_mul'' width.isLt height.isLt).trans_eq rfl

/-! ## The three pictures -/

theorem shows_renderRtg {vram : ByteSlice} (hm : m.Fits vram.size) (palette : Byte → Long) :
    ∃ fb, (scratch m.width.toNat m.height.toNat).map (renderRtg m vram palette) = some fb ∧
      fb.Shows m.width.toNat m.height.toNat (m.colour vram palette) := by
  refine shows_scratch (by have := hm.width; omega) (by have := hm.height; omega)
    (area_lt m.width m.height) fun fb hwidth hheight => ?_
  unfold renderRtg
  rw [hwidth, hheight, Nat.min_self, Nat.min_self]
  exact painted_paintRect fb _ _ _

theorem shows_renderRtgboard {m : AppliedMode} (vram : ByteSlice) (hwidth : m.width ≠ 0)
    (hheight : m.height ≠ 0) :
    ∃ fb, (scratch m.width.toNat m.height.toNat).map (renderRtgboard m vram) = some fb ∧
      fb.Shows m.width.toNat m.height.toNat (m.colour vram) := by
  have hpos {v : Long} (h : v ≠ 0) : 0 < v.toNat :=
    Nat.pos_of_ne_zero fun h0 => h (BitVec.eq_of_toNat_eq h0)
  refine shows_scratch (hpos hwidth) (hpos hheight) (area_lt m.width m.height)
    fun fb hfbw hfbh => ?_
  unfold renderRtgboard
  rw [hfbw, hfbh, Nat.min_self, Nat.min_self]
  exact painted_paintRect fb _ _ _

theorem shows_render (chipset : Chipset) (ram : ByteSlice) :
    ∃ fb, (scratch maxWidth maxHeight).map (render chipset ram) = some fb ∧
      fb.Shows maxWidth maxHeight (Frame.walked chipset ram).colourAt := by
  refine shows_scratch (by decide) (by decide) (by decide) fun fb hfbw hfbh => ?_
  obtain ⟨hwidth, hheight, hlen, hpixel⟩ := painted_render chipset ram fb
  refine ⟨hwidth, hheight, hlen, fun hholds x y hx hy => ?_⟩
  rw [hpixel hholds hx hy, if_pos ⟨hfbw ▸ hx, hfbh ▸ hy⟩]

variable {δ ρ π : Type} [BlockDevice δ] [PacketBackend ρ] [PciBackend π]

namespace MachineBus

/-! ## Chip RAM over the bus -/

theorem readChipRam_eq {b : MachineBus δ ρ π} (hoverlay : b.devices.overlay = false) :
    ∀ {offsets : List Nat}, (∀ off ∈ offsets, off < chipRamSize) →
      b.readChipRam offsets = (offsets.map fun off => (b.devices.ram.chipRam.get? off).getD 0, b)
  | [], _ => rfl
  | off :: offsets, h => by
    have hoff : off < chipRamSize := h off (by simp)
    have haddr : (BitVec.ofNat 32 (chipRamBase + off) : Long).toNat = off := by
      rw [BitVec.toNat_ofNat, Nat.mod_eq_of_lt] <;> simp only [chipRamBase, chipRamSize] at * <;>
        omega
    have hregion : fastRegion b.devices (BitVec.ofNat 32 (chipRamBase + off)) =
        some (⟨chipRamSize, b.devices.ram.chipRam⟩, off) := by
      unfold fastRegion
      rw [if_pos, haddr]
      simp only [inRange, overlaid, haddr, hoverlay, chipRamBase, chipRamEnd]
      simp [hoff]
    have hbyte : b.readByte (BitVec.ofNat 32 (chipRamBase + off)) =
        (b.devices.ram.chipRam ⟨off, hoff⟩, b) := by
      unfold readByte
      rw [hregion]
      simp [ByteSlice.get?, Buffer.get?, hoff]
    simp only [readChipRam, hbyte,
      readChipRam_eq hoverlay fun o ho => h o (List.mem_cons_of_mem _ ho), List.map_cons]
    simp [Buffer.get?, hoff]

variable {b : MachineBus δ ρ π}

/-- With the overlay off a snapshot is chip RAM, and leaves the machine alone. -/
theorem snapshotChipRam_eq (hoverlay : b.devices.overlay = false) :
    b.snapshotChipRam = (⟨chipRamSize, b.devices.ram.chipRam⟩, b) := by
  have hread := readChipRam_eq hoverlay fun off => (List.mem_range (m := off) (n := chipRamSize)).mp
  have hbyte (i : Fin chipRamSize) : ((List.range chipRamSize).map fun off =>
      (b.devices.ram.chipRam.get? off).getD 0).getD i.val 0 = b.devices.ram.chipRam i := by
    rw [List.getD_eq_getElem?_getD, List.getElem?_map, List.getElem?_range i.isLt]
    simp [Buffer.get?, i.isLt]
  unfold snapshotChipRam
  -- The list is too long to look at.
  generalize List.range chipRamSize = offsets at hread hbyte ⊢
  rw [hread]
  exact Prod.ext (congrArg (ByteSlice.mk chipRamSize) (funext hbyte)) rfl

/-! ## Captures -/

/-- The picture on the display: the Graffity's, else the RTG board's, else the planar one. -/
def Displays (b : MachineBus δ ρ π) (fb : Framebuffer) : Prop :=
  match b.graphicsMode with
  | some (g, m) =>
    PixelsInside m.startOffset.toNat m.strideBytes.toNat m.depth.bytesPerPixel.toNat m.width.toNat
      m.height.toNat g.chip.vram.size ∧
    fb.Shows m.width.toNat m.height.toNat (m.colour g.chip.vram g.paletteArgb)
  | none =>
    match b.rtgMode with
    | some (r, m) =>
      (∃ bpp, Format.bytesPerPixel m.format = some bpp ∧
        PixelsInside m.fbOffset.toNat m.stride.toNat bpp.toNat m.width.toNat m.height.toNat
          r.vram.size) ∧
      fb.Shows m.width.toNat m.height.toNat (m.colour r.vram)
    | none => b.devices.overlay = false → fb.Shows maxWidth maxHeight
        (Frame.walked b.devices.chipset ⟨chipRamSize, b.devices.ram.chipRam⟩).colourAt

omit [BlockDevice δ] [PacketBackend ρ] [PciBackend π] in
theorem mem_of_graphicsMode {g : Graffity} {m : DecodedMode} (h : b.graphicsMode = some (g, m)) :
    g.decodedMode = some m := by
  obtain ⟨g', -, h⟩ := Option.bind_eq_some_iff.mp h
  obtain ⟨m', hm, h⟩ := Option.map_eq_some_iff.mp h
  cases h
  exact hm

omit [BlockDevice δ] [PacketBackend ρ] [PciBackend π] in
theorem mem_of_rtgMode {r : RtgBoard} {m : AppliedMode} (h : b.rtgMode = some (r, m)) :
    b.devices.rtg = some r ∧ r.current = some m := by
  obtain ⟨r', hr, h⟩ := Option.bind_eq_some_iff.mp h
  obtain ⟨m', hm, h⟩ := Option.map_eq_some_iff.mp h
  cases h
  exact ⟨hr, hm⟩

end MachineBus

/-! ## Boards with something to show -/

/-- A board with a catalog of pictures that have pixels, which shows a mode it takes or none. -/
structure RtgBoard.Presentable (r : RtgBoard) : Prop where
  size : r.vram.size < 2 ^ 32
  catalog : ∀ d ∈ r.catalog, d.width ≠ 0 ∧ d.height ≠ 0
  applied : ∀ m, r.current = some m → r.Admits m

theorem RtgBoard.Presentable.does {r r' : RtgBoard} (h : r.Does r') (hr : r.Presentable) :
    r'.Presentable := by
  obtain ⟨offset, value⟩ := h
  have hsound : RtgBoard.Sound r (r.write offset value) :=
    RtgBoard.Sound.write hr.size ⟨rfl, rfl, hr.applied⟩ offset value
  exact ⟨hsound.size ▸ hr.size, hsound.catalog ▸ hr.catalog, hsound.applied⟩

namespace MachineBus

theorem displays_capture (b : MachineBus δ ρ π)
    (hrtg : ∀ r, b.devices.rtg = some r → r.Presentable) :
    ∃ fb, b.capture.1 = some fb ∧ b.Displays fb := by
  unfold capture Displays
  cases hgraphics : b.graphicsMode with
  | some shown =>
    obtain ⟨g, m⟩ := shown
    have hfits := fits_of_decodedMode (mem_of_graphicsMode hgraphics)
    obtain ⟨fb, hfb, hshows⟩ := shows_renderRtg hfits g.paletteArgb
    exact ⟨fb, hfb, hfits.pixelsInside, hshows⟩
  | none =>
    cases hmode : b.rtgMode with
    | some shown =>
      obtain ⟨r, m⟩ := shown
      obtain ⟨hr, hm⟩ := mem_of_rtgMode hmode
      have hadmits := (hrtg r hr).applied m hm
      obtain ⟨hwidth, hheight⟩ := (hrtg r hr).catalog _ hadmits.offered
      obtain ⟨fb, hfb, hshows⟩ := shows_renderRtgboard r.vram hwidth hheight
      exact ⟨fb, hfb, hadmits.pixelsInside, hshows⟩
    | none =>
      obtain ⟨fb, hfb, hshows⟩ :=
        shows_render b.snapshotChipRam.2.devices.chipset b.snapshotChipRam.1
      refine ⟨fb, hfb, fun hoverlay => ?_⟩
      rw [snapshotChipRam_eq hoverlay] at hshows
      exact hshows

/-- **A screenshot shows the display.** After any run of a machine whose RTG modes have pixels it is
taken without a panic. It shows the mode that the Graffity decodes, pixel by pixel out of its VRAM;
else the mode applied to the RTG board; else, with the overlay off, the planar picture of chip
RAM. -/
theorem capture_shows (b : MachineBus δ ρ π) (ops : List LiveOp)
    (hrtg : ∀ r, b.devices.rtg = some r → r.Presentable) :
    ∃ fb, (b.liveRun ops).2.capture.1 = some fb ∧ (b.liveRun ops).2.Displays fb :=
  displays_capture _ ((evolve_liveRun ops b).rtg.keeps (P := RtgBoard.Presentable)
    RtgBoard.Presentable.does hrtg)

/-- A board that shows two rows of two pixels. -/
def pictureBoard : RtgBoard :=
  { RtgBoard.new (.zero 64) [⟨2, 2, Format.rgb565⟩] with
    current := some ⟨2, 2, Format.rgb565, 8, 4⟩ }

def pictureMachine : MachineBus MemDisk Empty Empty :=
  let b := MachineBus.new (fun _ => 0) (.zero 0)
  { b with devices := { b.devices with rtg := some pictureBoard } }

theorem capture_shows_picture :
    ∃ fb, (pictureMachine.liveRun [.tick 100]).2.capture.1 = some fb ∧
      (pictureMachine.liveRun [.tick 100]).2.Displays fb := by
  refine capture_shows pictureMachine [.tick 100] ?_
  rintro r ⟨⟩
  refine ⟨by decide, by decide, ?_⟩
  rintro m ⟨⟩
  exact ⟨by decide, ⟨2, rfl, by decide⟩, by decide⟩

end MachineBus

end M68kMachine
