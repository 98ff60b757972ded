import M68kMachine.Library.IndependentUpdates
import M68kMachine.Properties.PlainBlit

/-!
# Forwards and backwards

A plain copy whose rectangles do not overlap never writes a byte it reads, so the order of its bytes
does not matter, unless the colour key is on: backwards the first compare register meets the last
byte of a pixel.

* `byteUpdate`, `cells_executeBlit` — a plain copy as a list of updates
* `Rectangles`, `Mirrored` — the copy programmed forwards and backwards
* `direction_does_not_matter_iff`
-/

namespace M68kMachine

open Cirrus IndependentUpdates

/-- The bytes of VRAM, zero beyond its end. -/
def ByteSlice.cells (b : ByteSlice) (i : Nat) : Byte := (b.get? i).getD 0

theorem ByteSlice.cells_set {b : ByteSlice} {i : Nat} (h : i < b.size) (value : Byte) :
    (b.set i value).cells = Function.update b.cells i value := by
  funext j
  show ((b.bytes.set i value).get? j).getD 0 = _
  rw [Buffer.get?_set]
  by_cases hj : j = i
  · subst hj
    rw [if_pos ⟨rfl, h⟩, Function.update_self]
    rfl
  · rw [if_neg fun hji => hj hji.1, Function.update_of_ne hj]
    rfl

theorem ByteSlice.eq_of_cells {b b' : ByteSlice} (hsize : b.size = b'.size)
    (h : b.cells = b'.cells) : b = b' := by
  obtain ⟨size, bytes⟩ := b
  obtain ⟨size', bytes'⟩ := b'
  obtain rfl : size = size' := hsize
  congr 1
  funext i
  have hi := congrFun h i.val
  unfold ByteSlice.cells ByteSlice.get? at hi
  dsimp only at hi
  rwa [Buffer.get?_eq_some i.isLt, Buffer.get?_eq_some i.isLt] at hi

namespace Cirrus542x

/-! ## A plain copy as updates -/

/-- The address of a byte of the destination. -/
def BlitSetup.dstPlace (p : BlitSetup) (y x : Nat) : Nat := (p.dstAt y x).getD 0

/-- The address of a byte of the source. -/
def BlitSetup.srcPlace (p : BlitSetup) (y x : Nat) : Nat := (p.srcAt y x).getD 0

/-- The pixel of a byte matches the colour key. -/
def pixelKeyed (c : Cirrus542x) (p : BlitSetup) (m : Nat → Byte) (y x : Nat) : Bool :=
  c.matchesKey p.pixelBytes fun i => m (p.srcPlace y (x - x % p.pixelBytes + i))

/-- What a plain copy does at a row and column. -/
def byteUpdate (c : Cirrus542x) (p : BlitSetup) (q : Nat × Nat) : Update Nat Byte where
  dest := p.dstPlace q.1 q.2
  value m :=
    if p.transparent && c.pixelKeyed p m q.1 q.2 then m (p.dstPlace q.1 q.2)
    else applyRop (reg c.gr Idx.grBlitRop) (m (p.srcPlace q.1 q.2)) (m (p.dstPlace q.1 q.2))

/-- Every byte has its place in a source and a destination inside VRAM, and pixels are whole. -/
structure BlitSetup.Placed (p : BlitSetup) (size : Nat) : Prop where
  dst : ∀ y < p.height, ∀ x < p.width, p.dstAt y x = some (p.dstPlace y x)
  src : ∀ y < p.height, ∀ x < p.width, p.srcAt y x = some (p.srcPlace y x)
  dstLt : ∀ y < p.height, ∀ x < p.width, p.dstPlace y x < size
  pixels : p.pixelBytes ∣ p.width
  pixelBytes_pos : 0 < p.pixelBytes

variable {p : BlitSetup} {size x i : Nat}

/-- The bytes of a pixel lie in the row its first byte lies in. -/
theorem BlitSetup.Placed.pixel_lt (h : p.Placed size) (hx : x < p.width) (hi : i < p.pixelBytes) :
    x - x % p.pixelBytes + i < p.width := by
  obtain ⟨k, hk⟩ := h.pixels
  have hdiv := Nat.div_add_mod x p.pixelBytes
  have hlt : x / p.pixelBytes < k := by
    rw [Nat.div_lt_iff_lt_mul h.pixelBytes_pos, Nat.mul_comm, ← hk]
    exact hx
  have hle : p.pixelBytes * (x / p.pixelBytes + 1) ≤ p.pixelBytes * k :=
    Nat.mul_le_mul_left _ hlt
  rw [Nat.mul_add, Nat.mul_one] at hle
  omega

variable {c : Cirrus542x} {y : Nat}

/-- **One byte is one update.** -/
theorem cells_copyByte {vram : ByteSlice} (h : p.Placed vram.size) (hy : y < p.height)
    (hx : x < p.width) :
    (c.copyByte p y vram x).cells = apply vram.cells (c.byteUpdate p (y, x)) := by
  have hheld : c.held p vram y x = (p.transparent && c.pixelKeyed p vram.cells y x) := by
    unfold held pixelKeyed
    congr 1
    refine matchesKey_congr fun i hi => ?_
    rw [h.src y hy _ (h.pixel_lt hx hi)]
    rfl
  unfold copyByte
  rw [h.dst y hy x hx, h.src y hy x hx, hheld]
  dsimp only
  unfold apply byteUpdate
  dsimp only
  cases hkey : p.transparent && c.pixelKeyed p vram.cells y x with
  | true =>
    rw [if_pos rfl, if_pos rfl, Function.update_eq_self]
  | false =>
    rw [if_neg Bool.false_ne_true, if_neg Bool.false_ne_true]
    exact ByteSlice.cells_set (h.dstLt y hy x hx) _

theorem copyByte_size (c : Cirrus542x) (p : BlitSetup) (y : Nat) (vram : ByteSlice) (x : Nat) :
    (c.copyByte p y vram x).size = vram.size := by
  unfold copyByte
  split
  · rfl
  · split <;> rfl

theorem cells_foldl (h : p.Placed size) {qs : List (Nat × Nat)} (hqs : ∀ q ∈ qs, q ∈ p.places)
    {vram : ByteSlice} (hsize : vram.size = size) :
    (qs.foldl (fun v q => c.copyByte p q.1 v q.2) vram).cells =
      applyAll vram.cells (qs.map (c.byteUpdate p)) := by
  induction qs generalizing vram with
  | nil => rfl
  | cons q qs ih =>
    obtain ⟨hy, hx⟩ := mem_places.mp (hqs q List.mem_cons_self)
    have hbyte := cells_copyByte (c := c) (hsize.symm ▸ h) hy hx
    have hrest := ih (fun q' hq' => hqs q' (List.mem_cons_of_mem q hq'))
      ((copyByte_size c p q.1 vram q.2).trans hsize)
    rw [List.foldl_cons, hrest, hbyte]
    rfl

/-- **A plain copy is the updates of its places.** -/
theorem cells_executeBlit (hplain : c.PlainCopy) (h : (c.blitSetup none).Placed c.vram.size) :
    (c.executeBlit none).vram.cells =
      applyAll c.vram.cells ((c.blitSetup none).places.map (c.byteUpdate (c.blitSetup none))) := by
  have hfold : (c.executeBlit none).vram = (c.blitSetup none).places.foldl
      (fun v q => c.copyByte (c.blitSetup none) q.1 v q.2) c.vram := by
    rw [executeBlit_plain hplain]
    unfold BlitSetup.places
    show _ = (List.flatMap _ _).foldl _ _
    rw [List.foldl_flatMap]
    simp only [List.foldl_map]
    rfl
  rw [hfold]
  exact cells_foldl h (fun _ hq => hq) rfl

/-- No two bytes go to one address, and none goes where one is read from. -/
structure BlitSetup.Apart (p : BlitSetup) : Prop where
  inj : ∀ q ∈ p.places, ∀ q' ∈ p.places,
    p.dstPlace q.1 q.2 = p.dstPlace q'.1 q'.2 → q = q'
  apart : ∀ q ∈ p.places, ∀ q' ∈ p.places, p.dstPlace q.1 q.2 ≠ p.srcPlace q'.1 q'.2

theorem independent_updates (c : Cirrus542x) (h : p.Placed size) (ha : p.Apart) :
    Independent (p.places.map (c.byteUpdate p)) := by
  constructor
  · rw [List.map_map]
    have hnodup : p.places.Nodup := List.nodup_range.product List.nodup_range
    exact hnodup.map_on fun q hq q' hq' heq => ha.inj q hq q' hq' heq
  · intro u hu m m' hagree
    obtain ⟨q, hq, rfl⟩ := List.mem_map.mp hu
    have hdst : m (p.dstPlace q.1 q.2) = m' (p.dstPlace q.1 q.2) :=
      hagree _ fun _ _ _ => rfl
    -- a byte that is read is not written by any update
    have hsrc : ∀ q' ∈ p.places, m (p.srcPlace q'.1 q'.2) = m' (p.srcPlace q'.1 q'.2) := by
      intro q' hq'
      refine hagree _ fun v hv hd => ?_
      obtain ⟨q'', hq'', rfl⟩ := List.mem_map.mp hv
      exact absurd hd (ha.apart q'' hq'' q' hq')
    obtain ⟨hy, hx⟩ := mem_places.mp hq
    have hkey : c.pixelKeyed p m q.1 q.2 = c.pixelKeyed p m' q.1 q.2 :=
      matchesKey_congr fun i hi =>
        hsrc (q.1, _) (mem_places.mpr ⟨hy, h.pixel_lt hx hi⟩)
    unfold byteUpdate
    dsimp only
    rw [hkey, hdst, hsrc q hq]

/-! ## The rectangles -/

/-- A forward copy between two rectangles of VRAM that do not overlap, whole pixels wide. -/
structure Rectangles (c : Cirrus542x) : Prop where
  dstInside : c.blitAddr Idx.grBlitDstAddrLo +
    (c.blitHeight - 1) * c.blitPitch Idx.grBlitDstPitchLo + c.blitWidth ≤ c.vram.size
  srcInside : c.blitAddr Idx.grBlitSrcAddrLo +
    (c.blitHeight - 1) * c.blitPitch Idx.grBlitSrcPitchLo + c.blitWidth ≤ c.vram.size
  rows : c.blitHeight = 1 ∨ c.blitWidth ≤ c.blitPitch Idx.grBlitDstPitchLo
  apart : ∀ y < c.blitHeight, ∀ x < c.blitWidth, ∀ y' < c.blitHeight, ∀ x' < c.blitWidth,
    c.blitAddr Idx.grBlitDstAddrLo + y * c.blitPitch Idx.grBlitDstPitchLo + x ≠
      c.blitAddr Idx.grBlitSrcAddrLo + y' * c.blitPitch Idx.grBlitSrcPitchLo + x'
  pixels : c.blitPixelBytes ∣ c.blitWidth

/-- `c'` copies as `c` does, backwards from the last bytes. -/
structure Mirrored (c' c : Cirrus542x) : Prop where
  vram : c'.vram = c.vram
  registers : ∀ i, i ≠ Idx.grBlitMode → i < 0x28 ∨ 0x2E < i → reg c'.gr i = reg c.gr i
  forwards : reg c.gr Idx.grBlitMode &&& BlitMode.backwards = 0
  mode : reg c'.gr Idx.grBlitMode = reg c.gr Idx.grBlitMode ||| BlitMode.backwards
  dst : c'.blitAddr Idx.grBlitDstAddrLo = c.blitAddr Idx.grBlitDstAddrLo +
    (c.blitHeight - 1) * c.blitPitch Idx.grBlitDstPitchLo + (c.blitWidth - 1)
  src : c'.blitAddr Idx.grBlitSrcAddrLo = c.blitAddr Idx.grBlitSrcAddrLo +
    (c.blitHeight - 1) * c.blitPitch Idx.grBlitSrcPitchLo + (c.blitWidth - 1)

theorem blitWidth_pos (c : Cirrus542x) : 0 < c.blitWidth := Nat.succ_pos _

/-- A row of a rectangle ends where the rectangle does, or before. -/
theorem row_le {height : Nat} (pitch : Nat) (hy : y < height) : y * pitch ≤ (height - 1) * pitch :=
  Nat.mul_le_mul_right _ (by omega)

/-- Bytes of a rectangle at one address are one byte. -/
theorem place_inj {height width pitch y' x' : Nat} (hrows : height = 1 ∨ width ≤ pitch)
    (hy : y < height) (hy' : y' < height) (hx : x < width) (hx' : x' < width)
    (h : y * pitch + x = y' * pitch + x') : y = y' ∧ x = x' := by
  have hrow : y = y' := by
    rcases hrows with hone | hle
    · omega
    rcases Nat.lt_trichotomy y y' with hlt | heq | hlt
    · have hnext : (y + 1) * pitch ≤ y' * pitch := Nat.mul_le_mul_right _ hlt
      rw [Nat.add_mul, Nat.one_mul] at hnext
      omega
    · exact heq
    · have hnext : (y' + 1) * pitch ≤ y * pitch := Nat.mul_le_mul_right _ hlt
      rw [Nat.add_mul, Nat.one_mul] at hnext
      omega
  subst hrow
  exact ⟨rfl, by omega⟩

section Forwards

variable {c : Cirrus542x} (h : c.Rectangles) (hforwards : (c.blitSetup none).backwards = false)

include h in
theorem Rectangles.width : (c.blitSetup none).width = c.blitWidth := by
  have := h.dstInside
  have := c.blitWidth_pos
  show min c.blitWidth (max c.vram.size 1) = c.blitWidth
  omega

include hforwards

theorem dstAt_forwards (y x : Nat) : (c.blitSetup none).dstAt y x =
    some (c.blitAddr Idx.grBlitDstAddrLo + y * c.blitPitch Idx.grBlitDstPitchLo + x) := by
  unfold BlitSetup.dstAt BlitSetup.along BlitSetup.lineStart
  rw [hforwards]
  rfl

theorem srcAt_forwards (y x : Nat) : (c.blitSetup none).srcAt y x =
    some (c.blitAddr Idx.grBlitSrcAddrLo + y * c.blitPitch Idx.grBlitSrcPitchLo + x) := by
  unfold BlitSetup.srcAt BlitSetup.along BlitSetup.lineStart
  rw [hforwards]
  rfl

theorem dstPlace_forwards (y x : Nat) : (c.blitSetup none).dstPlace y x =
    c.blitAddr Idx.grBlitDstAddrLo + y * c.blitPitch Idx.grBlitDstPitchLo + x := by
  unfold BlitSetup.dstPlace
  rw [dstAt_forwards hforwards]
  rfl

theorem srcPlace_forwards (y x : Nat) : (c.blitSetup none).srcPlace y x =
    c.blitAddr Idx.grBlitSrcAddrLo + y * c.blitPitch Idx.grBlitSrcPitchLo + x := by
  unfold BlitSetup.srcPlace
  rw [srcAt_forwards hforwards]
  rfl

include h

theorem placed_forwards : (c.blitSetup none).Placed c.vram.size := by
  refine ⟨fun y _ x _ => ?_, fun y _ x _ => ?_, fun y hy x hx => ?_, ?_, ?_⟩
  · rw [dstPlace_forwards hforwards, dstAt_forwards hforwards]
  · rw [srcPlace_forwards hforwards, srcAt_forwards hforwards]
  · rw [h.width] at hx
    have hrow := row_le (c.blitPitch Idx.grBlitDstPitchLo) hy
    have := h.dstInside
    rw [dstPlace_forwards hforwards]
    have hheight : (c.blitSetup none).height = c.blitHeight := rfl
    rw [hheight] at hrow
    omega
  · rw [h.width]
    exact h.pixels
  · exact c.blitPixelBytes_bounds.1

end Forwards

theorem apart_forwards (h : c.Rectangles) (hforwards : (c.blitSetup none).backwards = false) :
    (c.blitSetup none).Apart := by
  have hwidth := h.width
  have hheight : (c.blitSetup none).height = c.blitHeight := rfl
  constructor
  · rintro ⟨y, x⟩ hq ⟨y', x'⟩ hq' heq
    rw [mem_places, hwidth, hheight] at hq hq'
    rw [dstPlace_forwards hforwards, dstPlace_forwards hforwards] at heq
    obtain ⟨hy, hx⟩ := place_inj h.rows hq.1 hq'.1 hq.2 hq'.2 (by omega)
    rw [show y = y' from hy, show x = x' from hx]
  · rintro ⟨y, x⟩ hq ⟨y', x'⟩ hq'
    rw [mem_places, hwidth, hheight] at hq hq'
    rw [dstPlace_forwards hforwards, srcPlace_forwards hforwards]
    exact h.apart y hq.1 x hq.2 y' hq'.1 x' hq'.2

/-! ## Backwards -/

/-- An address of a rectangle, counted from its last byte. -/
theorem mirrored_address (start pitch : Nat) {height width : Nat} (hy : y < height)
    (hx : x < width) :
    start + (height - 1) * pitch + (width - 1) - y * pitch - x =
        start + (height - 1 - y) * pitch + (width - 1 - x) ∧
      x ≤ start + (height - 1) * pitch + (width - 1) - y * pitch := by
  have hsplit : (height - 1) * pitch = (height - 1 - y) * pitch + y * pitch := by
    rw [← Nat.add_mul]
    congr 1
    omega
  omega

namespace Mirrored

variable {c c' : Cirrus542x} (h : Mirrored c' c)

include h

theorem forwards_false : (c.blitSetup none).backwards = false := by
  show decide (reg c.gr Idx.grBlitMode &&& BlitMode.backwards ≠ 0) = false
  rw [h.forwards]
  rfl

/-- The mode's other bits are the same. -/
theorem mode_and {mask : Byte} (hmask : BlitMode.backwards &&& mask = 0) :
    reg c'.gr Idx.grBlitMode &&& mask = reg c.gr Idx.grBlitMode &&& mask := by
  rw [h.mode, BitVec.and_or_distrib_right, hmask]
  simp

theorem backwards_true : (c'.blitSetup none).backwards = true := by
  show decide (reg c'.gr Idx.grBlitMode &&& BlitMode.backwards ≠ 0) = true
  rw [h.mode, BitVec.and_or_distrib_right, h.forwards]
  decide

theorem plain (hplain : c.PlainCopy) : c'.PlainCopy := by
  refine ⟨?_, ?_, ?_⟩
  · rw [h.mode_and (by decide)]
    exact hplain.noSystem
  · rw [h.mode_and (by decide)]
    exact hplain.noPattern
  · rw [h.mode_and (by decide)]
    exact hplain.noExpand

theorem transparent : (c'.blitSetup none).transparent = (c.blitSetup none).transparent := by
  show decide (reg c'.gr Idx.grBlitMode &&& BlitMode.transparent ≠ 0) =
    decide (reg c.gr Idx.grBlitMode &&& BlitMode.transparent ≠ 0)
  rw [h.mode_and (by decide)]

theorem pixelBytes : c'.blitPixelBytes = c.blitPixelBytes := by
  unfold blitPixelBytes
  rw [h.mode_and (by decide)]

theorem height : c'.blitHeight = c.blitHeight := by
  unfold blitHeight
  rw [h.registers _ (by decide) (by decide), h.registers _ (by decide) (by decide)]

theorem width : c'.blitWidth = c.blitWidth := by
  unfold blitWidth
  rw [h.registers _ (by decide) (by decide), h.registers _ (by decide) (by decide)]

theorem pitch {low : Nat} (hlow : low + 1 < 0x28) : c'.blitPitch low = c.blitPitch low := by
  have hmode : Idx.grBlitMode = 0x30 := rfl
  unfold blitPitch
  rw [h.registers _ (by omega) (by omega), h.registers _ (by omega) (by omega)]

theorem key (n : Nat) (bytes : Nat → Byte) : c'.matchesKey n bytes = c.matchesKey n bytes := by
  have hregs : Idx.grBlitMode = 0x30 ∧ Idx.grBlitTransparentMask = 0x38 ∧
      Idx.grBlitTransparentCompare = 0x34 := by decide
  have hmask : ∀ i, reg c'.gr (Idx.grBlitTransparentMask + i) =
      reg c.gr (Idx.grBlitTransparentMask + i) := fun i =>
    h.registers _ (by omega) (by omega)
  have hcompare : ∀ i, reg c'.gr (Idx.grBlitTransparentCompare + i) =
      reg c.gr (Idx.grBlitTransparentCompare + i) := fun i =>
    h.registers _ (by omega) (by omega)
  unfold matchesKey
  simp only [hmask, hcompare]

variable (hr : c.Rectangles)

include hr

theorem setup_width : (c'.blitSetup none).width = c.blitWidth := by
  have := hr.dstInside
  have := c.blitWidth_pos
  show min c'.blitWidth (max c'.vram.size 1) = c.blitWidth
  rw [h.width, h.vram]
  omega

omit hr in
/-- A byte backwards is a byte forwards, counted from the last one. -/
theorem dstAt {y x : Nat} (hy : y < c.blitHeight) (hx : x < c.blitWidth) :
    (c'.blitSetup none).dstAt y x =
      some ((c.blitSetup none).dstPlace (c.blitHeight - 1 - y) (c.blitWidth - 1 - x)) := by
  rw [dstPlace_forwards h.forwards_false]
  unfold BlitSetup.dstAt BlitSetup.along BlitSetup.lineStart
  rw [h.backwards_true]
  show (if x ≤ c'.blitAddr Idx.grBlitDstAddrLo - y * c'.blitPitch Idx.grBlitDstPitchLo then
    some (c'.blitAddr Idx.grBlitDstAddrLo - y * c'.blitPitch Idx.grBlitDstPitchLo - x) else none) =
      _
  rw [h.dst, h.pitch (by decide)]
  obtain ⟨heq, hle⟩ := mirrored_address (c.blitAddr Idx.grBlitDstAddrLo)
    (c.blitPitch Idx.grBlitDstPitchLo) hy hx
  rw [if_pos hle, heq]

omit hr in
theorem srcAt {y x : Nat} (hy : y < c.blitHeight) (hx : x < c.blitWidth) :
    (c'.blitSetup none).srcAt y x =
      some ((c.blitSetup none).srcPlace (c.blitHeight - 1 - y) (c.blitWidth - 1 - x)) := by
  rw [srcPlace_forwards h.forwards_false]
  unfold BlitSetup.srcAt BlitSetup.along BlitSetup.lineStart
  rw [h.backwards_true]
  show (if x ≤ c'.blitAddr Idx.grBlitSrcAddrLo - y * c'.blitPitch Idx.grBlitSrcPitchLo then
    some (c'.blitAddr Idx.grBlitSrcAddrLo - y * c'.blitPitch Idx.grBlitSrcPitchLo - x) else none) =
      _
  rw [h.src, h.pitch (by decide)]
  obtain ⟨heq, hle⟩ := mirrored_address (c.blitAddr Idx.grBlitSrcAddrLo)
    (c.blitPitch Idx.grBlitSrcPitchLo) hy hx
  rw [if_pos hle, heq]

omit hr in
theorem dstPlace {y x : Nat} (hy : y < c.blitHeight) (hx : x < c.blitWidth) :
    (c'.blitSetup none).dstPlace y x =
      (c.blitSetup none).dstPlace (c.blitHeight - 1 - y) (c.blitWidth - 1 - x) := by
  rw [BlitSetup.dstPlace, h.dstAt hy hx]
  rfl

omit hr in
theorem srcPlace {y x : Nat} (hy : y < c.blitHeight) (hx : x < c.blitWidth) :
    (c'.blitSetup none).srcPlace y x =
      (c.blitSetup none).srcPlace (c.blitHeight - 1 - y) (c.blitWidth - 1 - x) := by
  rw [BlitSetup.srcPlace, h.srcAt hy hx]
  rfl

/-- The places of the copy backwards. -/
theorem mem_places {q : Nat × Nat} :
    q ∈ (c'.blitSetup none).places ↔ q.1 < c.blitHeight ∧ q.2 < c.blitWidth := by
  have hheight : (c'.blitSetup none).height = c.blitHeight := h.height
  rw [Cirrus542x.mem_places, hheight, h.setup_width hr]

theorem mem_places_mirror {q : Nat × Nat} (hq : q ∈ (c'.blitSetup none).places) :
    (c.blitHeight - 1 - q.1, c.blitWidth - 1 - q.2) ∈ (c.blitSetup none).places := by
  rw [h.mem_places hr] at hq
  have hheight : (c.blitSetup none).height = c.blitHeight := rfl
  rw [Cirrus542x.mem_places, hheight, hr.width]
  dsimp only
  omega

theorem placed : (c'.blitSetup none).Placed c'.vram.size := by
  have hforwards := placed_forwards hr h.forwards_false
  have hheight : (c'.blitSetup none).height = c.blitHeight := h.height
  refine ⟨fun y hy x hx => ?_, fun y hy x hx => ?_, fun y hy x hx => ?_, ?_, ?_⟩
  all_goals try rw [hheight] at hy
  all_goals try rw [h.setup_width hr] at hx
  · rw [h.dstAt hy hx, h.dstPlace hy hx]
  · rw [h.srcAt hy hx, h.srcPlace hy hx]
  · rw [h.dstPlace hy hx, h.vram]
    obtain ⟨hy', hx'⟩ := Cirrus542x.mem_places.mp
      (h.mem_places_mirror hr ((h.mem_places hr (q := (y, x))).mpr ⟨hy, hx⟩))
    exact hforwards.dstLt _ hy' _ hx'
  · rw [h.setup_width hr]
    show c'.blitPixelBytes ∣ c.blitWidth
    rw [h.pixelBytes]
    exact hr.pixels
  · exact c'.blitPixelBytes_bounds.1

theorem apart : (c'.blitSetup none).Apart := by
  have hforwards := apart_forwards hr h.forwards_false
  constructor
  · rintro ⟨y, x⟩ hq ⟨y', x'⟩ hq' heq
    have hm := h.mem_places_mirror hr hq
    have hm' := h.mem_places_mirror hr hq'
    rw [h.mem_places hr] at hq hq'
    rw [h.dstPlace hq.1 hq.2, h.dstPlace hq'.1 hq'.2] at heq
    have hmirror := hforwards.inj _ hm _ hm' heq
    rw [Prod.mk.injEq] at hmirror ⊢
    dsimp only at hq hq' hmirror
    omega
  · rintro ⟨y, x⟩ hq ⟨y', x'⟩ hq'
    have hm := h.mem_places_mirror hr hq
    have hm' := h.mem_places_mirror hr hq'
    rw [h.mem_places hr] at hq hq'
    rw [h.dstPlace hq.1 hq.2, h.srcPlace hq'.1 hq'.2]
    exact hforwards.apart _ hm _ hm'

/-- Both directions write the same addresses. -/
theorem dest_iff (i : Nat) :
    (∃ u ∈ (c'.blitSetup none).places.map (c'.byteUpdate (c'.blitSetup none)), u.dest = i) ↔
      ∃ u ∈ (c.blitSetup none).places.map (c.byteUpdate (c.blitSetup none)), u.dest = i := by
  simp only [List.mem_map, exists_exists_and_eq_and]
  have hheight : (c.blitSetup none).height = c.blitHeight := rfl
  constructor
  · rintro ⟨q, hq, rfl⟩
    refine ⟨_, h.mem_places_mirror hr hq, ?_⟩
    rw [h.mem_places hr] at hq
    exact (h.dstPlace hq.1 hq.2).symm
  · rintro ⟨⟨y, x⟩, hq, rfl⟩
    rw [Cirrus542x.mem_places, hheight, hr.width] at hq
    dsimp only at hq
    refine ⟨(c.blitHeight - 1 - y, c.blitWidth - 1 - x), (h.mem_places hr).mpr ?_, ?_⟩
    · dsimp only
      omega
    · show (c'.blitSetup none).dstPlace _ _ = (c.blitSetup none).dstPlace y x
      rw [h.dstPlace (by omega) (by omega)]
      congr 1 <;> omega

end Mirrored

/-! ## Whether the direction matters -/

/-- The colour key on pixel `k` of row `y`, its bytes in the order `order` gives them. -/
def keyedPixel (c : Cirrus542x) (order : Nat → Nat) (y k : Nat) : Bool :=
  c.matchesKey c.blitPixelBytes fun i => c.vram.cells
    (c.blitAddr Idx.grBlitSrcAddrLo + y * c.blitPitch Idx.grBlitSrcPitchLo +
      (c.blitPixelBytes * k + order i))

/-- What the raster operation makes of byte `x` of row `y`. -/
def rastered (c : Cirrus542x) (y x : Nat) : Byte :=
  applyRop (reg c.gr Idx.grBlitRop)
    (c.vram.cells (c.blitAddr Idx.grBlitSrcAddrLo + y * c.blitPitch Idx.grBlitSrcPitchLo + x))
    (c.vram.cells (c.blitAddr Idx.grBlitDstAddrLo + y * c.blitPitch Idx.grBlitDstPitchLo + x))

/-- The byte a copy finds at a place of its destination. -/
def underneath (c : Cirrus542x) (y x : Nat) : Byte :=
  c.vram.cells (c.blitAddr Idx.grBlitDstAddrLo + y * c.blitPitch Idx.grBlitDstPitchLo + x)

/-- A pixel of one byte has no order. -/
theorem keyedPixel_of_one_byte (h : c.blitPixelBytes = 1) (y k : Nat) :
    c.keyedPixel id y k = c.keyedPixel (fun i => c.blitPixelBytes - 1 - i) y k := by
  unfold keyedPixel
  refine matchesKey_congr fun i hi => ?_
  rw [h] at hi ⊢
  obtain rfl : i = 0 := by omega
  rfl

theorem byteUpdate_value (hforwards : (c.blitSetup none).backwards = false) (y x : Nat) :
    (c.byteUpdate (c.blitSetup none) (y, x)).value c.vram.cells =
      if (c.blitSetup none).transparent && c.keyedPixel id y (x / c.blitPixelBytes) then
        c.underneath y x
      else c.rastered y x := by
  have hpixel : x - x % c.blitPixelBytes = c.blitPixelBytes * (x / c.blitPixelBytes) := by
    have := Nat.div_add_mod x c.blitPixelBytes
    omega
  have hkey : c.pixelKeyed (c.blitSetup none) c.vram.cells y x =
      c.keyedPixel id y (x / c.blitPixelBytes) := by
    unfold pixelKeyed keyedPixel
    simp only [srcPlace_forwards hforwards]
    show c.matchesKey c.blitPixelBytes (fun i => c.vram.cells
      (_ + (x - x % c.blitPixelBytes + i))) = _
    rw [hpixel]
    rfl
  unfold byteUpdate
  dsimp only
  rw [hkey, dstPlace_forwards hforwards, srcPlace_forwards hforwards]
  rfl

/-- A pixel counted from the end of its row. -/
theorem mirrored_pixel {pb w : Nat} (hpos : 0 < pb) (hdvd : pb ∣ w) (hx : x < w) (hi : i < pb) :
    w - 1 - (w - 1 - x - (w - 1 - x) % pb + i) = pb * (x / pb) + (pb - 1 - i) := by
  obtain ⟨n, rfl⟩ := hdvd
  have hdiv := Nat.div_add_mod x pb
  have hmod := Nat.mod_lt x hpos
  have hlt : x / pb < n := by
    rwa [Nat.div_lt_iff_lt_mul hpos, Nat.mul_comm]
  have hsplit : pb * n = pb * (n - 1 - x / pb) + pb * (x / pb) + pb := by
    rw [← Nat.mul_add, ← Nat.mul_succ]
    congr 1
    omega
  have hend : pb * n - 1 - x = pb * (n - 1 - x / pb) + (pb - 1 - x % pb) := by omega
  have hrest : (pb * n - 1 - x) % pb = pb - 1 - x % pb := by
    rw [hend, Nat.mul_add_mod, Nat.mod_eq_of_lt (by omega)]
  omega

theorem Mirrored.byteUpdate_value {c' : Cirrus542x} (h : Mirrored c' c) (hr : c.Rectangles)
    (hy : y < c.blitHeight) (hx : x < c.blitWidth) :
    (c'.byteUpdate (c'.blitSetup none) (c.blitHeight - 1 - y, c.blitWidth - 1 - x)).value
        c.vram.cells =
      if (c.blitSetup none).transparent &&
        c.keyedPixel (fun i => c.blitPixelBytes - 1 - i) y (x / c.blitPixelBytes) then
        c.underneath y x
      else c.rastered y x := by
  have hpb := c.blitPixelBytes_bounds.1
  have hy' : c.blitHeight - 1 - (c.blitHeight - 1 - y) = y := by omega
  have hx' : c.blitWidth - 1 - (c.blitWidth - 1 - x) = x := by omega
  have hkey : c'.pixelKeyed (c'.blitSetup none) c.vram.cells (c.blitHeight - 1 - y)
      (c.blitWidth - 1 - x) =
        c.keyedPixel (fun i => c.blitPixelBytes - 1 - i) y (x / c.blitPixelBytes) := by
    have hbytes : (c'.blitSetup none).pixelBytes = c.blitPixelBytes := h.pixelBytes
    unfold pixelKeyed keyedPixel
    rw [h.key, hbytes]
    refine matchesKey_congr fun i hi => ?_
    have hmirror := mirrored_pixel hpb hr.pixels hx hi
    have hlt : c.blitWidth - 1 - x - (c.blitWidth - 1 - x) % c.blitPixelBytes + i <
        c.blitWidth := by
      have hplaced := h.placed hr
      have := hplaced.pixel_lt (x := c.blitWidth - 1 - x) (i := i)
      rw [hbytes, h.setup_width hr] at this
      exact this (by omega) hi
    rw [h.srcPlace (by omega) hlt, srcPlace_forwards h.forwards_false, hy', hmirror]
  unfold byteUpdate
  dsimp only
  rw [hkey, h.transparent, h.dstPlace (by omega) (by omega), h.srcPlace (by omega) (by omega),
    dstPlace_forwards h.forwards_false, srcPlace_forwards h.forwards_false, hy', hx',
    h.registers _ (by decide) (by decide)]
  rfl

theorem select_eq_iff (t a b : Bool) (old new : Byte) :
    ((if t && b then old else new) = if t && a then old else new) ↔
      t = false ∨ a = b ∨ new = old := by
  cases t <;> cases a <;> cases b <;> simp [eq_comm]

/-- Backwards, byte `x` of row `y` is the same update as forwards. -/
theorem Mirrored.values_iff {c' : Cirrus542x} (h : Mirrored c' c) (hr : c.Rectangles)
    (m : Nat → Byte) :
    (∀ u ∈ (c'.blitSetup none).places.map (c'.byteUpdate (c'.blitSetup none)),
      ∀ v ∈ (c.blitSetup none).places.map (c.byteUpdate (c.blitSetup none)),
        u.dest = v.dest → u.value m = v.value m) ↔
      ∀ y < c.blitHeight, ∀ x < c.blitWidth,
        (c'.byteUpdate (c'.blitSetup none) (c.blitHeight - 1 - y, c.blitWidth - 1 - x)).value m =
          (c.byteUpdate (c.blitSetup none) (y, x)).value m := by
  have hheight : (c.blitSetup none).height = c.blitHeight := rfl
  have hapart := apart_forwards hr h.forwards_false
  constructor
  · intro hall y hy x hx
    have hq : (c.blitHeight - 1 - y, c.blitWidth - 1 - x) ∈ (c'.blitSetup none).places := by
      rw [h.mem_places hr]
      dsimp only
      omega
    have hq' : (y, x) ∈ (c.blitSetup none).places := by
      rw [Cirrus542x.mem_places, hheight, hr.width]
      exact ⟨hy, hx⟩
    refine hall _ (List.mem_map_of_mem hq) _ (List.mem_map_of_mem hq') ?_
    show (c'.blitSetup none).dstPlace _ _ = (c.blitSetup none).dstPlace y x
    rw [h.dstPlace (by omega) (by omega)]
    congr 1 <;> omega
  · rintro hall u hu v hv hd
    obtain ⟨q, hq, rfl⟩ := List.mem_map.mp hu
    obtain ⟨⟨y, x⟩, hq', rfl⟩ := List.mem_map.mp hv
    have hm := h.mem_places_mirror hr hq
    rw [h.mem_places hr] at hq
    have hmirror := hapart.inj _ hm _ hq' ((h.dstPlace hq.1 hq.2).symm.trans hd)
    rw [Prod.mk.injEq] at hmirror
    have hvalue := hall y (by omega) x (by omega)
    rwa [show (c.blitHeight - 1 - y, c.blitWidth - 1 - x) = q from
      Prod.ext (by dsimp only; omega) (by dsimp only; omega)] at hvalue

/-- **The direction of a copy matters only through the colour key.** A copy that does not write what
it reads leaves the same VRAM both ways exactly when it has no colour key, or every pixel matches as
it does with its bytes reversed or would keep its bytes. -/
theorem direction_does_not_matter_iff {c c' : Cirrus542x} (hplain : c.PlainCopy)
    (h : Mirrored c' c) (hr : c.Rectangles) :
    c'.startBlit.vram = c.startBlit.vram ↔
      reg c.gr Idx.grBlitMode &&& BlitMode.transparent = 0 ∨
        ∀ y < c.blitHeight, ∀ x < c.blitWidth,
          c.keyedPixel id y (x / c.blitPixelBytes) =
              c.keyedPixel (fun i => c.blitPixelBytes - 1 - i) y (x / c.blitPixelBytes) ∨
            c.rastered y x = c.underneath y x := by
  have hplain' := h.plain hplain
  have hforwards := h.forwards_false
  have hplaced := placed_forwards hr hforwards
  have hapart := apart_forwards hr hforwards
  rw [startBlit_plain hplain, startBlit_plain hplain']
  have hcells : (c'.executeBlit none).vram = (c.executeBlit none).vram ↔
      (c'.executeBlit none).vram.cells = (c.executeBlit none).vram.cells := by
    refine ⟨fun heq => by rw [heq], ByteSlice.eq_of_cells ?_⟩
    rw [executeBlit_size, executeBlit_size, h.vram]
  rw [hcells, cells_executeBlit hplain hplaced, cells_executeBlit hplain' (h.placed hr), h.vram,
    applyAll_eq_iff (independent_updates c' (h.placed hr) (h.apart hr))
      (independent_updates c hplaced hapart) (h.dest_iff hr),
    h.values_iff hr]
  have hbyte : ∀ y < c.blitHeight, ∀ x < c.blitWidth,
      ((c'.byteUpdate (c'.blitSetup none) (c.blitHeight - 1 - y, c.blitWidth - 1 - x)).value
          c.vram.cells = (c.byteUpdate (c.blitSetup none) (y, x)).value c.vram.cells ↔
        (c.blitSetup none).transparent = false ∨
          c.keyedPixel id y (x / c.blitPixelBytes) =
              c.keyedPixel (fun i => c.blitPixelBytes - 1 - i) y (x / c.blitPixelBytes) ∨
            c.rastered y x = c.underneath y x) := by
    intro y hy x hx
    rw [h.byteUpdate_value hr hy hx, Cirrus542x.byteUpdate_value hforwards]
    exact select_eq_iff _ _ _ _ _
  have htransparent : (c.blitSetup none).transparent = false ↔
      reg c.gr Idx.grBlitMode &&& BlitMode.transparent = 0 := decide_eq_false_iff_not.trans not_not
  rw [← htransparent]
  constructor
  · intro hall
    refine or_iff_not_imp_left.mpr fun ht y hy x hx => ?_
    exact ((hbyte y hy x hx).mp (hall y hy x hx)).resolve_left ht
  · rintro hkeyed y hy x hx
    exact (hbyte y hy x hx).mpr (hkeyed.imp_right fun hk => hk y hy x hx)

/-- Two 16-bit pixels, the first of which takes the second, which is the colour key. -/
def keyedCirrus (mode dst src : Byte) : Cirrus542x :=
  { Cirrus542x.new .gd5428 ⟨4, fun i => if i.val = 2 then 0x12 else if i.val = 3 then 0x34 else 0⟩
    with
    gr := ((((((((Vector.replicate 64 0).setIfInBounds Idx.grBlitWidthLo 1).setIfInBounds
      Idx.grBlitDstAddrLo dst).setIfInBounds Idx.grBlitSrcAddrLo src).setIfInBounds
      Idx.grBlitMode mode).setIfInBounds Idx.grBlitRop 0x0D).setIfInBounds
      Idx.grBlitTransparentCompare 0x12).setIfInBounds (Idx.grBlitTransparentCompare + 1) 0x34) }

/-- The copy is plain, between rectangles, whole pixels of one byte or of two wide. -/
theorem keyedCirrus_rectangles {mode : Byte} (hmode : mode = 0x08 ∨ mode = 0x18) :
    (keyedCirrus mode 0 2).PlainCopy ∧ (keyedCirrus mode 0 2).Rectangles := by
  obtain rfl | rfl := hmode
  · exact ⟨⟨by decide, by decide, by decide⟩,
      ⟨by decide, by decide, .inl (by decide), by decide, by decide⟩⟩
  · exact ⟨⟨by decide, by decide, by decide⟩,
      ⟨by decide, by decide, .inl (by decide), by decide, by decide⟩⟩

theorem keyedCirrus_registers (mode mode' : Byte) (hi : i ≠ Idx.grBlitMode)
    (haddr : i < 0x28 ∨ 0x2E < i) :
    reg (keyedCirrus mode' 1 3).gr i = reg (keyedCirrus mode 0 2).gr i := by
  have hbase : Idx.grBlitDstAddrLo = 0x28 ∧ Idx.grBlitSrcAddrLo = 0x2C := ⟨rfl, rfl⟩
  have hdst : i ≠ Idx.grBlitDstAddrLo := by omega
  have hsrc : i ≠ Idx.grBlitSrcAddrLo := by omega
  simp only [keyedCirrus, reg_setIfInBounds _ (by decide : Idx.grBlitWidthLo < 64),
    reg_setIfInBounds _ (by decide : Idx.grBlitDstAddrLo < 64),
    reg_setIfInBounds _ (by decide : Idx.grBlitSrcAddrLo < 64),
    reg_setIfInBounds _ (by decide : Idx.grBlitMode < 64),
    reg_setIfInBounds _ (by decide : Idx.grBlitRop < 64),
    reg_setIfInBounds _ (by decide : Idx.grBlitTransparentCompare < 64),
    reg_setIfInBounds _ (by decide : Idx.grBlitTransparentCompare + 1 < 64), hi, hdst, hsrc,
    if_false]

theorem keyedCirrus_mirrored {mode mode' : Byte}
    (hmode : mode = 0x08 ∧ mode' = 0x09 ∨ mode = 0x18 ∧ mode' = 0x19) :
    Mirrored (keyedCirrus mode' 1 3) (keyedCirrus mode 0 2) := by
  obtain ⟨rfl, rfl⟩ | ⟨rfl, rfl⟩ := hmode
  · exact ⟨rfl, fun _ => keyedCirrus_registers _ _, by decide, by decide, by decide, by decide⟩
  · exact ⟨rfl, fun _ => keyedCirrus_registers _ _, by decide, by decide, by decide, by decide⟩

/-- Pixels of one byte read the same either way. -/
theorem direction_does_not_matter_iff_one_byte_pixels :
    (keyedCirrus 0x08 0 2).startBlit.vram.get? 0 = some 0 ∧
      (keyedCirrus 0x09 1 3).startBlit.vram = (keyedCirrus 0x08 0 2).startBlit.vram := by
  refine ⟨by decide, ?_⟩
  obtain ⟨hplain, hr⟩ := keyedCirrus_rectangles (.inl rfl)
  have hmirrored : Mirrored (keyedCirrus 0x09 1 3) (keyedCirrus 0x08 0 2) :=
    keyedCirrus_mirrored (.inl ⟨rfl, rfl⟩)
  have hbytes : (keyedCirrus 0x08 0 2).blitPixelBytes = 1 := by decide
  exact (direction_does_not_matter_iff hplain hmirrored hr).mpr
    (.inr fun y _ x _ => .inl (keyedPixel_of_one_byte hbytes y _))

/-- Backwards the bytes of a pixel are compared with the key the wrong way round. -/
theorem backwards_reverses_the_key :
    (keyedCirrus 0x18 0 2).PlainCopy ∧ (keyedCirrus 0x18 0 2).Rectangles ∧
      Mirrored (keyedCirrus 0x19 1 3) (keyedCirrus 0x18 0 2) ∧
      (keyedCirrus 0x18 0 2).startBlit.vram.get? 0 = some 0 ∧
      (keyedCirrus 0x19 1 3).startBlit.vram.get? 0 = some 0x12 :=
  ⟨(keyedCirrus_rectangles (.inr rfl)).1, (keyedCirrus_rectangles (.inr rfl)).2,
    keyedCirrus_mirrored (.inr ⟨rfl, rfl⟩), by decide, by decide⟩

end Cirrus542x

end M68kMachine
