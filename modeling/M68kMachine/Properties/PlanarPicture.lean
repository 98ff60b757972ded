import M68kMachine.Library.Layers
import M68kMachine.Properties.CopperBands
import M68kMachine.Properties.InterlaceWeave
import Mathlib.Data.Nat.Init

/-!
# The picture, pixel by pixel

What a frame shows at each place, from the registers of the lines and the bits of chip RAM: sprite 0
over the playfield over the background.

* `memoryBit`, `colourIndex` — a pixel is a bit of each plane
* `lineAddr` — where a row starts
* `playfield`, `sprite` — the two layers
* `render_shows` — the renderer paints them
-/

namespace M68kMachine

open Layers

namespace Render

/-! ## What a frame shows -/

/-- The registers at the end of the copper list, those of the lines, and chip RAM. -/
structure Frame where
  state : CopperState
  bands : Bands
  ram : ByteSlice

/-- Bit `s` of the memory from `addr` on, the highest bit of a byte first. -/
def memoryBit (ram : ByteSlice) (addr : Long) (s : Nat) : Bool :=
  (readByte ram (addr + BitVec.ofNat 32 (s / 8))).getLsbD (7 - s % 8)

/-- The number whose binary digits are bit `s` of each plane, plane 0 the lowest. -/
def colourIndex (ram : ByteSlice) (planes : Nat) (addr : Nat → Long) (s : Nat) : Nat :=
  Nat.ofBits fun p : Fin planes => memoryBit ram (addr p) s

/-- How far a row under these registers moves the pointer of a plane. -/
def rowAdvance (b : BandState) (p : Nat) : Long :=
  if fetches b (decodeBand b) = true ∧ p < (decodeBand b).planes then stride b p else 0

namespace Frame

variable (f : Frame)

/-- The registers of a line. -/
def regs (line : Nat) : BandState := f.bands.at line

/-- The registers of an output row. -/
def rowRegs (r : Nat) : BandState :=
  f.regs (f.bands.extent.y0 + fieldLine f.bands.extent.lace r)

def field (r : Nat) : Nat := fieldOf f.bands.extent.lace r

/-- Where the field of a row starts: the odd one starts a row of the top line further. -/
def fieldAddr (field p : Nat) : Long :=
  f.state.plane p + if field = 1 then
    BitVec.ofNat 32 ((decodeBand (f.regs f.bands.extent.y0)).ddfWords * 2) else 0

/-- The pointer of a field's plane after the rows above `r`, each of which moves only its own. -/
def movedBy (field p r : Nat) (start : Long) : Long :=
  (List.range r).foldl (fun addr r' =>
    if f.field r' = field then addr + rowAdvance (f.rowRegs r') p else addr) start

/-- The address of the first bit of plane `p` in output row `r`. -/
def lineAddr (r p : Nat) : Long := f.movedBy (f.field r) p r (f.fieldAddr (f.field r) p)

/-- The colour register of a pixel, 0 where no fetched bit is behind it. -/
def windowIndex (r x : Nat) : Nat :=
  let g := decodeBand (f.rowRegs r)
  let s : Int := ((x - g.diwX0 : Nat) : Int) * g.bitsPerOutputPx + g.fetchBitShift
  if 0 ≤ s ∧ s < (g.ddfWords : Int) * 16 then colourIndex f.ram g.planes (f.lineAddr r) s.toNat
  else 0

/-- A row shows its window, or the background of its line when nothing is fetched. -/
def rowLayer (r : Nat) : Layer Long := fun x y =>
  let b := f.rowRegs r
  let g := decodeBand b
  if fetches b g then
    span (f.bands.extent.y0 + r) g.diwX0 g.diwX1
      (fun x => argbFromAmiga (b.colour (f.windowIndex r x))) x y
  else if y = f.bands.extent.y0 + r then some (argbFromAmiga (b.colour 0)) else none

def playfield : Layer Long := fun x y =>
  if f.bands.extent.y0 ≤ y ∧ y < f.bands.extent.y0 + f.bands.extent.rows then
    f.rowLayer (y - f.bands.extent.y0) x y
  else none

end Frame

/-- The first line of a sprite, from its position and control words. -/
def spriteTop (pos ctl : Word) : Nat := pos.toNat / 256 + if ctl.getLsbD 2 then 256 else 0

/-- The line after the last one. -/
def spriteEnd (ctl : Word) : Nat := ctl.toNat / 256 + if ctl.getLsbD 1 then 256 else 0

/-- Its first column, on a whole low-resolution pixel pair. -/
def spriteLeft (pos : Word) : Nat := pos.toNat % 256 * 2

/-- A line of sprite 0, in the colours of the registers `b`; colour 0 is transparent. -/
def spriteLine (ram : ByteSlice) (b : BandState) (addr : Long) (left line : Nat) : Layer Long :=
  fun x y =>
    if y = line ∧ left ≤ x ∧ x < left + 16 then
      match colourIndex ram 2 (fun p => addr + BitVec.ofNat 32 (2 * p)) (x - left) with
      | 0 => none
      | v => some (argbFromAmiga (b.colour (16 + v)))
    else none

/-- Sprite 0, of at most 256 lines. All of it has the colours of its first line. -/
def Frame.sprite (f : Frame) : Layer Long := fun x y =>
  let pos := readWord f.ram f.state.spr0pt
  let ctl := readWord f.ram (f.state.spr0pt + 2)
  let top := spriteTop pos ctl
  if top ≤ y ∧ y < min (spriteEnd ctl) (top + 256) then
    spriteLine f.ram (f.regs top) (f.state.spr0pt + 4 + BitVec.ofNat 32 ((y - top) * 4))
      (spriteLeft pos) y x y
  else none

/-- The frame that the registers and the copper list in chip RAM make. -/
def Frame.walked (chipset : Chipset) (ram : ByteSlice) : Frame :=
  let (state, bands, _) := runCopper chipset.cop1lc ram (.fromChipset chipset) .new
  ⟨state, bands, ram⟩

/-- The colour of a place. -/
def Frame.colourAt (f : Frame) (x y : Nat) : Long :=
  (f.sprite.over f.playfield x y).getD (argbFromAmiga ((f.bands.state 0).colour 0))

/-! ## Bits and words -/

theorem getLsbD_readWord (ram : ByteSlice) (addr : Long) {s : Nat} (hs : s < 16) :
    (readWord ram addr).getLsbD (15 - s) = memoryBit ram addr s := by
  unfold readWord be16 memoryBit
  rw [BitVec.getLsbD_append]
  rcases Nat.lt_or_ge s 8 with hlow | hhigh
  · have hdiv : s / 8 = 0 := by omega
    have hbit : 15 - s - 8 = 7 - s % 8 := by omega
    rw [if_neg (by omega), hdiv, hbit, BitVec.add_zero]
  · have hdiv : s / 8 = 1 := by omega
    have hbit : 15 - s = 7 - s % 8 := by omega
    rw [if_pos (by omega), hdiv, hbit]
    rfl

/-- The words of a row are its bits, sixteen at a time. -/
theorem getLsbD_rowWord (ram : ByteSlice) (addr : Long) (s : Nat) :
    (readWord ram (addr + BitVec.ofNat 32 (s / 16 * 2))).getLsbD (15 - s % 16) =
      memoryBit ram addr s := by
  have hbyte : s / 16 * 2 + s % 16 / 8 = s / 8 := by omega
  have hbit : s % 16 % 8 = s % 8 := by omega
  rw [getLsbD_readWord ram _ (Nat.mod_lt _ (by decide))]
  unfold memoryBit
  rw [BitVec.add_assoc, ← BitVec.ofNat_add, hbyte, hbit]

theorem testBit_pixelColorIndex (words : Nat → Nat → Word) (planes s i : Nat) :
    (pixelColorIndex words planes s).testBit i =
      (decide (i < planes) && (words i (s / 16)).getLsbD (15 - s % 16)) := by
  unfold pixelColorIndex
  induction planes with
  | zero => simp
  | succ n ih =>
    rw [List.range_succ, List.foldl_append, List.foldl_cons, List.foldl_nil, Nat.testBit_or, ih,
      Nat.testBit_shiftLeft]
    rcases Nat.lt_trichotomy i n with hlt | rfl | hgt
    · have hbelow : ¬i ≥ n := by omega
      simp [hlt, hbelow, Nat.lt_succ_of_lt hlt]
    · cases hbit : (words i (s / 16)).getLsbD (15 - s % 16) <;> simp
    · have hpos : i - n ≠ 0 := by omega
      have hnot : ¬i < n := by omega
      have hnot' : ¬i < n + 1 := by omega
      simp [hnot, hnot', Nat.testBit_bool_toNat, hpos]

theorem pixelColorIndex_eq (ram : ByteSlice) (addr : Nat → Long) (planes s : Nat) :
    pixelColorIndex (fun p w => readWord ram (addr p + BitVec.ofNat 32 (w * 2))) planes s =
      colourIndex ram planes addr s := by
  apply Nat.eq_of_testBit_eq
  intro i
  rw [testBit_pixelColorIndex, getLsbD_rowWord]
  unfold colourIndex
  rw [Nat.testBit_ofBits]
  split
  · rename_i h
    simp [h]
  · rename_i h
    simp [h]

/-- **The colour of a pixel of the window**, with the words where the row starts. -/
theorem windowPixel_eq (ram : ByteSlice) (b : BandState) (addr : Nat → Long) (x : Nat) :
    windowPixel b (decodeBand b)
        (fun p w => readWord ram (addr p + BitVec.ofNat 32 (w * 2))) x =
      argbFromAmiga (b.colour
        (let s : Int := ((x - (decodeBand b).diwX0 : Nat) : Int) * (decodeBand b).bitsPerOutputPx +
            (decodeBand b).fetchBitShift
         if 0 ≤ s ∧ s < ((decodeBand b).ddfWords : Int) * 16 then
           colourIndex ram (decodeBand b).planes addr s.toNat
         else 0)) := by
  have hplanes : (decodeBand b).planes ≤ 5 := (decodeBand_small b).planes_le
  unfold windowPixel
  dsimp only
  split
  · rw [pixelColorIndex_eq, Nat.mod_eq_of_lt]
    exact (Nat.ofBits_lt_two_pow _).trans_le (Nat.pow_le_pow_right (by decide) hplanes)
  · rfl

/-! ## Layers of the framebuffer -/

/-- The framebuffer with a layer painted on it. -/
structure Painted (fb fb' : Framebuffer) (layer : Layer Long) : Prop where
  width : fb'.width = fb.width
  height : fb'.height = fb.height
  len : fb'.len = fb.len
  pixel : fb.Holds → ∀ {x y : Nat}, x < fb.width → y < fb.height →
    fb'.pixel x y = (layer x y).or (fb.pixel x y)

theorem Painted.holds {fb fb' : Framebuffer} {layer : Layer Long} (h : Painted fb fb' layer)
    (hfb : fb.Holds) : fb'.Holds := by
  unfold Framebuffer.Holds
  rw [h.width, h.height, h.len]
  exact hfb

theorem Painted.refl (fb : Framebuffer) : Painted fb fb clear :=
  ⟨rfl, rfl, rfl, fun _ _ _ _ _ => rfl⟩

theorem Painted.trans {fb fb' fb'' : Framebuffer} {layer layer' : Layer Long}
    (h : Painted fb fb' layer) (h' : Painted fb' fb'' layer') :
    Painted fb fb'' (layer'.over layer) := by
  refine ⟨h'.width.trans h.width, h'.height.trans h.height, h'.len.trans h.len, ?_⟩
  intro hfb x y hx hy
  rw [h'.pixel (h.holds hfb) (h.width ▸ hx) (h.height ▸ hy), h.pixel hfb hx hy]
  exact (over_or layer' layer x y _).symm

/-- The same picture by another description of what was painted. -/
theorem Painted.congr {fb fb' : Framebuffer} {layer layer' : Layer Long} (h : Painted fb fb' layer)
    (hlayer : ∀ x y, x < fb.width → layer x y = layer' x y) : Painted fb fb' layer' := by
  refine ⟨h.width, h.height, h.len, fun hfb x y hx hy => ?_⟩
  rw [← hlayer x y hx]
  exact h.pixel hfb hx hy

theorem painted_foldl {ι : Type} {paint : Framebuffer → ι → Framebuffer} {layer : ι → Layer Long}
    (h : ∀ fb i, Painted fb (paint fb i) (layer i)) (fb : Framebuffer) (is : List ι) :
    Painted fb (is.foldl paint fb) (stack layer is) := by
  induction is using List.reverseRecOn with
  | nil => exact .refl fb
  | append_singleton is i ih =>
    rw [List.foldl_append, List.foldl_cons, List.foldl_nil, stack_concat]
    exact ih.trans (h _ i)

theorem painted_put (fb : Framebuffer) (x₀ y₀ : Nat) (argb : Long) :
    Painted fb (fb.put x₀ y₀ argb) (dot x₀ y₀ argb) := by
  obtain ⟨hwidth, hheight, hlen⟩ := put_shape fb x₀ y₀ argb
  refine ⟨hwidth, hheight, hlen, fun hfb x y hx hy => ?_⟩
  rw [pixel_put hfb hx hy]
  unfold dot
  split <;> rfl

theorem painted_paintRow (fb : Framebuffer) (y₀ x₀ x₁ : Nat) (argb : Nat → Long) :
    Painted fb (paintRow fb y₀ x₀ x₁ argb) (span y₀ x₀ x₁ argb) := by
  obtain ⟨hwidth, hheight, hlen⟩ := paintRow_shape fb y₀ x₀ x₁ argb
  refine ⟨hwidth, hheight, hlen, fun hfb x y hx hy => ?_⟩
  rw [pixel_paintRow hfb hx hy]
  unfold span
  split <;> rfl

/-! ## The playfield -/

section Playfield

variable (f : Frame)

theorem startPointers_eq (r p : Nat) :
    startPointers f.state f.bands f.bands.extent (f.field r) p = f.fieldAddr (f.field r) p := by
  unfold startPointers Frame.fieldAddr Frame.field fieldOf oddFieldBplpt
  cases f.bands.extent.lace with
  | false => simp
  | true =>
    rcases Nat.mod_two_eq_zero_or_one r with heven | hodd
    · simp [heven]
    · simp [hodd, Frame.regs, Bands.at]

/-- **The pointers before a row**: a stride for each earlier row that fetches the plane. -/
theorem bplpt_beforeRow_moved (fb : Framebuffer) (field p r : Nat) :
    (beforeRow f.state f.ram f.bands fb r).bplpt field p =
      f.movedBy field p r (startPointers f.state f.bands f.bands.extent field p) := by
  unfold Frame.movedBy
  induction r with
  | zero => rfl
  | succ r ih =>
    have hrow : bandOfRow f.bands f.bands.extent.lace f.bands.extent.y0 r = f.rowRegs r := rfl
    have hfield : fieldOf f.bands.extent.lace r = f.field r := rfl
    rw [beforeRow_succ, List.range_succ, List.foldl_append, List.foldl_cons, List.foldl_nil, ← ih]
    unfold drawRow
    rw [drawBandRow_bplpt, hrow, hfield]
    unfold rowAdvance
    by_cases hown : f.field r = field
    · rw [if_pos hown]
      by_cases hfetch : fetches (f.rowRegs r) (decodeBand (f.rowRegs r)) = true ∧
          p < (decodeBand (f.rowRegs r)).planes
      · rw [if_pos hfetch, if_pos ⟨hfetch.1, hown.symm, hfetch.2⟩]
        unfold advancePlanePtr stride
        rw [BitVec.add_assoc]
      · rw [if_neg hfetch, if_neg fun h => hfetch ⟨h.1, h.2.2⟩]
        exact (BitVec.add_zero _).symm
    · rw [if_neg hown, if_neg fun h => hown h.2.1.symm]

theorem bplpt_beforeRow_lineAddr (fb : Framebuffer) (r p : Nat) :
    (beforeRow f.state f.ram f.bands fb r).bplpt (f.field r) p = f.lineAddr r p := by
  rw [bplpt_beforeRow_moved, startPointers_eq]
  rfl

/-- A row is painted from the bits at its addresses. -/
theorem painted_drawRow {s : RowState} {r : Nat}
    (haddr : ∀ p, s.bplpt (f.field r) p = f.lineAddr r p) :
    Painted s.fb (drawRow f.ram f.bands f.bands.extent.lace f.bands.extent.y0 s r).fb
      (f.rowLayer r) := by
  show Painted s.fb (drawBandRow f.ram (f.rowRegs r) (f.field r) (f.bands.extent.y0 + r) s).fb _
  unfold drawBandRow
  dsimp only
  split
  · rename_i hfetch
    obtain ⟨hkeep, hwords, -⟩ := foldl_fetchPlane f.ram (f.rowRegs r) (decodeBand (f.rowRegs r))
      (f.field r) s (decodeBand (f.rowRegs r)).planes
    dsimp only
    rw [hkeep]
    refine (painted_paintRow _ _ _ _ _).congr fun x y _ => ?_
    have hcolour := windowPixel_congr (f.rowRegs r)
      (fun p hp w hw => (hwords p hp w hw).trans (by rw [haddr p])) x
    unfold Frame.rowLayer span
    rw [if_pos hfetch, hcolour, windowPixel_eq f.ram (f.rowRegs r) (f.lineAddr r) x]
    rfl
  · rename_i hfetch
    refine (painted_paintRow _ _ _ _ _).congr fun x y hx => ?_
    unfold Frame.rowLayer span
    rw [if_neg hfetch]
    simp [hx]

/-- Before a row, the rows above it are painted. -/
theorem painted_beforeRow (fb : Framebuffer) (r : Nat) :
    Painted fb (beforeRow f.state f.ram f.bands fb r).fb (stack f.rowLayer (List.range r)) := by
  induction r with
  | zero => exact .refl fb
  | succ r ih =>
    rw [beforeRow_succ, List.range_succ, stack_concat]
    exact ih.trans (painted_drawRow f (bplpt_beforeRow_lineAddr f fb r))

/-- A row is nowhere but in its place. -/
theorem rowLayer_elsewhere {r x y : Nat} (h : y ≠ f.bands.extent.y0 + r) :
    f.rowLayer r x y = none := by
  unfold Frame.rowLayer span
  simp [h]

theorem stack_rowLayer (n x y : Nat) :
    stack f.rowLayer (List.range n) x y =
      if f.bands.extent.y0 ≤ y ∧ y < f.bands.extent.y0 + n then
        f.rowLayer (y - f.bands.extent.y0) x y
      else none := by
  split
  · exact stack_at (List.mem_range.mpr (by omega)) fun r _ hne =>
      rowLayer_elsewhere f (by omega)
  · refine stack_none fun r hr => rowLayer_elsewhere f ?_
    have := List.mem_range.mp hr
    omega

theorem painted_drawBitplanes (fb : Framebuffer) :
    Painted fb (drawBitplanes f.state f.ram f.bands fb) f.playfield := by
  unfold drawBitplanes
  dsimp only
  split
  · rename_i hnone
    refine (Painted.refl fb).congr fun x y _ => ?_
    have hrows : f.bands.extent.rows = 0 := by
      unfold Extent.rows
      split <;> omega
    unfold Frame.playfield
    rw [hrows, if_neg (by omega)]
    rfl
  · exact (painted_beforeRow f fb _).congr fun x y _ => stack_rowLayer f _ x y

end Playfield

/-! ## Sprite 0 -/

section Sprite

theorem toNat_and_twoPow (w : Word) {i : Nat} (hi : i < 16) :
    (w &&& BitVec.twoPow 16 i).toNat = if w.getLsbD i then 2 ^ i else 0 := by
  have hlt : 2 ^ i < 2 ^ 16 := Nat.pow_lt_pow_right (by decide) hi
  rw [BitVec.and_twoPow]
  split
  · rw [BitVec.toNat_twoPow, Nat.mod_eq_of_lt hlt]
  · rfl

theorem or_high (n : Nat) (hn : n < 256) (bit : Bool) :
    n ||| (if bit then 256 else 0) = n + if bit then 256 else 0 := by
  cases bit with
  | false => exact Nat.or_zero n
  | true =>
    have hadd : 1 <<< 8 + n = 1 <<< 8 ||| n := Nat.shiftLeft_add_eq_or_of_lt hn 1
    rw [if_pos rfl, Nat.or_comm, Nat.add_comm]
    exact hadd.symm

theorem spriteTop_eq (pos ctl : Word) :
    (pos >>> 8).toNat ||| (ctl &&& 0x04).toNat <<< 6 = spriteTop pos ctl := by
  have hbit := toNat_and_twoPow ctl (i := 2) (by decide)
  rw [show BitVec.twoPow 16 2 = (0x04 : Word) from rfl] at hbit
  have hhigh : (pos >>> 8).toNat = pos.toNat / 256 := by
    rw [BitVec.toNat_ushiftRight, Nat.shiftRight_eq_div_pow]
  have hshift : (ctl &&& 0x04).toNat <<< 6 = if ctl.getLsbD 2 then 256 else 0 := by
    rw [hbit]
    split <;> rfl
  have hlt := pos.isLt
  rw [hshift, hhigh]
  exact or_high _ (by omega) _

theorem spriteEnd_eq (ctl : Word) :
    (ctl >>> 8).toNat ||| (ctl &&& 0x02).toNat <<< 7 = spriteEnd ctl := by
  have hbit := toNat_and_twoPow ctl (i := 1) (by decide)
  rw [show BitVec.twoPow 16 1 = (0x02 : Word) from rfl] at hbit
  have hhigh : (ctl >>> 8).toNat = ctl.toNat / 256 := by
    rw [BitVec.toNat_ushiftRight, Nat.shiftRight_eq_div_pow]
  have hshift : (ctl &&& 0x02).toNat <<< 7 = if ctl.getLsbD 1 then 256 else 0 := by
    rw [hbit]
    split <;> rfl
  have hlt := ctl.isLt
  rw [hshift, hhigh]
  exact or_high _ (by omega) _

/-- The lowest bit of the position is half a pixel pair, and dropped. -/
theorem spriteLeft_eq (pos ctl : Word) :
    ((pos &&& 0xFF).toNat <<< 1 ||| (ctl &&& 0x01).toNat) / 2 * outputPxPerCck =
      spriteLeft pos := by
  have hlow : (pos &&& 0xFF).toNat = pos.toNat % 256 := by
    rw [BitVec.toNat_and]
    exact Nat.and_two_pow_sub_one_eq_mod _ 8
  have hbit : (ctl &&& 0x01).toNat < 2 ^ 1 := by
    rw [BitVec.toNat_and]
    exact Nat.lt_succ_of_le Nat.and_le_right
  rw [hlow, ← Nat.shiftLeft_add_eq_or_of_lt hbit, Nat.shiftLeft_eq]
  unfold spriteLeft outputPxPerCck
  omega

/-- The two words of a line make its two planes. -/
theorem spriteValue_eq (ram : ByteSlice) (addr : Long) {bit : Nat} (hbit : bit < 16) :
    ((readWord ram addr).getLsbD (15 - bit)).toNat |||
        ((readWord ram (addr + 2)).getLsbD (15 - bit)).toNat <<< 1 =
      colourIndex ram 2 (fun p => addr + BitVec.ofNat 32 (2 * p)) bit := by
  rw [getLsbD_readWord ram addr hbit, getLsbD_readWord ram (addr + 2) hbit]
  have hlow : addr + BitVec.ofNat 32 (2 * 0) = addr := BitVec.add_zero addr
  unfold colourIndex
  rw [Nat.ofBits_succ, Nat.ofBits_succ, Nat.ofBits_zero]
  simp only [Function.comp, Fin.val_zero, Fin.succ_zero_eq_one, Fin.val_one, hlow]
  cases memoryBit ram addr bit <;> cases memoryBit ram (addr + 2) bit <;> rfl

theorem painted_drawSpriteLine (ram : ByteSlice) (b : BandState) (addr : Long) (left line : Nat)
    (fb : Framebuffer) :
    Painted fb
      (drawSpriteLine b (readWord ram addr) (readWord ram (addr + 2)) left 1 line fb)
      (spriteLine ram b addr left line) := by
  let value : Nat → Nat := fun bit => ((readWord ram addr).getLsbD (15 - bit)).toNat |||
    ((readWord ram (addr + 2)).getLsbD (15 - bit)).toNat <<< 1
  let layer : Nat → Layer Long := fun bit =>
    if value bit = 0 then clear
    else dot (left + bit * 1) line (argbFromAmiga (b.colour (16 + value bit)))
  have hdot : ∀ fb bit, Painted fb (if value bit = 0 then fb
      else fb.put (left + bit * 1) line (argbFromAmiga (b.colour (16 + value bit))))
      (layer bit) := by
    intro fb bit
    by_cases hclear : value bit = 0
    · simp only [layer, hclear, if_true]
      exact .refl fb
    · simp only [layer, hclear, if_false]
      exact painted_put fb _ _ _
  have helsewhere : ∀ {bit x y}, (x ≠ left + bit ∨ y ≠ line) → layer bit x y = none := by
    intro bit x y h
    by_cases hclear : value bit = 0
    · simp [layer, hclear, clear]
    · have hne : ¬(x = left + bit ∧ y = line) := by omega
      simp [layer, hclear, dot, hne]
  refine (painted_foldl hdot fb (List.range 16)).congr fun x y _ => ?_
  unfold spriteLine
  by_cases hin : y = line ∧ left ≤ x ∧ x < left + 16
  · obtain ⟨rfl, hle, hlt⟩ := hin
    have hbit : x - left < 16 := by omega
    have hplace : left + (x - left) = x := by omega
    rw [stack_at (List.mem_range.mpr hbit) fun j _ hj => helsewhere (.inl (by omega)),
      if_pos ⟨rfl, hle, hlt⟩, ← spriteValue_eq ram addr hbit]
    change layer (x - left) x y = match value (x - left) with
      | 0 => none
      | v => some (argbFromAmiga (b.colour (16 + v)))
    cases hvalue : value (x - left) with
    | zero => simp [layer, hvalue, clear]
    | succ v => simp [layer, hvalue, dot, hplace]
  · rw [if_neg hin]
    refine stack_none fun bit hbit => helsewhere ?_
    have := List.mem_range.mp hbit
    omega

theorem painted_drawSprite0 (f : Frame) (fb : Framebuffer) :
    Painted fb (drawSprite0 f.state f.ram f.bands fb) f.sprite := by
  unfold drawSprite0
  dsimp only
  have hscale : ∀ b : BandState, (decodeBand b).pxPerCck = outputPxPerCck := fun _ => rfl
  have hstep : ∀ b : BandState, max ((decodeBand b).pxPerCck / 2) 1 = 1 := by
    intro b
    rw [hscale]
    rfl
  rw [spriteTop_eq, spriteEnd_eq, hstep, hscale, spriteLeft_eq]
  unfold Frame.sprite
  generalize readWord f.ram f.state.spr0pt = pos
  generalize readWord f.ram (f.state.spr0pt + 2) = ctl
  dsimp only
  split
  · rename_i hnone
    refine (Painted.refl fb).congr fun x y _ => ?_
    rw [if_neg (by omega)]
    rfl
  · rename_i hsome
    have hlines : maxSpriteLines = 256 := rfl
    refine (painted_foldl (fun fb line => painted_drawSpriteLine f.ram
      (f.regs (spriteTop pos ctl)) (f.state.spr0pt + 4 + BitVec.ofNat 32 (line * 4))
      (spriteLeft pos) (spriteTop pos ctl + line) fb) fb _).congr fun x y _ => ?_
    have helsewhere : ∀ {line}, y ≠ spriteTop pos ctl + line → spriteLine f.ram
        (f.regs (spriteTop pos ctl)) (f.state.spr0pt + 4 + BitVec.ofNat 32 (line * 4))
        (spriteLeft pos) (spriteTop pos ctl + line) x y = none := by
      intro line hne
      unfold spriteLine
      rw [if_neg fun h => hne h.1]
    split
    · rename_i hin
      have hline : spriteTop pos ctl + (y - spriteTop pos ctl) = y := by omega
      rw [stack_at (i := y - spriteTop pos ctl) (List.mem_range.mpr (by omega))
        fun j _ hj => helsewhere (by omega), hline]
    · rename_i hout
      refine stack_none fun line hmem => helsewhere ?_
      have := List.mem_range.mp hmem
      omega

end Sprite

/-! ## The frame -/

theorem painted_fill (fb : Framebuffer) (argb : Long) :
    Painted fb (fb.fill argb) fun _ _ => some argb := by
  refine ⟨rfl, rfl, rfl, fun hfb x y hx hy => ?_⟩
  have hin := hfb.place_lt hx hy
  unfold Framebuffer.pixel Framebuffer.fill Buffer.get?
  simp [hin]

theorem painted_render (chipset : Chipset) (ram : ByteSlice) (fb : Framebuffer) :
    Painted fb (render chipset ram fb) fun x y =>
      some ((Frame.walked chipset ram).colourAt x y) := by
  refine ((painted_fill fb _).trans ((painted_drawBitplanes (Frame.walked chipset ram) _).trans
    (painted_drawSprite0 (Frame.walked chipset ram) _))).congr fun x y _ => ?_
  unfold Frame.colourAt Layer.over
  cases (Frame.walked chipset ram).sprite x y <;>
    cases (Frame.walked chipset ram).playfield x y <;> rfl

/-- **The picture.** Whatever the registers, the copper list and chip RAM, a frame shows sprite 0
where it is neither off nor transparent, else the playfield, else the background: a colour register
of the line, by the bits of the planes. With a list that ends within the budget and fits the bands,
the registers of a line are those that the copper has there. -/
theorem render_shows (chipset : Chipset) (ram : ByteSlice) {fb : Framebuffer} (hfb : fb.Holds) :
    (render chipset ram fb).width = fb.width ∧ (render chipset ram fb).height = fb.height ∧
      (∀ x y, x < fb.width → y < fb.height → (render chipset ram fb).pixel x y =
        some ((Frame.walked chipset ram).colourAt x y)) ∧
      (Ends isLine ram copperInstrBudget (maxBands - 1)
          ⟨chipset.cop1lc, 0, .fromChipset chipset⟩ →
        ∀ line, ∃ s, AtLine isLine ram line ⟨chipset.cop1lc, 0, .fromChipset chipset⟩ s ∧
          (Frame.walked chipset ram).regs line = .fromState s) := by
  have h := painted_render chipset ram fb
  refine ⟨h.width, h.height, fun x y hx hy => ?_, fun hends line => ?_⟩
  · rw [h.pixel hfb hx hy, Option.some_or]
  · obtain ⟨-, hbelow⟩ := copperLoop_bands hends ⟨chipset.cop1lc, 0, .fromChipset chipset, .new, 0⟩
      rfl [] .zeroed rfl (Nat.le_refl _)
    exact hbelow line (Nat.zero_le _)

/-- The end of a copper list, then sprite 0 on the second line, then a row of one plane. -/
def pictureBytes : List Byte :=
  [0xFF, 0xFF, 0xFF, 0xFE, 0, 0, 0, 0, 0x01, 0x20, 0x02, 0x00, 0x80, 0, 0, 0, 0x40, 0, 0, 0]

/-- A red plane and a green sprite on blue. -/
def pictureChipset : Chipset :=
  { Chipset.new with
    dmacon := 0x03FF
    bplcon0 := 0x1000
    bplpt := .ofFn fun i => if i.val = 0 then 16 else 0
    diwstrt := 0x0081
    diwstop := 0x80C1
    ddfstrt := 0x0038
    ddfstop := 0x0038
    spr0pt := 8
    color := .ofFn fun i =>
      if i.val = 0 then 0x00F else if i.val = 1 then 0xF00 else if i.val = 17 then 0x0F0 else 0 }

/-- A pixel of the plane, one of the sprite, and one of the background. -/
theorem render_shows_layers :
    let fb := render pictureChipset ⟨20, fun i => pictureBytes.getD i.val 0⟩
      ⟨256, 4, 1024, fun _ => 0⟩
    fb.pixel 129 0 = some 0xFFFF0000 ∧ fb.pixel 64 1 = some 0xFF00FF00 ∧
      fb.pixel 0 0 = some 0xFF0000FF := by
  have hholds : Framebuffer.Holds ⟨256, 4, 1024, fun _ => 0⟩ := Nat.le_refl _
  obtain ⟨-, -, hpixel, -⟩ :=
    render_shows pictureChipset ⟨20, fun i => pictureBytes.getD i.val 0⟩ hholds
  refine ⟨(hpixel 129 0 (by decide) (by decide)).trans ?_,
    (hpixel 64 1 (by decide) (by decide)).trans ?_, (hpixel 0 0 (by decide) (by decide)).trans ?_⟩
  · decide
  · decide
  · decide

end Render

end M68kMachine
