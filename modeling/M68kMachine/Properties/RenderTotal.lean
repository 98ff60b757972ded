import M68kMachine.Core.CheckedRender
import Mathlib.Data.List.Basic

/-!
# Every frame is drawn

No registers, no chip RAM and no framebuffer that holds its picture stop the renderer. The registers
bound the geometry of a band, the budget the walk, and the clamps on planes, words and rows every
index that follows.

* `copperLoopChecked_eq` — the walk, with its bands and its line bounded
* `decodeBandChecked_eq` — what a band's registers can say
* `drawBitplanesChecked_eq`, `drawSprite0Checked_eq` — what is painted
* `framebuffer_safe_iff` — the framebuffers that are accepted
-/

namespace M68kMachine

namespace Render

theorem u32Limit_eq : u32Limit = 4294967296 := rfl
theorem i32Limit_eq : i32Limit = 2147483648 := rfl
theorem i64Limit_eq : i64Limit = 9223372036854775808 := rfl
theorem usizeLimit_eq : Framebuffer.usizeLimit = 18446744073709551616 := rfl

/-! ## The copper -/

theorem applyMoveChecked_eq (s : CopperState) (offset : Nat) (value : Word) :
    s.applyMoveChecked offset value = some (s.applyMove offset value) := by
  have hfirst : Chipset.Reg.color00 = 0x180 := rfl
  have hlast : Chipset.Reg.color31 = 0x1BE := rfl
  unfold CopperState.applyMoveChecked
  split
  case isTrue hcolour =>
    rw [Checked.sub_of_le hcolour.1, Option.bind_eq_bind, Option.bind_some,
      Checked.below_of_lt (by omega), Option.bind_some]
    unfold CopperState.applyMove
    split
    case h_29 => rw [if_pos hcolour]
    all_goals omega
  case isFalse => rfl

/-- The bands that there are: one at least, and no more than fit. -/
def Bands.Sized (b : Bands) : Prop := 0 < b.count ∧ b.count ≤ maxBands

namespace Bands

variable {b : Bands}

theorem sized_new : Bands.new.Sized := ⟨Nat.one_pos, by decide⟩

theorem Sized.finalize (h : b.Sized) (s : CopperState) : (b.finalize s).Sized := by
  unfold Sized count Bands.finalize
  rw [List.length_modify]
  exact h

theorem finalizeChecked_eq (h : b.Sized) (s : CopperState) :
    b.finalizeChecked s = some (b.finalize s) := by
  obtain ⟨hpos, hle⟩ := h
  unfold finalizeChecked
  rw [Checked.sub_of_le hpos, Option.bind_eq_bind, Option.bind_some,
    Checked.below_of_lt (by omega)]
  rfl

theorem openBandChecked_eq (h : b.Sized) (newStart : Nat) (s : CopperState) :
    b.openBandChecked newStart s = some (b.openBand newStart s) := by
  have hmax : maxBands = 16 := rfl
  have hlimit := usizeLimit_eq
  unfold openBandChecked openBand
  rw [finalizeChecked_eq h, Option.bind_eq_bind, Option.bind_some]
  dsimp only
  split
  case isTrue hroom =>
    rw [Checked.below_of_lt hroom, Option.bind_eq_bind, Option.bind_some,
      Checked.add_of_lt (by omega)]
    rfl
  case isFalse => rfl

theorem Sized.openBand (h : b.Sized) (newStart : Nat) (s : CopperState) :
    (b.openBand newStart s).Sized := by
  obtain ⟨hpos, hle⟩ := h.finalize s
  unfold Bands.openBand
  dsimp only
  split
  case isTrue hroom =>
    unfold Sized count
    rw [List.length_append, List.length_singleton]
    exact ⟨Nat.succ_pos _, hroom⟩
  case isFalse => exact ⟨hpos, hle⟩

theorem bandIndexForLine_lt (h : b.Sized) (line : Nat) : b.bandIndexForLine line < b.count := by
  unfold bandIndexForLine
  cases hfind : (List.range b.count).reverse.find? fun i => b.startLine i ≤ line with
  | none => exact h.1
  | some i =>
    have hmem := List.mem_of_find?_eq_some hfind
    rw [List.mem_reverse, List.mem_range] at hmem
    exact hmem

/-- Every line has its registers. -/
theorem stateOfLineChecked_eq (h : b.Sized) (line : Nat) :
    b.stateOfLineChecked line = some (b.state (b.bandIndexForLine line)) := by
  have hindex := bandIndexForLine_lt h line
  obtain ⟨hpos, hle⟩ := h
  unfold stateOfLineChecked
  rw [Checked.below_of_lt (by omega), Option.bind_eq_bind, Option.bind_some,
    Checked.below_of_lt (by omega)]
  rfl

end Bands

theorem findLineChecked_eq (want ve : Byte) : ∀ (n line : Nat), line + n < u32Limit →
    findLineChecked want ve n line = some (((List.range n).map (line + ·)).find? fun line =>
      BitVec.ofNat 8 line &&& ve = want)
  | 0, _, _ => rfl
  | n + 1, line, h => by
    have ih := findLineChecked_eq want ve n (line + 1) (by omega)
    have hshift : ((List.range n).map Nat.succ).map (line + ·) =
        (List.range n).map (line + 1 + ·) := by
      rw [List.map_map]
      refine List.map_congr_left fun i _ => ?_
      show line + (i + 1) = line + 1 + i
      omega
    rw [findLineChecked, Checked.add_of_lt (by omega), Option.bind_eq_bind, Option.bind_some,
      List.range_succ_eq_map, List.map_cons, hshift, List.find?_cons, Nat.add_zero, ih]
    split
    case isTrue hover => simp [hover]
    case isFalse hover => simp [hover]

theorem waitVerticalTargetChecked_eq (vp ve : Byte) {fromLine : Nat}
    (h : fromLine + 256 < u32Limit) :
    waitVerticalTargetChecked vp ve fromLine = some (waitVerticalTarget vp ve fromLine) := by
  unfold waitVerticalTargetChecked
  rw [findLineChecked_eq _ _ _ _ h]
  rfl

theorem waitVerticalTarget_le (vp ve : Byte) (fromLine : Nat) :
    waitVerticalTarget vp ve fromLine ≤ fromLine + 255 := by
  unfold waitVerticalTarget
  dsimp only
  cases hfind : ((List.range 256).map (fromLine + ·)).find? fun line =>
      BitVec.ofNat 8 line &&& ve = vp &&& ve with
  | none => exact Nat.le_add_right _ _
  | some line =>
    obtain ⟨i, hi, rfl⟩ := List.mem_map.mp (List.mem_of_find?_eq_some hfind)
    rw [List.mem_range] at hi
    show fromLine + i ≤ fromLine + 255
    omega

/-- The walk so far: a wait moves the line by less than a frame. -/
structure Walk.InBudget (w : Walk) (budget : Nat) : Prop where
  executed_le : w.executed + budget ≤ copperInstrBudget
  line_le : w.line ≤ 255 * w.executed
  sized : w.bands.Sized

theorem copperStepChecked_eq (ram : ByteSlice) {w : Walk} {budget : Nat}
    (h : w.InBudget (budget + 1)) :
    copperStepChecked ram w = some (copperStep ram w) ∧
      (copperStep ram w).1.InBudget budget := by
  obtain ⟨hexec, hline, hsized⟩ := h
  have hbudget : copperInstrBudget = 4096 := rfl
  have hlimit := u32Limit_eq
  unfold copperStepChecked copperStep
  rw [Checked.add_of_lt (by omega), Option.bind_eq_bind, Option.bind_some]
  dsimp only
  cases fetchInstr ram w.pc with
  | move offset value =>
    dsimp only
    rw [applyMoveChecked_eq, Option.bind_eq_bind, Option.bind_some]
    exact ⟨rfl, by dsimp only; omega, by dsimp only; omega, hsized⟩
  | stop => exact ⟨rfl, by dsimp only; omega, by dsimp only; omega, hsized⟩
  | skip => exact ⟨rfl, by dsimp only; omega, by dsimp only; omega, hsized⟩
  | wait vp ve =>
    have hle := waitVerticalTarget_le vp ve w.line
    dsimp only
    split
    · rw [waitVerticalTargetChecked_eq vp ve (by omega), Option.bind_eq_bind, Option.bind_some]
      split
      · rw [Bands.openBandChecked_eq hsized, Option.bind_some]
        exact ⟨rfl, by dsimp only; omega, by dsimp only; omega, hsized.openBand _ _⟩
      · exact ⟨rfl, by dsimp only; omega, by dsimp only; omega, hsized⟩
    · exact ⟨rfl, by dsimp only; omega, by dsimp only; omega, hsized⟩

/-- **The walk**: it ends in its budget, and its bands are those that fit. -/
theorem copperLoopChecked_eq (ram : ByteSlice) : ∀ (budget : Nat) {w : Walk}, w.InBudget budget →
    copperLoopChecked ram budget w = some (copperLoop ram budget w) ∧
      (copperLoop ram budget w).bands.Sized
  | 0, _, h => ⟨rfl, h.sized⟩
  | budget + 1, w, h => by
    obtain ⟨hstep, hnext⟩ := copperStepChecked_eq ram h
    rw [copperLoopChecked, copperLoop, hstep, Option.bind_eq_bind, Option.bind_some]
    generalize copperStep ram w = next at hnext ⊢
    obtain ⟨w, goesOn⟩ := next
    cases goesOn with
    | false => exact ⟨rfl, hnext.sized⟩
    | true => exact copperLoopChecked_eq ram budget hnext

theorem runCopperChecked_eq (start : Long) (ram : ByteSlice) (state : CopperState) :
    runCopperChecked start ram state .new = some (runCopper start ram state .new) ∧
      (runCopper start ram state .new).2.1.Sized := by
  have hstart : (⟨start, 0, state, .new, 0⟩ : Walk).InBudget copperInstrBudget :=
    ⟨Nat.le_of_eq (Nat.zero_add _), Nat.zero_le _, Bands.sized_new⟩
  obtain ⟨hloop, hsized⟩ := copperLoopChecked_eq ram copperInstrBudget hstart
  unfold runCopperChecked runCopper
  rw [hloop, Option.bind_eq_bind, Option.bind_some, Bands.finalizeChecked_eq hsized]
  exact ⟨rfl, hsized.finalize _⟩

/-! ## The framebuffer -/

/-- The same picture, and it lies in its pixels. -/
def Framebuffer.Like (fb fb' : Framebuffer) : Prop :=
  fb.width = fb'.width ∧ fb.height = fb'.height ∧ fb.len = fb'.len

theorem Framebuffer.Like.put {fb fb' : Framebuffer} (h : fb.Like fb') (x y : Nat) (argb : Long) :
    (fb.put x y argb).Like fb' := by
  unfold Framebuffer.put
  split <;> exact h

theorem argbFromAmigaChecked_eq (color : Word) :
    argbFromAmigaChecked color = some (argbFromAmiga color) := by
  have hlimit := u32Limit_eq
  have hgun (gun : Word) : (gun &&& 0x0F).toNat ≤ 15 := by
    rw [BitVec.toNat_and]
    exact Nat.and_le_right
  have hscale (gun : Word) : BitVec.ofNat 32 ((gun &&& 0x0F).toNat * 0x11) =
      (gun &&& 0x0F).setWidth 32 * 0x11 := by
    rw [BitVec.ofNat_mul, BitVec.ofNat_toNat]
    rfl
  have hr := hgun (color >>> 8)
  have hg := hgun (color >>> 4)
  have hb := hgun color
  unfold argbFromAmigaChecked argbFromAmiga
  rw [Checked.mul_of_lt (by omega), Checked.mul_of_lt (by omega), Checked.mul_of_lt (by omega),
    Option.bind_eq_bind, Option.bind_some, Option.bind_some, Option.bind_some, hscale, hscale,
    hscale]

section Picture

variable {picture : Framebuffer} (hholds : picture.Holds)
  (hlen : picture.len < Framebuffer.usizeLimit)

include hholds hlen

/-- **No write outside the pixels.** -/
theorem putChecked_eq {fb : Framebuffer} (h : fb.Like picture) (x y : Nat) (argb : Long) :
    fb.putChecked x y argb = some (fb.put x y argb) := by
  obtain ⟨hwidth, hheight, hlength⟩ := h
  unfold Framebuffer.putChecked Framebuffer.put
  split
  case isTrue hin =>
    have hfb : fb.Holds := by
      unfold Framebuffer.Holds at *
      rwa [hwidth, hheight, hlength]
    have hplace := hfb.place_lt hin.1 hin.2
    rw [Checked.mul_of_lt (by omega), Option.bind_eq_bind, Option.bind_some,
      Checked.add_of_lt (by omega), Option.bind_some, Checked.below_of_lt hplace]
    rfl
  case isFalse => rfl

theorem paintRowChecked_eq {fb : Framebuffer} (h : fb.Like picture) (y x0 x1 : Nat)
    {argb : Nat → Option Long} {argb' : Nat → Long}
    (hargb : ∀ x, x0 ≤ x → x < x1 → argb x = some (argb' x)) :
    paintRowChecked fb y x0 x1 argb = some (paintRow fb y x0 x1 argb') ∧
      (paintRow fb y x0 x1 argb').Like picture := by
  unfold paintRowChecked paintRow
  refine Checked.foldlM_of_total _ (P := fun fb : Framebuffer => fb.Like picture)
    (fun x hx fb hfb => ?_) h
  rw [List.mem_range'_1] at hx
  rw [hargb x hx.1 (by omega), Option.bind_eq_bind, Option.bind_some,
    putChecked_eq hholds hlen hfb]
  exact ⟨rfl, hfb.put x y _⟩

end Picture

/-! ## The geometry of a band -/

theorem ddfWordsChecked_eq (ddfstrt ddfstop : Word) (hires : Bool) :
    ddfWordsChecked ddfstrt ddfstop hires = some (ddfWordsOf ddfstrt ddfstop hires) := by
  have hlimit := u32Limit_eq
  have hstop := ddfstop.isLt
  unfold ddfWordsChecked ddfWordsOf
  split
  case isTrue hle =>
    have htwice : ((ddfstop.toNat - ddfstrt.toNat + 7) / 8 + 1) * (if hires then 2 else 1) <
        u32Limit := by
      split <;> omega
    rw [Checked.sub_of_le hle, Option.bind_eq_bind, Option.bind_some,
      Checked.add_of_lt (by omega), Option.bind_some, Checked.mul_of_lt htwice]
    rfl
  case isFalse => rfl

theorem fetchBitShiftChecked_eq {hstartRaw bits : Nat} (hhstart : hstartRaw ≤ 255)
    (ddfstrt : Word) {stdDdf pf1h : Int} (hstd : 0 ≤ stdDdf ∧ stdDdf ≤ 0x3C)
    (hscroll : 0 ≤ pf1h ∧ pf1h ≤ 15) (hbits : bits = 1 ∨ bits = 2) :
    fetchBitShiftChecked hstartRaw ddfstrt stdDdf pf1h bits =
      some (((hstartRaw : Int) - 0x81 - 2 * ((ddfstrt.toNat : Int) - stdDdf) - pf1h) * bits) := by
  have hlimit := i32Limit_eq
  have hddf := ddfstrt.isLt
  unfold fetchBitShiftChecked
  rw [Checked.signed_of_mem (by omega), Option.bind_eq_bind, Option.bind_some,
    Checked.signed_of_mem (by omega), Option.bind_some,
    Checked.signed_of_mem (by omega), Option.bind_some,
    Checked.signed_of_mem (by omega), Option.bind_some,
    Checked.signed_of_mem (by omega), Option.bind_some]
  refine Checked.signed_of_mem ?_
  rcases hbits with rfl | rfl <;> omega

theorem decodeBandChecked_eq (b : BandState) : decodeBandChecked b = some (decodeBand b) := by
  have hlimit := u32Limit_eq
  have hscale : outputPxPerCck = 2 := rfl
  have hvstop := high_le b.diwstop
  have hhstart := low_le b.diwstrt
  have hhstop := hstop_le b.diwstop
  have hscroll := scroll_le b.bplcon1
  have hstop : (b.diwstop >>> 8).toNat + (if (b.diwstop >>> 8).toNat < 0x80 then 0x100 else 0) <
      u32Limit := by
    split <;> omega
  have hstd : (0 : Int) ≤ (if b.bplcon0 &&& 0x8000 ≠ 0 then 0x3C else 0x38) ∧
      (if b.bplcon0 &&& 0x8000 ≠ 0 then 0x3C else 0x38) ≤ (0x3C : Int) := by
    split <;> omega
  have hbits : (if b.bplcon0 &&& 0x8000 ≠ 0 then 2 else 1) = 1 ∨
      (if b.bplcon0 &&& 0x8000 ≠ 0 then 2 else 1) = 2 := by
    split <;> omega
  have hpf1h : (0 : Int) ≤ (b.bplcon1 &&& 0xF).toNat ∧ ((b.bplcon1 &&& 0xF).toNat : Int) ≤ 15 := by
    omega
  have hshift := fetchBitShiftChecked_eq hhstart b.ddfstrt hstd hpf1h hbits
  unfold decodeBandChecked decodeBand
  dsimp only [Option.bind_eq_bind]
  simp only [decide_eq_true_eq, hscale] at hshift ⊢
  rw [Checked.add_of_lt hstop, Option.bind_some, Checked.mul_of_lt (by omega), Option.bind_some,
    Checked.mul_of_lt (by omega), Option.bind_some, ddfWordsChecked_eq, Option.bind_some, hshift]
  rfl

/-! ## Bitplanes -/

theorem pixelColorIndexChecked_eq (words : Nat → Nat → Word) {planes relPx : Nat}
    (hplanes : planes ≤ maxPlanes) (hpx : relPx < 16 * maxDdfWords) :
    pixelColorIndexChecked words planes relPx = some (pixelColorIndex words planes relPx) := by
  have hmax : maxPlanes = 5 := rfl
  unfold pixelColorIndexChecked pixelColorIndex
  rw [Checked.below_of_lt (by omega), Option.bind_eq_bind, Option.bind_some,
    Checked.sub_of_le (by omega), Option.bind_some, Checked.below_of_lt (by omega),
    Option.bind_some, Nat.min_eq_right hplanes]
  refine (Checked.foldlM_of_total (List.range planes) (P := fun _ : Nat => True)
    (fun p hp index _ => ?_) trivial).1
  rw [List.mem_range] at hp
  rw [Checked.below_of_lt (by omega)]
  exact ⟨rfl, trivial⟩

/-- The words of a plane, stored one after the other. -/
theorem fetchWords_eq (ram : ByteSlice) (ptr : Long) (slots : Nat → Word) :
    ∀ n ≤ maxDdfWords, (List.range n).foldlM (fetchWordChecked ram ptr) slots =
      some fun w => if w < n then readWord ram (ptr + BitVec.ofNat 32 (w * 2)) else slots w
  | 0, _ => by
    rw [List.range_zero, List.foldlM_nil]
    refine congrArg some (funext fun w => ?_)
    rw [if_neg (Nat.not_lt_zero w)]
  | n + 1, h => by
    have hlimit := usizeLimit_eq
    have hmax : maxDdfWords = 128 := rfl
    have ih := fetchWords_eq ram ptr slots n (by omega)
    rw [List.range_succ, List.foldlM_append, ih, Option.bind_eq_bind, Option.bind_some,
      List.foldlM_cons]
    unfold fetchWordChecked
    dsimp only [Option.bind_eq_bind]
    rw [Checked.mul_of_lt (by omega), Option.bind_some, Option.bind_some, List.foldlM_nil]
    refine congrArg some (funext fun w => ?_)
    by_cases hw : w = n
    · subst hw
      rw [Function.update_self, if_pos (Nat.lt_succ_self w)]
    · rw [Function.update_of_ne hw]
      have hiff : w < n + 1 ↔ w < n := by omega
      simp only [hiff]

section Row

variable {b : BandState} {g : Geometry} (hg : g.Small)

include hg

theorem fetchPlaneChecked_eq (ram : ByteSlice) (b : BandState) {field p : Nat} (hfield : field < 2)
    (hp : p < g.planes) (s : RowState) :
    fetchPlaneChecked ram b g field s p = some (fetchPlane ram b g field s p) := by
  have hplanes := hg.planes_le
  have hwords := hg.ddfWords_le
  have hmax : maxPlanes = 5 := rfl
  have hclip : maxDdfWords = 128 := rfl
  have hlimit := u32Limit_eq
  unfold fetchPlaneChecked advancePlanePtrChecked fetchPlane
  rw [Checked.below_of_lt hfield, Option.bind_eq_bind, Option.bind_some,
    Checked.below_of_lt (by omega), Option.bind_some]
  dsimp only [Option.bind_eq_bind]
  rw [Nat.min_eq_right hwords, fetchWords_eq ram _ _ _ hwords, Option.bind_some,
    Checked.mul_of_lt (by omega), Option.bind_some, Option.bind_some]
  rfl

/-- **The pixel of a window** is looked up in the words that were fetched. -/
theorem windowPixelChecked_eq (words : Nat → Nat → Word) {x : Nat} (hx0 : g.diwX0 ≤ x)
    (hx1 : x < g.diwX1) : windowPixelChecked b g words x = some (windowPixel b g words x) := by
  obtain ⟨hplanes, hstop, -, -, hwords, hbits, hshift, hneg⟩ := hg
  have hlimit := i64Limit_eq
  have hword := u32Limit_eq
  have hclip : maxDdfWords = 128 := rfl
  have hscaled : (x - g.diwX0) * g.bitsPerOutputPx ≤ 510 * 2 :=
    Nat.mul_le_mul (by omega) hbits
  have hindex : ∀ colorIndex : Nat, (b.color[colorIndex % 0x20]?).bind argbFromAmigaChecked =
      some (argbFromAmiga (b.colour (colorIndex % 0x20))) := by
    intro colorIndex
    have hlt : colorIndex % 0x20 < 32 := Nat.mod_lt _ (by decide)
    unfold BandState.colour
    rw [Vector.getElem?_eq_getElem hlt, Option.bind_some, argbFromAmigaChecked_eq, Option.getD_some]
  unfold windowPixelChecked windowPixel
  dsimp only [Option.bind_eq_bind]
  rw [Checked.signed_of_mem (by omega), Option.bind_some, Checked.sub_of_le hx0, Option.bind_some,
    ← Int.natCast_mul]
  generalize (x - g.diwX0) * g.bitsPerOutputPx = scaled at hscaled
  rw [Checked.signed_of_mem (by omega), Option.bind_some, Checked.signed_of_mem (by omega),
    Option.bind_some]
  split
  case isTrue hin =>
    have htrunc : ((scaled : Int) + g.fetchBitShift).toNat % u32Limit =
        ((scaled : Int) + g.fetchBitShift).toNat := Nat.mod_eq_of_lt (by omega)
    rw [htrunc, pixelColorIndexChecked_eq words hplanes (by omega), Option.bind_some, hindex]
  case isFalse => rw [Option.bind_some, hindex]

end Row

section Picture

variable {picture : Framebuffer} (hholds : picture.Holds)
  (hlen : picture.len < Framebuffer.usizeLimit)

include hholds hlen

theorem drawBandRowChecked_eq (ram : ByteSlice) (b : BandState) {field : Nat} (hfield : field < 2)
    (y : Nat) {s : RowState} (hs : s.fb.Like picture) :
    drawBandRowChecked ram b field y s = some (drawBandRow ram b field y s) ∧
      (drawBandRow ram b field y s).fb.Like picture := by
  have hg := decodeBand_small b
  unfold drawBandRowChecked drawBandRow
  rw [decodeBandChecked_eq, Option.bind_eq_bind, Option.bind_some]
  dsimp only [Option.bind_eq_bind]
  split
  · obtain ⟨hfetched, hkept⟩ := Checked.foldlM_of_total (List.range (decodeBand b).planes)
      (P := fun s : RowState => s.fb.Like picture)
      (fun p hp s hs => ⟨fetchPlaneChecked_eq hg ram b hfield
        (List.mem_range.mp hp) s, hs⟩) hs
    rw [Nat.min_eq_right hg.planes_le, hfetched, Option.bind_some]
    obtain ⟨hpaint, hlike⟩ := paintRowChecked_eq hholds hlen hkept y (decodeBand b).diwX0
      (decodeBand b).diwX1 fun x hx0 hx1 => windowPixelChecked_eq (b := b) hg _ hx0 hx1
    rw [hpaint, Option.bind_some]
    exact ⟨rfl, hlike⟩
  · obtain ⟨hpaint, hlike⟩ := paintRowChecked_eq hholds hlen hs y 0 s.fb.width
      fun _ _ _ => (rfl : some (argbFromAmiga (b.colour 0)) = some (argbFromAmiga (b.colour 0)))
    rw [argbFromAmigaChecked_eq, Option.bind_some, hpaint, Option.bind_some]
    exact ⟨rfl, hlike⟩

end Picture

theorem Extent.addChecked_eq (e : Extent) (b : BandState) : e.addChecked b = some (e.add b) := by
  unfold Extent.addChecked
  rw [decodeBandChecked_eq]
  rfl

/-- The windows of the bands lie in the first lines. -/
theorem extentChecked_eq {bands : Bands} (h : bands.Sized) :
    bands.extentChecked = some bands.extent ∧ bands.extent.y1 ≤ 383 := by
  have hmax : maxBands = 16 := rfl
  obtain ⟨-, hle⟩ := h
  unfold Bands.extentChecked Bands.extent
  rw [Checked.below_of_lt (by omega), Option.bind_eq_bind, Option.bind_some]
  refine Checked.foldlM_of_total bands.list (P := fun e : Extent => e.y1 ≤ 383)
    (fun band _ e he => ⟨Extent.addChecked_eq e band.2, ?_⟩) (Nat.zero_le _)
  have hstop := (decodeBand_small band.2).diwY1_le
  unfold Extent.add
  dsimp only
  split
  · exact Nat.max_le.mpr ⟨he, hstop⟩
  · exact he

theorem rowsChecked_eq {e : Extent} (hopen : e.y0 < e.y1) (hstop : e.y1 ≤ 383) :
    e.rowsChecked = some e.rows ∧ e.rows ≤ 1152 := by
  have hlimit := u32Limit_eq
  have hmax : maxHeight = 576 := rfl
  unfold Extent.rowsChecked Extent.rows
  rw [Checked.sub_of_le (Nat.le_of_lt hopen), Option.bind_eq_bind, Option.bind_some,
    Nat.min_eq_left (by omega : (e.y1 - e.y0) * 2 ≤ u32Limit - 1)]
  exact ⟨rfl, Nat.min_le_right _ _⟩

theorem startPointersChecked_eq (state : CopperState) {bands : Bands} (h : bands.Sized)
    (e : Extent) :
    startPointersChecked state bands e = some (startPointers state bands e) := by
  have hclip : maxDdfWords = 128 := rfl
  have hlimit := u32Limit_eq
  have hwords := (decodeBand_small (bands.state (bands.bandIndexForLine e.y0))).ddfWords_le
  unfold startPointersChecked startPointers
  dsimp only
  split
  · unfold oddFieldBplptChecked
    dsimp only [Option.bind_eq_bind]
    rw [Bands.stateOfLineChecked_eq h, Option.bind_some, decodeBandChecked_eq, Option.bind_some,
      Checked.mul_of_lt (by omega)]
    rfl
  · rfl

section Picture

variable {picture : Framebuffer} (hholds : picture.Holds)
  (hlen : picture.len < Framebuffer.usizeLimit) (ram : ByteSlice) {bands : Bands}
  (hbands : bands.Sized)

include hholds hlen hbands

theorem drawRowChecked_eq (lace : Bool) {y0 row : Nat} (hy0 : y0 ≤ 383) (hrow : row < 1152)
    {s : RowState} (hs : s.fb.Like picture) :
    drawRowChecked ram bands lace y0 s row = some (drawRow ram bands lace y0 s row) ∧
      (drawRow ram bands lace y0 s row).fb.Like picture := by
  have hlimit := u32Limit_eq
  have hline : fieldLine lace row ≤ row := by
    unfold fieldLine
    split <;> omega
  have hfield : fieldOf lace row < 2 := by
    unfold fieldOf
    split <;> omega
  unfold drawRowChecked drawRow bandOfRow
  dsimp only [Option.bind_eq_bind]
  rw [Checked.add_of_lt (by omega), Option.bind_some, Checked.add_of_lt (by omega),
    Option.bind_some, Bands.stateOfLineChecked_eq hbands, Option.bind_some]
  exact drawBandRowChecked_eq hholds hlen ram _ hfield _ hs

/-- **The bitplanes** are painted. -/
theorem drawBitplanesChecked_eq (state : CopperState) {fb : Framebuffer} (hfb : fb.Like picture) :
    drawBitplanesChecked state ram bands fb = some (drawBitplanes state ram bands fb) ∧
      (drawBitplanes state ram bands fb).Like picture := by
  obtain ⟨hextent, hstop⟩ := extentChecked_eq hbands
  unfold drawBitplanesChecked drawBitplanes beforeRow
  rw [hextent, Option.bind_eq_bind, Option.bind_some]
  dsimp only [Option.bind_eq_bind]
  split
  case isTrue => exact ⟨rfl, hfb⟩
  case isFalse hopen =>
    obtain ⟨hrows, hmany⟩ := rowsChecked_eq (Nat.lt_of_not_le hopen) hstop
    obtain ⟨hdrawn, hlike⟩ := Checked.foldlM_of_total (List.range bands.extent.rows)
      (P := fun s : RowState => s.fb.Like picture)
      (fun row hrow s hs => drawRowChecked_eq hholds hlen ram hbands bands.extent.lace
        (by omega : bands.extent.y0 ≤ 383)
        (Nat.lt_of_lt_of_le (List.mem_range.mp hrow) hmany) hs)
      (s := ⟨startPointers state bands bands.extent, fun _ _ => 0, fb⟩) hfb
    rw [hrows, Option.bind_some, startPointersChecked_eq state hbands, Option.bind_some, hdrawn]
    exact ⟨rfl, hlike⟩

end Picture

/-! ## Sprite 0 -/

section Picture

variable {picture : Framebuffer} (hholds : picture.Holds)
  (hlen : picture.len < Framebuffer.usizeLimit) {fb : Framebuffer}

include hholds hlen

theorem drawSpriteBitChecked_eq (b : BandState) (wordA wordB : Word) {x0 step bit : Nat}
    (hx0 : x0 ≤ 511) (hstep : step ≤ 1) (y : Nat) (hbit : bit < 16) (hfb : fb.Like picture) :
    drawSpriteBitChecked b wordA wordB x0 step y fb bit =
        some (let value :=
            (wordA.getLsbD (15 - bit)).toNat ||| (wordB.getLsbD (15 - bit)).toNat <<< 1
          if value = 0 then fb
          else fb.put (x0 + bit * step) y (argbFromAmiga (b.colour (16 + value)))) := by
  have hlimit := u32Limit_eq
  have husize := usizeLimit_eq
  have halong : bit * step ≤ 15 * 1 := Nat.mul_le_mul (by omega) hstep
  have hvalue : ∀ lo hi : Bool, lo.toNat ||| hi.toNat <<< 1 ≤ 3 := by decide
  have hindex := hvalue (wordA.getLsbD (15 - bit)) (wordB.getLsbD (15 - bit))
  unfold drawSpriteBitChecked BandState.colour
  dsimp only [Option.bind_eq_bind]
  rw [Checked.sub_of_le (by omega), Option.bind_some, Checked.below_of_lt (by omega),
    Option.bind_some]
  split
  case isTrue => rfl
  case isFalse =>
    rw [Checked.mul_of_lt (by omega), Option.bind_some, Checked.add_of_lt (by omega),
      Option.bind_some, Checked.add_of_lt (by omega), Option.bind_some,
      Vector.getElem?_eq_getElem (by omega), Option.bind_some, argbFromAmigaChecked_eq,
      Option.bind_some, putChecked_eq hholds hlen hfb]
    rfl

theorem drawSpriteRowChecked_eq (ram : ByteSlice) (ptr : Long) (b : BandState)
    {x0 step vstart line : Nat} (hx0 : x0 ≤ 511) (hstep : step ≤ 1) (hvstart : vstart ≤ 511)
    (hline : line < 256) (hfb : fb.Like picture) :
    drawSpriteRowChecked ram ptr b x0 step vstart fb line =
        some (drawSpriteLine b (readWord ram (ptr + 4 + BitVec.ofNat 32 (line * 4)))
          (readWord ram (ptr + 4 + BitVec.ofNat 32 (line * 4) + 2)) x0 step (vstart + line) fb) ∧
      (drawSpriteLine b (readWord ram (ptr + 4 + BitVec.ofNat 32 (line * 4)))
        (readWord ram (ptr + 4 + BitVec.ofNat 32 (line * 4) + 2)) x0 step (vstart + line)
        fb).Like picture := by
  have hlimit := u32Limit_eq
  unfold drawSpriteRowChecked drawSpriteLine
  rw [Checked.add_of_lt (by omega), Option.bind_eq_bind, Option.bind_some]
  refine Checked.foldlM_of_total (List.range 16) (P := fun fb : Framebuffer => fb.Like picture)
    (fun bit hbit fb hfb => ⟨drawSpriteBitChecked_eq hholds hlen b _ _ hx0 hstep _
      (List.mem_range.mp hbit) hfb, ?_⟩) hfb
  dsimp only
  split
  · exact hfb
  · exact hfb.put _ _ _

/-- **The sprite** is laid over the picture. -/
theorem drawSprite0Checked_eq (state : CopperState) (ram : ByteSlice) {bands : Bands}
    (hbands : bands.Sized) (hfb : fb.Like picture) :
    drawSprite0Checked state ram bands fb = some (drawSprite0 state ram bands fb) := by
  have hlimit := u32Limit_eq
  have hlines : maxSpriteLines = 256 := rfl
  have hbit : ∀ word mask : Word, ∀ k, mask.toNat <<< k < 2 ^ 9 →
      (word &&& mask).toNat <<< k < 2 ^ 9 := by
    intro word mask k h
    refine Nat.lt_of_le_of_lt ?_ h
    rw [BitVec.toNat_and, Nat.shiftLeft_eq, Nat.shiftLeft_eq]
    exact Nat.mul_le_mul_right _ Nat.and_le_right
  have hhigh : ∀ word : Word, (word >>> 8).toNat < 2 ^ 9 := by
    intro word
    have := high_le word
    omega
  unfold drawSprite0Checked drawSprite0
  dsimp only [Option.bind_eq_bind]
  generalize readWord ram state.spr0pt = pos
  generalize readWord ram (state.spr0pt + 2) = ctl
  have hvstart : (pos >>> 8).toNat ||| (ctl &&& 0x04).toNat <<< 6 < 2 ^ 9 :=
    Nat.or_lt_two_pow (hhigh pos) (hbit ctl 0x04 6 (by decide))
  have hhstart : (pos &&& 0xFF).toNat <<< 1 ||| (ctl &&& 0x01).toNat < 2 ^ 9 :=
    Nat.or_lt_two_pow (hbit pos 0xFF 1 (by decide)) (hbit ctl 0x01 0 (by decide))
  generalize (pos >>> 8).toNat ||| (ctl &&& 0x04).toNat <<< 6 = vstart at hvstart
  generalize (pos &&& 0xFF).toNat <<< 1 ||| (ctl &&& 0x01).toNat = hstartRaw at hhstart
  split
  case isTrue => rfl
  case isFalse hsome =>
    have hscale : (decodeBand (bands.state (bands.bandIndexForLine vstart))).pxPerCck = 2 := rfl
    rw [Checked.sub_of_le (by omega), Option.bind_some, Bands.stateOfLineChecked_eq hbands,
      Option.bind_some, decodeBandChecked_eq, Option.bind_some, hscale,
      Checked.mul_of_lt (by omega), Option.bind_some]
    refine (Checked.foldlM_of_total _ (P := fun fb : Framebuffer => fb.Like picture)
      (fun line hline fb hfb => ?_) hfb).1
    rw [List.mem_range] at hline
    exact drawSpriteRowChecked_eq hholds hlen ram _ _ (by omega) (by decide) (by omega)
      (by omega) hfb

/-- **Every frame is drawn** in a framebuffer that holds its picture, without a panic. -/
theorem renderChecked_eq (chipset : Chipset) (ram : ByteSlice) :
    renderChecked chipset ram picture = some (render chipset ram picture) := by
  obtain ⟨hwalk, hsized⟩ := runCopperChecked_eq chipset.cop1lc ram (.fromChipset chipset)
  have hfill : (picture.fill (argbFromAmiga
      (((runCopper chipset.cop1lc ram (.fromChipset chipset) .new).2.1.state 0).colour 0))).Like
        picture := ⟨rfl, rfl, rfl⟩
  obtain ⟨hplanes, hlike⟩ := drawBitplanesChecked_eq hholds hlen ram hsized
    (runCopper chipset.cop1lc ram (.fromChipset chipset) .new).1 hfill
  unfold renderChecked render
  rw [hwalk, Option.bind_eq_bind, Option.bind_some, argbFromAmigaChecked_eq]
  dsimp only [Option.bind_eq_bind]
  rw [Option.bind_some, hplanes, Option.bind_some]
  exact drawSprite0Checked_eq hholds hlen _ ram hsized hlike

end Picture

/-! ## The framebuffers that are accepted -/

/-- **When a framebuffer that is accepted is safe**: exactly when the product of its sides fits a
`usize`, or what is left of it is more than there are pixels. -/
theorem framebuffer_safe_iff {len : Nat} (hlen : len < Framebuffer.usizeLimit)
    (pixels : Buffer Long len) (width height : Nat) :
    (∀ fb, Framebuffer.new len pixels width height = some fb →
      width * height ≤ len ∧ ∀ chipset ram,
        renderChecked chipset ram fb = some (render chipset ram fb)) ↔
    width * height < Framebuffer.usizeLimit ∨
      len < width * height % Framebuffer.usizeLimit := by
  constructor
  · intro hsafe
    by_contra hnot
    obtain ⟨hlarge, henough⟩ := not_or.mp hnot
    have hwidth : width ≠ 0 := by
      rintro rfl
      rw [Nat.zero_mul] at hlarge
      exact hlarge (Nat.two_pow_pos 64)
    have hheight : height ≠ 0 := by
      rintro rfl
      rw [Nat.mul_zero] at hlarge
      exact hlarge (Nat.two_pow_pos 64)
    have haccepted : Framebuffer.new len pixels width height =
        some ⟨width, height, len, pixels⟩ := by
      unfold Framebuffer.new
      rw [if_neg]
      rintro (h | h | h)
      · exact hwidth h
      · exact hheight h
      · exact henough h
    have hholds := (hsafe _ haccepted).1
    omega
  · intro hfits fb hnew
    unfold Framebuffer.new at hnew
    split at hnew
    case isTrue => cases hnew
    case isFalse hroom =>
      cases hnew
      have hholds : width * height ≤ len := by
        rcases hfits with hsmall | hrejected
        · have hwhole := Nat.mod_eq_of_lt hsmall
          omega
        · exact absurd (Or.inr (Or.inr hrejected)) hroom
      have hpicture : Framebuffer.Holds ⟨width, height, len, pixels⟩ := hholds
      exact ⟨hholds, fun chipset ram => renderChecked_eq hpicture hlen chipset ram⟩

/-- A copper list that ends at once. -/
def endingRam : ByteSlice := ⟨4, fun i => if i.val = 3 then 0xFE else 0xFF⟩

/-- Two by two pixels. -/
theorem framebuffer_safe_iff_small :
    renderChecked .new endingRam ⟨2, 2, 4, fun _ => 0⟩ =
      some (render .new endingRam ⟨2, 2, 4, fun _ => 0⟩) := by
  have hsafe := (framebuffer_safe_iff (by decide : 4 < Framebuffer.usizeLimit) (fun _ => 0) 2 2).mpr
    (.inl (by decide)) _ rfl
  exact hsafe.2 .new endingRam

/-- Two columns of `2 ^ 63` rows, and not one pixel: the product of the sides is zero. -/
def wrappingPicture : Framebuffer := ⟨2, 2 ^ 63, 0, fun _ => 0⟩

/-- It is accepted, and the first row of background runs off its end. -/
theorem wrapped_product_is_accepted :
    Framebuffer.new 0 wrappingPicture.pixels 2 (2 ^ 63) = some wrappingPicture ∧
      renderChecked .new endingRam wrappingPicture = none ∧
      ¬∀ fb, Framebuffer.new 0 wrappingPicture.pixels 2 (2 ^ 63) = some fb →
        2 * 2 ^ 63 ≤ 0 ∧ ∀ chipset ram,
          renderChecked chipset ram fb = some (render chipset ram fb) := by
  have haccepted : Framebuffer.new 0 wrappingPicture.pixels 2 (2 ^ 63) = some wrappingPicture := by
    unfold Framebuffer.new
    rw [if_neg (by decide)]
    rfl
  refine ⟨haccepted, by decide, fun hsafe => ?_⟩
  exact absurd (hsafe _ haccepted).1 (by decide)

end Render

end M68kMachine
