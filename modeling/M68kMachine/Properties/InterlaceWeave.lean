import M68kMachine.Core.Planar

/-!
# The rows of the picture

Without interlace a pointer runs down the picture; with it two of them take turns, the second one a
row further into the same memory.

* `foldl_fetchPlane` — what a row fetches and how it moves the pointers
* `rowAddr`, `pointers_beforeRow` — the closed form of the pointers
* `pixel_paintRow` — a row of the framebuffer
-/

namespace M68kMachine

namespace Render

/-! ## One row's fetch -/

/-- **The planes of a row**: the words at their pointers, which go on by a row. -/
theorem foldl_fetchPlane (ram : ByteSlice) (b : BandState) (g : Geometry) (field : Nat)
    (s : RowState) (n : Nat) :
    ((List.range n).foldl (fetchPlane ram b g field) s).fb = s.fb ∧
    (∀ p < n, ∀ w < g.ddfWords, ((List.range n).foldl (fetchPlane ram b g field) s).words p w =
      readWord ram (s.bplpt field p + BitVec.ofNat 32 (w * 2))) ∧
    ∀ f p, ((List.range n).foldl (fetchPlane ram b g field) s).bplpt f p =
      if f = field ∧ p < n then advancePlanePtr (s.bplpt f p) g.ddfWords (b.modulo p)
      else s.bplpt f p := by
  induction n with
  | zero =>
    refine ⟨rfl, fun p hp => absurd hp (Nat.not_lt_zero p), fun f p => ?_⟩
    rw [if_neg fun h => absurd h.2 (Nat.not_lt_zero p)]
    rfl
  | succ n ih =>
    obtain ⟨hfb, hwords, hptr⟩ := ih
    rw [List.range_succ, List.foldl_append, List.foldl_cons, List.foldl_nil]
    have hstart : ((List.range n).foldl (fetchPlane ram b g field) s).bplpt field n =
        s.bplpt field n := by
      rw [hptr, if_neg fun h => absurd h.2 (Nat.lt_irrefl n)]
    generalize (List.range n).foldl (fetchPlane ram b g field) s = t at *
    refine ⟨hfb, fun p hp w hw => ?_, fun f p => ?_⟩
    · unfold fetchPlane
      dsimp only
      by_cases hpn : p = n
      · subst hpn
        rw [Function.update_self, if_pos hw, hstart]
      · rw [Function.update_of_ne hpn]
        exact hwords p (by omega) w hw
    · unfold fetchPlane
      dsimp only
      by_cases hf : f = field
      · subst hf
        rw [Function.update_self]
        by_cases hpn : p = n
        · subst hpn
          rw [Function.update_self, if_pos ⟨rfl, Nat.lt_succ_self p⟩, hstart]
        · rw [Function.update_of_ne hpn, hptr]
          have hiff : (p < n + 1) ↔ p < n := by omega
          simp only [true_and, hiff]
      · rw [Function.update_of_ne hf, hptr, if_neg fun h => hf h.1, if_neg fun h => hf h.1]

/-! ## One row of the framebuffer -/

theorem put_shape (fb : Framebuffer) (x y : Nat) (argb : Long) :
    (fb.put x y argb).width = fb.width ∧ (fb.put x y argb).height = fb.height ∧
      (fb.put x y argb).len = fb.len := by
  unfold Framebuffer.put
  split <;> exact ⟨rfl, rfl, rfl⟩

variable {x y : Nat}

/-- Pixels are apart. -/
theorem pixel_place_inj {w x' y' : Nat} (hx : x < w) (hx' : x' < w) (h : y * w + x = y' * w + x') :
    y = y' ∧ x = x' := by
  have hy : y = y' := by
    have hdiv := congrArg (· / w) h
    have hpos : 0 < w := by omega
    rwa [Nat.mul_comm y, Nat.mul_comm y', Nat.mul_add_div hpos, Nat.mul_add_div hpos,
      Nat.div_eq_of_lt hx, Nat.div_eq_of_lt hx', Nat.add_zero, Nat.add_zero] at hdiv
  subst hy
  exact ⟨rfl, by omega⟩

variable {fb : Framebuffer}

theorem pixel_put (hfb : fb.Holds) {x' y' : Nat} (hx : x < fb.width) (hy : y < fb.height)
    (argb : Long) :
    (fb.put x' y' argb).pixel x y = if x = x' ∧ y = y' then some argb else fb.pixel x y := by
  have hin := hfb.place_lt hx hy
  unfold Framebuffer.put Framebuffer.pixel
  by_cases hclip : x' < fb.width ∧ y' < fb.height
  · rw [if_pos hclip]
    refine (Buffer.get?_set _ _ _ _).trans ?_
    by_cases hat : x = x' ∧ y = y'
    · rw [if_pos hat, if_pos ⟨by rw [hat.1, hat.2], hin⟩]
    · rw [if_neg hat, if_neg]
      rintro ⟨hplace, -⟩
      obtain ⟨hyy, hxx⟩ := pixel_place_inj hx hclip.1 hplace
      exact hat ⟨hxx, hyy⟩
  · rw [if_neg hclip, if_neg]
    rintro ⟨rfl, rfl⟩
    exact hclip ⟨hx, hy⟩

theorem paintRow_shape (fb : Framebuffer) (y x0 x1 : Nat) (argb : Nat → Long) :
    (paintRow fb y x0 x1 argb).width = fb.width ∧ (paintRow fb y x0 x1 argb).height = fb.height ∧
      (paintRow fb y x0 x1 argb).len = fb.len := by
  unfold paintRow
  induction List.range' x0 (x1 - x0) generalizing fb with
  | nil => exact ⟨rfl, rfl, rfl⟩
  | cons x xs ih =>
    obtain ⟨hwidth, hheight, hlen⟩ := ih (fb.put x y (argb x))
    obtain ⟨hwidth', hheight', hlen'⟩ := put_shape fb x y (argb x)
    exact ⟨hwidth.trans hwidth', hheight.trans hheight', hlen.trans hlen'⟩

/-- **A painted row** has its colours, and the other rows are as before. -/
theorem pixel_paintRow (hfb : fb.Holds) (hx : x < fb.width) (hy : y < fb.height) (y' x0 x1 : Nat)
    (argb : Nat → Long) :
    (paintRow fb y' x0 x1 argb).pixel x y =
      if y = y' ∧ x0 ≤ x ∧ x < x1 then some (argb x) else fb.pixel x y := by
  have hrow : ∀ (xs : List Nat) (fb : Framebuffer), fb.Holds → x < fb.width → y < fb.height →
      (xs.foldl (fun fb x => fb.put x y' (argb x)) fb).pixel x y =
        if y = y' ∧ x ∈ xs then some (argb x) else fb.pixel x y := by
    intro xs
    induction xs with
    | nil => intro fb _ _ _; simp
    | cons x' xs ih =>
      intro fb hfb hx hy
      obtain ⟨hwidth, hheight, hlen⟩ := put_shape fb x' y' (argb x')
      have hholds : (fb.put x' y' (argb x')).Holds := by
        unfold Framebuffer.Holds
        rw [hwidth, hheight, hlen]
        exact hfb
      rw [List.foldl_cons, ih _ hholds (hwidth ▸ hx) (hheight ▸ hy), pixel_put hfb hx hy]
      by_cases hyy : y = y'
      · by_cases hxx : x = x'
        · simp [hyy, hxx]
        · simp [hyy, hxx]
      · simp [hyy]
  unfold paintRow
  rw [hrow _ fb hfb hx hy]
  have hspan : x0 ≤ x ∧ x < x0 + (x1 - x0) ↔ x0 ≤ x ∧ x < x1 := by omega
  simp only [List.mem_range'_1, hspan]

/-! ## Rows -/

section Row

variable (ram : ByteSlice) (b : BandState) (field y : Nat) (s : RowState)

theorem drawBandRow_shape :
    (drawBandRow ram b field y s).fb.width = s.fb.width ∧
      (drawBandRow ram b field y s).fb.height = s.fb.height ∧
        (drawBandRow ram b field y s).fb.len = s.fb.len := by
  unfold drawBandRow
  dsimp only
  split
  · obtain ⟨hwidth, hheight, hlen⟩ := paintRow_shape ((List.range _).foldl _ s).fb _ _ _ _
    rw [hwidth, hheight, hlen, (foldl_fetchPlane _ _ _ _ _ _).1]
    exact ⟨rfl, rfl, rfl⟩
  · exact paintRow_shape _ _ _ _ _

/-- A row moves the pointers of its own field, and only where its band fetches. -/
theorem drawBandRow_bplpt (f p : Nat) :
    (drawBandRow ram b field y s).bplpt f p =
      if fetches b (decodeBand b) = true ∧ f = field ∧ p < (decodeBand b).planes then
        advancePlanePtr (s.bplpt f p) (decodeBand b).ddfWords (b.modulo p)
      else s.bplpt f p := by
  unfold drawBandRow
  dsimp only
  cases hfetch : fetches b (decodeBand b) with
  | true =>
    rw [if_pos rfl, (foldl_fetchPlane _ _ _ _ _ _).2.2]
    simp only [true_and]
  | false =>
    simp only [Bool.false_eq_true, false_and, if_false]

variable {s} {x : Nat}

/-- Only its own row of the picture changes. -/
theorem pixel_drawBandRow_of_ne (hfb : s.fb.Holds) {y' : Nat} (hx : x < s.fb.width)
    (hy : y' < s.fb.height) (hne : y' ≠ y) :
    (drawBandRow ram b field y s).fb.pixel x y' = s.fb.pixel x y' := by
  unfold drawBandRow
  dsimp only
  split
  · rw [(foldl_fetchPlane _ _ _ _ _ _).1, pixel_paintRow hfb hx hy]
    exact if_neg fun h => hne h.1
  · rw [pixel_paintRow hfb hx hy]
    exact if_neg fun h => hne h.1

/-- The colour of a pixel only depends on the words that were fetched. -/
theorem windowPixel_congr {g : Geometry} {words words' : Nat → Nat → Word}
    (h : ∀ p < g.planes, ∀ w < g.ddfWords, words p w = words' p w) (x : Nat) :
    windowPixel b g words x = windowPixel b g words' x := by
  have hindex : ∀ relPx < g.ddfWords * 16,
      pixelColorIndex words g.planes relPx = pixelColorIndex words' g.planes relPx := by
    intro relPx hlt
    unfold pixelColorIndex
    refine List.foldl_ext _ _ _ fun index p hp => ?_
    rw [h p (List.mem_range.mp hp) _ (by omega)]
  unfold windowPixel
  dsimp only
  split
  case isTrue hin => rw [hindex _ (by omega)]
  case isFalse => rfl

/-- Under the DMA, a row that is not fetched has nothing to fetch or nothing to show. -/
theorem nothing_to_fetch {b : BandState} (hdma : bitplaneDmaEnabled b.dmacon = true)
    (hfetch : fetches b (decodeBand b) = false) (hx0 : (decodeBand b).diwX0 ≤ x)
    (hx1 : x < (decodeBand b).diwX1) : (decodeBand b).planes = 0 ∨ (decodeBand b).ddfWords = 0 := by
  unfold fetches at hfetch
  rw [hdma] at hfetch
  simp only [Bool.not_true, Bool.or_false, Bool.not_eq_false', Bool.or_eq_true,
    decide_eq_true_eq] at hfetch
  omega

/-- **A row shows the words at its pointers.** -/
theorem pixel_drawBandRow (hfb : s.fb.Holds) (hdma : bitplaneDmaEnabled b.dmacon = true)
    (hx : x < s.fb.width) (hy : y < s.fb.height) (hx0 : (decodeBand b).diwX0 ≤ x)
    (hx1 : x < (decodeBand b).diwX1) :
    (drawBandRow ram b field y s).fb.pixel x y = some (windowPixel b (decodeBand b)
      (fun p w => readWord ram (s.bplpt field p + BitVec.ofNat 32 (w * 2))) x) := by
  unfold drawBandRow
  dsimp only
  cases hfetch : fetches b (decodeBand b) with
  | true =>
    obtain ⟨hkeep, hwords, -⟩ := foldl_fetchPlane ram b (decodeBand b) field s (decodeBand b).planes
    rw [if_pos rfl]
    dsimp only
    rw [hkeep, pixel_paintRow hfb hx hy, if_pos ⟨rfl, hx0, hx1⟩]
    exact congrArg some (windowPixel_congr b hwords x)
  | false =>
    rw [if_neg Bool.false_ne_true]
    dsimp only
    rw [pixel_paintRow hfb hx hy, if_pos ⟨rfl, Nat.zero_le _, hx⟩]
    -- no plane, or no word of one: the background
    unfold windowPixel
    dsimp only
    rcases nothing_to_fetch hdma hfetch hx0 hx1 with hplanes | hwords
    · have hindex : ∀ words relPx, pixelColorIndex words (decodeBand b).planes relPx = 0 := by
        intro words relPx
        unfold pixelColorIndex
        rw [hplanes]
        rfl
      simp [hindex]
    · rw [if_neg (by rw [hwords]; omega)]

end Row

/-! ## All rows -/

theorem beforeRow_succ (state : CopperState) (ram : ByteSlice) (bands : Bands) (fb : Framebuffer)
    (row : Nat) : beforeRow state ram bands fb (row + 1) =
      drawRow ram bands bands.extent.lace bands.extent.y0
        (beforeRow state ram bands fb row) row := by
  unfold beforeRow
  rw [List.range_succ, List.foldl_append, List.foldl_cons, List.foldl_nil]

theorem beforeRow_shape (state : CopperState) (ram : ByteSlice) (bands : Bands) (fb : Framebuffer)
    (row : Nat) :
    (beforeRow state ram bands fb row).fb.width = fb.width ∧
      (beforeRow state ram bands fb row).fb.height = fb.height ∧
        (beforeRow state ram bands fb row).fb.len = fb.len := by
  induction row with
  | zero => exact ⟨rfl, rfl, rfl⟩
  | succ row ih =>
    rw [beforeRow_succ]
    obtain ⟨hwidth, hheight, hlen⟩ := drawBandRow_shape ram _ _ _ _
    exact ⟨hwidth.trans ih.1, hheight.trans ih.2.1, hlen.trans ih.2.2⟩

/-- Rows further down leave a row alone. -/
theorem pixel_beforeRow {state : CopperState} {ram : ByteSlice} {bands : Bands} (hfb : fb.Holds)
    {row : Nat} (hx : x < fb.width) (hy : bands.extent.y0 + row < fb.height) {n : Nat}
    (hn : row < n) :
    (beforeRow state ram bands fb n).fb.pixel x (bands.extent.y0 + row) =
      (beforeRow state ram bands fb (row + 1)).fb.pixel x (bands.extent.y0 + row) := by
  induction n with
  | zero => exact absurd hn (Nat.not_lt_zero row)
  | succ n ih =>
    rcases Nat.lt_succ_iff_lt_or_eq.mp hn with hlt | rfl
    · obtain ⟨hwidth, hheight, hlen⟩ := beforeRow_shape state ram bands fb n
      rw [← ih hlt, beforeRow_succ]
      refine pixel_drawBandRow_of_ne ram _ _ _ ?_ (hwidth ▸ hx) (hheight ▸ hy) (by omega)
      unfold Framebuffer.Holds
      rw [hwidth, hheight, hlen]
      exact hfb
    · rfl

/-- How far a pointer moves from one row of its field to the next. -/
def stride (b : BandState) (p : Nat) : Long :=
  BitVec.ofNat 32 ((decodeBand b).ddfWords * 2) + (b.modulo p).signExtend 32

/-- The address of the first word of plane `p` in output row `r`. -/
def rowAddr (state : CopperState) (b : BandState) (r p : Nat) : Long :=
  if (decodeBand b).lace then
    state.plane p + BitVec.ofNat 32 (r % 2 * ((decodeBand b).ddfWords * 2)) +
      BitVec.ofNat 32 (r / 2) * stride b p
  else state.plane p + BitVec.ofNat 32 r * stride b p

/-- The rows of a field above an output row. -/
def rowsAbove (lace : Bool) (f r : Nat) : Nat := if lace then (r + 1 - f) / 2 else r

theorem rowsAbove_succ {lace : Bool} {f : Nat} (hf : if lace then f < 2 else f = 0) (r : Nat) :
    rowsAbove lace f (r + 1) = rowsAbove lace f r + if f = fieldOf lace r then 1 else 0 := by
  unfold rowsAbove fieldOf
  cases lace with
  | false =>
    obtain rfl : f = 0 := by simpa using hf
    rfl
  | true =>
    simp only [if_true] at hf ⊢
    split <;> omega

section OneBand

variable {state : CopperState} {ram : ByteSlice} {bands : Bands} {fb : Framebuffer}
  (hone : bands.count = 1)

include hone

theorem state_of_one (line : Nat) : bands.state (bands.bandIndexForLine line) = bands.state 0 := by
  have hindex : bands.bandIndexForLine line = 0 := by
    unfold Bands.bandIndexForLine
    rw [hone]
    show ([0].find? _).getD 0 = 0
    rw [List.find?_singleton]
    split <;> rfl
  rw [hindex]

theorem extent_of_one (hwindow : (decodeBand (bands.state 0)).diwY0 <
    (decodeBand (bands.state 0)).diwY1) :
    bands.extent = ⟨(decodeBand (bands.state 0)).diwY0, (decodeBand (bands.state 0)).diwY1,
      (decodeBand (bands.state 0)).lace⟩ := by
  obtain ⟨⟨start, b⟩, hlist⟩ := List.length_eq_one_iff.mp hone
  have hstate : bands.state 0 = b := by
    unfold Bands.state
    rw [hlist]
    rfl
  rw [hstate] at hwindow ⊢
  have hlow : (decodeBand b).diwY0 < 2 ^ 16 := (b.diwstrt >>> 8).isLt
  unfold Bands.extent Extent.add
  rw [hlist, List.foldl_cons, List.foldl_nil]
  dsimp only
  rw [if_pos hwindow, Bool.false_or, Nat.zero_max, Nat.min_eq_right (by omega)]

variable (hwindow : (decodeBand (bands.state 0)).diwY0 < (decodeBand (bands.state 0)).diwY1)
  (hfetch : fetches (bands.state 0) (decodeBand (bands.state 0)) = true)

include hwindow hfetch

/-- **The running pointers**: a stride for every row of their field above. -/
theorem bplpt_beforeRow {p : Nat} (hp : p < (decodeBand (bands.state 0)).planes) {f : Nat}
    (hf : if (decodeBand (bands.state 0)).lace then f < 2 else f = 0) (r : Nat) :
    (beforeRow state ram bands fb r).bplpt f p =
      startPointers state bands bands.extent f p +
        BitVec.ofNat 32 (rowsAbove (decodeBand (bands.state 0)).lace f r) *
          stride (bands.state 0) p := by
  induction r with
  | zero =>
    have hnone : rowsAbove (decodeBand (bands.state 0)).lace f 0 = 0 := by
      unfold rowsAbove
      split <;> omega
    rw [hnone]
    simp [beforeRow]
  | succ r ih =>
    have hband : bandOfRow bands bands.extent.lace bands.extent.y0 r = bands.state 0 :=
      state_of_one hone _
    have hlace : bands.extent.lace = (decodeBand (bands.state 0)).lace := by
      rw [extent_of_one hone hwindow]
    rw [beforeRow_succ]
    unfold drawRow
    rw [drawBandRow_bplpt, hband, hlace, ih, rowsAbove_succ hf]
    by_cases hfield : f = fieldOf (decodeBand (bands.state 0)).lace r
    · rw [if_pos ⟨hfetch, hfield, hp⟩, if_pos hfield, BitVec.ofNat_add, BitVec.succ_mul]
      unfold advancePlanePtr
      rw [BitVec.add_assoc, BitVec.add_assoc]
      rfl
    · rw [if_neg fun h => hfield h.2.1, if_neg hfield, Nat.add_zero]

/-- **The pointers before a row**, by its number. -/
theorem pointers_beforeRow {p : Nat} (hp : p < (decodeBand (bands.state 0)).planes) (r : Nat) :
    (beforeRow state ram bands fb r).bplpt (fieldOf (decodeBand (bands.state 0)).lace r) p =
      rowAddr state (bands.state 0) r p := by
  have hextent := extent_of_one hone hwindow
  have htop := state_of_one hone (decodeBand (bands.state 0)).diwY0
  have hf : if (decodeBand (bands.state 0)).lace then
      fieldOf (decodeBand (bands.state 0)).lace r < 2
    else fieldOf (decodeBand (bands.state 0)).lace r = 0 := by
    unfold fieldOf
    split
    · exact Nat.mod_lt _ (by decide)
    · rfl
  rw [bplpt_beforeRow hone hwindow hfetch hp hf, hextent]
  unfold rowAddr startPointers rowsAbove fieldOf oddFieldBplpt
  dsimp only
  rw [htop]
  cases (decodeBand (bands.state 0)).lace with
  | false => rfl
  | true =>
    simp only [if_true]
    rcases Nat.mod_two_eq_zero_or_one r with heven | hodd
    · have hrows : (r + 1) / 2 = r / 2 := by omega
      rw [heven, Nat.sub_zero, hrows, Function.update_of_ne (by decide)]
      simp
    · rw [hodd, Nat.add_sub_cancel, Function.update_self, Nat.one_mul]

end OneBand

section Picture

variable {state : CopperState} {ram : ByteSlice} {bands : Bands} {fb : Framebuffer}
  (hone : bands.count = 1) (hdma : bitplaneDmaEnabled (bands.state 0).dmacon = true)
  (hwindow : (decodeBand (bands.state 0)).diwY0 < (decodeBand (bands.state 0)).diwY1)

include hone hdma hwindow

/-- A row shows the words at its addresses. -/
theorem pixel_drawBitplanes (hfb : fb.Holds) {r : Nat} (hr : r < bands.extent.rows) {x : Nat}
    (hx : x < fb.width) (hy : (decodeBand (bands.state 0)).diwY0 + r < fb.height)
    (hx0 : (decodeBand (bands.state 0)).diwX0 ≤ x) (hx1 : x < (decodeBand (bands.state 0)).diwX1) :
    (drawBitplanes state ram bands fb).pixel x ((decodeBand (bands.state 0)).diwY0 + r) =
      some (windowPixel (bands.state 0) (decodeBand (bands.state 0))
        (fun p w => readWord ram (rowAddr state (bands.state 0) r p + BitVec.ofNat 32 (w * 2)))
        x) := by
  have hextent := extent_of_one hone hwindow
  have hy0 : bands.extent.y0 = (decodeBand (bands.state 0)).diwY0 := by rw [hextent]
  have hy1 : bands.extent.y1 = (decodeBand (bands.state 0)).diwY1 := by rw [hextent]
  have hlace : bands.extent.lace = (decodeBand (bands.state 0)).lace := by rw [hextent]
  have hband : bandOfRow bands bands.extent.lace bands.extent.y0 r = bands.state 0 :=
    state_of_one hone _
  obtain ⟨hwidth, hheight, hlen⟩ := beforeRow_shape state ram bands fb r
  have hholds : (beforeRow state ram bands fb r).fb.Holds := by
    unfold Framebuffer.Holds
    rw [hwidth, hheight, hlen]
    exact hfb
  unfold drawBitplanes
  dsimp only
  rw [if_neg (by omega), ← hy0, pixel_beforeRow hfb hx (hy0 ▸ hy) hr, beforeRow_succ]
  unfold drawRow
  rw [hband, pixel_drawBandRow ram _ _ _ hholds hdma (hwidth ▸ hx) (hheight ▸ hy0 ▸ hy) hx0 hx1,
    hlace]
  refine congrArg some (windowPixel_congr _ (fun p hp w hw => ?_) x)
  cases hfetch : fetches (bands.state 0) (decodeBand (bands.state 0)) with
  | true => rw [pointers_beforeRow hone hwindow hfetch hp]
  | false =>
    rcases nothing_to_fetch hdma hfetch hx0 hx1 with hplanes | hwords
    · omega
    · omega

end Picture

/-- Every row of a window is drawn. -/
theorem rows_of_one {bands : Bands} (hone : bands.count = 1)
    (hwindow : (decodeBand (bands.state 0)).diwY0 < (decodeBand (bands.state 0)).diwY1) :
    bands.extent.rows = (if (decodeBand (bands.state 0)).lace then
      ((decodeBand (bands.state 0)).diwY1 - (decodeBand (bands.state 0)).diwY0) * 2
    else (decodeBand (bands.state 0)).diwY1 - (decodeBand (bands.state 0)).diwY0) := by
  have hstop := (decodeBand_small (bands.state 0)).diwY1_le
  have hmax : maxHeight = 576 := rfl
  unfold Extent.rows
  rw [extent_of_one hone hwindow]
  dsimp only
  split <;> omega

/-- A row is short enough for a modulo to hold. -/
theorem signExtend_of_row {n : Nat} (h : n ≤ 2 * maxDdfWords) :
    (BitVec.ofNat 16 n).signExtend 32 = BitVec.ofNat 32 n := by
  have hmax : maxDdfWords = 128 := rfl
  have hpos : (BitVec.ofNat 16 n).msb = false := by
    rw [BitVec.msb_eq_false_iff_two_mul_lt, BitVec.toNat_ofNat]
    omega
  rw [BitVec.signExtend_eq_setWidth_of_msb_false hpos]
  apply BitVec.eq_of_toNat_eq
  simp only [BitVec.toNat_setWidth, BitVec.toNat_ofNat]
  omega

/-- **Rows that follow each other in memory.** With a row for the modulo, the two fields meet. -/
theorem rowAddr_of_modulo {b : BandState} {p : Nat} (hlace : (decodeBand b).lace = true)
    (hmodulo : b.modulo p = BitVec.ofNat 16 ((decodeBand b).ddfWords * 2)) (state : CopperState)
    (r : Nat) : rowAddr state b r p =
      state.plane p + BitVec.ofNat 32 (r * ((decodeBand b).ddfWords * 2)) := by
  have hlen := (decodeBand_small b).ddfWords_le
  have hstride : stride b p = BitVec.ofNat 32 (2 * ((decodeBand b).ddfWords * 2)) := by
    unfold stride
    rw [hmodulo, signExtend_of_row (by omega), ← BitVec.ofNat_add, Nat.two_mul]
  have hrow : r % 2 * ((decodeBand b).ddfWords * 2) +
      r / 2 * (2 * ((decodeBand b).ddfWords * 2)) = r * ((decodeBand b).ddfWords * 2) := by
    rw [← Nat.mul_assoc (r / 2), ← Nat.add_mul, Nat.mod_add_div']
  unfold rowAddr
  rw [if_pos hlace, hstride, ← BitVec.ofNat_mul, BitVec.add_assoc, ← BitVec.ofNat_add, hrow]

/-- **Two fields woven into one picture.** With one band and its DMA on, an output row inside the
window shows the words of its line, or, with interlace, of line `r / 2` of field `r % 2`, whose
second starts a row later; a modulo of a row makes the rows of the picture follow each other in
memory. A row whose band has its DMA off moves no pointer. -/
theorem rows_weave (state : CopperState) (ram : ByteSlice) (bands : Bands) (fb : Framebuffer)
    (hfb : fb.Holds) :
    (bands.count = 1 → bitplaneDmaEnabled (bands.state 0).dmacon = true →
      (decodeBand (bands.state 0)).diwY0 < (decodeBand (bands.state 0)).diwY1 →
      ∀ r, r < (if (decodeBand (bands.state 0)).lace then
          ((decodeBand (bands.state 0)).diwY1 - (decodeBand (bands.state 0)).diwY0) * 2
        else (decodeBand (bands.state 0)).diwY1 - (decodeBand (bands.state 0)).diwY0) →
      ∀ x < fb.width, (decodeBand (bands.state 0)).diwY0 + r < fb.height →
      (decodeBand (bands.state 0)).diwX0 ≤ x → x < (decodeBand (bands.state 0)).diwX1 →
        (drawBitplanes state ram bands fb).pixel x ((decodeBand (bands.state 0)).diwY0 + r) =
          some (windowPixel (bands.state 0) (decodeBand (bands.state 0)) (fun p w =>
            readWord ram (rowAddr state (bands.state 0) r p + BitVec.ofNat 32 (w * 2))) x)) ∧
    (∀ b p, (decodeBand b).lace = true →
      b.modulo p = BitVec.ofNat 16 ((decodeBand b).ddfWords * 2) → ∀ r,
        rowAddr state b r p =
          state.plane p + BitVec.ofNat 32 (r * ((decodeBand b).ddfWords * 2))) ∧
    ∀ row, bitplaneDmaEnabled
        (bandOfRow bands bands.extent.lace bands.extent.y0 row).dmacon = false →
      (beforeRow state ram bands fb (row + 1)).bplpt =
        (beforeRow state ram bands fb row).bplpt := by
  refine ⟨?_, fun b p hlace hmodulo => rowAddr_of_modulo hlace hmodulo state, ?_⟩
  · intro hone hdma hwindow r hr x hx hy hx0 hx1
    rw [← rows_of_one hone hwindow] at hr
    exact pixel_drawBitplanes hone hdma hwindow hfb hr hx hy hx0 hx1
  · intro row hoff
    funext f p
    have hfetch : fetches (bandOfRow bands bands.extent.lace bands.extent.y0 row)
        (decodeBand (bandOfRow bands bands.extent.lace bands.extent.y0 row)) = false := by
      unfold fetches
      rw [hoff]
      simp
    rw [beforeRow_succ]
    unfold drawRow
    rw [drawBandRow_bplpt, hfetch, if_neg fun h => Bool.false_ne_true h.1]

/-! ## Two rows of one word -/

/-- One plane of one word a row, interlaced, with a row for the modulo; white on black. -/
def wovenBand : BandState where
  bplcon0 := 0x1004
  bplcon1 := 0
  bpl1mod := 2
  bpl2mod := 2
  diwstrt := 0x0081
  diwstop := 0x80C1
  ddfstrt := 0x38
  ddfstop := 0x38
  color := (Vector.replicate 32 0).setIfInBounds 1 0xFFF
  dmacon := dmaconDmaen ||| dmaconBplen

/-- The second memory row starts with a lit bit. -/
def wovenRam : ByteSlice := ⟨4, fun i => if i.val = 2 then 0x80 else 0⟩

def wovenPicture : Framebuffer := ⟨129, 2, 258, fun _ => 0⟩

/-- The second row of the picture shows the second row of memory. -/
theorem rows_weave_second_row :
    (drawBitplanes (.fromChipset .new) wovenRam ⟨[(0, wovenBand)]⟩ wovenPicture).pixel 128 1 =
      some 0xFFFFFFFF := by
  have hholds : wovenPicture.Holds := Nat.le_refl _
  obtain ⟨hrow, -, -⟩ :=
    rows_weave (.fromChipset .new) wovenRam ⟨[(0, wovenBand)]⟩ wovenPicture hholds
  have hshown := hrow rfl (by decide) (by decide) 1 (by decide) 128 (by decide) (by decide)
    (by decide) (by decide)
  exact hshown.trans (by decide)

end Render

end M68kMachine
