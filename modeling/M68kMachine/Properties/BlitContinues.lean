import M68kMachine.Properties.PlainBlit

/-!
# A blit goes on where the last one stopped

The address registers are counters: a finished plain copy leaves them one past its last byte, so
that starting again copies on along the row, and with pitches equal to the width, down the rows.

* `BlitSetup.past` — an address some bytes further on in the blit's direction
* `blitAddr_executeBlit` — where the address registers end
* `row_continues`, `rows_continue`, `blit_continues`
-/

namespace M68kMachine

open Cirrus

namespace Cirrus542x

/-! ## Addresses in the blit's direction -/

/-- The address `n` bytes on from `start`. -/
def BlitSetup.past (p : BlitSetup) (start n : Nat) : Nat :=
  if p.backwards then start - n else start + n

theorem lineStart_eq_past (p : BlitSetup) (start pitch y : Nat) :
    p.lineStart start pitch y = p.past start (y * pitch) := rfl

@[simp] theorem past_zero (p : BlitSetup) (start : Nat) : p.past start 0 = start := by
  unfold BlitSetup.past
  split <;> rfl

variable {p p' : BlitSetup}

theorem past_past (hback : p'.backwards = p.backwards) (start a b : Nat) :
    p'.past (p.past start a) b = p.past start (a + b) := by
  unfold BlitSetup.past
  rw [hback]
  split
  · exact Nat.sub_sub start a b
  · exact Nat.add_assoc start a b

variable {start a : Nat}

/-- A line that starts further on is the rest of the line. -/
theorem along_past (hback : p'.backwards = p.backwards) (h : p.backwards = true → a ≤ start)
    (x : Nat) : p'.along (p.past start a) x = p.along start (a + x) := by
  unfold BlitSetup.along BlitSetup.past
  rw [hback]
  cases hp : p.backwards with
  | false => simp [Nat.add_assoc]
  | true =>
    have := h hp
    simp only [if_true]
    by_cases hx : a + x ≤ start
    · rw [if_pos (by omega), if_pos hx, Nat.sub_sub]
    · rw [if_neg (by omega), if_neg hx]

/-- The `span` addresses from `start` on, in the blit's direction, lie in VRAM. -/
def BlitSetup.Inside (p : BlitSetup) (size start span : Nat) : Prop :=
  if p.backwards then span ≤ start + 1 ∧ start < size
  else start + span ≤ size ∧ start + span ≤ 0x200000

theorem ofNat_sub (h : a ≤ start) :
    BitVec.ofNat 64 start - BitVec.ofNat 64 a = BitVec.ofNat 64 (start - a) := by
  rw [← Nat.sub_add_cancel h, BitVec.ofNat_add, BitVec.add_sub_cancel, Nat.add_sub_cancel]

section Inside

variable {p : BlitSetup} {size start a b : Nat} (hin : p.Inside size start (a + b))

include hin

theorem le_of_inside (hb : 0 < b) (hback : p.backwards = true) : a ≤ start := by
  unfold BlitSetup.Inside at hin
  rw [hback, if_pos rfl] at hin
  omega

theorem span_le_of_inside : a + b ≤ size := by
  unfold BlitSetup.Inside at hin
  split at hin <;> omega

/-- An address that the blit still goes on from is the one the counter holds. -/
theorem advance_toNat (hb : 0 < b) (hstart : start < 0x200000) :
    (p.advance start a).toNat % 0x200000 = p.past start a := by
  have hle := le_of_inside hin hb
  unfold BlitSetup.Inside at hin
  unfold BlitSetup.advance BlitSetup.past
  cases hback : p.backwards with
  | false =>
    rw [hback, if_neg Bool.false_ne_true] at hin
    simp only [Bool.false_eq_true, if_false]
    rw [← BitVec.ofNat_add, BitVec.toNat_ofNat]
    omega
  | true =>
    simp only [if_true]
    rw [ofNat_sub (hle hback), BitVec.toNat_ofNat]
    omega

end Inside

/-- Going on from a counter's value goes on from its start. -/
theorem advance_past (hback : p'.backwards = p.backwards) (h : p.backwards = true → a ≤ start)
    (b : Nat) : p'.advance (p.past start a) b = p.advance start (a + b) := by
  unfold BlitSetup.advance BlitSetup.past
  rw [hback]
  cases hp : p.backwards with
  | false =>
    simp only [Bool.false_eq_true, if_false]
    rw [BitVec.ofNat_add, BitVec.ofNat_add, BitVec.add_assoc]
  | true =>
    simp only [if_true]
    rw [← ofNat_sub (h hp), BitVec.ofNat_add, BitVec.sub_sub]

/-! ## What a finished copy leaves in the registers -/

variable {i : Nat}

theorem reg_executeBlit (c : Cirrus542x) (hdst : i < 0x28 ∨ 0x2A < i) (hsrc : i < 0x2C ∨ 0x2E < i) :
    reg (c.executeBlit none).gr i = reg c.gr i := by
  have hd : Idx.grBlitDstAddrLo = 0x28 := rfl
  have hs : Idx.grBlitSrcAddrLo = 0x2C := rfl
  unfold executeBlit
  dsimp only
  rw [reg_setBlitAddr _ (by decide), if_neg (by omega), if_neg (by omega), if_neg (by omega),
    reg_setBlitAddr _ (by decide), if_neg (by omega), if_neg (by omega), if_neg (by omega)]

/-- Where a plain copy's counters end. -/
def dstEnd (p : BlitSetup) : Quad := p.advance p.dstStart ((p.height - 1) * p.dstPitch + p.width)

def srcEnd (p : BlitSetup) : Quad := p.advance p.srcStart ((p.height - 1) * p.srcPitch + p.width)

variable {c : Cirrus542x}

theorem executeBlit_plain_eq (hplain : c.PlainCopy) :
    c.executeBlit none = ({ c with vram := (c.executeBlit none).vram }.setBlitAddr
      Idx.grBlitDstAddrLo (dstEnd (c.blitSetup none))).setBlitAddr Idx.grBlitSrcAddrLo
        (srcEnd (c.blitSetup none)) := by
  have hsystem : (c.blitSetup none).system.isSome = false := rfl
  unfold executeBlit dstEnd srcEnd
  simp only [setup_pattern hplain, setup_colorExpand hplain, hsystem, Bool.or_self,
    Bool.false_eq_true, if_false]
  rfl

/-- The registers of a finished copy, by the registers and counters before it. -/
theorem reg_executeBlit_plain (hplain : c.PlainCopy) (i : Nat) :
    reg (c.executeBlit none).gr i =
      if i = 0x2E then
        (reg c.gr 0x2E &&& (0xE0 : Byte)) |||
          ((addrBits (srcEnd (c.blitSetup none)) >>> 16).setWidth 8 &&& 0x1F)
      else if i = 0x2D then (addrBits (srcEnd (c.blitSetup none)) >>> 8).setWidth 8
      else if i = 0x2C then (addrBits (srcEnd (c.blitSetup none))).setWidth 8
      else if i = 0x2A then
        (reg c.gr 0x2A &&& (0xE0 : Byte)) |||
          ((addrBits (dstEnd (c.blitSetup none)) >>> 16).setWidth 8 &&& 0x1F)
      else if i = 0x29 then (addrBits (dstEnd (c.blitSetup none)) >>> 8).setWidth 8
      else if i = 0x28 then (addrBits (dstEnd (c.blitSetup none))).setWidth 8
      else reg c.gr i := by
  rw [executeBlit_plain_eq hplain, reg_setBlitAddr _ (by decide), reg_setBlitAddr _ (by decide),
    reg_setBlitAddr _ (by decide), if_neg (show Idx.grBlitSrcAddrLo + 2 ≠
      Idx.grBlitDstAddrLo + 2 by decide), if_neg (show Idx.grBlitSrcAddrLo + 2 ≠
      Idx.grBlitDstAddrLo + 1 by decide), if_neg (show Idx.grBlitSrcAddrLo + 2 ≠
      Idx.grBlitDstAddrLo by decide)]

theorem blitAddr_dst_executeBlit (hplain : c.PlainCopy) :
    (c.executeBlit none).blitAddr Idx.grBlitDstAddrLo =
      (dstEnd (c.blitSetup none)).toNat % 0x200000 := by
  rw [executeBlit_plain_eq hplain, blitAddr_setBlitAddr_of_apart _ (by decide) (by decide)]
  exact blitAddr_setBlitAddr _ (by decide) _

theorem blitAddr_src_executeBlit (hplain : c.PlainCopy) :
    (c.executeBlit none).blitAddr Idx.grBlitSrcAddrLo =
      (srcEnd (c.blitSetup none)).toNat % 0x200000 := by
  rw [executeBlit_plain_eq hplain]
  exact blitAddr_setBlitAddr _ (by decide) _

/-! ## Counts rewritten -/

/-- A count register, which holds one less than the count. -/
def withCount (c : Cirrus542x) (low n : Nat) : Cirrus542x :=
  { c with
    gr := (c.gr.setIfInBounds low (BitVec.ofNat 8 (n - 1))).setIfInBounds (low + 1)
      (BitVec.ofNat 8 ((n - 1) / 256)) }

/-- The width registers rewritten. -/
def withWidth (c : Cirrus542x) (width : Nat) : Cirrus542x := c.withCount Idx.grBlitWidthLo width

/-- The height registers rewritten. -/
def withHeight (c : Cirrus542x) (height : Nat) : Cirrus542x :=
  c.withCount Idx.grBlitHeightLo height

@[simp] theorem withWidth_vram (c : Cirrus542x) (width : Nat) :
    (c.withWidth width).vram = c.vram := rfl

@[simp] theorem withHeight_vram (c : Cirrus542x) (height : Nat) :
    (c.withHeight height).vram = c.vram := rfl

variable {low : Nat}

theorem reg_withCount (c : Cirrus542x) (hlow : low + 1 < 64) (n i : Nat) :
    reg (c.withCount low n).gr i =
      if i = low + 1 then BitVec.ofNat 8 ((n - 1) / 256)
      else if i = low then BitVec.ofNat 8 (n - 1) else reg c.gr i := by
  unfold withCount
  dsimp only
  rw [reg_setIfInBounds _ hlow, reg_setIfInBounds _ (by omega)]

theorem reg_withCount_of_ne (c : Cirrus542x) (hlow : low + 1 < 64) (n : Nat) (h0 : i ≠ low)
    (h1 : i ≠ low + 1) : reg (c.withCount low n).gr i = reg c.gr i := by
  rw [reg_withCount c hlow, if_neg h1, if_neg h0]

variable {k m : Nat}

/-- A count of `k` bits above a byte, as the registers hold it. -/
theorem count_field (hk : k ≤ 8) (hm : m < 2 ^ (k + 8)) {mask : Byte}
    (hmask : mask.toNat = 2 ^ k - 1) :
    (BitVec.ofNat 8 (m / 256) &&& mask).toNat <<< 8 ||| (BitVec.ofNat 8 m).toNat = m := by
  have hhi : m / 256 < 2 ^ k := by
    rw [Nat.div_lt_iff_lt_mul (by decide)]
    rwa [Nat.pow_add] at hm
  have hbyte : m / 256 < 2 ^ 8 := Nat.lt_of_lt_of_le hhi (Nat.pow_le_pow_right Nat.two_pos hk)
  rw [BitVec.toNat_and, hmask, Nat.and_two_pow_sub_one_eq_mod, BitVec.toNat_ofNat,
    BitVec.toNat_ofNat, Nat.mod_eq_of_lt hbyte, Nat.mod_eq_of_lt hhi,
    ← Nat.shiftLeft_add_eq_or_of_lt (Nat.mod_lt _ (by decide)), Nat.shiftLeft_eq]
  omega

theorem blitWidth_withWidth (c : Cirrus542x) {width : Nat} (hpos : 0 < width)
    (hle : width ≤ 2048) : (c.withWidth width).blitWidth = width := by
  unfold blitWidth withWidth
  rw [reg_withCount c (by decide), reg_withCount c (by decide), if_pos rfl, if_neg (by decide),
    if_pos rfl, count_field (k := 3) (by decide) (by omega) (by decide)]
  omega

theorem blitHeight_withHeight (c : Cirrus542x) {height : Nat} (hpos : 0 < height)
    (hle : height ≤ 1024) : (c.withHeight height).blitHeight = height := by
  unfold blitHeight withHeight
  rw [reg_withCount c (by decide), reg_withCount c (by decide), if_pos rfl, if_neg (by decide),
    if_pos rfl, count_field (k := 2) (by decide) (by omega) (by decide)]
  omega

/-! ## Boards that differ in counts and addresses -/

/-- The two boards have the same pitches, mode, raster operation and colour key. -/
def SameEngine (c' c : Cirrus542x) : Prop :=
  ∀ i, 0x24 ≤ i → i < 0x28 ∨ 0x2F ≤ i → reg c'.gr i = reg c.gr i

namespace SameEngine

variable {c c' : Cirrus542x} (h : SameEngine c' c)

include h

theorem mode : (c'.blitSetup none).mode = (c.blitSetup none).mode :=
  h Idx.grBlitMode (by decide) (by decide)

theorem plain (hplain : c.PlainCopy) : c'.PlainCopy := by
  have hmode : reg c'.gr Idx.grBlitMode = reg c.gr Idx.grBlitMode := h.mode
  exact ⟨hmode ▸ hplain.noSystem, hmode ▸ hplain.noPattern, hmode ▸ hplain.noExpand⟩

theorem backwards : (c'.blitSetup none).backwards = (c.blitSetup none).backwards := by
  have hmode : reg c'.gr Idx.grBlitMode = reg c.gr Idx.grBlitMode := h.mode
  unfold blitSetup
  simp only [hmode]

theorem pixelBytes : (c'.blitSetup none).pixelBytes = (c.blitSetup none).pixelBytes := by
  show c'.blitPixelBytes = c.blitPixelBytes
  have hmode : reg c'.gr Idx.grBlitMode = reg c.gr Idx.grBlitMode := h.mode
  unfold blitPixelBytes
  rw [hmode]

theorem dstPitch : (c'.blitSetup none).dstPitch = (c.blitSetup none).dstPitch := by
  show c'.blitPitch Idx.grBlitDstPitchLo = c.blitPitch Idx.grBlitDstPitchLo
  unfold blitPitch
  rw [h _ (by decide) (by decide), h _ (by decide) (by decide)]

theorem srcPitch : (c'.blitSetup none).srcPitch = (c.blitSetup none).srcPitch := by
  show c'.blitPitch Idx.grBlitSrcPitchLo = c.blitPitch Idx.grBlitSrcPitchLo
  unfold blitPitch
  rw [h _ (by decide) (by decide), h _ (by decide) (by decide)]

end SameEngine

theorem sameEngine_withCount (c : Cirrus542x) (hlow : low + 1 < 0x24) (n : Nat) :
    SameEngine (c.withCount low n) c := fun i hi _ =>
  reg_withCount_of_ne c (by omega) n (by omega) (by omega)

theorem sameEngine_executeBlit (c : Cirrus542x) : SameEngine (c.executeBlit none) c :=
  fun i _ hi => reg_executeBlit c (by omega) (by omega)

theorem SameEngine.trans {c c' c'' : Cirrus542x} (h : SameEngine c'' c') (h' : SameEngine c' c) :
    SameEngine c'' c := fun i hlo hhi => (h i hlo hhi).trans (h' i hlo hhi)

theorem blitAddr_withCount (c : Cirrus542x) {addr : Nat} (hlow : low + 1 < addr)
    (haddr : addr + 2 < 64) (n : Nat) : (c.withCount low n).blitAddr addr = c.blitAddr addr :=
  blitAddr_congr (reg_withCount_of_ne c (by omega) n (by omega) (by omega))
    (reg_withCount_of_ne c (by omega) n (by omega) (by omega))
    (reg_withCount_of_ne c (by omega) n (by omega) (by omega))

/-- Past the first part, the counters stand where the rest of the copy starts. -/
theorem starts_after (hplain : c.PlainCopy) {b a' b' : Nat}
    (hdst : (c.blitSetup none).Inside c.vram.size (c.blitSetup none).dstStart (a + b))
    (hsrc : (c.blitSetup none).Inside c.vram.size (c.blitSetup none).srcStart (a' + b'))
    (hb : 0 < b) (hb' : 0 < b')
    (hdspan : ((c.blitSetup none).height - 1) * (c.blitSetup none).dstPitch +
      (c.blitSetup none).width = a)
    (hsspan : ((c.blitSetup none).height - 1) * (c.blitSetup none).srcPitch +
      (c.blitSetup none).width = a') :
    (c.executeBlit none).blitAddr Idx.grBlitDstAddrLo =
        (c.blitSetup none).past (c.blitSetup none).dstStart a ∧
      (c.executeBlit none).blitAddr Idx.grBlitSrcAddrLo =
        (c.blitSetup none).past (c.blitSetup none).srcStart a' := by
  rw [blitAddr_dst_executeBlit hplain, blitAddr_src_executeBlit hplain]
  unfold dstEnd srcEnd
  rw [hdspan, hsspan]
  exact ⟨advance_toNat hdst hb (c.blitAddr_lt _), advance_toNat hsrc hb' (c.blitAddr_lt _)⟩

/-! ## The two parts of a copy -/

theorem foldl_range_add {σ : Type} (f : σ → Nat → σ) (s : σ) (a b : Nat) :
    (List.range (a + b)).foldl f s =
      (List.range b).foldl (fun s i => f s (a + i)) ((List.range a).foldl f s) := by
  rw [List.range_add, List.foldl_append, List.foldl_map]

/-- The top bits of an address register are not the counter's. -/
theorem topBits_or (old : Byte) (address : Quad) :
    ((old &&& (0xE0 : Byte)) ||| (address.setWidth 8 &&& 0x1F)) &&& 0xE0 = old &&& 0xE0 := by
  have hself : (0xE0 : Byte) &&& (0xE0 : Byte) = 0xE0 := by decide
  have hapart : (0x1F : Byte) &&& (0xE0 : Byte) = 0 := by decide
  rw [BitVec.and_or_distrib_right, BitVec.and_assoc, BitVec.and_assoc, hself, hapart]
  simp

variable {n : Nat}

/-- Two copies that end at the same counters leave the same registers, the count apart. -/
theorem regs_continue (hplain : c.PlainCopy) (hlow : low + 1 < 0x24)
    (hdst : dstEnd ((((c.withCount low k).executeBlit none).withCount low n).blitSetup none) =
      dstEnd ((c.withCount low m).blitSetup none))
    (hsrc : srcEnd ((((c.withCount low k).executeBlit none).withCount low n).blitSetup none) =
      srcEnd ((c.withCount low m).blitSetup none)) (h0 : i ≠ low) (h1 : i ≠ low + 1) :
    reg ((((c.withCount low k).executeBlit none).withCount low n).executeBlit none).gr i =
      reg ((c.withCount low m).executeBlit none).gr i := by
  have hfirst := (sameEngine_withCount c hlow k).plain hplain
  have hwhole := (sameEngine_withCount c hlow m).plain hplain
  have hsecond := (sameEngine_withCount ((c.withCount low k).executeBlit none) hlow n).plain
    ((sameEngine_executeBlit _).plain hfirst)
  -- what the first part leaves alone
  have hkept : ∀ j, j ≠ low → j ≠ low + 1 → (j < 0x28 ∨ 0x2A < j) → (j < 0x2C ∨ 0x2E < j) →
      reg (((c.withCount low k).executeBlit none).withCount low n).gr j =
        reg (c.withCount low m).gr j := by
    intro j hj0 hj1 hd hs
    rw [reg_withCount_of_ne _ (by omega) n hj0 hj1, reg_executeBlit _ hd hs,
      reg_withCount_of_ne c (by omega) k hj0 hj1, reg_withCount_of_ne c (by omega) m hj0 hj1]
  have htop : ∀ j, j = 0x2A ∨ j = 0x2E →
      reg (((c.withCount low k).executeBlit none).withCount low n).gr j &&& (0xE0 : Byte) =
        reg (c.withCount low m).gr j &&& (0xE0 : Byte) := by
    rintro j (rfl | rfl)
    · rw [reg_withCount_of_ne _ (by omega) n (by omega) (by omega), reg_executeBlit_plain hfirst,
        if_neg (by decide), if_neg (by decide), if_neg (by decide), if_pos rfl, topBits_or,
        reg_withCount_of_ne c (by omega) k (by omega) (by omega),
        reg_withCount_of_ne c (by omega) m (by omega) (by omega)]
    · rw [reg_withCount_of_ne _ (by omega) n (by omega) (by omega), reg_executeBlit_plain hfirst,
        if_pos rfl, topBits_or, reg_withCount_of_ne c (by omega) k (by omega) (by omega),
        reg_withCount_of_ne c (by omega) m (by omega) (by omega)]
  rw [reg_executeBlit_plain hsecond, reg_executeBlit_plain hwhole, hdst, hsrc,
    htop 0x2E (.inr rfl), htop 0x2A (.inl rfl)]
  split_ifs with h2E h2D h2C h2A h29 h28
  iterate 6 rfl
  exact hkept i h0 h1 (by omega) (by omega)

theorem along_congr (hback : p'.backwards = p.backwards) (line x : Nat) :
    p'.along line x = p.along line x := by
  unfold BlitSetup.along
  rw [hback]

theorem past_congr (hback : p'.backwards = p.backwards) (start n : Nat) :
    p'.past start n = p.past start n := by
  unfold BlitSetup.past
  rw [hback]

variable {c' : Cirrus542x}

theorem blitHeight_congr (h : reg c'.gr 0x22 = reg c.gr 0x22)
    (h' : reg c'.gr 0x23 = reg c.gr 0x23) : c'.blitHeight = c.blitHeight := by
  unfold blitHeight
  rw [show reg c'.gr (Idx.grBlitHeightLo + 1) = reg c.gr (Idx.grBlitHeightLo + 1) from h',
    show reg c'.gr Idx.grBlitHeightLo = reg c.gr Idx.grBlitHeightLo from h]

theorem blitWidth_congr (h : reg c'.gr 0x20 = reg c.gr 0x20) (h' : reg c'.gr 0x21 = reg c.gr 0x21) :
    c'.blitWidth = c.blitWidth := by
  unfold blitWidth
  rw [show reg c'.gr (Idx.grBlitWidthLo + 1) = reg c.gr (Idx.grBlitWidthLo + 1) from h',
    show reg c'.gr Idx.grBlitWidthLo = reg c.gr Idx.grBlitWidthLo from h]

/-- The addresses of a setup that starts `n` bytes on from another. -/
structure StartsPast (p' p : BlitSetup) (n : Nat) : Prop where
  backwards : p'.backwards = p.backwards
  dst : p'.dstStart = p.past p.dstStart n
  src : p'.srcStart = p.past p.srcStart n
  dstRoom : p.backwards = true → n ≤ p.dstStart
  srcRoom : p.backwards = true → n ≤ p.srcStart

/-- The bytes of the first row, `n` columns on. -/
theorem copyByte_columns (h : StartsPast p' p n)
    (hreg : ∀ i, Idx.grBlitMode ≤ i → reg c'.gr i = reg c.gr i) (hmode : p'.mode = p.mode)
    (hbytes : p'.pixelBytes = p.pixelBytes) (hkey : p.transparent = false ∨ p.pixelBytes ∣ n)
    (vram : ByteSlice) (x : Nat) : c'.copyByte p' 0 vram x = c.copyByte p 0 vram (n + x) := by
  have hdst : ∀ x, p'.dstAt 0 x = p.dstAt 0 (n + x) := by
    intro x
    unfold BlitSetup.dstAt
    rw [lineStart_eq_past, lineStart_eq_past, Nat.zero_mul, Nat.zero_mul, past_zero, past_zero,
      h.dst]
    exact along_past h.backwards h.dstRoom x
  have hsrc : ∀ x, p'.srcAt 0 x = p.srcAt 0 (n + x) := by
    intro x
    unfold BlitSetup.srcAt
    rw [lineStart_eq_past, lineStart_eq_past, Nat.zero_mul, Nat.zero_mul, past_zero, past_zero,
      h.src]
    exact along_past h.backwards h.srcRoom x
  refine copyByte_congr hreg hmode hbytes (hdst x) (hsrc x) (fun ht i => ?_) vram
  -- a pixel of the second part is a pixel of the whole
  have hdvd : p.pixelBytes ∣ n := hkey.resolve_left (by rw [ht]; exact Bool.noConfusion)
  rw [hsrc]
  congr 1
  have hmod : (n + x) % p.pixelBytes = x % p.pixelBytes := by
    rw [Nat.add_mod, Nat.mod_eq_zero_of_dvd hdvd, Nat.zero_add, Nat.mod_mod]
  have := Nat.mod_le x p.pixelBytes
  omega

/-- The rows, `m` rows on, when the rows of a setup follow each other without a gap. -/
theorem copyByte_rows (h : StartsPast p' p (m * p.width))
    (hreg : ∀ i, Idx.grBlitMode ≤ i → reg c'.gr i = reg c.gr i) (hmode : p'.mode = p.mode)
    (hbytes : p'.pixelBytes = p.pixelBytes) (hpd : p.dstPitch = p.width)
    (hpd' : p'.dstPitch = p.width) (hps : p.srcPitch = p.width) (hps' : p'.srcPitch = p.width)
    (vram : ByteSlice) (y x : Nat) : c'.copyByte p' y vram x = c.copyByte p (m + y) vram x := by
  have hdst : ∀ x, p'.dstAt y x = p.dstAt (m + y) x := by
    intro x
    unfold BlitSetup.dstAt
    rw [lineStart_eq_past, lineStart_eq_past, hpd, hpd', h.dst, past_past h.backwards, Nat.add_mul]
    exact along_congr h.backwards _ x
  have hsrc : ∀ x, p'.srcAt y x = p.srcAt (m + y) x := by
    intro x
    unfold BlitSetup.srcAt
    rw [lineStart_eq_past, lineStart_eq_past, hps, hps', h.src, past_past h.backwards, Nat.add_mul]
    exact along_congr h.backwards _ x
  exact copyByte_congr hreg hmode hbytes (hdst x) (hsrc x) (fun _ i => hsrc _) vram

/-- A row, `m` rows on. -/
theorem copyRow_rows (h : StartsPast p' p (m * p.width))
    (hreg : ∀ i, Idx.grBlitMode ≤ i → reg c'.gr i = reg c.gr i) (hmode : p'.mode = p.mode)
    (hbytes : p'.pixelBytes = p.pixelBytes) (hw : p'.width = p.width) (hpd : p.dstPitch = p.width)
    (hpd' : p'.dstPitch = p.width) (hps : p.srcPitch = p.width) (hps' : p'.srcPitch = p.width) :
    c'.copyRow p' = fun vram y => c.copyRow p vram (m + y) := by
  funext vram y
  unfold copyRow
  have hbyte : c'.copyByte p' y = c.copyByte p (m + y) :=
    funext₂ fun v x => copyByte_rows h hreg hmode hbytes hpd hpd' hps hps' v y x
  rw [hw, hbyte]

/-! ## Columns after columns, rows after rows -/

theorem SameEngine.reg_eq (h : SameEngine c' c) (i : Nat) (hi : Idx.grBlitMode ≤ i) :
    reg c'.gr i = reg c.gr i := by
  have hmode : Idx.grBlitMode = 0x30 := rfl
  exact h i (by omega) (by omega)

theorem SameEngine.symm {c' c : Cirrus542x} (h : SameEngine c' c) : SameEngine c c' :=
  fun i hlo hhi => (h i hlo hhi).symm

theorem executeBlit_one_row (hplain : c.PlainCopy) (hheight : c.blitHeight = 1) :
    (c.executeBlit none).vram = c.copyRow (c.blitSetup none) c.vram 0 := by
  have hp : (c.blitSetup none).height = 1 := hheight
  rw [executeBlit_plain hplain, hp]
  rfl

theorem setup_width {w : Nat} (hw : c.blitWidth = w) (hpos : 0 < w) (hle : w ≤ c.vram.size) :
    (c.blitSetup none).width = w := by
  show min c.blitWidth (max c.vram.size 1) = w
  omega

/-- The rest of a copy starts past its first part. -/
theorem startsPast_withCount (hplain : c.PlainCopy) (hlow : low + 1 < 0x24) {b : Nat} (hb : 0 < b)
    (hdst : (c.blitSetup none).Inside c.vram.size (c.blitSetup none).dstStart (a + b))
    (hsrc : (c.blitSetup none).Inside c.vram.size (c.blitSetup none).srcStart (a + b))
    (hdspan : (((c.withCount low k).blitSetup none).height - 1) *
      ((c.withCount low k).blitSetup none).dstPitch + ((c.withCount low k).blitSetup none).width
        = a)
    (hsspan : (((c.withCount low k).blitSetup none).height - 1) *
      ((c.withCount low k).blitSetup none).srcPitch + ((c.withCount low k).blitSetup none).width
        = a) :
    StartsPast ((((c.withCount low k).executeBlit none).withCount low n).blitSetup none)
      ((c.withCount low m).blitSetup none) a := by
  have hd : Idx.grBlitDstAddrLo = 0x28 := rfl
  have hs : Idx.grBlitSrcAddrLo = 0x2C := rfl
  have hk := sameEngine_withCount c hlow k
  have hm := sameEngine_withCount c hlow m
  have hn := sameEngine_withCount ((c.withCount low k).executeBlit none) hlow n
  have he := sameEngine_executeBlit (c.withCount low k)
  have hback := (hn.trans (he.trans (hk.trans hm.symm))).backwards
  have hdk : ((c.withCount low k).blitSetup none).dstStart = (c.blitSetup none).dstStart :=
    blitAddr_withCount c (by omega) (by decide) k
  have hsk : ((c.withCount low k).blitSetup none).srcStart = (c.blitSetup none).srcStart :=
    blitAddr_withCount c (by omega) (by decide) k
  have hdm : ((c.withCount low m).blitSetup none).dstStart = (c.blitSetup none).dstStart :=
    blitAddr_withCount c (by omega) (by decide) m
  have hsm : ((c.withCount low m).blitSetup none).srcStart = (c.blitSetup none).srcStart :=
    blitAddr_withCount c (by omega) (by decide) m
  have hinside : ∀ start, (c.blitSetup none).Inside c.vram.size start (a + b) →
      ((c.withCount low k).blitSetup none).Inside (c.withCount low k).vram.size start (a + b) := by
    intro start h
    unfold BlitSetup.Inside at h ⊢
    rw [hk.backwards]
    exact h
  obtain ⟨hde, hse⟩ := starts_after (hk.plain hplain) (hdk ▸ hinside _ hdst)
    (hsk ▸ hinside _ hsrc) hb hb hdspan hsspan
  refine ⟨hback, ?_, ?_, ?_, ?_⟩
  · rw [hdm]
    refine (blitAddr_withCount _ (by omega) (by decide) n).trans (hde.trans ?_)
    rw [hdk]
    exact past_congr (hk.trans hm.symm).backwards _ _
  · rw [hsm]
    refine (blitAddr_withCount _ (by omega) (by decide) n).trans (hse.trans ?_)
    rw [hsk]
    exact past_congr (hk.trans hm.symm).backwards _ _
  · rw [hdm, hm.backwards]
    exact le_of_inside hdst hb
  · rw [hsm, hm.backwards]
    exact le_of_inside hsrc hb

/-- The first part of a copy starts where the whole does. -/
theorem startsPast_zero (c : Cirrus542x) (hlow : low + 1 < 0x24) (k m : Nat) :
    StartsPast ((c.withCount low k).blitSetup none) ((c.withCount low m).blitSetup none) 0 := by
  have hd : Idx.grBlitDstAddrLo = 0x28 := rfl
  have hs : Idx.grBlitSrcAddrLo = 0x2C := rfl
  have hk := sameEngine_withCount c hlow k
  have hm := sameEngine_withCount c hlow m
  refine ⟨(hk.trans hm.symm).backwards, ?_, ?_, fun _ => Nat.zero_le _, fun _ => Nat.zero_le _⟩
  · rw [past_zero]
    exact (blitAddr_withCount c (by omega) (by decide) k).trans
      (blitAddr_withCount c (by omega) (by decide) m).symm
  · rw [past_zero]
    exact (blitAddr_withCount c (by omega) (by decide) k).trans
      (blitAddr_withCount c (by omega) (by decide) m).symm

/-- **A row in two parts.** -/
theorem row_continues (hplain : c.PlainCopy) (hheight : c.blitHeight = 1) {w₁ w₂ : Nat}
    (h₁ : 0 < w₁) (h₂ : 0 < w₂) (hle : w₁ + w₂ ≤ 2048)
    (hkey : (c.blitSetup none).transparent = false ∨ c.blitPixelBytes ∣ w₁)
    (hdst : (c.blitSetup none).Inside c.vram.size (c.blitSetup none).dstStart (w₁ + w₂))
    (hsrc : (c.blitSetup none).Inside c.vram.size (c.blitSetup none).srcStart (w₁ + w₂)) :
    (((c.withWidth w₁).executeBlit none).withWidth w₂ |>.executeBlit none).vram =
        ((c.withWidth (w₁ + w₂)).executeBlit none).vram ∧
      ∀ i, i ≠ 0x20 → i ≠ 0x21 →
        reg (((c.withWidth w₁).executeBlit none).withWidth w₂ |>.executeBlit none).gr i =
          reg ((c.withWidth (w₁ + w₂)).executeBlit none).gr i := by
  have hsize := span_le_of_inside hdst
  have hlow : Idx.grBlitWidthLo + 1 < 0x24 := by decide
  have ha : SameEngine (c.withWidth w₁) c := sameEngine_withCount c hlow w₁
  have hone : SameEngine (c.withWidth (w₁ + w₂)) c := sameEngine_withCount c hlow (w₁ + w₂)
  have hb : SameEngine (((c.withWidth w₁).executeBlit none).withWidth w₂) c :=
    (sameEngine_withCount _ hlow w₂).trans ((sameEngine_executeBlit _).trans ha)
  have hheights : ∀ (c' : Cirrus542x) n, c'.blitHeight = 1 → (c'.withWidth n).blitHeight = 1 :=
    fun c' n h => (blitHeight_congr (reg_withCount_of_ne c' (by decide) n (by decide) (by decide))
      (reg_withCount_of_ne c' (by decide) n (by decide) (by decide))).trans h
  have hha := hheights c w₁ hheight
  have hhe : ((c.withWidth w₁).executeBlit none).blitHeight = 1 :=
    (blitHeight_congr (reg_executeBlit _ (by decide) (by decide))
      (reg_executeBlit _ (by decide) (by decide))).trans hha
  have hhb := hheights _ w₂ hhe
  have hhone := hheights c (w₁ + w₂) hheight
  have hwa : ((c.withWidth w₁).blitSetup none).width = w₁ :=
    setup_width (blitWidth_withWidth c h₁ (by omega)) h₁ (show w₁ ≤ c.vram.size by omega)
  have hwb : ((((c.withWidth w₁).executeBlit none).withWidth w₂).blitSetup none).width = w₂ := by
    refine setup_width (blitWidth_withWidth _ h₂ (by omega)) h₂ ?_
    show w₂ ≤ ((c.withWidth w₁).executeBlit none).vram.size
    rw [executeBlit_size]
    show w₂ ≤ c.vram.size
    omega
  have hwone : ((c.withWidth (w₁ + w₂)).blitSetup none).width = w₁ + w₂ :=
    setup_width (blitWidth_withWidth c (by omega) hle) (by omega) (show w₁ + w₂ ≤ c.vram.size from
      hsize)
  have hpa : ((c.withWidth w₁).blitSetup none).height = 1 := hha
  have hpb : ((((c.withWidth w₁).executeBlit none).withWidth w₂).blitSetup none).height = 1 := hhb
  have hpone : ((c.withWidth (w₁ + w₂)).blitSetup none).height = 1 := hhone
  have hfirst : StartsPast ((c.withWidth w₁).blitSetup none)
      ((c.withWidth (w₁ + w₂)).blitSetup none) 0 := startsPast_zero c hlow w₁ (w₁ + w₂)
  have hspan : ∀ pitch, (((c.withWidth w₁).blitSetup none).height - 1) * pitch +
      ((c.withWidth w₁).blitSetup none).width = w₁ := by
    intro pitch
    rw [hpa, hwa, Nat.sub_self, Nat.zero_mul, Nat.zero_add]
  have hrest : StartsPast ((((c.withWidth w₁).executeBlit none).withWidth w₂).blitSetup none)
      ((c.withWidth (w₁ + w₂)).blitSetup none) w₁ :=
    startsPast_withCount hplain hlow h₂ hdst hsrc (hspan _) (hspan _)
  constructor
  · rw [executeBlit_one_row (hb.plain hplain) hhb, executeBlit_one_row (hone.plain hplain) hhone]
    rw [withWidth_vram, withWidth_vram, executeBlit_one_row (ha.plain hplain) hha, withWidth_vram]
    unfold copyRow
    rw [hwa, hwb, hwone, foldl_range_add]
    have hkey' : ((c.withWidth (w₁ + w₂)).blitSetup none).transparent = false ∨
        ((c.withWidth (w₁ + w₂)).blitSetup none).pixelBytes ∣ w₁ := by
      refine hkey.imp (fun h => ?_) (fun h => ?_)
      · unfold BlitSetup.transparent at h ⊢
        rw [hone.mode]
        exact h
      · rw [hone.pixelBytes]
        exact h
    have hpart₁ : (c.withWidth w₁).copyByte ((c.withWidth w₁).blitSetup none) 0 =
        (c.withWidth (w₁ + w₂)).copyByte ((c.withWidth (w₁ + w₂)).blitSetup none) 0 := by
      funext v x
      have h := copyByte_columns hfirst (ha.trans hone.symm).reg_eq (ha.trans hone.symm).mode
        (ha.trans hone.symm).pixelBytes (.inr (Nat.dvd_zero _)) v x
      rwa [Nat.zero_add] at h
    have hpart₂ : (((c.withWidth w₁).executeBlit none).withWidth w₂).copyByte
        ((((c.withWidth w₁).executeBlit none).withWidth w₂).blitSetup none) 0 = fun v x =>
          (c.withWidth (w₁ + w₂)).copyByte ((c.withWidth (w₁ + w₂)).blitSetup none) 0 v
            (w₁ + x) :=
      funext₂ (copyByte_columns hrest (hb.trans hone.symm).reg_eq (hb.trans hone.symm).mode
        (hb.trans hone.symm).pixelBytes hkey')
    rw [hpart₁, hpart₂]
  · refine fun i h0 h1 => regs_continue hplain hlow ?_ ?_ h0 h1
    · show dstEnd ((((c.withWidth w₁).executeBlit none).withWidth w₂).blitSetup none) =
        dstEnd ((c.withWidth (w₁ + w₂)).blitSetup none)
      unfold dstEnd
      rw [hpb, hpone, hwb, hwone, Nat.sub_self, Nat.zero_mul, Nat.zero_add, Nat.zero_mul,
        Nat.zero_add, hrest.dst]
      exact advance_past hrest.backwards hrest.dstRoom w₂
    · show srcEnd ((((c.withWidth w₁).executeBlit none).withWidth w₂).blitSetup none) =
        srcEnd ((c.withWidth (w₁ + w₂)).blitSetup none)
      unfold srcEnd
      rw [hpb, hpone, hwb, hwone, Nat.sub_self, Nat.zero_mul, Nat.zero_add, Nat.zero_mul,
        Nat.zero_add, hrest.src]
      exact advance_past hrest.backwards hrest.srcRoom w₂

/-- Rows that follow each other without a gap, as one span. -/
theorem span_of_rows {height width : Nat} (h : 0 < height) :
    (height - 1) * width + width = height * width := by
  rw [← Nat.succ_mul, Nat.succ_eq_add_one, Nat.sub_add_cancel h]

/-- **Rows in two parts**, when each row starts where the one before ends. -/
theorem rows_continue (hplain : c.PlainCopy) (hdp : c.blitPitch Idx.grBlitDstPitchLo = c.blitWidth)
    (hsp : c.blitPitch Idx.grBlitSrcPitchLo = c.blitWidth) {h₁ h₂ : Nat} (hpos₁ : 0 < h₁)
    (hpos₂ : 0 < h₂) (hle : h₁ + h₂ ≤ 1024)
    (hdst : (c.blitSetup none).Inside c.vram.size (c.blitSetup none).dstStart
      ((h₁ + h₂) * c.blitWidth))
    (hsrc : (c.blitSetup none).Inside c.vram.size (c.blitSetup none).srcStart
      ((h₁ + h₂) * c.blitWidth)) :
    (((c.withHeight h₁).executeBlit none).withHeight h₂ |>.executeBlit none).vram =
        ((c.withHeight (h₁ + h₂)).executeBlit none).vram ∧
      ∀ i, i ≠ 0x22 → i ≠ 0x23 →
        reg (((c.withHeight h₁).executeBlit none).withHeight h₂ |>.executeBlit none).gr i =
          reg ((c.withHeight (h₁ + h₂)).executeBlit none).gr i := by
  have hwpos : 0 < c.blitWidth := Nat.succ_pos _
  rw [Nat.add_mul] at hdst hsrc
  have hpos : 0 < h₂ * c.blitWidth := Nat.mul_pos hpos₂ hwpos
  have hsize := span_le_of_inside hdst
  have hwle : c.blitWidth ≤ c.vram.size :=
    Nat.le_trans (Nat.le_mul_of_pos_left _ hpos₂) (by omega)
  have hlow : Idx.grBlitHeightLo + 1 < 0x24 := by decide
  have ha : SameEngine (c.withHeight h₁) c := sameEngine_withCount c hlow h₁
  have hone : SameEngine (c.withHeight (h₁ + h₂)) c := sameEngine_withCount c hlow (h₁ + h₂)
  have hb : SameEngine (((c.withHeight h₁).executeBlit none).withHeight h₂) c :=
    (sameEngine_withCount _ hlow h₂).trans ((sameEngine_executeBlit _).trans ha)
  have hwidths : ∀ (c' : Cirrus542x) n, c'.blitWidth = c.blitWidth →
      (c'.withHeight n).blitWidth = c.blitWidth := fun c' n h =>
    (blitWidth_congr (reg_withCount_of_ne c' (by decide) n (by decide) (by decide))
      (reg_withCount_of_ne c' (by decide) n (by decide) (by decide))).trans h
  have hwe : ((c.withHeight h₁).executeBlit none).blitWidth = c.blitWidth :=
    (blitWidth_congr (reg_executeBlit _ (by decide) (by decide))
      (reg_executeBlit _ (by decide) (by decide))).trans (hwidths c h₁ rfl)
  have hwa : ((c.withHeight h₁).blitSetup none).width = c.blitWidth :=
    setup_width (hwidths c h₁ rfl) hwpos hwle
  have hwb : ((((c.withHeight h₁).executeBlit none).withHeight h₂).blitSetup none).width =
      c.blitWidth := by
    refine setup_width (hwidths _ h₂ hwe) hwpos ?_
    rw [withHeight_vram, executeBlit_size, withHeight_vram]
    exact hwle
  have hwone : ((c.withHeight (h₁ + h₂)).blitSetup none).width = c.blitWidth :=
    setup_width (hwidths c (h₁ + h₂) rfl) hwpos hwle
  have hpa : ((c.withHeight h₁).blitSetup none).height = h₁ :=
    blitHeight_withHeight c hpos₁ (by omega)
  have hpb : ((((c.withHeight h₁).executeBlit none).withHeight h₂).blitSetup none).height = h₂ :=
    blitHeight_withHeight _ hpos₂ (by omega)
  have hpone : ((c.withHeight (h₁ + h₂)).blitSetup none).height = h₁ + h₂ :=
    blitHeight_withHeight c (by omega) hle
  have hdpa : ∀ {c' : Cirrus542x}, SameEngine c' c →
      (c'.blitSetup none).dstPitch = c.blitWidth := fun h => h.dstPitch.trans hdp
  have hspa : ∀ {c' : Cirrus542x}, SameEngine c' c →
      (c'.blitSetup none).srcPitch = c.blitWidth := fun h => h.srcPitch.trans hsp
  have hfirst : StartsPast ((c.withHeight h₁).blitSetup none)
      ((c.withHeight (h₁ + h₂)).blitSetup none) 0 := startsPast_zero c hlow h₁ (h₁ + h₂)
  have hrest : StartsPast ((((c.withHeight h₁).executeBlit none).withHeight h₂).blitSetup none)
      ((c.withHeight (h₁ + h₂)).blitSetup none) (h₁ * c.blitWidth) := by
    have hspan : (((c.withHeight h₁).blitSetup none).height - 1) * c.blitWidth +
        ((c.withHeight h₁).blitSetup none).width = h₁ * c.blitWidth := by
      rw [hpa, hwa, span_of_rows hpos₁]
    refine startsPast_withCount hplain hlow hpos hdst hsrc ?_ ?_
    · exact (hdpa ha).symm ▸ hspan
    · exact (hspa ha).symm ▸ hspan
  have hfirst' : StartsPast ((c.withHeight h₁).blitSetup none)
      ((c.withHeight (h₁ + h₂)).blitSetup none)
      (0 * ((c.withHeight (h₁ + h₂)).blitSetup none).width) := by
    rw [Nat.zero_mul]
    exact hfirst
  have hrest' : StartsPast ((((c.withHeight h₁).executeBlit none).withHeight h₂).blitSetup none)
      ((c.withHeight (h₁ + h₂)).blitSetup none)
      (h₁ * ((c.withHeight (h₁ + h₂)).blitSetup none).width) := by
    rw [hwone]
    exact hrest
  constructor
  · rw [executeBlit_plain (hb.plain hplain), executeBlit_plain (hone.plain hplain), withHeight_vram,
      withHeight_vram, executeBlit_plain (ha.plain hplain), withHeight_vram, hpa, hpb, hpone,
      foldl_range_add]
    have hpart₁ := copyRow_rows (m := 0) hfirst' (ha.trans hone.symm).reg_eq
      (ha.trans hone.symm).mode (ha.trans hone.symm).pixelBytes (hwa.trans hwone.symm)
      ((hdpa hone).trans hwone.symm) ((hdpa ha).trans hwone.symm) ((hspa hone).trans hwone.symm)
      ((hspa ha).trans hwone.symm)
    have hpart₂ := copyRow_rows hrest' (hb.trans hone.symm).reg_eq (hb.trans hone.symm).mode
      (hb.trans hone.symm).pixelBytes (hwb.trans hwone.symm) ((hdpa hone).trans hwone.symm)
      ((hdpa hb).trans hwone.symm) ((hspa hone).trans hwone.symm) ((hspa hb).trans hwone.symm)
    simp only [Nat.zero_add] at hpart₁
    rw [hpart₁, hpart₂]
  · refine fun i h0 h1 => regs_continue hplain hlow ?_ ?_ h0 h1
    · show dstEnd ((((c.withHeight h₁).executeBlit none).withHeight h₂).blitSetup none) =
        dstEnd ((c.withHeight (h₁ + h₂)).blitSetup none)
      unfold dstEnd
      rw [hpb, hpone, hwb, hwone, hdpa hb, hdpa hone, span_of_rows hpos₂,
        span_of_rows (by omega : 0 < h₁ + h₂), hrest.dst, Nat.add_mul]
      exact advance_past hrest.backwards hrest.dstRoom _
    · show srcEnd ((((c.withHeight h₁).executeBlit none).withHeight h₂).blitSetup none) =
        srcEnd ((c.withHeight (h₁ + h₂)).blitSetup none)
      unfold srcEnd
      rw [hpb, hpone, hwb, hwone, hspa hb, hspa hone, span_of_rows hpos₂,
        span_of_rows (by omega : 0 < h₁ + h₂), hrest.src, Nat.add_mul]
      exact advance_past hrest.backwards hrest.srcRoom _

/-- The two boards hold the same VRAM and the same blit registers, the count at `low` apart. -/
structure AgreeBut (low : Nat) (c' c : Cirrus542x) : Prop where
  vram : c'.vram = c.vram
  registers : ∀ i, i ≠ low → i ≠ low + 1 → reg c'.gr i = reg c.gr i

/-- **A blit goes on where the last one stopped.** A plain copy of a row in two blits is the one
blit of the row, and a copy of rows with pitches equal to the width the one blit of the rows,
whatever the direction, overlap and raster operation, as long as the addresses are VRAM's and a
colour key is not cut through a pixel. -/
theorem blit_continues {c : Cirrus542x} (hplain : c.PlainCopy) :
    (∀ w₁ w₂, 0 < w₁ → 0 < w₂ → w₁ + w₂ ≤ 2048 → c.blitHeight = 1 →
      reg c.gr Idx.grBlitMode &&& BlitMode.transparent = 0 ∨ c.blitPixelBytes ∣ w₁ →
      (c.blitSetup none).Inside c.vram.size (c.blitAddr Idx.grBlitDstAddrLo) (w₁ + w₂) →
      (c.blitSetup none).Inside c.vram.size (c.blitAddr Idx.grBlitSrcAddrLo) (w₁ + w₂) →
      AgreeBut Idx.grBlitWidthLo ((c.withWidth w₁).startBlit.withWidth w₂).startBlit
        (c.withWidth (w₁ + w₂)).startBlit) ∧
    ∀ h₁ h₂, 0 < h₁ → 0 < h₂ → h₁ + h₂ ≤ 1024 →
      c.blitPitch Idx.grBlitDstPitchLo = c.blitWidth →
      c.blitPitch Idx.grBlitSrcPitchLo = c.blitWidth →
      (c.blitSetup none).Inside c.vram.size (c.blitAddr Idx.grBlitDstAddrLo)
        ((h₁ + h₂) * c.blitWidth) →
      (c.blitSetup none).Inside c.vram.size (c.blitAddr Idx.grBlitSrcAddrLo)
        ((h₁ + h₂) * c.blitWidth) →
      AgreeBut Idx.grBlitHeightLo ((c.withHeight h₁).startBlit.withHeight h₂).startBlit
        (c.withHeight (h₁ + h₂)).startBlit := by
  have hcount : ∀ {c : Cirrus542x} {low : Nat}, low + 1 < 0x24 → c.PlainCopy → ∀ n,
      (c.withCount low n).PlainCopy := fun hlow h n => (sameEngine_withCount _ hlow n).plain h
  have hdone : ∀ {c : Cirrus542x}, c.PlainCopy → (c.executeBlit none).PlainCopy := fun h =>
    (sameEngine_executeBlit _).plain h
  constructor
  · intro w₁ w₂ h₁ h₂ hle hheight hkey hdst hsrc
    have hlow : Idx.grBlitWidthLo + 1 < 0x24 := by decide
    have ha : (c.withWidth w₁).PlainCopy := hcount hlow hplain w₁
    have hb : (((c.withWidth w₁).executeBlit none).withWidth w₂).PlainCopy :=
      hcount hlow (hdone ha) w₂
    have hone : (c.withWidth (w₁ + w₂)).PlainCopy := hcount hlow hplain (w₁ + w₂)
    have hkey' : (c.blitSetup none).transparent = false ∨ c.blitPixelBytes ∣ w₁ := by
      refine hkey.imp_left fun h => ?_
      show decide (reg c.gr Idx.grBlitMode &&& BlitMode.transparent ≠ 0) = false
      rw [h]
      rfl
    rw [startBlit_plain ha, startBlit_plain hb, startBlit_plain hone]
    obtain ⟨hvram, hregs⟩ := row_continues hplain hheight h₁ h₂ hle hkey' hdst hsrc
    exact ⟨hvram, hregs⟩
  · intro h₁ h₂ hpos₁ hpos₂ hle hdp hsp hdst hsrc
    have hlow : Idx.grBlitHeightLo + 1 < 0x24 := by decide
    have ha : (c.withHeight h₁).PlainCopy := hcount hlow hplain h₁
    have hb : (((c.withHeight h₁).executeBlit none).withHeight h₂).PlainCopy :=
      hcount hlow (hdone ha) h₂
    have hone : (c.withHeight (h₁ + h₂)).PlainCopy := hcount hlow hplain (h₁ + h₂)
    rw [startBlit_plain ha, startBlit_plain hb, startBlit_plain hone]
    obtain ⟨hvram, hregs⟩ := rows_continue hplain hdp hsp hpos₁ hpos₂ hle hdst hsrc
    exact ⟨hvram, hregs⟩

/-- Three bytes of VRAM, the second and third of which take what is one byte below them. -/
def smearingCirrus : Cirrus542x :=
  { Cirrus542x.new .gd5428 ⟨3, fun i => if i.val = 0 then 0xAA else 0⟩ with
    gr := ((Vector.replicate 64 0).setIfInBounds Idx.grBlitDstAddrLo 1).setIfInBounds
      Idx.grBlitRop 0x0D }

/-- A source that the copy overwrites is smeared over the row, in one blit or in two. -/
theorem blit_continues_through_an_overlap :
    (smearingCirrus.withWidth 2).startBlit.vram.get? 2 = some 0xAA ∧
      AgreeBut Idx.grBlitWidthLo ((smearingCirrus.withWidth 1).startBlit.withWidth 1).startBlit
        (smearingCirrus.withWidth 2).startBlit := by
  have hplain : smearingCirrus.PlainCopy := ⟨by decide, by decide, by decide⟩
  refine ⟨by decide, ?_⟩
  exact (blit_continues hplain).1 1 1 (by decide) (by decide) (by decide) (by decide)
    (.inl (by decide)) ⟨by decide, by decide⟩ ⟨by decide, by decide⟩

end Cirrus542x

end M68kMachine
