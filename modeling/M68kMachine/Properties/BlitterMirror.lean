import M68kMachine.Properties.BlitterWords

/-!
# Descending blits

A descending blit is an ascending one seen in a mirror: chip RAM back to front, pointers counted
from the other end, masks and data registers reversed. Side by side the two stay mirror images word
by word (`mirrors_word`).

* `mirrorPtr`, `mirrorRam`, `mirrored` — the mirror
* `Mirrors` — two states of a blit that are images of each other
* `descending_is_mirrored_ascending` — the blits
-/

namespace M68kMachine

namespace Blitter

/-! ## The mirror -/

/-- The word at the other end of chip RAM; the bit that addresses no word stays. -/
def mirrorPtr (p : Long) : Long := (0x1FFFFE - (p &&& ~~~1)) + (p &&& 1)

def mirrorRam (ram : Buffer Byte chipRamSize) : Buffer Byte chipRamSize := fun i =>
  (ram ⟨chipRamSize - 1 - i.val, by have := i.isLt; omega⟩).reverse

/-- The registers in the mirror, with the direction turned round. -/
def mirrored (b : Blitter) : Blitter :=
  { b with
    bltcon1 := b.bltcon1 ^^^ bltcon1Desc
    bltafwm := b.bltafwm.reverse
    bltalwm := b.bltalwm.reverse
    pt := fun ch => mirrorPtr (b.pt ch)
    dat := fun ch => (b.dat ch).reverse
    bltddat := b.bltddat.reverse }

theorem toNat_low (p : Long) : (p &&& 1).toNat = p.toNat % 2 := by
  rw [BitVec.toNat_and]
  simp

theorem toNat_high (p : Long) : (p &&& ~~~1).toNat = p.toNat / 2 * 2 := by
  have hp := p.isLt
  have hmask : (~~~1 : Long).toNat = (2 ^ 31 - 1) * 2 := by decide
  rw [BitVec.toNat_and, hmask, and_even_mask]
  omega

theorem toNat_mirrorPtr (p : Long) :
    (mirrorPtr p).toNat =
      (0x1FFFFE + (0x100000000 - p.toNat / 2 * 2)) % 0x100000000 + p.toNat % 2 := by
  have hp := p.isLt
  have hmax : (0x1FFFFE : Long).toNat = 0x1FFFFE := rfl
  unfold mirrorPtr
  rw [BitVec.toNat_add, BitVec.toNat_sub, toNat_low, toNat_high, hmax]
  omega

theorem chipAddr_mirrorPtr (p : Long) : chipAddr (mirrorPtr p) = 0x1FFFFE - chipAddr p := by
  have hp := p.isLt
  rw [chipAddr_eq, chipAddr_eq, toNat_mirrorPtr]
  omega

/-- A step on one side is a step back on the other. -/
theorem mirrorPtr_add (p : Long) {d : Long} (hd : d.toNat % 2 = 0) :
    mirrorPtr (p + d) = mirrorPtr p + -d := by
  have hp := p.isLt
  have hd' := d.isLt
  refine BitVec.eq_of_toNat_eq ?_
  rw [toNat_mirrorPtr, BitVec.toNat_add, BitVec.toNat_add, toNat_mirrorPtr, BitVec.toNat_neg]
  omega

/-! ## Words in the mirror -/

theorem getLsbD_reverse_word (w : Word) {i : Nat} (hi : i < 16) :
    w.reverse.getLsbD i = w.getLsbD (15 - i) := by
  rw [BitVec.getLsbD_reverse, BitVec.getMsbD_eq_getLsbD, decide_eq_true hi, Bool.true_and]

theorem reverse_and (v w : Word) : (v &&& w).reverse = v.reverse &&& w.reverse := by
  refine BitVec.eq_of_getLsbD_eq fun i hi => ?_
  rw [BitVec.getLsbD_and, getLsbD_reverse_word _ hi, getLsbD_reverse_word _ hi,
    getLsbD_reverse_word _ hi, BitVec.getLsbD_and]

theorem minterm_reverse (lf : Byte) (a b c : Word) :
    minterm lf a.reverse b.reverse c.reverse = (minterm lf a b c).reverse := by
  refine BitVec.eq_of_getLsbD_eq fun i hi => ?_
  rw [getLsbD_reverse_word _ hi, getLsbD_minterm _ _ _ _ hi,
    getLsbD_minterm _ _ _ _ (by omega : 15 - i < 16), getLsbD_reverse_word _ hi,
    getLsbD_reverse_word _ hi, getLsbD_reverse_word _ hi]

/-- The shifter in the mirror runs the other way. -/
theorem shiftCombine_reverse (prev cur : Word) {n : Nat} (hn : n < 16) :
    shiftCombine prev.reverse cur.reverse n false = (shiftCombine prev cur n true).reverse := by
  refine BitVec.eq_of_getLsbD_eq fun i hi => ?_
  rw [getLsbD_reverse_word _ hi, getLsbD_shift_ascending _ _ hi,
    getLsbD_shift_descending _ _ hn (by omega : 15 - i < 16)]
  by_cases hlow : i + n < 16
  · rw [if_pos hlow, if_pos (by omega), getLsbD_reverse_word _ hlow,
      show 15 - (i + n) = 15 - i - n by omega]
  · rw [if_neg hlow, if_neg (by omega), getLsbD_reverse_word _ (by omega),
      show 15 - (i + n - 16) = 15 - i + 16 - n by omega]

theorem reverse_eq_zero {d : Word} : d.reverse = 0 ↔ d = 0 := BitVec.reverse_eq_zero_iff

/-- Two memories that are mirror images. -/
def MirrorMem (m m' : BlitRam) : Prop := m'.ram = mirrorRam m.ram

theorem reverse_append_bytes (hi lo : Byte) :
    (hi ++ lo : Word).reverse = lo.reverse ++ hi.reverse :=
  BitVec.reverse_append

variable {m m' : BlitRam}

theorem MirrorMem.byte (h : MirrorMem m m') {i j : Nat} (hi : i < chipRamSize)
    (hj : j < chipRamSize) (hsum : i + j = chipRamSize - 1) :
    m'.ram ⟨i, hi⟩ = (m.ram ⟨j, hj⟩).reverse := by
  have hcell : (⟨chipRamSize - 1 - i, by omega⟩ : Fin chipRamSize) = ⟨j, hj⟩ :=
    Fin.ext (by show chipRamSize - 1 - i = j; omega)
  rw [show m'.ram = mirrorRam m.ram from h]
  exact congrArg (fun cell => (m.ram cell).reverse) hcell

theorem MirrorMem.readWord {m m' : BlitRam} (h : MirrorMem m m') (p : Long) :
    m'.readWord (mirrorPtr p) = (m.readWord p).reverse := by
  have haddr := chipAddr_mirrorPtr p
  have hlt := chipAddr_lt p
  unfold BlitRam.readWord
  rw [reverse_append_bytes]
  congr 1
  · exact h.byte _ _ (by simp only [chipRamSize] at hlt ⊢; omega)
  · exact h.byte _ _ (by simp only [chipRamSize] at hlt ⊢; omega)

theorem MirrorMem.writeWord {m m' : BlitRam} (h : MirrorMem m m') (p : Long) (value : Word) :
    MirrorMem (m.writeWord p value) (m'.writeWord (mirrorPtr p) value.reverse) := by
  have haddr := chipAddr_mirrorPtr p
  have hlt := chipAddr_lt p
  -- Reversing a word swaps its bytes and reverses each.
  have hhigh : (value.reverse >>> 8).setWidth 8 = (value.setWidth 8 : Byte).reverse := by
    refine BitVec.eq_of_getLsbD_eq fun i hi => ?_
    rw [BitVec.getLsbD_setWidth, BitVec.getLsbD_ushiftRight,
      getLsbD_reverse_word _ (by omega : 8 + i < 16), BitVec.getLsbD_reverse,
      BitVec.getMsbD_eq_getLsbD, BitVec.getLsbD_setWidth, decide_eq_true hi,
      decide_eq_true (by omega : 8 - 1 - i < 8), show 15 - (8 + i) = 8 - 1 - i by omega]
    rfl
  have hlow : (value.reverse.setWidth 8 : Byte) = ((value >>> 8).setWidth 8 : Byte).reverse := by
    refine BitVec.eq_of_getLsbD_eq fun i hi => ?_
    rw [BitVec.getLsbD_setWidth, getLsbD_reverse_word _ (by omega : i < 16),
      BitVec.getLsbD_reverse, BitVec.getMsbD_eq_getLsbD, BitVec.getLsbD_setWidth,
      BitVec.getLsbD_ushiftRight, decide_eq_true hi, decide_eq_true (by omega : 8 - 1 - i < 8),
      show 15 - i = 8 + (8 - 1 - i) by omega]
    rfl
  funext cell
  obtain ⟨i, hi⟩ := cell
  have hbyte (m : BlitRam) (p : Long) (value : Word) (i : Nat) (hi : i < chipRamSize) :
      (m.writeWord p value).ram ⟨i, hi⟩ =
        if i = chipAddr p + 1 then value.setWidth 8
        else if i = chipAddr p then (value >>> 8).setWidth 8 else m.ram ⟨i, hi⟩ := rfl
  have hmirror : mirrorRam (m.writeWord p value).ram ⟨i, hi⟩ =
      ((m.writeWord p value).ram ⟨chipRamSize - 1 - i, by omega⟩).reverse := rfl
  rw [hmirror, hbyte, hbyte, hhigh, hlow]
  simp only [chipRamSize] at hi hlt ⊢
  split
  · rw [if_neg (by omega), if_pos (by omega)]
  · split
    · rw [if_pos (by omega)]
    · rw [if_neg (by omega), if_neg (by omega)]
      exact h.byte _ _ (by simp only [chipRamSize]; omega)

/-! ## Side by side -/

/-- The setups of a descending blit without fill and of its image. -/
structure AreaSetup.Mirrors (p q : AreaSetup) : Prop where
  channels : q.useA = p.useA ∧ q.useB = p.useB ∧ q.useC = p.useC ∧ q.useD = p.useD
  shifts : q.ash = p.ash ∧ q.bsh = p.bsh ∧ p.ash < 16 ∧ p.bsh < 16
  direction : p.desc = true ∧ q.desc = false
  plain : p.fill = false ∧ q.fill = false
  lf : q.lf = p.lf
  masks : q.afwm = p.afwm.reverse ∧ q.alwm = p.alwm.reverse
  data : q.adat = p.adat.reverse ∧ q.bdat = p.bdat.reverse
  step : q.step = -p.step ∧ p.step.toNat % 2 = 0
  amod : q.amod = -p.amod ∧ p.amod.toNat % 2 = 0
  bmod : q.bmod = -p.bmod ∧ p.bmod.toNat % 2 = 0
  cmod : q.cmod = -p.cmod ∧ p.cmod.toNat % 2 = 0
  dmod : q.dmod = -p.dmod ∧ p.dmod.toNat % 2 = 0
  width : q.widthWords = p.widthWords

/-- Two states of a blit that are mirror images. The fill takes no part. -/
structure Mirrors (s t : AreaState) : Prop where
  mem : MirrorMem s.mem t.mem
  apt : t.apt = mirrorPtr s.apt
  bpt : t.bpt = mirrorPtr s.bpt
  cpt : t.cpt = mirrorPtr s.cpt
  dpt : t.dpt = mirrorPtr s.dpt
  aPrev : t.aPrev = s.aPrev.reverse
  bPrev : t.bPrev = s.bPrev.reverse
  cDat : t.cDat = s.cDat.reverse
  lastD : t.lastD = s.lastD.reverse
  zero : t.zero = s.zero

/-- A pointer that is stepped, or not. -/
theorem mirrorPtr_step {x y d e : Long} (use : Bool) (h : y = mirrorPtr x)
    (hd : e = -d ∧ d.toNat % 2 = 0) :
    (if use then y + e else y) = mirrorPtr (if use then x + d else x) := by
  cases use with
  | false => exact h
  | true => rw [if_pos rfl, if_pos rfl, mirrorPtr_add x hd.2, h, hd.1]

variable {p q : AreaSetup} {s t : AreaState}

theorem mirrors_channelA (hp : p.Mirrors q) (h : Mirrors s t) (wordIdx : Nat) :
    (q.channelA t wordIdx).1 = (p.channelA s wordIdx).1.reverse ∧
      Mirrors (p.channelA s wordIdx).2 (q.channelA t wordIdx).2 := by
  have hraw : (if q.useA then t.mem.readWord t.apt else q.adat) =
      (if p.useA then s.mem.readWord s.apt else p.adat).reverse := by
    rw [hp.channels.1, h.apt, hp.data.1]
    cases p.useA with
    | false => rfl
    | true => exact h.mem.readWord s.apt
  unfold AreaSetup.channelA
  simp only
  rw [hraw, hp.width, hp.masks.1, hp.masks.2, hp.shifts.1, hp.direction.1, hp.direction.2, h.aPrev]
  generalize (if p.useA then s.mem.readWord s.apt else p.adat) = raw
  -- A word is the first or the last of its row on both sides, under the same mask reversed.
  have hfirst : (if wordIdx = 0 then raw.reverse &&& p.afwm.reverse else raw.reverse) =
      (if wordIdx = 0 then raw &&& p.afwm else raw).reverse := by
    rw [← reverse_and]
    split <;> rfl
  rw [hfirst]
  generalize (if wordIdx = 0 then raw &&& p.afwm else raw) = first
  have hmasked : (if wordIdx + 1 = p.widthWords then first.reverse &&& p.alwm.reverse
      else first.reverse) =
      (if wordIdx + 1 = p.widthWords then first &&& p.alwm else first).reverse := by
    rw [← reverse_and]
    split <;> rfl
  rw [hmasked]
  refine ⟨shiftCombine_reverse _ _ hp.shifts.2.2.1, ?_⟩
  exact { h with
    apt := by
      rw [hp.channels.1]
      exact mirrorPtr_step p.useA h.apt hp.step
    aPrev := rfl }

theorem mirrors_channelB (hp : p.Mirrors q) (h : Mirrors s t) :
    (q.channelB t).1 = (p.channelB s).1.reverse ∧
      Mirrors (p.channelB s).2 (q.channelB t).2 := by
  unfold AreaSetup.channelB
  rw [hp.channels.2.1]
  cases p.useB with
  | false => exact ⟨hp.data.2, h⟩
  | true =>
    have hread := h.mem.readWord s.bpt
    simp only [if_true]
    rw [h.bpt, hread, hp.shifts.2.1, hp.direction.1, hp.direction.2, h.bPrev]
    refine ⟨shiftCombine_reverse _ _ hp.shifts.2.2.2, ?_⟩
    exact { h with
      bpt := by
        rw [mirrorPtr_add s.bpt hp.step.2, hp.step.1]
      bPrev := rfl }

theorem mirrors_channelC (hp : p.Mirrors q) (h : Mirrors s t) :
    (q.channelC t).1 = (p.channelC s).1.reverse ∧
      Mirrors (p.channelC s).2 (q.channelC t).2 := by
  unfold AreaSetup.channelC
  rw [hp.channels.2.2.1]
  cases p.useC with
  | false => exact ⟨h.cDat, h⟩
  | true =>
    have hread := h.mem.readWord s.cpt
    simp only [if_true]
    rw [h.cpt, hread]
    refine ⟨rfl, ?_⟩
    exact { h with
      cpt := by
        rw [mirrorPtr_add s.cpt hp.step.2, hp.step.1]
      cDat := rfl }

theorem mirrors_channelD (hp : p.Mirrors q) (h : Mirrors s t) (d : Word) :
    Mirrors (p.channelD s d) (q.channelD t d.reverse) := by
  -- `BZERO` sees the same words, reversed.
  have hzero : (t.zero && decide (d.reverse = 0)) = (s.zero && decide (d = 0)) := by
    rw [h.zero]
    simp only [reverse_eq_zero]
  unfold AreaSetup.channelD
  rw [hp.channels.2.2.2]
  cases p.useD with
  | false => exact { h with lastD := rfl, zero := hzero }
  | true =>
    have hwrite := h.mem.writeWord s.dpt d
    simp only [if_true]
    rw [h.dpt]
    exact { h with
      mem := hwrite
      dpt := by
        rw [mirrorPtr_add s.dpt hp.step.2, hp.step.1]
      lastD := rfl
      zero := hzero }

/-- **One word on each side.** -/
theorem mirrors_word (hp : p.Mirrors q) (h : Mirrors s t) (wordIdx : Nat) :
    Mirrors (p.word s wordIdx) (q.word t wordIdx) := by
  obtain ⟨hA, hsA⟩ := mirrors_channelA hp h wordIdx
  obtain ⟨hB, hsB⟩ := mirrors_channelB hp hsA
  obtain ⟨hC, hsC⟩ := mirrors_channelC hp hsB
  unfold AreaSetup.word
  simp only
  rw [hp.plain.1, hp.plain.2, hA, hB, hC, hp.lf, minterm_reverse]
  exact mirrors_channelD hp hsC _

theorem mirrors_words (hp : p.Mirrors q) (ws : List Nat) : ∀ {s t : AreaState}, Mirrors s t →
    Mirrors (ws.foldl p.word s) (ws.foldl q.word t) := by
  induction ws with
  | nil => exact fun h => h
  | cons w ws ih => exact fun h => ih (mirrors_word hp h w)

theorem mirrors_row (hp : p.Mirrors q) (h : Mirrors s t) : Mirrors (p.row s) (q.row t) := by
  have hstart : Mirrors { s with fillState := p.fci } { t with fillState := q.fci } := { h with }
  have hwords := mirrors_words hp (List.range p.widthWords) hstart
  unfold AreaSetup.row
  rw [hp.width, hp.channels.1, hp.channels.2.1, hp.channels.2.2.1, hp.channels.2.2.2]
  exact { hwords with
    apt := mirrorPtr_step p.useA hwords.apt hp.amod
    bpt := mirrorPtr_step p.useB hwords.bpt hp.bmod
    cpt := mirrorPtr_step p.useC hwords.cpt hp.cmod
    dpt := mirrorPtr_step p.useD hwords.dpt hp.dmod }

theorem mirrors_rows (hp : p.Mirrors q) (n : Nat) : ∀ {s t : AreaState}, Mirrors s t →
    Mirrors (p.row^[n] s) (q.row^[n] t) := by
  induction n with
  | zero => exact fun h => h
  | succ n ih => exact fun h => ih (mirrors_row hp h)

/-! ## The blits -/

theorem mirrorRam_mirrorRam (ram : Buffer Byte chipRamSize) : mirrorRam (mirrorRam ram) = ram := by
  funext cell
  obtain ⟨i, hi⟩ := cell
  have hcell : (⟨chipRamSize - 1 - (chipRamSize - 1 - i), by omega⟩ : Fin chipRamSize) = ⟨i, hi⟩ :=
    Fin.ext (by show chipRamSize - 1 - (chipRamSize - 1 - i) = i; omega)
  show (ram ⟨chipRamSize - 1 - (chipRamSize - 1 - i), _⟩).reverse.reverse = ram ⟨i, hi⟩
  rw [BitVec.reverse_reverse_eq, hcell]

theorem getLsbD_zero_word (i : Nat) : (0 : Word).getLsbD i = false := by simp

/-- Turning the direction round touches no other field of `BLTCON1`. -/
theorem xor_desc_and (con1 : Word) {mask : Word} (hmask : bltcon1Desc &&& mask = 0) :
    (con1 ^^^ bltcon1Desc) &&& mask = con1 &&& mask := by
  refine BitVec.eq_of_getLsbD_eq fun i hi => ?_
  have hbit := congrArg (fun w : Word => w.getLsbD i) hmask
  simp only [BitVec.getLsbD_and] at hbit
  simp only [BitVec.getLsbD_and, BitVec.getLsbD_xor]
  revert hbit
  cases mask.getLsbD i <;> cases bltcon1Desc.getLsbD i <;> simp

theorem getLsbD_desc : ∀ i < 16, bltcon1Desc.getLsbD i = decide (i = 1) := by decide

theorem xor_desc_desc {con1 : Word} (h : con1 &&& bltcon1Desc ≠ 0) :
    (con1 ^^^ bltcon1Desc) &&& bltcon1Desc = 0 := by
  -- `BLTCON1` had the bit, and the other bits of the mask are zero.
  have hone : con1.getLsbD 1 = true := by
    by_contra hclear
    refine h (BitVec.eq_of_getLsbD_eq fun i hi => ?_)
    rw [BitVec.getLsbD_and, getLsbD_zero_word, getLsbD_desc i hi]
    rcases Nat.decEq i 1 with hne | rfl
    · rw [decide_eq_false hne, Bool.and_false]
    · rw [Bool.eq_false_of_not_eq_true hclear, Bool.false_and]
  refine BitVec.eq_of_getLsbD_eq fun i hi => ?_
  rw [BitVec.getLsbD_and, BitVec.getLsbD_xor, getLsbD_zero_word, getLsbD_desc i hi]
  rcases Nat.decEq i 1 with hne | rfl
  · rw [decide_eq_false hne, Bool.and_false]
  · rw [hone]
    rfl

theorem xor_desc_shift (con1 : Word) : (con1 ^^^ bltcon1Desc) >>> 12 = con1 >>> 12 := by
  refine BitVec.eq_of_getLsbD_eq fun i hi => ?_
  rw [BitVec.getLsbD_ushiftRight, BitVec.getLsbD_ushiftRight, BitVec.getLsbD_xor]
  have hoff : bltcon1Desc.getLsbD (12 + i) = false := by
    revert i
    decide
  rw [hoff, Bool.xor_false]

theorem toNat_shift_lt (w : Word) : (w >>> 12).toNat < 16 := by
  have hw := w.isLt
  rw [BitVec.toNat_ushiftRight, Nat.shiftRight_eq_div_pow]
  omega

/-- An even modulo is an even step, also when it is counted down. -/
theorem even_signedStep (desc : Bool) (modulo : Word) :
    (signedStep desc (even modulo)).toNat % 2 = 0 := by
  have heven : ((even modulo).signExtend 32).toNat % 2 = 0 := by
    have hbit : ((even modulo).signExtend 32).getLsbD 0 = false := by
      unfold even
      rw [BitVec.getLsbD_signExtend]
      simp
    rw [BitVec.getLsbD, Nat.testBit_zero, decide_eq_false_iff_not] at hbit
    omega
  unfold signedStep
  cases desc with
  | false => exact heven
  | true =>
    have hlt := ((even modulo).signExtend 32).isLt
    simp only [if_true]
    rw [BitVec.toNat_neg]
    omega

theorem mirrors_areaSetup {b : Blitter} (hdesc : b.bltcon1 &&& bltcon1Desc ≠ 0)
    (hife : b.bltcon1 &&& bltcon1Ife = 0) (hefe : b.bltcon1 &&& bltcon1Efe = 0) :
    b.areaSetup.Mirrors b.mirrored.areaSetup := by
  have hdown : b.areaSetup.desc = true := decide_eq_true hdesc
  have hup : b.mirrored.areaSetup.desc = false :=
    decide_eq_false (not_not.mpr (xor_desc_desc hdesc))
  have hife' : b.areaSetup.ife = false := decide_eq_false (not_not.mpr hife)
  have hefe' : b.areaSetup.efe = false := decide_eq_false (not_not.mpr hefe)
  -- All four modulos count the other way.
  have hsteps (ch : Channel) : signedStep b.mirrored.areaSetup.desc (even (b.modulo ch)) =
      -signedStep b.areaSetup.desc (even (b.modulo ch)) ∧
      (signedStep b.areaSetup.desc (even (b.modulo ch))).toNat % 2 = 0 := by
    refine ⟨?_, even_signedStep _ _⟩
    rw [hdown, hup]
    exact (BitVec.neg_neg).symm
  refine ⟨⟨rfl, rfl, rfl, rfl⟩, ⟨rfl, ?_, toNat_shift_lt _, toNat_shift_lt _⟩, ⟨hdown, hup⟩,
    ⟨?_, ?_⟩, rfl, ⟨rfl, rfl⟩, ⟨rfl, rfl⟩, ⟨?_, ?_⟩, hsteps .a, hsteps .b, hsteps .c, hsteps .d,
      rfl⟩
  · exact congrArg BitVec.toNat (xor_desc_shift b.bltcon1)
  · unfold AreaSetup.fill
    rw [hife', hefe']
    simp
  · unfold AreaSetup.fill
    rw [hup]
    rfl
  · show (if b.mirrored.areaSetup.desc then -2 else 2 : Long) =
      -(if b.areaSetup.desc then -2 else 2)
    rw [hdown, hup]
    rfl
  · show (if b.areaSetup.desc then -2 else 2 : Long).toNat % 2 = 0
    rw [hdown]
    rfl

theorem mirrors_areaStart (b : Blitter) (h : MirrorMem m m') :
    Mirrors (b.areaStart m) (b.mirrored.areaStart m') :=
  ⟨h, rfl, rfl, rfl, rfl, (by decide : (0 : Word) = (0 : Word).reverse),
    (by decide : (0 : Word) = (0 : Word).reverse), rfl,
    (by decide : (0 : Word) = (0 : Word).reverse), rfl⟩

theorem executeArea_mirrored {b : Blitter} (hdesc : b.bltcon1 &&& bltcon1Desc ≠ 0)
    (hife : b.bltcon1 &&& bltcon1Ife = 0) (hefe : b.bltcon1 &&& bltcon1Efe = 0)
    (h : MirrorMem m m') :
    MirrorMem (b.executeArea m).2 (b.mirrored.executeArea m').2 ∧
      (b.mirrored.executeArea m').1 = (b.executeArea m).1.mirrored := by
  have hrows := mirrors_rows (mirrors_areaSetup hdesc hife hefe) b.heightRows
    (mirrors_areaStart b h)
  refine ⟨hrows.mem, ?_⟩
  unfold executeArea
  simp only
  -- The two final states are kept apart from how they were reached.
  generalize b.areaSetup.row^[b.heightRows] (b.areaStart m) = s at hrows
  rw [show b.mirrored.heightRows = b.heightRows from rfl]
  generalize b.mirrored.areaSetup.row^[b.heightRows] (b.mirrored.areaStart m') = t at hrows
  unfold mirrored
  congr 1
  · funext ch
    cases ch with
    | a => exact hrows.apt
    | b => exact hrows.bpt
    | c => exact hrows.cpt
    | d => exact hrows.dpt
  · funext ch
    simp only
    split
    · exact hrows.cDat
    · rfl
  · exact hrows.lastD
  · exact hrows.zero

/-- **Descending is the mirror image of ascending**: memory, registers and `BZERO` of a blit without
fill. -/
theorem descending_is_mirrored_ascending {b : Blitter} (hline : b.bltcon1 &&& bltcon1Line = 0)
    (hdesc : b.bltcon1 &&& bltcon1Desc ≠ 0) (hife : b.bltcon1 &&& bltcon1Ife = 0)
    (hefe : b.bltcon1 &&& bltcon1Efe = 0) (m : BlitRam) (log : Option DeviceWriteLog) :
    let down := b.executeLogged m
    let up := b.mirrored.executeLogged ⟨mirrorRam m.ram, log⟩
    down.2.2.ram = mirrorRam up.2.2.ram ∧ up.2.1 = down.2.1.mirrored ∧
      up.2.1.zero = down.2.1.zero := by
  have hmem : MirrorMem m ⟨mirrorRam m.ram, log⟩ := rfl
  have hline' : b.mirrored.bltcon1 &&& bltcon1Line = 0 := (xor_desc_and _ rfl).trans hline
  have hsame : b.mirrored.pending = b.pending := rfl
  unfold executeLogged
  simp only
  rw [hsame]
  split
  · exact ⟨(mirrorRam_mirrorRam m.ram).symm, rfl, rfl⟩
  · have harea := executeArea_mirrored (b := { b with pending := false, zero := true }) hdesc hife
      hefe hmem
    rw [if_neg (not_not.mpr hline), if_neg (not_not.mpr hline')]
    have hback := congrArg mirrorRam harea.1
    rw [mirrorRam_mirrorRam] at hback
    have hzero := congrArg Blitter.zero harea.2
    exact ⟨hback.symm, harea.2, hzero⟩

/-- Two rows of two words, masked and shifted by three, from word `$1000` down. -/
theorem descending_is_mirrored_ascending_copy :
    let b : Blitter :=
      { Blitter.new with
        bltcon0 := 0x39F0, bltcon1 := bltcon1Desc, bltafwm := 0xFF0F, bltalwm := 0x0FFF
        pt := fun ch => if ch = .d then 0x2000 else 0x1000
        widthWords := 2, heightRows := 2, pending := true }
    let m : BlitRam := ⟨fun i => BitVec.ofNat 8 i.val, none⟩
    let down := b.executeLogged m
    let up := b.mirrored.executeLogged ⟨mirrorRam m.ram, none⟩
    down.2.2.ram = mirrorRam up.2.2.ram ∧ up.2.1 = down.2.1.mirrored ∧
      up.2.1.zero = down.2.1.zero :=
  descending_is_mirrored_ascending (by decide) (by decide) (by decide) (by decide) _ none

end Blitter

end M68kMachine
