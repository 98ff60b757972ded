import M68kMachine.Library.Bresenham
import M68kMachine.Properties.BlitterWords

/-!
# Lines

A line programmed as the hardware manual has it sets the pixels of the integer line between its
endpoints. `Drawing` holds before every pixel: the pen is on the line's next point, the accumulator
is its error term, and memory has the pixels so far.

* `Segment.recipe` — the register writes
* `Drawing` — the invariant, `drawing_pixel` its step
* `line_is_bresenham` — the whole line
-/

namespace M68kMachine

namespace Blitter

open Bresenham

/-! ## Planes and segments -/

/-- Rows of words in chip RAM, a signed word from one to the next. -/
structure Bitplane where
  base : Nat
  stride : Nat
  rows : Nat
  even_base : base % 2 = 0
  even_stride : stride % 2 = 0
  narrow : stride < 0x8000
  fits : base + rows * stride ≤ chipRamSize

/-- Two endpoints. -/
structure Segment where
  x0 : Nat
  y0 : Nat
  x1 : Nat
  y1 : Nat

/-- The word a pixel lies in. -/
def Bitplane.ptr (p : Bitplane) (pixel : Int × Int) : Long :=
  BitVec.ofInt 32 (p.base + pixel.2 * p.stride + pixel.1 / 16 * 2)

/-- A pixel is a bit of a byte. -/
def Bitplane.Holds (p : Bitplane) (pixel : Int × Int) (byte bit : Nat) : Prop :=
  (byte : Int) = p.base + pixel.2 * p.stride + pixel.1 / 8 ∧ (bit : Int) = 7 - pixel.1 % 8

namespace Segment

/-- Both endpoints are pixels of the plane. -/
structure Within (l : Segment) (p : Bitplane) : Prop where
  left : l.x0 < 8 * p.stride
  right : l.x1 < 8 * p.stride
  top : l.y0 < p.rows
  bottom : l.y1 < p.rows

def dx (l : Segment) : Int := l.x1 - l.x0

def dy (l : Segment) : Int := l.y1 - l.y0

/-- The X axis is the major one. -/
def sud (l : Segment) : Bool := l.dy.natAbs ≤ l.dx.natAbs

def major (l : Segment) : Nat := if l.sud then l.dx.natAbs else l.dy.natAbs

def minor (l : Segment) : Nat := if l.sud then l.dy.natAbs else l.dx.natAbs

/-- The minor axis runs backwards. -/
def sul (l : Segment) : Bool := if l.sud then l.dy < 0 else l.dx < 0

/-- The major axis runs backwards. -/
def aul (l : Segment) : Bool := if l.sud then l.dx < 0 else l.dy < 0

def err0 (l : Segment) : Int := 2 * (l.minor : Int) - l.major

def con1 (sud sul aul sign : Bool) : Word :=
  bltcon1Line ||| (if sud then bltcon1Sud else 0) ||| (if sul then bltcon1Sul else 0) |||
    (if aul then bltcon1Aul else 0) ||| (if sign then bltcon1Sign else 0)

/-- The address of the word the line starts in. -/
def start (l : Segment) (p : Bitplane) : Nat := p.base + l.y0 * p.stride + l.x0 / 16 * 2

/-- The register writes for a line that is drawn over what is there, `D = A | C`. -/
def recipe (l : Segment) (p : Bitplane) : List (Nat × Word) :=
  let hi : Word := (BitVec.ofNat 32 (l.start p) >>> 16).setWidth 16
  let lo : Word := BitVec.ofNat 16 (l.start p)
  [(Reg.bltcon0, 0x0A00 ||| 0x00FA ||| ((BitVec.ofNat 16 l.x0 &&& 0x000F) <<< 12)),
    (Reg.bltcon1, con1 l.sud l.sul l.aul (l.err0 < 0)),
    (Reg.bltafwm, 0xFFFF),
    (Reg.bltadat, 0x8000),
    (Reg.bltamod, BitVec.ofInt 16 (2 * ((l.minor : Int) - l.major))),
    (Reg.bltbmod, BitVec.ofInt 16 (2 * (l.minor : Int))),
    (Reg.bltcmod, BitVec.ofNat 16 p.stride),
    (Reg.bltcpth, hi), (Reg.bltcptl, lo), (Reg.bltdpth, hi), (Reg.bltdptl, lo),
    (Reg.bltaptl, BitVec.ofInt 16 l.err0),
    (Reg.bltsize, (BitVec.ofNat 16 (l.major + 1) <<< 6) ||| 2)]

/-- One pixel forwards or backwards. -/
def unit (backwards : Bool) : Int := if backwards then -1 else 1

/-- So many pixels along the major axis and so many along the minor one. -/
def point (l : Segment) (along across : Nat) : Int × Int :=
  if l.sud then (l.x0 + unit l.aul * along, l.y0 + unit l.sul * across)
  else (l.x0 + unit l.sul * across, l.y0 + unit l.aul * along)

/-- The line's pixel number `k`. -/
def pixel (l : Segment) (k : Nat) : Int × Int := l.point k (offset l.major l.minor k)

theorem minor_le_major (l : Segment) : l.minor ≤ l.major := by
  unfold minor major sud
  simp only [decide_eq_true_eq]
  split <;> omega

/-- Every pixel lies between the endpoints. -/
theorem pixel_within {l : Segment} {p : Bitplane} (h : l.Within p) (hpos : 0 < l.major) {k : Nat}
    (hk : k ≤ l.major) :
    0 ≤ (l.pixel k).1 ∧ (l.pixel k).1 < 8 * p.stride ∧ 0 ≤ (l.pixel k).2 ∧
      (l.pixel k).2 < p.rows := by
  have hoffset := offset_le l.minor hpos hk
  obtain ⟨hleft, hright, htop, hbottom⟩ := h
  unfold pixel point
  generalize offset l.major l.minor k = c at hoffset
  unfold major minor at *
  unfold unit sul aul dx dy at *
  cases hsud : l.sud <;>
    simp only [hsud, Bool.false_eq_true, if_true, if_false, decide_eq_true_eq] at hoffset hk ⊢ <;>
    split <;> split <;> omega

end Segment

/-! ## The pen -/

/-- The pen stands on a pixel. -/
def Bitplane.At (p : Bitplane) (pen : Pen) (pixel : Int × Int) : Prop :=
  pen.ash = (pixel.1 % 16).toNat ∧ pen.cpt = p.ptr pixel

variable {p : Bitplane} {l : Segment} {pen : Pen} {x y : Int}

theorem ptr_right (p : Bitplane) (x x' y : Int) :
    p.ptr (x', y) = p.ptr (x, y) + BitVec.ofInt 32 (2 * (x' / 16 - x / 16)) := by
  unfold Bitplane.ptr
  rw [← BitVec.ofInt_add]
  dsimp only
  congr 1
  omega

theorem ptr_down (p : Bitplane) (x y : Int) (up : Bool) :
    p.ptr (x, y + Segment.unit up) = p.ptr (x, y) +
      if !up then BitVec.ofInt 32 p.stride else -BitVec.ofInt 32 p.stride := by
  unfold Bitplane.ptr Segment.unit
  cases up <;>
    simp only [Bool.not_true, Bool.not_false, Bool.false_eq_true, if_true, if_false,
      ← BitVec.ofInt_neg, ← BitVec.ofInt_add] <;>
    congr 1 <;> rw [Int.add_mul] <;> omega

/-- A step sideways, into the next word or the last where this one ends. -/
theorem lineStepX_at (left : Bool) (h : p.At pen (x, y)) :
    p.At (lineStepX pen (!left)) (x + Segment.unit left, y) := by
  obtain ⟨hash, hcpt⟩ := h
  simp only at hash
  unfold lineStepX Bitplane.At
  rw [ptr_right p x, ← hcpt]
  unfold Segment.unit
  cases left
  · simp only [Bool.not_false, Bool.false_eq_true, if_true, if_false]
    split
    · rw [show (x + 1) / 16 - x / 16 = 1 by omega]
      refine ⟨?_, rfl⟩
      show 0 = _
      omega
    · rw [show (x + 1) / 16 - x / 16 = 0 by omega]
      refine ⟨?_, (BitVec.add_zero _).symm⟩
      show pen.ash + 1 = _
      omega
  · simp only [Bool.not_true, Bool.false_eq_true, if_true, if_false]
    split
    · rw [show (x + -1) / 16 - x / 16 = -1 by omega]
      refine ⟨?_, BitVec.sub_eq_add_neg _ _⟩
      show 15 = _
      omega
    · rw [show (x + -1) / 16 - x / 16 = 0 by omega]
      refine ⟨?_, (BitVec.add_zero _).symm⟩
      show pen.ash - 1 = _
      omega

theorem lineStepY_at (up : Bool) (h : p.At pen (x, y)) :
    p.At (lineStepY pen (!up) (BitVec.ofInt 32 p.stride)) (x, y + Segment.unit up) := by
  refine ⟨h.1, ?_⟩
  rw [ptr_down, ← h.2]
  rfl

/-- What a line takes from the registers that its recipe writes. -/
structure Programmed (l : Segment) (p : Bitplane) (ls : LineSetup) : Prop where
  channels : ls.useA = true ∧ ls.useB = false ∧ ls.useC = true
  lf : ls.lf = 0xFA
  sing : ls.sing = false
  sud : decide (ls.bltcon1 &&& bltcon1Sud ≠ 0) = l.sud
  sul : decide (ls.bltcon1 &&& bltcon1Sul = 0) = !l.sul
  aul : decide (ls.bltcon1 &&& bltcon1Aul = 0) = !l.aul
  bplmod : ls.bplmod = BitVec.ofInt 32 p.stride
  amodStep : ls.amodStep = BitVec.ofInt 16 (2 * ((l.minor : Int) - l.major))
  bmodStep : ls.bmodStep = BitVec.ofInt 16 (2 * (l.minor : Int))
  aWord : ls.aWord = 0x8000

variable {ls : LineSetup} {a c : Nat} {j : Nat}

theorem unit_succ (back : Bool) (z : Int) (n : Nat) :
    z + Segment.unit back * ((n + 1 : Nat) : Int) =
      z + Segment.unit back * n + Segment.unit back := by
  push_cast
  ring

theorem stepAlways_at (hp : Programmed l p ls) (h : p.At pen (l.point a c)) :
    p.At (ls.stepAlways pen) (l.point (a + 1) c) := by
  have hsud := hp.sud
  unfold LineSetup.stepAlways
  simp only
  rw [hp.aul, hp.bplmod]
  unfold Segment.point at h ⊢
  cases hX : l.sud <;> simp only [hX, Bool.false_eq_true, if_true, if_false] at h hsud ⊢
  · rw [if_neg (of_decide_eq_false hsud), unit_succ]
    exact lineStepY_at _ h
  · rw [if_pos (of_decide_eq_true hsud), unit_succ]
    exact lineStepX_at _ h

theorem stepSometimes_at (hp : Programmed l p ls) (h : p.At pen (l.point a c)) :
    p.At (ls.stepSometimes pen) (l.point a (c + 1)) := by
  have hsud := hp.sud
  unfold LineSetup.stepSometimes
  simp only
  rw [hp.sul, hp.bplmod]
  unfold Segment.point at h ⊢
  cases hX : l.sud <;> simp only [hX, Bool.false_eq_true, if_true, if_false] at h hsud ⊢
  · rw [if_neg (of_decide_eq_false hsud), unit_succ]
    exact lineStepX_at _ h
  · rw [if_pos (of_decide_eq_true hsud), unit_succ]
    exact lineStepY_at _ h

/-- From one pixel of the line to the next. -/
theorem pen_at (hp : Programmed l p ls) (hpos : 0 < l.major) {k : Nat} {sign : Bool}
    (hsign : sign = decide (error l.major l.minor k < 0)) (h : p.At pen (l.pixel k)) :
    p.At (ls.stepAlways (if sign then pen else ls.stepSometimes pen)) (l.pixel (k + 1)) := by
  unfold Segment.pixel at h ⊢
  rw [offset_succ hpos l.minor_le_major]
  refine stepAlways_at hp ?_
  subst hsign
  simp only [decide_eq_true_eq]
  split
  · exact h
  · exact stepSometimes_at hp h

/-! ## Pixel after pixel -/

/-- The minterm of a line drawn over what is there. -/
theorem minterm_a_or_c (a b c : Word) : minterm 0xFA a b c = a ||| c := by
  refine BitVec.eq_of_getLsbD_eq fun i hi => ?_
  rw [getLsbD_minterm _ _ _ _ hi, BitVec.getLsbD_or]
  cases a.getLsbD i <;> cases b.getLsbD i <;> cases c.getLsbD i <;> rfl

/-- The single bit of the line's texture, where the shifter leaves it. -/
theorem getLsbD_dot {ash : Nat} (hash : ash < 16) :
    ((0x8000 : Word) >>> ash).getLsbD j = decide (j = 15 - ash) := by
  have htop : (0x8000 : Word) = BitVec.twoPow 16 15 := rfl
  rw [BitVec.getLsbD_ushiftRight, htop, BitVec.getLsbD_twoPow]
  rw [decide_eq_true (by decide : 15 < 16), Bool.true_and, decide_eq_decide]
  omega

theorem msb_ofInt {z : Int} (hlow : -0x8000 ≤ z) (hhigh : z < 0x8000) :
    (BitVec.ofInt 16 z).msb = decide (z < 0) := by
  rw [BitVec.msb_eq_toInt, BitVec.toInt_ofInt_eq_self (by decide) hlow hhigh]

theorem readWord_congr (m : BlitRam) {q q' : Long} (h : chipAddr q = chipAddr q') :
    m.readWord q = m.readWord q' := by
  unfold BlitRam.readWord
  simp only [h]

/-- Before pixel `k`. -/
structure Drawing (l : Segment) (p : Bitplane) (m : BlitRam) (s : LineState) (k : Nat) : Prop where
  pen : p.At s.pen (l.pixel k)
  dpt : s.dpt = s.pen.cpt
  acc : s.acc = BitVec.ofInt 16 (2 * (error l.major l.minor k / 2))
  sign : s.sign = decide (error l.major l.minor k < 0)
  drawn : ∀ (q : Long) (j : Nat), j < 16 → ((s.mem.readWord q).getLsbD j = true ↔
    (m.readWord q).getLsbD j = true ∨
      ∃ i < k, chipAddr q = chipAddr (p.ptr (l.pixel i)) ∧ (j : Int) = 15 - (l.pixel i).1 % 16)

variable {m : BlitRam} {s : LineState} {k : Nat}

/-- What a pixel changes. -/
theorem pixel_eq (hp : Programmed l p ls) (s : LineState) (hdpt : s.dpt = s.pen.cpt) :
    let dotted : Pen := { s.pen with oneDot := true }
    let d := ((0x8000 : Word) >>> s.pen.ash) ||| s.mem.readWord s.pen.cpt
    (ls.pixel s).mem = s.mem.writeWord s.pen.cpt d ∧
      (ls.pixel s).pen = ls.stepAlways (if s.sign then dotted else ls.stepSometimes dotted) ∧
      (ls.pixel s).acc = s.acc + (if s.sign then ls.bmodStep else ls.amodStep) ∧
      (ls.pixel s).sign = (ls.pixel s).acc.msb ∧ (ls.pixel s).dpt = (ls.pixel s).pen.cpt := by
  obtain ⟨hA, hB, hC⟩ := hp.channels
  have hfetchB : ls.fetchB s = s := by
    unfold LineSetup.fetchB
    rw [hB]
    rfl
  have hfetchC : ls.fetchC s = { s with cDat := s.mem.readWord s.pen.cpt } := by
    unfold LineSetup.fetchC
    rw [hC]
    rfl
  unfold LineSetup.pixel
  simp only [hfetchB, hfetchC, hA, hC, hp.sing, hp.lf, hp.aWord, minterm_a_or_c, Bool.not_false,
    Bool.true_or, Bool.and_self, if_true]
  rw [hdpt]
  simp only [and_self]

/-- Half the error, which is what the accumulator holds: bit 0 of the pointer is not there. -/
theorem acc_add (z step : Int) :
    BitVec.ofInt 16 (2 * (z / 2)) + BitVec.ofInt 16 (2 * step) =
      BitVec.ofInt 16 (2 * ((z + 2 * step) / 2)) := by
  rw [← BitVec.ofInt_add]
  congr 1
  omega

theorem drawing_pixel (hp : Programmed l p ls) (hpos : 0 < l.major) (hmax : l.major ≤ 1023)
    (hs : Drawing l p m s k) : Drawing l p m (ls.pixel s) (k + 1) := by
  obtain ⟨hmem, hpen, hacc, hsign, hdpt⟩ := pixel_eq hp s hs.dpt
  have hle := l.minor_le_major
  have hnext : (ls.pixel s).acc =
      BitVec.ofInt 16 (2 * (error l.major l.minor (k + 1) / 2)) := by
    rw [hacc, hs.acc, hs.sign, error_succ hpos hle, hp.amodStep, hp.bmodStep]
    simp only [decide_eq_true_eq]
    split
    · exact acc_add _ _
    · rw [acc_add, Int.mul_sub]
  refine ⟨?_, hdpt, hnext, ?_, ?_⟩
  · rw [hpen]
    exact pen_at hp hpos hs.sign hs.pen
  · obtain ⟨hlow, hhigh⟩ := error_bounds l.minor hpos (k + 1)
    rw [hsign, hnext, msb_ofInt (by omega) (by omega), decide_eq_decide]
    omega
  · intro q j hj
    obtain ⟨hash, hcpt⟩ := hs.pen
    rw [hmem, readWord_writeWord, hcpt]
    have hbit : ((0x8000 : Word) >>> s.pen.ash).getLsbD j = true ↔
        (j : Int) = 15 - (l.pixel k).1 % 16 := by
      rw [getLsbD_dot (by omega), decide_eq_true_iff]
      omega
    rw [Nat.exists_lt_succ_right, ← or_assoc, ← hs.drawn q j hj]
    by_cases hsame : chipAddr q = chipAddr (p.ptr (l.pixel k))
    · rw [if_pos hsame, BitVec.getLsbD_or, Bool.or_eq_true, hbit, readWord_congr s.mem hsame.symm,
        or_comm, and_iff_right hsame]
    · rw [if_neg hsame]
      simp only [hsame, false_and, or_false]

theorem drawing_pixels (hp : Programmed l p ls) (hpos : 0 < l.major) (hmax : l.major ≤ 1023)
    (hs : Drawing l p m s 0) (n : Nat) : Drawing l p m (ls.pixel^[n] s) n := by
  induction n with
  | zero => exact hs
  | succ n ih =>
    rw [Function.iterate_succ_apply']
    exact drawing_pixel hp hpos hmax ih

/-! ## The recipe -/

/-- The registers after the line's register writes. -/
def Segment.programs (l : Segment) (p : Bitplane) (b : Blitter) : Blitter :=
  (l.recipe p).foldl (fun b w => (b.write w.1 w.2).2) b

theorem getLsbD_setPtrHi (ptr : Long) (value : Word) {i : Nat} (hi : i < 32) :
    (setPtrHi ptr value).getLsbD i =
      if i < 16 then ptr.getLsbD i else decide (i < 21) && value.getLsbD (i - 16) := by
  have hlow : ∀ i < 32, ((0x0000FFFF : Nat) : Long).getLsbD i = decide (i < 16) := by decide
  have hfive : ∀ i < 16, (0x001F : Word).getLsbD i = decide (i < 5) := by decide
  unfold setPtrHi
  simp only [BitVec.getLsbD_or, BitVec.getLsbD_and, BitVec.getLsbD_shiftLeft,
    BitVec.getLsbD_setWidth, hlow i hi, hi, decide_true, Bool.true_and]
  by_cases hsmall : i < 16
  · simp [hsmall]
  · rw [if_neg hsmall, hfive (i - 16) (by omega), decide_eq_false hsmall,
      decide_eq_true (by omega : i - 16 < 32), Bool.and_comm (value.getLsbD _)]
    simp [show i - 16 < 5 ↔ i < 21 by omega]

theorem getLsbD_setPtrLo (ptr : Long) (value : Word) {i : Nat} (hi : i < 32) :
    (setPtrLo ptr value).getLsbD i =
      if i < 16 then decide (0 < i) && value.getLsbD i else ptr.getLsbD i := by
  have hhigh : ∀ i < 32, (0xFFFF0000 : Long).getLsbD i = decide (16 ≤ i) := by decide
  have heven : ∀ i < 16, (0xFFFE : Word).getLsbD i = decide (0 < i) := by decide
  unfold setPtrLo
  simp only [BitVec.getLsbD_or, BitVec.getLsbD_and, BitVec.getLsbD_setWidth, hhigh i hi, hi,
    decide_true, Bool.true_and]
  by_cases hsmall : i < 16
  · rw [if_pos hsmall, heven i hsmall, decide_eq_false (by omega : ¬16 ≤ i),
      Bool.and_comm (value.getLsbD _)]
    simp
  · rw [if_neg hsmall, decide_eq_true (by omega : 16 ≤ i),
      BitVec.getLsbD_of_ge value i (by omega)]
    simp

/-- A chip RAM address written to a pointer's two halves is there as it was. -/
theorem setPtr_halves (ptr : Long) {addr : Nat} (heven : addr % 2 = 0)
    (hlt : addr < chipRamSize) :
    setPtrLo (setPtrHi ptr ((BitVec.ofNat 32 addr >>> 16).setWidth 16)) (BitVec.ofNat 16 addr) =
      BitVec.ofNat 32 addr := by
  refine BitVec.eq_of_getLsbD_eq fun i hi => ?_
  rw [getLsbD_setPtrLo _ _ hi, getLsbD_setPtrHi _ _ hi]
  simp only [BitVec.getLsbD_setWidth, BitVec.getLsbD_ushiftRight, BitVec.getLsbD_ofNat, hi,
    decide_true, Bool.true_and]
  by_cases hsmall : i < 16
  · rw [if_pos hsmall, decide_eq_true hsmall, Bool.true_and]
    rcases Nat.eq_zero_or_pos i with rfl | hpos
    · simp [Nat.testBit_zero, heven]
    · rw [decide_eq_true hpos, Bool.true_and]
  · rw [if_neg hsmall, if_neg hsmall, decide_eq_true (by omega : i - 16 < 16),
      decide_eq_true (by omega : 16 + (i - 16) < 32), show 16 + (i - 16) = i by omega]
    by_cases hchip : i < 21
    · simp [hchip]
    · have hhigh : addr.testBit i = false :=
        Nat.testBit_lt_two_pow (Nat.lt_of_lt_of_le hlt (Nat.pow_le_pow_right Nat.zero_lt_two
          (by omega : 21 ≤ i)))
      simp [hchip, hhigh]

/-- The error term is stored as a pointer is, without its bit 0. -/
theorem setPtrLo_error (ptr : Long) (z : Int) :
    (setPtrLo ptr (BitVec.ofInt 16 z)).setWidth 16 = BitVec.ofInt 16 (2 * (z / 2)) := by
  have heven : ∀ i < 16, (0xFFFE : Word).getLsbD i = decide (0 < i) := by decide
  have hword : (setPtrLo ptr (BitVec.ofInt 16 z)).setWidth 16 = BitVec.ofInt 16 z &&& 0xFFFE := by
    refine BitVec.eq_of_getLsbD_eq fun i hi => ?_
    rw [BitVec.getLsbD_setWidth, getLsbD_setPtrLo _ _ (by omega), if_pos hi, BitVec.getLsbD_and,
      heven i hi, decide_eq_true hi, Bool.true_and, Bool.and_comm]
  rw [hword]
  have hmask : (BitVec.ofInt 16 z &&& 0xFFFE).toNat =
      (BitVec.ofInt 16 z).toNat / 2 % 0x8000 * 2 := by
    rw [BitVec.toNat_and]
    exact and_even_mask _ 15
  refine BitVec.eq_of_toNat_eq ?_
  rw [hmask, BitVec.toNat_ofInt, BitVec.toNat_ofInt]
  simp only [Nat.reducePow]
  omega

theorem programs_registers (l : Segment) (p : Bitplane) (b : Blitter) :
    (l.programs p b).pending = true ∧
      (l.programs p b).bltcon1 = Segment.con1 l.sud l.sul l.aul (l.err0 < 0) ∧
      (l.programs p b).dat .a &&& (l.programs p b).bltafwm = 0x8000 ∧
      (l.programs p b).modulo .a = BitVec.ofInt 16 (2 * ((l.minor : Int) - l.major)) ∧
      (l.programs p b).modulo .b = BitVec.ofInt 16 (2 * (l.minor : Int)) ∧
      (l.programs p b).modulo .c = BitVec.ofNat 16 p.stride ∧
      ((l.programs p b).pt .a).setWidth 16 = BitVec.ofInt 16 (2 * (l.err0 / 2)) := by
  have hword : (l.programs p b).dat .a = 0x8000 := rfl
  have hmask : (l.programs p b).bltafwm = 0xFFFF := rfl
  have hacc : (l.programs p b).pt .a = setPtrLo (b.pt .a) (BitVec.ofInt 16 l.err0) := rfl
  refine ⟨rfl, rfl, ?_, rfl, rfl, rfl, ?_⟩
  · rw [hword, hmask]
    decide
  · rw [hacc, setPtrLo_error]

theorem con1_bits (sud sul aul sign : Bool) :
    Segment.con1 sud sul aul sign &&& bltcon1Line ≠ 0 ∧
      decide (Segment.con1 sud sul aul sign &&& bltcon1Sing ≠ 0) = false ∧
      decide (Segment.con1 sud sul aul sign &&& bltcon1Sud ≠ 0) = sud ∧
      decide (Segment.con1 sud sul aul sign &&& bltcon1Sul = 0) = !sul ∧
      decide (Segment.con1 sud sul aul sign &&& bltcon1Aul = 0) = !aul ∧
      decide (Segment.con1 sud sul aul sign &&& bltcon1Sign ≠ 0) = sign := by
  cases sud <;> cases sul <;> cases aul <;> cases sign <;> decide

/-- `BLTCON0` of a line that starts `c` pixels into its word. -/
theorem con0_bits : ∀ c < 16,
    let con0 : Word := 0x0A00 ||| 0x00FA ||| (BitVec.ofNat 16 c <<< 12)
    (con0 >>> 12).toNat = c ∧ con0.setWidth 8 = (0xFA : Byte) ∧ con0 &&& bltcon0Usea ≠ 0 ∧
      con0 &&& bltcon0Useb = 0 ∧ con0 &&& bltcon0Usec ≠ 0 := by
  decide

theorem programs_con0 (l : Segment) (p : Bitplane) (b : Blitter) : (l.programs p b).bltcon0 =
    0x0A00 ||| 0x00FA ||| (BitVec.ofNat 16 (l.x0 % 16) <<< 12) := by
  have hmask : BitVec.ofNat 16 l.x0 &&& 0x000F = BitVec.ofNat 16 (l.x0 % 16) := by
    refine BitVec.eq_of_toNat_eq ?_
    rw [BitVec.toNat_and, BitVec.toNat_ofNat, BitVec.toNat_ofNat]
    have hlow : l.x0 % 2 ^ 16 &&& 15 = l.x0 % 2 ^ 16 % 16 := Nat.and_two_pow_sub_one_eq_mod _ 4
    exact hlow.trans (by omega)
  rw [← hmask]
  rfl

/-- The rows field of `BLTSIZE`, 0 where there are 1024. -/
theorem programs_rows (hmax : l.major ≤ 1023) (b : Blitter) :
    (l.programs p b).heightRows = l.major + 1 := by
  have hfield : ((((BitVec.ofNat 16 (l.major + 1) <<< 6) ||| 2 : Word) >>> 6) &&& 0x03FF).toNat =
      (l.major + 1) % 1024 := by
    have hdown : (((BitVec.ofNat 16 (l.major + 1) <<< 6) ||| 2 : Word) >>> 6) &&& 0x03FF =
        BitVec.ofNat 16 (l.major + 1) &&& 0x03FF := by
      have hten : ∀ i < 16, (0x03FF : Word).getLsbD i = decide (i < 10) := by decide
      have htwo : ∀ i < 10, (2 : Word).getLsbD (6 + i) = false := by decide
      refine BitVec.eq_of_getLsbD_eq fun i hi => ?_
      simp only [BitVec.getLsbD_and, BitVec.getLsbD_ushiftRight, BitVec.getLsbD_or,
        BitVec.getLsbD_shiftLeft, hten i hi]
      by_cases hlow : i < 10
      · rw [htwo i hlow, Nat.add_sub_cancel_left]
        simp [show 6 + i < 16 by omega]
      · simp [hlow]
    rw [hdown, BitVec.toNat_and, BitVec.toNat_ofNat]
    have hmod : (l.major + 1) % 2 ^ 16 &&& 1023 = (l.major + 1) % 2 ^ 16 % 1024 :=
      Nat.and_two_pow_sub_one_eq_mod _ 10
    exact hmod.trans (by omega)
  show (if ((((BitVec.ofNat 16 (l.major + 1) <<< 6) ||| 2 : Word) >>> 6) &&& 0x03FF).toNat = 0
    then 1024 else ((((BitVec.ofNat 16 (l.major + 1) <<< 6) ||| 2 : Word) >>> 6) &&& 0x03FF).toNat)
    = _
  rw [hfield]
  split <;> omega

theorem programmed (l : Segment) (p : Bitplane) (b : Blitter) :
    Programmed l p (l.programs p b).lineSetup := by
  obtain ⟨-, hcon1, hword, hamod, hbmod, hcmod, -⟩ := programs_registers l p b
  obtain ⟨-, hlf, hA, hB, hC⟩ := con0_bits (l.x0 % 16) (Nat.mod_lt _ (by decide))
  obtain ⟨-, hsing, hsud, hsul, haul, -⟩ := con1_bits l.sud l.sul l.aul (l.err0 < 0)
  have hstride := p.narrow
  have hsigned : (BitVec.ofNat 16 p.stride).toInt = p.stride := by
    rw [← BitVec.ofInt_natCast]
    exact BitVec.toInt_ofInt_eq_self (by decide) (by omega) (by omega)
  rw [← programs_con0 l p b] at hlf hA hB hC
  rw [← hcon1] at hsing hsud hsul haul
  generalize l.programs p b = b' at *
  refine ⟨⟨decide_eq_true hA, decide_eq_false (not_not.mpr hB), decide_eq_true hC⟩, hlf, hsing,
    hsud, hsul, haul, ?_, hamod, hbmod, hword⟩
  show (b'.modulo .c).signExtend 32 = _
  unfold BitVec.signExtend
  rw [hcmod, hsigned]

theorem Segment.start_lt {l : Segment} {p : Bitplane} (h : l.Within p) :
    l.start p % 2 = 0 ∧ l.start p < chipRamSize := by
  have hbase := p.even_base
  have hstride := p.even_stride
  have hfits := p.fits
  have hleft := h.left
  have hrows : (l.y0 + 1) * p.stride ≤ p.rows * p.stride := Nat.mul_le_mul_right _ h.top
  have heven : l.y0 * p.stride % 2 = 0 := by
    rw [Nat.mul_mod, hstride, Nat.mul_zero, Nat.zero_mod]
  rw [Nat.add_mul, Nat.one_mul] at hrows
  unfold Segment.start
  omega

theorem drawing_start (h : l.Within p) (hpos : 0 < l.major) (b : Blitter) (m : BlitRam) :
    Drawing l p m ((l.programs p b).lineStart m) 0 := by
  obtain ⟨-, hcon1, -, -, -, -, hacc⟩ := programs_registers l p b
  obtain ⟨hash, -⟩ := con0_bits (l.x0 % 16) (Nat.mod_lt _ (by decide))
  obtain ⟨-, -, -, -, -, hsign⟩ := con1_bits l.sud l.sul l.aul (l.err0 < 0)
  obtain ⟨heven, hlt⟩ := Segment.start_lt h
  rw [← programs_con0 l p b] at hash
  rw [← hcon1] at hsign
  have hzero : error l.major l.minor 0 = l.err0 := error_zero hpos
  have hpixel : l.pixel 0 = ((l.x0 : Int), (l.y0 : Int)) := by
    unfold Segment.pixel Segment.point
    rw [offset_zero hpos]
    simp
  have hptr : p.ptr ((l.x0 : Int), (l.y0 : Int)) = BitVec.ofNat 32 (l.start p) := by
    unfold Bitplane.ptr Segment.start
    rw [← BitVec.ofInt_natCast]
    push_cast
    rfl
  refine ⟨⟨?_, ?_⟩, ?_, ?_, ?_, ?_⟩
  · rw [hpixel]
    exact hash.trans (by omega)
  · rw [hpixel, hptr]
    exact setPtr_halves (b.pt .c) heven hlt
  · exact (setPtr_halves (b.pt .d) heven hlt).trans (setPtr_halves (b.pt .c) heven hlt).symm
  · rw [hzero]
    exact hacc
  · rw [hzero]
    exact hsign
  · simp [lineStart]

/-! ## The line -/

theorem chipAddr_byte (i : Fin chipRamSize) :
    chipAddr (BitVec.ofNat 32 i) = i.val / 2 * 2 := by
  have hi := i.isLt
  have hchip : chipRamSize = 0x200000 := rfl
  rw [chipAddr_eq, BitVec.toNat_ofNat]
  omega

/-- A byte of chip RAM is half of its word. -/
theorem getLsbD_ram (m : BlitRam) (i : Fin chipRamSize) (hj : j < 8) :
    (m.ram i).getLsbD j =
      (m.readWord (BitVec.ofNat 32 i)).getLsbD (if i.val % 2 = 0 then j + 8 else j) := by
  have haddr := chipAddr_byte i
  unfold BlitRam.readWord
  rw [BitVec.getLsbD_append]
  by_cases hhigh : i.val % 2 = 0
  · have hself : i = ⟨chipAddr (BitVec.ofNat 32 i), Nat.lt_of_succ_lt (chipAddr_lt _)⟩ :=
      Fin.ext (by simp only [haddr]; omega)
    rw [if_pos hhigh, if_neg (by omega), Nat.add_sub_cancel, ← hself]
  · have hself : i = ⟨chipAddr (BitVec.ofNat 32 i) + 1, chipAddr_lt _⟩ :=
      Fin.ext (by simp only [haddr]; omega)
    rw [if_neg hhigh, if_pos hj, ← hself]

/-- A pixel of the plane is where its word and bit say. -/
theorem holds_iff {pixel : Int × Int}
    (h : 0 ≤ pixel.1 ∧ pixel.1 < 8 * p.stride ∧ 0 ≤ pixel.2 ∧ pixel.2 < p.rows)
    (i : Fin chipRamSize) (hj : j < 8) :
    (chipAddr (BitVec.ofNat 32 i) = chipAddr (p.ptr pixel) ∧
      ((if i.val % 2 = 0 then j + 8 else j : Nat) : Int) = 15 - pixel.1 % 16) ↔
      p.Holds pixel i j := by
  obtain ⟨hx, hwidth, hy, hrows⟩ := h
  have hbase := p.even_base
  have hstride := p.even_stride
  have hfits := p.fits
  have hchip : chipRamSize = 0x200000 := rfl
  have hbelow : (pixel.2 + 1) * p.stride ≤ (p.rows : Int) * p.stride :=
    Int.mul_le_mul_of_nonneg_right (by omega) (by omega)
  have habove : 0 ≤ pixel.2 * p.stride := Int.mul_nonneg hy (by omega)
  have heven : pixel.2 * p.stride % 2 = 0 := by
    rw [Int.mul_emod, show (p.stride : Int) % 2 = 0 by omega, Int.mul_zero, Int.zero_emod]
  rw [Int.add_mul, Int.one_mul] at hbelow
  zify at hfits
  unfold Bitplane.Holds
  rw [chipAddr_byte, chipAddr_eq]
  unfold Bitplane.ptr
  rw [BitVec.toNat_ofInt]
  simp only [Nat.reducePow]
  generalize pixel.2 * (p.stride : Int) = t at *
  constructor
  · rintro ⟨haddr, hbit⟩
    split at hbit <;> omega
  · rintro ⟨haddr, hbit⟩
    split <;> omega

/-- An armed line runs its pixels. -/
theorem executeLogged_line {b : Blitter} (hpending : b.pending = true)
    (hline : b.bltcon1 &&& bltcon1Line ≠ 0) (hstart : Drawing l p m (b.lineStart m) 0) :
    ∃ t, Drawing l p m t 0 ∧
      (b.executeLogged m).2.2 = (b.lineSetup.pixel^[b.heightRows] t).mem := by
  -- only `BZERO` is set anew, which the pixels do not look at
  refine ⟨{ b with pending := false, zero := true }.lineStart m,
    ⟨?_, ?_, ?_, ?_, ?_⟩, ?_⟩
  · exact hstart.pen
  · exact hstart.dpt
  · exact hstart.acc
  · exact hstart.sign
  · exact hstart.drawn
  unfold executeLogged
  rw [if_neg (by simp [hpending])]
  simp only
  rw [if_pos hline]
  rfl

/-- **A line sets the pixels of the integer line and nothing else.** -/
theorem line_is_bresenham {l : Segment} {p : Bitplane} (h : l.Within p) (hpos : 1 ≤ l.major)
    (hmax : l.major ≤ 1023) (b : Blitter) (m : BlitRam) (i : Fin chipRamSize) {j : Nat}
    (hj : j < 8) :
    let after := ((l.programs p b).executeLogged m).2.2
    (after.ram i).getLsbD j = true ↔
      (m.ram i).getLsbD j = true ∨ ∃ k ≤ l.major, p.Holds (l.pixel k) i j := by
  intro after
  obtain ⟨hpending, hcon1, -⟩ := programs_registers l p b
  have hline := (con1_bits l.sud l.sul l.aul (l.err0 < 0)).1
  rw [← hcon1] at hline
  obtain ⟨t, hstart, hafter⟩ := executeLogged_line hpending hline
    (drawing_start h hpos b m)
  have hs := drawing_pixels (programmed l p b) hpos hmax hstart (l.major + 1)
  rw [programs_rows hmax] at hafter
  have hlen : (if i.val % 2 = 0 then j + 8 else j) < 16 := by
    split <;> omega
  show (((l.programs p b).executeLogged m).2.2.ram i).getLsbD j = true ↔ _
  rw [hafter, getLsbD_ram _ i hj, getLsbD_ram m i hj, hs.drawn _ _ hlen]
  refine or_congr Iff.rfl (exists_congr fun k => ?_)
  rw [Nat.lt_succ_iff]
  exact and_congr_right fun hk => holds_iff (Segment.pixel_within h hpos hk) i hj

/-- Left and up from `(19, 9)` to `(2, 4)`: the tenth pixel and one beside the last. -/
theorem line_is_bresenham_left_up :
    let p : Bitplane := ⟨0x1000, 4, 16, by decide, by decide, by decide, by decide⟩
    let l : Segment := ⟨19, 9, 2, 4⟩
    let after := ((l.programs p .new).executeLogged ⟨fun _ => 0, none⟩).2.2
    (after.ram ⟨0x1019, by decide⟩).getLsbD 6 = true ∧
      (after.ram ⟨0x1019, by decide⟩).getLsbD 4 ≠ true := by
  intro p l after
  have hin : l.Within p := ⟨by decide, by decide, by decide, by decide⟩
  have hset := line_is_bresenham hin (by decide) (by decide) .new ⟨fun _ => 0, none⟩
    ⟨0x1019, by decide⟩ (j := 6) (by decide)
  have hclear := line_is_bresenham hin (by decide) (by decide) .new ⟨fun _ => 0, none⟩
    ⟨0x1019, by decide⟩ (j := 4) (by decide)
  refine ⟨hset.mpr (Or.inr ⟨10, by decide, by decide, by decide⟩), fun h => ?_⟩
  rcases hclear.mp h with hbefore | ⟨k, hk, hbyte, hbit⟩
  · simp at hbefore
  · have hnone : ∀ k ≤ 17, ¬(((0x1019 : Nat) : Int) =
        p.base + (l.pixel k).2 * p.stride + (l.pixel k).1 / 8 ∧
        ((4 : Nat) : Int) = 7 - (l.pixel k).1 % 8) := by decide
    exact hnone k hk ⟨hbyte, hbit⟩

end Blitter

end M68kMachine
