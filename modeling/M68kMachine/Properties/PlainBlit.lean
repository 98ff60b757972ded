import M68kMachine.Properties.BlitFrame
import Mathlib.Data.List.ProdSigma

/-!
# Plain copies

A blit whose source is VRAM, without pattern and colour expansion. It keeps no state but VRAM, so a
transfer is a fold of `copyByte` over its rows and columns.

* `PlainCopy`, `copyByte`, `executeBlit_plain`
* `copyByte_congr` — two copies that go through the same addresses
* `reg_setBlitAddr`, `blitAddr_setBlitAddr` — the address registers as counters
-/

namespace M68kMachine

open Cirrus

namespace Cirrus542x

/-- The registers ask for a copy from VRAM to VRAM. -/
structure PlainCopy (c : Cirrus542x) : Prop where
  noSystem : reg c.gr Idx.grBlitMode &&& BlitMode.systemSource = 0
  noPattern : reg c.gr Idx.grBlitMode &&& BlitMode.pattern = 0
  noExpand : reg c.gr Idx.grBlitMode &&& BlitMode.colorExpand = 0

/-- The source address of byte `x` of row `y`. -/
def BlitSetup.srcAt (p : BlitSetup) (y x : Nat) : Option Nat :=
  p.along (p.lineStart p.srcStart p.srcPitch y) x

/-- The destination address of byte `x` of row `y`. -/
def BlitSetup.dstAt (p : BlitSetup) (y x : Nat) : Option Nat :=
  p.along (p.lineStart p.dstStart p.dstPitch y) x

/-- The rows and columns of a blit, in its order. -/
def BlitSetup.places (p : BlitSetup) : List (Nat × Nat) :=
  List.range p.height ×ˢ List.range p.width

theorem mem_places {p : BlitSetup} {q : Nat × Nat} :
    q ∈ p.places ↔ q.1 < p.height ∧ q.2 < p.width := by
  unfold BlitSetup.places
  rw [List.mem_product, List.mem_range, List.mem_range]

/-- The bytes of a pixel match the compare registers where the mask registers let them. -/
def matchesKey (c : Cirrus542x) (pixelBytes : Nat) (bytes : Nat → Byte) : Bool :=
  (List.range pixelBytes).all fun i =>
    let mask := reg c.gr (Idx.grBlitTransparentMask + i)
    bytes i &&& ~~~mask = reg c.gr (Idx.grBlitTransparentCompare + i) &&& ~~~mask

variable {c : Cirrus542x}

theorem matchesKey_congr {n : Nat} {f g : Nat → Byte} (h : ∀ i < n, f i = g i) :
    c.matchesKey n f = c.matchesKey n g := by
  unfold matchesKey
  rw [Bool.eq_iff_iff, List.all_eq_true, List.all_eq_true]
  refine forall₂_congr fun i hi => ?_
  rw [h i (List.mem_range.mp hi)]

/-- The colour key holds a byte of a plain copy back. -/
def held (c : Cirrus542x) (p : BlitSetup) (vram : ByteSlice) (y x : Nat) : Bool :=
  p.transparent &&
    c.matchesKey p.pixelBytes fun i => vramByte vram (p.srcAt y (x - x % p.pixelBytes + i))

/-- One byte of a plain copy. -/
def copyByte (c : Cirrus542x) (p : BlitSetup) (y : Nat) (vram : ByteSlice) (x : Nat) :
    ByteSlice :=
  match p.dstAt y x with
  | none => vram
  | some dst =>
    if c.held p vram y x then vram
    else vram.set dst (applyRop (reg c.gr Idx.grBlitRop) (vramByte vram (p.srcAt y x))
      (vramByte vram (some dst)))

/-- One row of a plain copy. -/
def copyRow (c : Cirrus542x) (p : BlitSetup) (vram : ByteSlice) (y : Nat) : ByteSlice :=
  (List.range p.width).foldl (c.copyByte p y) vram

/-- A store past the end of VRAM is none. -/
theorem set_of_le {b : ByteSlice} {i : Nat} (h : b.size ≤ i) (value : Byte) :
    b.set i value = b := by
  obtain ⟨size, bytes⟩ := b
  unfold ByteSlice.set
  congr 1
  funext j
  refine if_neg fun hj => ?_
  have := j.isLt
  simp only at h hj
  omega

section Plain

variable {c : Cirrus542x} (hplain : c.PlainCopy)

include hplain

theorem setup_pattern : (c.blitSetup none).pattern = false := by
  show decide (reg c.gr Idx.grBlitMode &&& BlitMode.pattern ≠ 0) = false
  rw [hplain.noPattern]
  rfl

theorem setup_colorExpand : (c.blitSetup none).colorExpand = false := by
  show decide (reg c.gr Idx.grBlitMode &&& BlitMode.colorExpand ≠ 0) = false
  rw [hplain.noExpand]
  rfl

theorem blitSource_plain (s : BlitState) (y x : Nat) :
    c.blitSource (c.blitSetup none) s y x =
      (vramByte s.vram ((c.blitSetup none).srcAt y x), c.held (c.blitSetup none) s.vram y x) := by
  unfold blitSource held keyed matchesKey
  simp only [BlitSetup.solidFill, setup_pattern hplain, setup_colorExpand hplain, Bool.false_and,
    Bool.false_eq_true, if_false]
  have hlinear : ∀ x, (c.blitSetup none).linearBlitSource s.vram false y x =
      vramByte s.vram ((c.blitSetup none).srcAt y x) := fun _ => rfl
  simp only [hlinear]
  cases (c.blitSetup none).transparent <;> rfl

/-- **One byte.** -/
theorem blitByte_plain (s : BlitState) (y x : Nat) :
    (c.blitByte (c.blitSetup none) y s x).vram = c.copyByte (c.blitSetup none) y s.vram x := by
  rw [blitByte_vram]
  unfold stores copyByte
  rw [blitSource_plain hplain]
  show _ = match (c.blitSetup none).dstAt y x with | none => _ | some dst => _
  unfold BlitSetup.dstAt
  cases hdst : (c.blitSetup none).along
    ((c.blitSetup none).lineStart (c.blitSetup none).dstStart (c.blitSetup none).dstPitch y) x with
  | none => rfl
  | some dst =>
    dsimp only
    cases hheld : c.held (c.blitSetup none) s.vram y x with
    | true => simp
    | false =>
      by_cases hin : dst < s.vram.size
      · rw [if_pos ⟨hin, rfl⟩]
        rfl
      · rw [if_neg fun h => hin h.1]
        exact (set_of_le (Nat.not_lt.mp hin) _).symm

/-- **A plain blit is its bytes, row after row.** -/
theorem executeBlit_plain : (c.executeBlit none).vram =
    (List.range (c.blitSetup none).height).foldl (c.copyRow (c.blitSetup none)) c.vram := by
  have hexpands : (c.blitSetup none).expandsVram = false := by
    unfold BlitSetup.expandsVram
    rw [setup_colorExpand hplain]
    rfl
  have hrow (s : BlitState) (y : Nat) : (c.blitRow (c.blitSetup none) s y).vram =
      c.copyRow (c.blitSetup none) s.vram y := by
    unfold blitRow copyRow
    simp only [hexpands, Bool.false_eq_true, false_and, if_false]
    exact (List.foldl_hom BlitState.vram fun s x => (blitByte_plain hplain s y x).symm).symm
  exact (List.foldl_hom BlitState.vram fun s y => (hrow s y).symm).symm

end Plain

theorem startBlit_plain (hplain : c.PlainCopy) :
    c.startBlit = c.executeBlit none := if_neg fun h => h hplain.noSystem

theorem executeBlit_size (c : Cirrus542x) (system : Option (List Byte)) :
    (c.executeBlit system).vram.size = c.vram.size := by
  refine ((stateAt_vram_invariant (c := c) (P := fun v => v.size = c.vram.size) rfl ?_)
    (c.blitSetup system).height (Nat.le_refl _)).1
  intro y _ x _ h
  rw [stateAt_succ, blitByte_size]
  exact h

/-! ## Copies through the same addresses -/

/-- Bytes that go through the same addresses, under the same registers, are copied alike. -/
theorem copyByte_congr {c' : Cirrus542x} {p p' : BlitSetup}
    (hreg : ∀ i, Idx.grBlitMode ≤ i → reg c'.gr i = reg c.gr i) (hmode : p'.mode = p.mode)
    (hbytes : p'.pixelBytes = p.pixelBytes) {y y' x x' : Nat} (hdst : p'.dstAt y' x' = p.dstAt y x)
    (hsrc : p'.srcAt y' x' = p.srcAt y x)
    (hkey : p.transparent = true → ∀ i, p'.srcAt y' (x' - x' % p.pixelBytes + i) =
      p.srcAt y (x - x % p.pixelBytes + i)) (vram : ByteSlice) :
    c'.copyByte p' y' vram x' = c.copyByte p y vram x := by
  have htransparent : p'.transparent = p.transparent := by
    unfold BlitSetup.transparent
    rw [hmode]
  have hheld : c'.held p' vram y' x' = c.held p vram y x := by
    unfold held
    rw [htransparent, hbytes]
    cases ht : p.transparent with
    | false => rfl
    | true =>
      have hbase : Idx.grBlitMode = 0x30 ∧ Idx.grBlitTransparentMask = 0x38 ∧
          Idx.grBlitTransparentCompare = 0x34 := by decide
      have hmask : ∀ i, reg c'.gr (Idx.grBlitTransparentMask + i) =
          reg c.gr (Idx.grBlitTransparentMask + i) := fun i => hreg _ (by omega)
      have hcompare : ∀ i, reg c'.gr (Idx.grBlitTransparentCompare + i) =
          reg c.gr (Idx.grBlitTransparentCompare + i) := fun i => hreg _ (by omega)
      unfold matchesKey
      simp only [hkey ht, hmask, hcompare]
  unfold copyByte
  rw [hdst, hsrc, hheld, hreg Idx.grBlitRop (by decide)]

/-! ## The address registers -/

theorem reg_setIfInBounds {n : Nat} (file : Vector Byte n) {i : Nat} (hi : i < n) (value : Byte)
    (j : Nat) : reg (file.setIfInBounds i value) j = if j = i then value else reg file j := by
  unfold reg
  rw [Vector.getElem?_setIfInBounds]
  by_cases h : i = j
  · subst h
    simp [hi]
  · rw [if_neg h, if_neg (Ne.symm h)]

/-- The bits of an address that the registers hold. -/
def addrBits (address : Quad) : Quad := address &&& BitVec.ofNat 64 blitAddrMask

variable {low : Nat}

theorem reg_setBlitAddr (c : Cirrus542x) (hlow : low + 2 < 64) (address : Quad) (i : Nat) :
    reg (c.setBlitAddr low address).gr i =
      if i = low + 2 then
        (reg c.gr (low + 2) &&& (0xE0 : Byte)) ||| ((addrBits address >>> 16).setWidth 8 &&& 0x1F)
      else if i = low + 1 then (addrBits address >>> 8).setWidth 8
      else if i = low then (addrBits address).setWidth 8
      else reg c.gr i := by
  show reg (((c.gr.setIfInBounds low ((addrBits address).setWidth 8)).setIfInBounds (low + 1)
    ((addrBits address >>> 8).setWidth 8)).setIfInBounds (low + 2) _) i = _
  rw [reg_setIfInBounds _ hlow, reg_setIfInBounds _ (by omega), reg_setIfInBounds _ (by omega)]
  rfl

theorem addrBits_toNat (address : Quad) : (addrBits address).toNat = address.toNat % 0x200000 := by
  unfold addrBits
  rw [BitVec.toNat_and]
  exact Nat.and_two_pow_sub_one_eq_mod address.toNat 21

/-- **What is stored in the address registers is read back**, up to their 21 bits. -/
theorem blitAddr_setBlitAddr (c : Cirrus542x) (hlow : low + 2 < 64) (address : Quad) :
    (c.setBlitAddr low address).blitAddr low = address.toNat % 0x200000 := by
  unfold blitAddr
  rw [reg_setBlitAddr c hlow, reg_setBlitAddr c hlow, reg_setBlitAddr c hlow, ← addrBits_toNat]
  rw [if_neg (by omega), if_neg (by omega), if_pos rfl, if_neg (by omega), if_pos rfl, if_pos rfl]
  have hlt : (addrBits address).toNat < 2 ^ 21 := by
    rw [addrBits_toNat]
    exact Nat.mod_lt _ (by decide)
  generalize addrBits address = a at hlt ⊢
  have hlow5 : ∀ j, (0x1F : Byte).getLsbD j = decide (j < 5) := by
    intro j
    by_cases hj : j < 8
    · revert j
      decide
    · rw [BitVec.getLsbD_of_ge _ _ (by omega), eq_comm, decide_eq_false_iff_not]
      omega
  have hhigh3 : ∀ j, j < 5 → (0xE0 : Byte).getLsbD j = false := by decide
  have hzero : ∀ j, 21 ≤ j → a.getLsbD j = false := by
    intro j hj
    rw [← BitVec.testBit_toNat]
    exact Nat.testBit_lt_two_pow (Nat.lt_of_lt_of_le hlt (Nat.pow_le_pow_right Nat.two_pos hj))
  refine Nat.eq_of_testBit_eq fun i => ?_
  simp only [Nat.testBit_or, Nat.testBit_shiftLeft, BitVec.testBit_toNat, BitVec.getLsbD_setWidth,
    BitVec.getLsbD_and, BitVec.getLsbD_or, BitVec.getLsbD_ushiftRight, hlow5]
  -- by the register the bit is kept in
  rcases (by omega : i < 8 ∨ 8 ≤ i ∧ i < 16 ∨ 16 ≤ i ∧ i < 21 ∨ 21 ≤ i) with h | h | h | h
  · simp [h, show ¬8 ≤ i by omega, show ¬16 ≤ i by omega]
  · simp [h, show ¬i < 8 by omega, show ¬16 ≤ i by omega, show i - 8 < 8 by omega,
      show 8 + (i - 8) = i by omega]
  · simp only [hhigh3 (i - 16) (by omega), Bool.and_false, Bool.false_or]
    simp [h, show ¬i < 8 by omega, show ¬i - 8 < 8 by omega, show i - 16 < 5 by omega,
      show i - 16 < 8 by omega, show 16 + (i - 16) = i by omega]
  · simp [hzero i h, show ¬i < 8 by omega, show ¬i - 8 < 8 by omega, show ¬i - 16 < 5 by omega]

theorem blitAddr_congr {c' : Cirrus542x} (h0 : reg c'.gr low = reg c.gr low)
    (h1 : reg c'.gr (low + 1) = reg c.gr (low + 1))
    (h2 : reg c'.gr (low + 2) = reg c.gr (low + 2)) : c'.blitAddr low = c.blitAddr low := by
  unfold blitAddr
  rw [h0, h1, h2]

/-- The two address registers do not share a byte. -/
theorem blitAddr_setBlitAddr_of_apart (c : Cirrus542x) {other : Nat} (hother : other + 2 < 64)
    (hapart : low + 2 < other ∨ other + 2 < low) (address : Quad) :
    (c.setBlitAddr other address).blitAddr low = c.blitAddr low := by
  refine blitAddr_congr ?_ ?_ ?_
  all_goals
    rw [reg_setBlitAddr _ hother, if_neg (by omega), if_neg (by omega), if_neg (by omega)]

end Cirrus542x

end M68kMachine
