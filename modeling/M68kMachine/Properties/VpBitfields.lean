import M68kMachine.Library.ByteField
import M68kMachine.Library.MaskedStore
import M68kMachine.Vp.Interp
import Mathlib.Data.Nat.ModEq

/-!
# Bit fields of the VP

`bf_read` and `bf_write` load the one to five bytes that hold a field, as one number, and store it
back. What was written is read again as long as these are different bytes of memory: addresses wrap
at the end of the buffer, and one of four bytes holds a field of five at its first byte twice.

* `memBit`, `InField` — the bits of memory, and those of a field
* `bfLoad_eq`, `bfStore_eq` — the loops, as loads and stores of `ByteField`
* `bitfield_slice` — reading, writing, and what a write leaves alone
-/

namespace M68kMachine

namespace Vp

open ByteField

/-- Bit `n` behind the most significant bit of the byte at `baseAddr`. -/
def memBit (mem : VpMemory) (baseAddr : Long) (n : Nat) : Bool :=
  (mem.readU8 (baseAddr + BitVec.ofNat 32 (n / 8))).getMsbD (n % 8)

/-- Bit `k` of the byte at `addr` is one of the bits of the field. -/
def InField (mem : VpMemory) (baseAddr : Long) (offset width : Nat) (addr : Long) (k : Nat) :
    Prop :=
  ∃ j < width, mem.idx addr = mem.idx (baseAddr + BitVec.ofNat 32 ((offset + j) / 8)) ∧
    k = (offset + j) % 8

/-! ## The loops -/

def cell (mem : VpMemory) : Fin (2 ^ mem.bits) → Byte := mem.buf

/-- The place of byte `i` of a number at `start`. -/
def byteAt (bits : Nat) (start : Long) (i : Nat) : Fin (2 ^ bits) :=
  ⟨(start + BitVec.ofNat 32 i).toNat % 2 ^ bits, Nat.mod_lt _ (Nat.two_pow_pos _)⟩

variable (mem : VpMemory) {bits : Nat}

theorem bfLoad_eq (start : Long) (nbytes : Nat) :
    bfLoad mem start nbytes = load (cell mem) (byteAt mem.bits start) nbytes := by
  induction nbytes with
  | zero => rfl
  | succ n ih =>
    unfold bfLoad at ih ⊢
    rw [List.range_succ, List.foldl_append, ih]
    rfl

theorem byteAt_val (h : bits ≤ 31) (start : Long) (i : Nat) :
    (byteAt bits start i).val = (start.toNat + i) % 2 ^ bits := by
  have hdvd : 2 ^ bits ∣ 2 ^ 32 := Nat.pow_dvd_pow 2 (by omega)
  unfold byteAt
  simp only [BitVec.toNat_add, BitVec.toNat_ofNat, Nat.add_mod_mod]
  exact Nat.mod_mod_of_dvd _ hdvd

/-- Fewer bytes than the buffer has stand at different places. -/
theorem byteAt_ne {i j : Nat} (h : bits ≤ 31) (start : Long) (hj : j < i) (hi : i < 2 ^ bits) :
    byteAt bits start j ≠ byteAt bits start i := by
  intro heq
  have hval := congrArg Fin.val heq
  rw [byteAt_val h, byteAt_val h] at hval
  have hmod : start.toNat + j ≡ start.toNat + i [MOD 2 ^ bits] := hval
  have := Nat.ModEq.eq_of_lt_of_lt (Nat.ModEq.add_left_cancel' _ hmod) (by omega) hi
  omega

/-- The buffer wraps. -/
theorem byteAt_two_pow (h : bits ≤ 31) (start : Long) :
    byteAt bits start (2 ^ bits) = byteAt bits start 0 := by
  refine Fin.ext ?_
  rw [byteAt_val h, byteAt_val h, Nat.add_mod_right, Nat.add_zero]

theorem writeU8_cell (start : Long) (i : Nat) (value : Byte) :
    cell (mem.writeU8 (start + BitVec.ofNat 32 i) value) =
      Function.update (cell mem) (byteAt mem.bits start i) value := by
  funext (x : Fin (2 ^ mem.bits))
  by_cases h : x = byteAt mem.bits start i
  · rw [h, Function.update_self]
    exact if_pos rfl
  · rw [Function.update_of_ne h]
    exact if_neg fun hx => h (Fin.ext hx)

theorem bfStore_eq (start : Long) (value : BitVec 64) (nbytes : Nat) :
    bfStore mem start value nbytes =
      { mem with buf := store (cell mem) (byteAt mem.bits start) value nbytes } := by
  induction nbytes generalizing mem value with
  | zero => rfl
  | succ n ih =>
    have hbyte : (value &&& 0xFF).setWidth 8 = value.setWidth 8 := by
      refine BitVec.eq_of_getLsbD_eq fun i hi => ?_
      simp only [BitVec.getLsbD_setWidth, BitVec.getLsbD_and]
      have : (0xFF : BitVec 64).getLsbD i = true := by
        interval_cases i <;> rfl
      rw [this, Bool.and_true]
    unfold bfStore at ih ⊢
    rw [List.range_succ, List.reverse_append, List.reverse_singleton, List.singleton_append,
      List.foldl_cons, ih, hbyte, writeU8_cell]
    rfl

/-! ## The field among the bits loaded -/

theorem getLsbD_bfMask {width : Nat} (hw : width ≤ 32) (i : Nat) :
    (bfMask width).getLsbD i = decide (i < width) := by
  have hmask : bfMask width = (BitVec.allOnes width).setWidth 64 := by
    interval_cases width <;> rfl
  rw [hmask, BitVec.getLsbD_setWidth, BitVec.getLsbD_allOnes]
  by_cases hi : i < width
  · rw [decide_eq_true hi, decide_eq_true (by omega), Bool.and_self]
  · rw [decide_eq_false hi, Bool.and_false]

/-- Bit `b` of the bytes at the field. -/
theorem bitAt_start (baseAddr : Long) (offset j : Nat) :
    bitAt (cell mem) (byteAt mem.bits (bfStart baseAddr offset)) (offset % 8 + j) =
      memBit mem baseAddr (offset + j) := by
  have haddr : bfStart baseAddr offset + BitVec.ofNat 32 ((offset % 8 + j) / 8) =
      baseAddr + BitVec.ofNat 32 ((offset + j) / 8) := by
    unfold bfStart
    rw [BitVec.add_assoc, ← BitVec.ofNat_add]
    congr 2
    omega
  unfold bitAt memBit VpMemory.readU8 cell byteAt VpMemory.idx
  rw [show (offset % 8 + j) % 8 = (offset + j) % 8 from by omega]
  simp only [haddr]

/-- The number `bf_write` stores. -/
def bfWord (mem : VpMemory) (baseAddr : Long) (offset width : Nat) (value : Long) : BitVec 64 :=
  MaskedStore.merge (bfMask width <<< bfShift offset width)
    (bfLoad mem (bfStart baseAddr offset) (bfBytes offset width))
    (value.setWidth 64 <<< bfShift offset width)

theorem bfWrite_eq (baseAddr : Long) (offset width : Nat) (value : Long) :
    bfWrite mem baseAddr offset width value =
      { mem with
        buf := store (cell mem) (byteAt mem.bits (bfStart baseAddr offset))
          (bfWord mem baseAddr offset width value) (bfBytes offset width) } :=
  bfStore_eq mem _ _ _

section

variable {offset width : Nat} (hw : 1 ≤ width) (hw' : width ≤ 32) (mem : VpMemory) (baseAddr : Long)

include hw hw'

/-- A field has its bits between those of its first and its last byte. -/
theorem bfBytes_bounds (offset : Nat) : offset % 8 + width ≤ 8 * bfBytes offset width ∧
    bfShift offset width = 8 * bfBytes offset width - offset % 8 - width ∧
    8 * bfBytes offset width ≤ 64 ∧ 0 < bfBytes offset width := by
  unfold bfShift bfBytes
  omega

theorem getLsbD_bfRead {j : Nat} (hj : j < width) :
    (bfRead mem baseAddr offset width).getLsbD (width - 1 - j) =
      memBit mem baseAddr (offset + j) := by
  obtain ⟨hfit, hshift, h64, -⟩ := bfBytes_bounds hw hw' offset
  unfold bfRead
  simp only [BitVec.getLsbD_setWidth, BitVec.getLsbD_and, BitVec.getLsbD_ushiftRight,
    getLsbD_bfMask hw']
  rw [hshift, show 8 * bfBytes offset width - offset % 8 - width + (width - 1 - j) =
    8 * bfBytes offset width - 1 - (offset % 8 + j) from by omega, bfLoad_eq,
    getLsbD_load (by omega) h64, bitAt_start, decide_eq_true (by omega), decide_eq_true (by omega)]
  simp

omit hw in
theorem getLsbD_bfRead_high {i : Nat} (hi : width ≤ i) :
    (bfRead mem baseAddr offset width).getLsbD i = false := by
  unfold bfRead
  simp only [BitVec.getLsbD_setWidth, BitVec.getLsbD_and, getLsbD_bfMask hw']
  rw [decide_eq_false (by omega : ¬ i < width), Bool.and_false, Bool.and_false]

/-- What `bf_write` stores: the new bits in the field and the old ones around it. -/
theorem getLsbD_bfWord (value : Long) {b : Nat} (hb : b < 8 * bfBytes offset width) :
    (bfWord mem baseAddr offset width value).getLsbD (8 * bfBytes offset width - 1 - b) =
      if offset % 8 ≤ b ∧ b < offset % 8 + width then
        value.getLsbD (width - 1 - (b - offset % 8))
      else bitAt (cell mem) (byteAt mem.bits (bfStart baseAddr offset)) b := by
  obtain ⟨hfit, hshift, h64, -⟩ := bfBytes_bounds hw hw' offset
  unfold bfWord
  rw [MaskedStore.getLsbD_merge, bfLoad_eq, getLsbD_load hb h64, BitVec.getLsbD_shiftLeft,
    BitVec.getLsbD_shiftLeft, getLsbD_bfMask hw', decide_eq_true (by omega), hshift]
  by_cases hin : offset % 8 ≤ b ∧ b < offset % 8 + width
  · rw [if_pos hin, decide_eq_false (by omega), decide_eq_true (by omega), if_pos (by rfl),
      BitVec.getLsbD_setWidth, decide_eq_true (by omega)]
    simp only [Bool.not_false, Bool.true_and]
    congr 1
    omega
  · rw [if_neg hin, if_neg]
    simp only [Bool.and_eq_true, decide_eq_true_eq, Bool.not_eq_true', decide_eq_false_iff_not]
    omega

/-- Writing what is there. -/
theorem bfWrite_bfRead :
    bfWrite mem baseAddr offset width (bfRead mem baseAddr offset width) = mem := by
  rw [bfWrite_eq, store_same]
  · rfl
  intro b hb
  rw [getLsbD_bfWord hw hw' mem baseAddr _ hb]
  split
  · rename_i hin
    rw [getLsbD_bfRead hw hw' mem baseAddr (by omega), ← bitAt_start]
    congr 1
    omega
  · rfl

/-- No bit outside the field changes. -/
theorem bfWrite_frame (value addr : Long) {k : Nat} (hk : k < 8)
    (hout : ¬ InField mem baseAddr offset width addr k) :
    ((bfWrite mem baseAddr offset width value).readU8 addr).getMsbD k =
      (mem.readU8 addr).getMsbD k := by
  rw [bfWrite_eq]
  refine store_frame (F := fun b => offset % 8 ≤ b ∧ b < offset % 8 + width) (fun b hb hb' => ?_)
    hk (x := (⟨mem.idx addr, mem.idx_lt addr⟩ : Fin (2 ^ mem.bits)))
    fun b hb hin hplace hbit => hout ?_
  · rw [getLsbD_bfWord hw hw' mem baseAddr _ hb, if_neg hb']
  · have haddr : bfStart baseAddr offset + BitVec.ofNat 32 (b / 8) =
        baseAddr + BitVec.ofNat 32 ((offset + (b - offset % 8)) / 8) := by
      unfold bfStart
      rw [BitVec.add_assoc, ← BitVec.ofNat_add]
      congr 2
      omega
    refine ⟨b - offset % 8, by omega, ?_, by omega⟩
    rw [← haddr]
    exact (congrArg Fin.val hplace).symm

theorem getLsbD_bfRead_bfWrite (offset : Nat) (mem : VpMemory) (baseAddr value : Long) {j : Nat}
    (hj : j < width) :
    (bfRead (bfWrite mem baseAddr offset width value) baseAddr offset width).getLsbD
        (width - 1 - j) =
      bitAt (store (cell mem) (byteAt mem.bits (bfStart baseAddr offset))
          (bfWord mem baseAddr offset width value) (bfBytes offset width))
        (byteAt mem.bits (bfStart baseAddr offset)) (offset % 8 + j) := by
  rw [getLsbD_bfRead hw hw' _ baseAddr hj, ← bitAt_start, bfWrite_eq]
  rfl

/-- What was written is read again when the bytes of the field are different ones. -/
theorem bfRead_bfWrite (value : Long) (hfit : bfBytes offset width ≤ 2 ^ mem.bits) :
    (bfRead (bfWrite mem baseAddr offset width value) baseAddr offset width).toNat =
      value.toNat % 2 ^ width := by
  refine Nat.eq_of_testBit_eq fun i => ?_
  rw [BitVec.testBit_toNat, Nat.testBit_mod_two_pow, BitVec.testBit_toNat]
  by_cases hi : i < width
  · obtain ⟨hlast, -⟩ := bfBytes_bounds hw hw' offset
    have hbit := getLsbD_bfRead_bfWrite hw hw' offset mem baseAddr value
      (j := width - 1 - i) (by omega)
    rw [bitAt_store (fun i hi j hj => byteAt_ne mem.bits_le _ hj (by omega)) (by omega),
      getLsbD_bfWord hw hw' mem baseAddr _ (by omega), if_pos (by omega)] at hbit
    rw [decide_eq_true hi, Bool.true_and]
    rw [show width - 1 - (width - 1 - i) = i from by omega] at hbit
    rw [hbit]
    congr 1
    omega
  · rw [getLsbD_bfRead_high hw' _ baseAddr (by omega), decide_eq_false hi, Bool.false_and]

/-- When one of the bytes stands where the first one does, a bit written there is lost. -/
theorem bfBytes_le_of_bfRead_bfWrite
    (h : ∀ value, (bfRead (bfWrite mem baseAddr offset width value) baseAddr offset width).toNat =
      value.toNat % 2 ^ width) : bfBytes offset width ≤ 2 ^ mem.bits := by
  by_contra hlong
  obtain ⟨hlast, -, -, hpos⟩ := bfBytes_bounds hw hw' offset
  have hone : 1 ≤ 2 ^ mem.bits := Nat.one_le_two_pow
  have hin : 8 * 2 ^ mem.bits < offset % 8 + width := by
    unfold bfBytes at hlong
    omega
  obtain ⟨j, hj⟩ : ∃ j, offset % 8 + j = 8 * 2 ^ mem.bits :=
    ⟨8 * 2 ^ mem.bits - offset % 8, by omega⟩
  -- the bit at the front of that byte is read as the bit at the front of the first
  have hread : ∀ value : Long, value.getLsbD (width - 1 - j) =
      (bfWord mem baseAddr offset width value).getLsbD (8 * bfBytes offset width - 1) := by
    intro value
    have hbit := getLsbD_bfRead_bfWrite hw hw' offset mem baseAddr value
      (j := j) (by omega)
    rw [hj, bitAt_store_first hpos (byteAt_two_pow mem.bits_le _)] at hbit
    rw [← hbit, ← BitVec.testBit_toNat, ← BitVec.testBit_toNat, h, Nat.testBit_mod_two_pow,
      decide_eq_true (by omega), Bool.true_and]
  have hfront : ∀ value : Long, value.getLsbD (width - 1) = false →
      (bfWord mem baseAddr offset width value).getLsbD (8 * bfBytes offset width - 1) =
        (bfWord mem baseAddr offset width 0).getLsbD (8 * bfBytes offset width - 1) := by
    intro value hvalue
    have hword := fun v => getLsbD_bfWord hw hw' mem baseAddr v (b := 0)
      (by omega : 0 < 8 * bfBytes offset width)
    simp only [Nat.sub_zero] at hword
    rw [hword, hword]
    split
    · rw [Nat.zero_sub, Nat.sub_zero, hvalue]
      simp
    · rfl
  have hset := hread (BitVec.twoPow 32 (width - 1 - j))
  rw [hfront, ← hread] at hset
  · rw [BitVec.getLsbD_twoPow] at hset
    simp [show width - 1 - j < 32 from by omega] at hset
  · rw [BitVec.getLsbD_twoPow]
    simp only [Bool.and_eq_false_iff, decide_eq_false_iff_not]
    omega

/-- **A field is a slice of memory.** Its bits are read in order, a write changes no other, writing
what was read changes nothing, and what was written is read again exactly when the buffer has a byte
for each byte of the field. -/
theorem bitfield_slice (mem : VpMemory) (baseAddr : Long) :
    ((bfRead mem baseAddr offset width).toNat < 2 ^ width ∧ ∀ j < width,
        (bfRead mem baseAddr offset width).getLsbD (width - 1 - j) =
          memBit mem baseAddr (offset + j)) ∧
      (∀ value addr k, k < 8 → ¬ InField mem baseAddr offset width addr k →
        ((bfWrite mem baseAddr offset width value).readU8 addr).getMsbD k =
          (mem.readU8 addr).getMsbD k) ∧
      bfWrite mem baseAddr offset width (bfRead mem baseAddr offset width) = mem ∧
      ((∀ value, (bfRead (bfWrite mem baseAddr offset width value) baseAddr offset width).toNat =
          value.toNat % 2 ^ width) ↔ bfBytes offset width ≤ 2 ^ mem.bits) := by
  refine ⟨⟨?_, fun j hj => getLsbD_bfRead hw hw' mem baseAddr hj⟩,
    fun value addr k hk hout => bfWrite_frame hw hw' mem baseAddr value addr hk hout,
    bfWrite_bfRead hw hw' mem baseAddr, bfBytes_le_of_bfRead_bfWrite hw hw' mem baseAddr,
    fun hfit value => bfRead_bfWrite hw hw' mem baseAddr value hfit⟩
  refine Nat.lt_pow_two_of_testBit _ fun i hi => ?_
  rw [BitVec.testBit_toNat, getLsbD_bfRead_high hw' mem baseAddr hi]

end

/-- A buffer of `2 ^ bits` zeros. -/
def zeroMemory (bits : Nat) (h : bits ≤ 31) : VpMemory where
  bits := bits
  bits_le := h
  buf := fun _ => 0

/-- A field over the end of the buffer and of the address space. -/
theorem bitfield_slice_at_end :
    (bfRead (bfWrite (zeroMemory 3 (by decide)) 0xFFFFFFFE 7 32 0x12345678) 0xFFFFFFFE 7 32).toNat =
      (0x12345678 : Long).toNat % 2 ^ 32 :=
  (@bitfield_slice 7 32 (by decide) (by decide) _ _).2.2.2.mpr (by decide) _

/-- Five bytes of a field in a buffer of four: the low bits of the value are lost. -/
theorem fiveBytes_overlap :
    (bfRead (bfWrite (zeroMemory 2 (by decide)) 0 7 32 1) 0 7 32).toNat ≠
      (1 : Long).toNat % 2 ^ 32 := by
  decide

end Vp

end M68kMachine
