import M68kMachine.Core.Blitter

/-!
# The words of a blit

Chip RAM as the array of words the blitter takes it for, and its two combinational parts bit by bit:
the logic unit looks its inputs up in a table, the barrel shifter picks bits from two words.
-/

namespace M68kMachine

namespace Blitter

/-! ## Chip RAM as words -/

/-- A mask that drops bit 0 and keeps the `k` bits above it. -/
theorem and_even_mask (n k : Nat) : n &&& ((2 ^ k - 1) * 2) = n / 2 % 2 ^ k * 2 := by
  have hhalf : (n &&& ((2 ^ k - 1) * 2)) / 2 = n / 2 % 2 ^ k := by
    rw [Nat.and_div_two, Nat.mul_div_cancel _ (by decide), Nat.and_two_pow_sub_one_eq_mod]
  have heven : (n &&& ((2 ^ k - 1) * 2)) % 2 = 0 := by
    rcases Nat.mod_two_eq_zero_or_one (n &&& ((2 ^ k - 1) * 2)) with h | h
    · exact h
    · have hmask := (Nat.and_mod_two_eq_one.mp h).2
      omega
  omega

theorem chipAddr_eq (ptr : Long) : chipAddr ptr = ptr.toNat / 2 % 0x100000 * 2 := by
  unfold chipAddr
  rw [BitVec.toNat_and]
  exact and_even_mask ptr.toNat 20

/-- Two words are the same or share no byte. -/
theorem readWord_writeWord (m : BlitRam) (p q : Long) (value : Word) :
    (m.writeWord p value).readWord q =
      if chipAddr q = chipAddr p then value else m.readWord q := by
  have hp := chipAddr_eq p
  have hq := chipAddr_eq q
  have hbytes : ((value >>> 8).setWidth 8 ++ value.setWidth 8 : Word) = value := by
    refine BitVec.eq_of_getLsbD_eq fun i hi => ?_
    rw [BitVec.getLsbD_append]
    by_cases hlow : i < 8
    · simp [hlow]
    · simp [hlow, show i - 8 < 8 by omega, show 8 + (i - 8) = i by omega]
  have hbyte (i : Nat) (hi : i < chipRamSize) : (m.writeWord p value).ram ⟨i, hi⟩ =
      if i = chipAddr p + 1 then value.setWidth 8
      else if i = chipAddr p then (value >>> 8).setWidth 8 else m.ram ⟨i, hi⟩ := rfl
  unfold BlitRam.readWord
  rw [hbyte, hbyte]
  by_cases hsame : chipAddr q = chipAddr p
  · rw [if_pos hsame, if_neg (by omega), if_pos hsame, if_pos (by omega)]
    exact hbytes
  · rw [if_neg hsame, if_neg (by omega), if_neg hsame, if_neg (by omega), if_neg (by omega)]

/-! ## The logic unit and the shifter -/

variable {i : Nat}

/-- A bit of the result is the bit of `lf` its inputs name. -/
theorem getLsbD_minterm (lf : Byte) (a b c : Word) (hi : i < 16) :
    (minterm lf a b c).getLsbD i =
      lf.getLsbD ((if a.getLsbD i then 4 else 0) + (if b.getLsbD i then 2 else 0) +
        (if c.getLsbD i then 1 else 0)) := by
  have hterm (set : Bool) (t : Word) :
      (if set then t else 0 : Word).getLsbD i = (set && t.getLsbD i) := by
    cases set <;> simp
  unfold minterm
  simp only [BitVec.getLsbD_or, hterm, BitVec.getLsbD_and, BitVec.getLsbD_not, hi, decide_true,
    Bool.true_and]
  cases a.getLsbD i <;> cases b.getLsbD i <;> cases c.getLsbD i <;> simp

/-- Ascending, the bits on the left come from the word before. -/
theorem getLsbD_shift_ascending (prev cur : Word) {n : Nat} (hi : i < 16) :
    (shiftCombine prev cur n false).getLsbD i =
      if i + n < 16 then cur.getLsbD (i + n) else prev.getLsbD (i + n - 16) := by
  unfold shiftCombine
  rcases Nat.eq_zero_or_pos n with rfl | hn
  · simp [hi]
  · rw [if_neg (by omega)]
    simp only [Bool.false_eq_true, if_false, BitVec.getLsbD_setWidth, BitVec.getLsbD_ushiftRight,
      BitVec.getLsbD_append, hi, decide_true, Bool.true_and]
    rw [Nat.add_comm n i]

/-- Descending, the bits on the right do. -/
theorem getLsbD_shift_descending (prev cur : Word) {n : Nat} (hn : n < 16) (hi : i < 16) :
    (shiftCombine prev cur n true).getLsbD i =
      if n ≤ i then cur.getLsbD (i - n) else prev.getLsbD (i + 16 - n) := by
  unfold shiftCombine
  rcases Nat.eq_zero_or_pos n with rfl | hpos
  · simp
  · rw [if_neg (by omega)]
    simp only [if_true, BitVec.getLsbD_setWidth, BitVec.getLsbD_ushiftRight,
      BitVec.getLsbD_shiftLeft, BitVec.getLsbD_append, hi, decide_true, Bool.true_and]
    rw [decide_eq_true (by omega : 16 + i < 16 + 16), decide_eq_false (by omega : ¬16 + i < n)]
    by_cases hle : n ≤ i
    · rw [if_pos hle, if_neg (by omega), show 16 + i - n - 16 = i - n by omega]
      rfl
    · rw [if_neg hle, if_pos (by omega), show 16 + i - n = i + 16 - n by omega]
      rfl

end Blitter

end M68kMachine
