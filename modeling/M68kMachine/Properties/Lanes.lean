import M68kMachine.Cards.Pcibridge
import M68kMachine.Cards.VirtioNet

/-!
# Byte lanes

What the byte-lane helpers do, bit by bit: merging a byte changes one lane, and composing lanes
gives the value whose lanes they are.
-/

namespace M68kMachine

open VirtioNetStub

theorem getLsbD_laneLE {w : Nat} (v : BitVec w) (lane : Nat) {i : Nat} (hi : i < 8) :
    (laneLE v lane).getLsbD i = v.getLsbD (8 * lane + i) := by
  unfold laneLE
  rw [BitVec.getLsbD_setWidth, BitVec.getLsbD_ushiftRight]
  simp [hi]

theorem le16_toLE16 (v : Word) : le16 (toLE16 v) 0 = v := by
  apply BitVec.eq_of_getLsbD_eq
  intro i hi
  simp only [le16, toLE16, BitVec.getLsbD_append, List.getD_cons_zero, List.getD_cons_succ]
  rcases (by omega : i < 8 ∨ 8 ≤ i) with h | h
  · rw [if_pos h, getLsbD_laneLE v 0 h]
    congr 1
    omega
  · rw [if_neg (by omega), getLsbD_laneLE v 1 (by omega)]
    congr 1
    omega

theorem le32_toLE32 (v : Long) : le32 (toLE32 v) 0 = v := by
  apply BitVec.eq_of_getLsbD_eq
  intro i hi
  simp only [le32, le16, toLE32, BitVec.getLsbD_append, List.getD_cons_zero, List.getD_cons_succ]
  rcases (by omega : i < 8 ∨ 8 ≤ i ∧ i < 16 ∨ 16 ≤ i ∧ i < 24 ∨ 24 ≤ i) with h | h | h | h
  · rw [if_pos (by omega), if_pos h, getLsbD_laneLE v 0 h]
    congr 1
    omega
  · rw [if_pos (by omega), if_neg (by omega), getLsbD_laneLE v 1 (by omega)]
    congr 1
    omega
  · rw [if_neg (by omega), if_pos (by omega), getLsbD_laneLE v 2 (by omega)]
    congr 1
    omega
  · rw [if_neg (by omega), if_neg (by omega), getLsbD_laneLE v 3 (by omega)]
    congr 1
    omega

/-- Two longs with the same four lanes. -/
theorem eq_of_laneLE {a b : Long} (h : ∀ lane < 4, laneLE a lane = laneLE b lane) : a = b := by
  refine BitVec.eq_of_getLsbD_eq fun i hi => ?_
  have hbit := congrArg (fun byte : Byte => byte.getLsbD (i % 8)) (h (i / 8) (by omega))
  simp only [getLsbD_laneLE _ _ (show i % 8 < 8 by omega), Nat.div_add_mod] at hbit
  exact hbit

theorem laneLE_and {w : Nat} (a b : BitVec w) (lane : Nat) :
    laneLE (a &&& b) lane = laneLE a lane &&& laneLE b lane := by
  refine BitVec.eq_of_getLsbD_eq fun i hi => ?_
  rw [BitVec.getLsbD_and, getLsbD_laneLE _ _ hi, getLsbD_laneLE _ _ hi, getLsbD_laneLE _ _ hi,
    BitVec.getLsbD_and]

/-- A byte in place, bit by bit. -/
theorem getLsbD_placed (byte : Byte) (lane i : Nat) :
    ((byte.setWidth 32 : Long) <<< (8 * lane)).getLsbD i =
      (decide (i < 32 ∧ i / 8 = lane) && byte.getLsbD (i % 8)) := by
  rw [BitVec.getLsbD_shiftLeft, BitVec.getLsbD_setWidth]
  by_cases hin : i < 32 ∧ i / 8 = lane
  · have hlow : ¬i < 8 * lane := by omega
    have hmod : i - 8 * lane = i % 8 := by omega
    rw [decide_eq_true hin, decide_eq_true hin.1, decide_eq_false hlow, hmod]
    simp only [Bool.not_false, Bool.true_and]
    rw [decide_eq_true (by omega : i % 8 < 32), Bool.true_and]
  · rw [decide_eq_false hin, Bool.false_and]
    by_cases hlow : i < 32 ∧ ¬i < 8 * lane
    · rw [BitVec.getLsbD_of_ge byte _ (by omega : 8 ≤ i - 8 * lane)]
      simp
    · rcases not_and_or.mp hlow with h | h
      · rw [decide_eq_false h]
        rfl
      · rw [decide_eq_true (not_not.mp h)]
        simp

/-- **Merging a byte changes one lane.** -/
theorem laneLE_mergeLE (v : Long) {lane lane' : Nat} (byte : Byte) (h : lane' < 4) :
    laneLE (mergeLE v lane byte) lane' = if lane' = lane then byte else laneLE v lane' := by
  refine BitVec.eq_of_getLsbD_eq fun i hi => ?_
  have hin : 8 * lane' + i < 32 := by omega
  have hdiv : (8 * lane' + i) / 8 = lane' := by omega
  have hmod : (8 * lane' + i) % 8 = i := by omega
  have hones : (0xFF#32 : Long) = ((0xFF : Byte).setWidth 32 : Long) := by decide
  have hone : ∀ i < 8, (0xFF : Byte).getLsbD i = true := by decide
  rw [getLsbD_laneLE _ _ hi]
  unfold mergeLE
  rw [BitVec.getLsbD_or, BitVec.getLsbD_and, BitVec.getLsbD_not, hones, getLsbD_placed,
    getLsbD_placed, hdiv, hmod, hone i hi, decide_eq_true hin]
  -- In the lane itself the mask clears the old byte; outside it the placed byte has no bits.
  by_cases hlane : lane' = lane
  · rw [if_pos hlane, decide_eq_true ⟨hin, hlane⟩]
    simp
  · rw [if_neg hlane, decide_eq_false fun h => hlane h.2, getLsbD_laneLE _ _ hi]
    simp

/-- The bits of composed lanes. -/
theorem getLsbD_foldl_lanes (f : Nat → Byte) (n i : Nat) :
    ((List.range n).foldl (fun value lane => value ||| ((f lane).setWidth 32 <<< (8 * lane)))
      (0 : Long)).getLsbD i = (decide (i < 32 ∧ i / 8 < n) && (f (i / 8)).getLsbD (i % 8)) := by
  induction n with
  | zero => simp
  | succ n ih =>
    rw [List.range_succ, List.foldl_append, List.foldl_cons, List.foldl_nil, BitVec.getLsbD_or, ih,
      getLsbD_placed]
    -- The new lane fills the bits from `8 * n` on, which none before it had.
    by_cases hn : i / 8 = n
    · subst hn
      simp
    · have hiff : i < 32 ∧ i / 8 < n + 1 ↔ i < 32 ∧ i / 8 < n := by omega
      rw [decide_eq_false fun h : i < 32 ∧ i / 8 = n => hn h.2, Bool.false_and, Bool.or_false,
        decide_eq_decide.mpr hiff]

/-- **The lanes of composed lanes.** -/
theorem laneLE_composeLanes (width : AccessWidth) (f : Nat → Byte) {lane : Nat} (h : lane < 4) :
    laneLE (composeLanes width f) lane = if lane < width.bytes then f lane else 0 := by
  refine BitVec.eq_of_getLsbD_eq fun i hi => ?_
  unfold composeLanes
  rw [getLsbD_laneLE _ _ hi, getLsbD_foldl_lanes]
  have hdiv : (8 * lane + i) / 8 = lane := by omega
  have hmod : (8 * lane + i) % 8 = i := by omega
  rw [hdiv, hmod]
  by_cases hlane : lane < width.bytes
  · have hin : 8 * lane + i < 32 ∧ lane < width.bytes := ⟨by omega, hlane⟩
    rw [if_pos hlane, decide_eq_true hin, Bool.true_and]
  · rw [if_neg hlane, decide_eq_false fun hin => hlane hin.2, Bool.false_and]
    simp

theorem composeLanes_congr {width : AccessWidth} {f g : Nat → Byte}
    (h : ∀ lane < width.bytes, f lane = g lane) : composeLanes width f = composeLanes width g := by
  refine eq_of_laneLE fun lane hlane => ?_
  rw [laneLE_composeLanes _ _ hlane, laneLE_composeLanes _ _ hlane]
  split
  · rename_i hin
    exact h lane hin
  · rfl

theorem setWidth_composeLanes (f : Nat → Byte) : (composeLanes .w8 f).setWidth 8 = f 0 := by
  have hlane : (composeLanes .w8 f).setWidth 8 = laneLE (composeLanes .w8 f) 0 := by simp [laneLE]
  rw [hlane, laneLE_composeLanes _ _ (by decide)]
  rfl

/-! ## Big-endian registers -/

theorem eq_of_byteOf {v v' : Long} (h : ∀ lane < 4, byteOf v lane = byteOf v' lane) : v = v' := by
  rw [← be32_byteOf v, ← be32_byteOf v', h 0 (by decide), h 1 (by decide), h 2 (by decide),
    h 3 (by decide)]

/-- A register written lane by lane holds the value, whatever it held. -/
theorem setByteOf_lanes (old v : Long) :
    setByteOf (setByteOf (setByteOf (setByteOf old 0 (byteOf v 0)) 1 (byteOf v 1)) 2 (byteOf v 2))
      3 (byteOf v 3) = v := by
  refine eq_of_byteOf fun lane hlane => ?_
  simp only [byteOf_setByteOf _ _ (show 3 < 4 by decide) hlane,
    byteOf_setByteOf _ _ (show 2 < 4 by decide) hlane,
    byteOf_setByteOf _ _ (show 1 < 4 by decide) hlane,
    byteOf_setByteOf _ _ (show 0 < 4 by decide) hlane]
  split_ifs with h3 h2 h1 h0
  · rw [h3]
  · rw [h2]
  · rw [h1]
  · rw [h0]
  · omega

/-- A byte register shows its byte in the low lane of a long. -/
theorem be32_low (b : Byte) : be32 0 0 0 b = b.setWidth 32 := by
  refine BitVec.eq_of_getLsbD_eq fun i hi => ?_
  unfold be32
  simp only [BitVec.getLsbD_append, BitVec.getLsbD_setWidth, decide_eq_true hi, Bool.true_and]
  split_ifs with h
  · rfl
  all_goals
    rw [BitVec.getLsbD_of_ge b i (by omega)]
    simp

end M68kMachine
