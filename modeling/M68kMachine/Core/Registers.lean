import Mathlib.Tactic.Common

/-!
# Machine words and register lanes

The fixed-width types of the model and the byte-lane helpers that the cards each define privately
with the same bodies. A register occupies a slot of four bytes, big-endian; a single-byte register
lives in the low-order one.
-/

namespace M68kMachine

abbrev Byte := BitVec 8
abbrev Word := BitVec 16
abbrev Long := BitVec 32
abbrev Quad := BitVec 64

/-- Whether `offset` falls in the four-byte slot starting at `base`. -/
def inSlot (offset base : Nat) : Bool := base ≤ offset && offset < base + 4

/-- A single-byte register read at `offset`: the value at `base + 3`, zero elsewhere. -/
def lowByte (offset base : Nat) (value : Byte) : Byte :=
  if offset - base = 3 then value else 0

/-- Byte `lane` (0 is the most significant) of a big-endian 32-bit register. -/
def byteOf (value : Long) (lane : Nat) : Byte := (value >>> (8 * (3 - lane))).setWidth 8

/-- Replace byte `lane` of a big-endian 32-bit register. -/
def setByteOf (value : Long) (lane : Nat) (byte : Byte) : Long :=
  let shift := 8 * (3 - lane)
  (value &&& ~~~(0xFF#32 <<< shift)) ||| (byte.setWidth 32 <<< shift)

/-- `u16::from_be_bytes` on the bytes `hi lo`. -/
def be16 (b0 b1 : Byte) : Word := b0 ++ b1

/-- `u32::from_be_bytes`. -/
def be32 (b0 b1 b2 b3 : Byte) : Long := b0 ++ b1 ++ b2 ++ b3

/-- The bytes of `value`, most significant first (`u32::to_be_bytes`). -/
def toBytes32 (value : Long) : List Byte :=
  [byteOf value 0, byteOf value 1, byteOf value 2, byteOf value 3]

/-- `bool as u8`. -/
def bit (b : Bool) : Byte := if b then 1 else 0

/-- `u64::from_be_bytes`. -/
def be64 (hi lo : Long) : Quad := hi ++ lo

/-- Byte `lane` (0 is the least significant) of a little-endian register. -/
def laneLE {w : Nat} (value : BitVec w) (lane : Nat) : Byte :=
  (value >>> (8 * lane)).setWidth 8

/-- Replace byte `lane` of a little-endian register. -/
def mergeLE {w : Nat} (value : BitVec w) (lane : Nat) (byte : Byte) : BitVec w :=
  (value &&& ~~~(0xFF#w <<< (8 * lane))) ||| (byte.setWidth w <<< (8 * lane))

/-- `u16::to_le_bytes`. -/
def toLE16 (value : Word) : List Byte := [laneLE value 0, laneLE value 1]

/-- `u32::to_le_bytes`. -/
def toLE32 (value : Long) : List Byte :=
  [laneLE value 0, laneLE value 1, laneLE value 2, laneLE value 3]

/-- `u16::from_le_bytes` on the two bytes at `i`. -/
def le16 (bs : List Byte) (i : Nat) : Word := bs.getD (i + 1) 0 ++ bs.getD i 0

/-- `u32::from_le_bytes` on the four bytes at `i`. -/
def le32 (bs : List Byte) (i : Nat) : Long := le16 bs (i + 2) ++ le16 bs i

/-- `u64::from_le_bytes` on the eight bytes at `i`. -/
def le64 (bs : List Byte) (i : Nat) : Quad := le32 bs (i + 4) ++ le32 bs i

/-- `checked_mul`. -/
def checkedMul {w : Nat} (a b : BitVec w) : Option (BitVec w) :=
  if BitVec.umulOverflow a b then none else some (a * b)

/-- `u32::try_from`. -/
def toU32 (value : Quad) : Option Long :=
  if value.toNat < 0x100000000 then some (value.setWidth 32) else none

/-- The access widths of a bus cycle. -/
inductive AccessWidth
  | w8
  | w16
  | w32
  deriving DecidableEq

def AccessWidth.bytes : AccessWidth → Nat
  | w8 => 1
  | w16 => 2
  | w32 => 4

/-- `checked_add`: `none` when the sum does not fit the width. -/
def checkedAdd {w : Nat} (a b : BitVec w) : Option (BitVec w) :=
  if BitVec.uaddOverflow a b then none else some (a + b)

/-- The byte of a board's DiagArea image, mapped at `romBase` in its window; zero beyond it. -/
def diagRomByte (rom : List Byte) (romBase offset : Nat) : Byte :=
  if romBase ≤ offset ∧ offset < romBase + rom.length then rom.getD (offset - romBase) 0 else 0

theorem inSlot_iff {offset base : Nat} :
    inSlot offset base = true ↔ base ≤ offset ∧ offset < base + 4 := by
  simp [inSlot]

theorem not_inSlot {offset base : Nat} (h : offset < base ∨ base + 4 ≤ offset) :
    ¬ inSlot offset base = true := by
  rw [inSlot_iff]
  omega

theorem getLsbD_byteOf (v : Long) (lane : Nat) {i : Nat} (hi : i < 8) :
    (byteOf v lane).getLsbD i = v.getLsbD (8 * (3 - lane) + i) := by
  unfold byteOf
  rw [BitVec.getLsbD_setWidth, BitVec.getLsbD_ushiftRight]
  simp [hi]

/-- A lane that was replaced is read back, and the others are as before. -/
theorem byteOf_setByteOf (v : Long) {lane lane' : Nat} (b : Byte) (h : lane < 4) (h' : lane' < 4) :
    byteOf (setByteOf v lane b) lane' = if lane' = lane then b else byteOf v lane' := by
  have hones : ∀ j, (0xFF#32).getLsbD j = decide (j < 8) := by
    intro j
    by_cases hj : j < 32
    · revert j
      decide
    · rw [BitVec.getLsbD_of_ge _ _ (by omega)]
      symm
      rw [decide_eq_false_iff_not]
      omega
  apply BitVec.eq_of_getLsbD_eq
  intro i hi
  rw [getLsbD_byteOf _ _ hi]
  unfold setByteOf
  simp only [BitVec.getLsbD_or, BitVec.getLsbD_and, BitVec.getLsbD_not, BitVec.getLsbD_shiftLeft,
    BitVec.getLsbD_setWidth, hones]
  split
  · rename_i heq
    subst heq
    rw [decide_eq_true (by omega : 8 * (3 - lane') + i < 32),
      decide_eq_false (by omega : ¬8 * (3 - lane') + i < 8 * (3 - lane')), Nat.add_sub_cancel_left,
      decide_eq_true hi, decide_eq_true (by omega : i < 32)]
    simp
  · rename_i hne
    rw [getLsbD_byteOf _ _ hi, decide_eq_true (by omega : 8 * (3 - lane') + i < 32)]
    rcases (by omega : lane < lane' ∨ lane' < lane) with hlt | hlt
    · rw [decide_eq_true (by omega : 8 * (3 - lane') + i < 8 * (3 - lane))]
      simp
    · rw [decide_eq_false (by omega : ¬8 * (3 - lane') + i < 8 * (3 - lane)),
        decide_eq_false (by omega : ¬8 * (3 - lane') + i - 8 * (3 - lane) < 8),
        BitVec.getLsbD_of_ge b _ (by omega)]
      simp

/-- The four lanes of a register are the register. -/
theorem be32_byteOf (v : Long) :
    be32 (byteOf v 0) (byteOf v 1) (byteOf v 2) (byteOf v 3) = v := by
  unfold be32
  apply BitVec.eq_of_getLsbD_eq
  intro i hi
  simp only [BitVec.getLsbD_append]
  rcases (by omega : i < 8 ∨ 8 ≤ i ∧ i < 16 ∨ 16 ≤ i ∧ i < 24 ∨ 24 ≤ i) with h | h | h | h
  · rw [if_pos h, getLsbD_byteOf v 3 h]
    congr 1
    omega
  · rw [if_neg (by omega), if_pos (by omega), getLsbD_byteOf v 2 (by omega)]
    congr 1
    omega
  · rw [if_neg (by omega), if_neg (by omega), if_pos (by omega), getLsbD_byteOf v 1 (by omega)]
    congr 1
    omega
  · rw [if_neg (by omega), if_neg (by omega), if_neg (by omega), getLsbD_byteOf v 0 (by omega)]
    congr 1
    omega

/-- Two words side by side are the longword of their bytes. -/
theorem be16_append (b0 b1 b2 b3 : Byte) : be16 b0 b1 ++ be16 b2 b3 = be32 b0 b1 b2 b3 := by
  refine BitVec.eq_of_getLsbD_eq fun i hi => ?_
  unfold be16 be32
  simp only [BitVec.getLsbD_append]
  -- by the byte the bit lies in
  rcases Nat.lt_or_ge i 8 with h8 | h8
  · simp [h8, Nat.lt_of_lt_of_le h8]
  · rcases Nat.lt_or_ge i 16 with h16 | h16
    · simp [h16, Nat.not_lt.mpr h8, show i - 8 < 8 by omega]
    · rcases Nat.lt_or_ge i 24 with h24 | h24
      · simp [Nat.not_lt.mpr h16, Nat.not_lt.mpr h8, show ¬ i - 8 < 8 by omega,
          show i - 16 < 8 by omega, Nat.sub_sub]
      · simp [Nat.not_lt.mpr h16, Nat.not_lt.mpr h8, show ¬ i - 8 < 8 by omega,
          show ¬ i - 16 < 8 by omega, Nat.sub_sub]

end M68kMachine
