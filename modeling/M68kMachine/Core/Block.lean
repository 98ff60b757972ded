import Mathlib.Data.List.Basic
import M68kMachine.Core.Registers

/-!
# Block devices

The seam of `block.rs`: a backing store of 512-byte sectors that the host supplies. `ReliableDevice`
says when such a store does not fail, and `sectorRun` and `storeRun` are what reading and writing a
run of its sectors mean.
-/

namespace M68kMachine

/-- `SECTOR_BYTES`. -/
def sectorBytes : Nat := 512

abbrev Sector := Vector Byte 512

/-- The backing store behind a storage card. `readSector` returns the lent buffer and its
success. -/
class BlockDevice (δ : Type) where
  sectorCount : δ → Quad
  readSector : δ → Quad → Sector → Bool × Sector × δ
  writeSector : δ → Quad → Sector → Bool × δ

/-- An all-zero sector buffer. -/
def zeroSector : Sector := Vector.replicate 512 0

/-! ## Media -/

/-- A device that serves every sector it has from `content`, and stores what it is given. -/
structure ReliableDevice {δ : Type} [BlockDevice δ] (content : δ → Nat → Sector) : Prop where
  read : ∀ (d : δ) (lba : Quad) (buf : Sector), lba.toNat < (BlockDevice.sectorCount d).toNat →
    ∃ d', BlockDevice.readSector d lba buf = (true, content d lba.toNat, d')
      ∧ content d' = content d
  write : ∀ (d : δ) (lba : Quad) (s : Sector), lba.toNat < (BlockDevice.sectorCount d).toNat →
    ∃ d', BlockDevice.writeSector d lba s = (true, d')
      ∧ content d' = fun i => if i = lba.toNat then s else content d i

/-- An image in memory, which refuses sectors past its size as the hosted runner's file does. -/
structure MemDisk where
  size : Quad
  sectors : Nat → Sector

instance : BlockDevice MemDisk where
  sectorCount d := d.size
  readSector d lba buf :=
    if lba.toNat < d.size.toNat then (true, d.sectors lba.toNat, d) else (false, buf, d)
  writeSector d lba s :=
    if lba.toNat < d.size.toNat then
      (true, { d with sectors := fun i => if i = lba.toNat then s else d.sectors i })
    else (false, d)

theorem MemDisk.reliable : ReliableDevice MemDisk.sectors where
  read d _ _ h := ⟨d, if_pos h, rfl⟩
  write _ _ _ h := ⟨_, if_pos h, rfl⟩

/-- The bytes of the `n` sectors from `lba` on, in order. -/
def sectorRun (content : Nat → Sector) (lba n : Nat) : List Byte :=
  (List.range n).flatMap fun i => (content (lba + i)).toList

/-- Sector `i` of a run of bytes. -/
def sectorOf (bytes : List Byte) (i : Nat) : Sector :=
  Vector.ofFn fun j => bytes.getD (sectorBytes * i + j) 0

/-- `content` with the first `n` sectors of `bytes` stored from `lba` on. -/
def storeRun (content : Nat → Sector) (lba n : Nat) (bytes : List Byte) : Nat → Sector := fun i =>
  if lba ≤ i ∧ i < lba + n then sectorOf bytes (i - lba) else content i

variable (content : Nat → Sector) (lba : Nat) {bytes : List Byte}

theorem sectorRun_succ (n : Nat) :
    sectorRun content lba (n + 1) = sectorRun content lba n ++ (content (lba + n)).toList := by
  unfold sectorRun
  rw [List.range_succ, List.flatMap_append]
  simp

theorem length_sectorRun (n : Nat) : (sectorRun content lba n).length = sectorBytes * n := by
  induction n with
  | zero => rfl
  | succ n ih =>
    rw [sectorRun_succ, List.length_append, ih, Vector.length_toList]
    rfl

theorem prefix_sectorRun {k n : Nat} (h : k ≤ n) :
    sectorRun content lba k <+: sectorRun content lba n := by
  induction n with
  | zero =>
    cases Nat.le_zero.mp h
    exact List.prefix_refl _
  | succ n ih =>
    rcases Nat.lt_or_ge k (n + 1) with hk | hk
    · rw [sectorRun_succ]
      exact (ih (by omega)).trans (List.prefix_append _ _)
    · cases Nat.le_antisymm h hk
      exact List.prefix_refl _

/-- Sectors already complete do not change when bytes are appended. -/
theorem sectorOf_append (more : List Byte) {i : Nat} (h : sectorBytes * (i + 1) ≤ bytes.length) :
    sectorOf (bytes ++ more) i = sectorOf bytes i := by
  unfold sectorOf
  congr 1
  funext j
  have hj := j.isLt
  have hlt : sectorBytes * i + j < bytes.length := by
    unfold sectorBytes at h ⊢
    omega
  rw [List.getD_eq_getElem?_getD, List.getD_eq_getElem?_getD, List.getElem?_append_left hlt]

theorem storeRun_append {n : Nat} (more : List Byte) (h : sectorBytes * n ≤ bytes.length) :
    storeRun content lba n (bytes ++ more) = storeRun content lba n bytes := by
  funext i
  unfold storeRun
  split
  · rename_i hi
    refine sectorOf_append more (Nat.le_trans (Nat.mul_le_mul_left _ ?_) h)
    omega
  · rfl

/-- Storing one more sector. -/
theorem storeRun_succ (n : Nat) (bytes : List Byte) :
    storeRun content lba (n + 1) bytes
      = fun i => if i = lba + n then sectorOf bytes n else storeRun content lba n bytes i := by
  funext i
  unfold storeRun
  by_cases h : i = lba + n
  · rw [if_pos h, if_pos (by omega), show i - lba = n by omega]
  · rw [if_neg h]
    by_cases h2 : lba ≤ i ∧ i < lba + n
    · rw [if_pos h2, if_pos (by omega)]
    · rw [if_neg h2, if_neg (by omega)]

theorem storeRun_zero (bytes : List Byte) : storeRun content lba 0 bytes = content := by
  funext i
  unfold storeRun
  rw [if_neg (by omega)]

/-- A sector that starts on its boundary reads back as the sector it is. -/
theorem sectorOf_append_sector {i : Nat} (h : bytes.length = sectorBytes * i) (s : Sector) :
    sectorOf (bytes ++ s.toList) i = s := by
  unfold sectorOf
  apply Vector.ext
  intro j hj
  rw [Vector.getElem_ofFn, List.getD_eq_getElem?_getD, List.getElem?_append_right (by omega), h,
    Nat.add_sub_cancel_left]
  simp [hj]

end M68kMachine
