import M68kMachine.Drivers.PrometheusLibrary
import M68kMachine.Properties.Lanes

/-!
# Configuration cycles of prometheus.library

A cycle to a function that exists, at an aligned offset, is one access to the backend: the register
sequence around it neither loses nor adds anything.

* `readLong_cfgData`, `writeLong_cfgData` and so on — the registers as the library reaches them
* `Named` — the parameters the library constructs
* `cfgCycle_read`, `cfgCycle_write` — a cycle is one access
-/

namespace M68kMachine

open Pci Pcibridge

namespace Prometheus

variable {π : Type} [PciBackend π] (d : PciBridge π)

/-! ## Registers -/

theorem writeLong_cfgData (value : Long) :
    writeLong d Reg.cfgData value = { d with cfgData := value } :=
  congrArg (fun v => ({ d with cfgData := v } : PciBridge π)) (setByteOf_lanes d.cfgData value)

theorem writeLong_cfgAddr (value : Long) :
    writeLong d Reg.cfgAddr value = { d with cfgAddr := value } :=
  congrArg (fun v => ({ d with cfgAddr := v } : PciBridge π)) (setByteOf_lanes d.cfgAddr value)

theorem write_cfgWidth (value : Byte) :
    d.write (Reg.cfgWidth + 3) value = { d with cfgWidth := value } := rfl

theorem write_cfgOp (op : Byte) : d.write (Reg.cfgOp + 3) op = d.cfgOp op := rfl

theorem read_cfgStatus : d.read (Reg.cfgStatus + 3) = (d.cfgStatus, d) := rfl

theorem readLong_cfgData : readLong d Reg.cfgData = (d.cfgData, d) :=
  congrArg (fun v => (v, d)) (be32_byteOf d.cfgData)

theorem write_cfgStatus_ones : d.write (Reg.cfgStatus + 3) 0xFF = { d with cfgStatus := 0 } := by
  have hclear : ∀ status : Byte, status &&& ~~~0xFF = 0 := by
    intro status
    exact BitVec.and_zero
  show ({ d with cfgStatus := d.cfgStatus &&& ~~~0xFF } : PciBridge π) = _
  rw [hclear]

/-! ## The address of a cycle -/

/-- The bits above a bound. -/
theorem getLsbD_of_toNat_lt {w k i : Nat} {v : BitVec w} (h : v.toNat < 2 ^ k) (hi : k ≤ i) :
    v.getLsbD i = false := by
  rw [← BitVec.testBit_toNat]
  exact Nat.testBit_lt_two_pow (Nat.lt_of_lt_of_le h (Nat.pow_le_pow_right (by decide) hi))

def cfgAddr (bus dev fn : Byte) (offset : Word) : Long :=
  (bus.setWidth 32 <<< 20) ||| (dev.setWidth 32 <<< 15) ||| (fn.setWidth 32 <<< 12) |||
    (offset.setWidth 32 &&& 0x0FFF)

section

variable {bus dev fn : Byte} {offset : Word} (hdev : dev.toNat < 32) (hfn : fn.toNat < 8)
  (hoffset : offset.toNat < 0x1000)

include hdev hfn hoffset

/-- The four fields of an address do not meet. -/
theorem getLsbD_cfgAddr (i : Nat) : (cfgAddr bus dev fn offset).getLsbD i =
    if i < 12 then offset.getLsbD i else if i < 15 then fn.getLsbD (i - 12)
    else if i < 20 then dev.getLsbD (i - 15) else if i < 28 then bus.getLsbD (i - 20)
    else false := by
  have hmask : (0x0FFF : Long) = (BitVec.allOnes 12).setWidth 32 := rfl
  unfold cfgAddr
  simp only [BitVec.getLsbD_or, BitVec.getLsbD_shiftLeft, BitVec.getLsbD_setWidth, hmask,
    BitVec.getLsbD_and, BitVec.getLsbD_allOnes]
  split_ifs with h12 h15 h20 h28
  · simp [h12, show i < 32 by omega, show i < 15 by omega, show i < 20 by omega]
  · have hd : offset.getLsbD i = false := getLsbD_of_toNat_lt (k := 12) hoffset (by omega)
    simp [h12, h15, hd, show i < 32 by omega, show i < 20 by omega, show i - 12 < 32 by omega]
  · have hd : fn.getLsbD (i - 12) = false := getLsbD_of_toNat_lt (k := 3) hfn (by omega)
    simp [h12, h15, h20, hd, show i < 32 by omega, show i - 15 < 32 by omega]
  · have hd : fn.getLsbD (i - 12) = false := getLsbD_of_toNat_lt (k := 3) hfn (by omega)
    have hd' : dev.getLsbD (i - 15) = false := getLsbD_of_toNat_lt (k := 5) hdev (by omega)
    simp [h12, h20, hd, hd', show i < 32 by omega, show i - 20 < 32 by omega]
  · have hd : fn.getLsbD (i - 12) = false := getLsbD_of_toNat_lt (k := 3) hfn (by omega)
    have hd' : dev.getLsbD (i - 15) = false := getLsbD_of_toNat_lt (k := 5) hdev (by omega)
    have hb : bus.getLsbD (i - 20) = false := BitVec.getLsbD_of_ge _ _ (by omega)
    simp [h12, hd, hd', hb]

theorem cfgAddr_reserved : cfgAddr bus dev fn offset &&& 0xF0000000 = 0 := by
  refine BitVec.eq_of_getLsbD_eq fun i hi => ?_
  have hmask : (0xF0000000 : Long) = ~~~((BitVec.allOnes 28).setWidth 32) := rfl
  rw [BitVec.getLsbD_and, getLsbD_cfgAddr hdev hfn hoffset, hmask, BitVec.getLsbD_not,
    BitVec.getLsbD_setWidth, BitVec.getLsbD_allOnes]
  by_cases h28 : i < 28
  · simp [h28, hi]
  · simp [show ¬ i < 12 by omega, show ¬ i < 15 by omega, show ¬ i < 20 by omega, h28]

theorem cfgAddr_offset : (cfgAddr bus dev fn offset).setWidth 16 &&& (0x0FFF : Word) = offset := by
  refine BitVec.eq_of_getLsbD_eq fun i hi => ?_
  have hmask : (0x0FFF : Word) = (BitVec.allOnes 12).setWidth 16 := rfl
  rw [BitVec.getLsbD_and, BitVec.getLsbD_setWidth, getLsbD_cfgAddr hdev hfn hoffset, hmask,
    BitVec.getLsbD_setWidth, BitVec.getLsbD_allOnes]
  by_cases h12 : i < 12
  · simp [h12, hi]
  · rw [getLsbD_of_toNat_lt (k := 12) hoffset (by omega)]
    simp [h12]

omit [PciBackend π] in
/-- The bridge takes the function out of the address again. -/
theorem cfgBdf_cfgAddr (d : PciBridge π) (h : d.cfgAddr = cfgAddr bus dev fn offset) :
    d.cfgBdf = ⟨bus, dev, fn⟩ := by
  have hbit := fun i => @getLsbD_cfgAddr bus dev fn offset hdev hfn hoffset i
  unfold PciBridge.cfgBdf
  rw [h]
  congr 1
  · refine BitVec.eq_of_getLsbD_eq fun i hi => ?_
    rw [BitVec.getLsbD_setWidth, BitVec.getLsbD_ushiftRight, hbit]
    simp [hi, show ¬ 20 + i < 12 by omega, show ¬ 20 + i < 15 by omega, show 20 + i < 28 by omega]
  · refine BitVec.eq_of_getLsbD_eq fun i hi => ?_
    have hmask : (0x1F : Byte) = (BitVec.allOnes 5).setWidth 8 := rfl
    rw [BitVec.getLsbD_and, BitVec.getLsbD_setWidth, BitVec.getLsbD_ushiftRight, hbit, hmask,
      BitVec.getLsbD_setWidth, BitVec.getLsbD_allOnes]
    by_cases h5 : i < 5
    · simp [hi, h5, show ¬ 15 + i < 12 by omega, show 15 + i < 20 by omega]
    · rw [getLsbD_of_toNat_lt (k := 5) (i := i) hdev (by omega)]
      simp [h5]
  · refine BitVec.eq_of_getLsbD_eq fun i hi => ?_
    have hmask : (0x7 : Byte) = (BitVec.allOnes 3).setWidth 8 := rfl
    rw [BitVec.getLsbD_and, BitVec.getLsbD_setWidth, BitVec.getLsbD_ushiftRight, hbit, hmask,
      BitVec.getLsbD_setWidth, BitVec.getLsbD_allOnes]
    by_cases h3 : i < 3
    · simp [hi, h3, show 12 + i < 15 by omega]
    · rw [getLsbD_of_toNat_lt (k := 3) (i := i) hfn (by omega)]
      simp [h3]

end

/-! ## Cycles -/

/-- `CFG_WIDTH` of a width. -/
def widthByte : AccessWidth → Byte
  | .w8 => 1
  | .w16 => 2
  | .w32 => 4

/-- The parameters of a cycle the library makes: a function of the bus, and an aligned offset. -/
structure Named (dev fn : Byte) (offset : Word) (width : AccessWidth) : Prop where
  dev_lt : dev.toNat < 32
  fn_lt : fn.toNat < 8
  offset_lt : offset.toNat < 0x1000
  aligned : offset.toNat % width.bytes = 0

section

variable {bus dev fn : Byte} {offset : Word} {width : AccessWidth}

/-- What is staged passes every check of the bridge. -/
theorem cfgOp_named (h : Named dev fn offset width) (d : PciBridge π)
    (haddr : d.cfgAddr = cfgAddr bus dev fn offset) (hwidth : d.cfgWidth = widthByte width)
    {op : Byte} (hop : op = opRead ∨ op = opWrite) : d.cfgOp op =
      if op = 0 then
        { d with
          cfgData := (PciBackend.configRead d.backend ⟨bus, dev, fn⟩ offset width).1
          backend := (PciBackend.configRead d.backend ⟨bus, dev, fn⟩ offset width).2
          cfgStatus := Status.completed }
      else
        { d with
          backend := PciBackend.configWrite d.backend ⟨bus, dev, fn⟩ offset width d.cfgData
          cfgStatus := Status.completed } := by
  have hvalid : accessWidthOfBytes d.cfgWidth = some width := by
    rw [hwidth]
    cases width <;> rfl
  have hcheck : ¬ (1 < op.toNat ∨ d.cfgAddr &&& 0xF0000000 ≠ 0) := by
    rw [haddr, cfgAddr_reserved h.dev_lt h.fn_lt h.offset_lt]
    rcases hop with rfl | rfl <;> simp
  unfold PciBridge.cfgOp
  rw [if_neg hcheck, hvalid]
  dsimp only
  rw [cfgBdf_cfgAddr h.dev_lt h.fn_lt h.offset_lt d haddr, haddr,
    cfgAddr_offset h.dev_lt h.fn_lt h.offset_lt, if_neg (not_not.mpr h.aligned)]

/-- The bridge after a cycle: the address and the width stay staged, the status is cleared. -/
def cycled (d : PciBridge π) (bus dev fn : Byte) (offset : Word) (width : AccessWidth)
    (data : Long) (backend : π) : PciBridge π :=
  { d with
    backend := backend
    cfgAddr := cfgAddr bus dev fn offset
    cfgWidth := widthByte width
    cfgData := data
    cfgStatus := 0 }

theorem completed_not_rejected : ¬ (Status.completed &&& Status.rejected ≠ (0 : Byte)) := by decide

/-- **A read cycle** is one read of the backend, and is not rejected. -/
theorem cfgCycle_read (h : Named dev fn offset width) (wdata : Long) :
    cfgCycle d bus dev fn offset (widthByte width) opRead wdata =
      ⟨(PciBackend.configRead d.backend ⟨bus, dev, fn⟩ offset width).1, false,
        cycled d bus dev fn offset width
          (PciBackend.configRead d.backend ⟨bus, dev, fn⟩ offset width).1
          (PciBackend.configRead d.backend ⟨bus, dev, fn⟩ offset width).2⟩ := by
  unfold cfgCycle
  rw [if_neg (by decide : ¬ opRead = opWrite)]
  simp only [writeLong_cfgAddr, write_cfgWidth, write_cfgOp, read_cfgStatus]
  rw [cfgOp_named h _ rfl rfl (.inl rfl), if_pos rfl]
  simp only [if_neg completed_not_rejected, if_true, write_cfgStatus_ones, readLong_cfgData,
    decide_eq_false completed_not_rejected]
  rfl

/-- **A write cycle** is one write of the backend, and is not rejected. -/
theorem cfgCycle_write (h : Named dev fn offset width) (wdata : Long) :
    cfgCycle d bus dev fn offset (widthByte width) opWrite wdata =
      ⟨0xFFFFFFFF, false,
        cycled d bus dev fn offset width wdata
          (PciBackend.configWrite d.backend ⟨bus, dev, fn⟩ offset width wdata)⟩ := by
  unfold cfgCycle
  rw [if_pos rfl, writeLong_cfgData]
  simp only [writeLong_cfgAddr, write_cfgWidth, write_cfgOp, read_cfgStatus]
  rw [cfgOp_named h _ rfl rfl (.inr rfl), if_neg (by decide : ¬ opWrite = 0)]
  simp only [if_neg completed_not_rejected, if_neg (by decide : ¬ opWrite = opRead),
    write_cfgStatus_ones, decide_eq_false completed_not_rejected]
  rfl

end

end Prometheus

end M68kMachine
