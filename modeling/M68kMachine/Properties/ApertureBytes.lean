import M68kMachine.Cards.PciFunctions

/-!
# Memory space of the virtual bus, byte by byte

A sized access to PCI memory space is routed by its first byte, to the first function whose BAR
decodes it, and there to a region of the BAR. A BAR is a page of 16 KiB.

* `barByte`, `afterByte` — a byte of BAR0 and what reading it leaves
* `RegionsFit` — the access does not run into a region that answers differently
* `owner` — the function whose BAR decodes a page
* `memRead_some`, `memWrite_some` — an access of any width, by the owner of its page
-/

namespace M68kMachine

open Pci VirtioNet

/-! ## BAR0, byte by byte -/

namespace VirtioNetStub

variable {ν : Type} (v : VirtioNetStub ν) {rel : Nat} {width : AccessWidth}

def barByte (v : VirtioNetStub ν) (rel : Nat) : Byte :=
  if rel < commonCfgBarLen then v.commonReadByte rel
  else if rel = isrCfgBarOffset then v.isrStatus
  else if deviceCfgBarOffset ≤ rel then mac.getD (rel - deviceCfgBarOffset) 0
  else 0

/-- Reading the ISR byte clears it. -/
def afterByte (v : VirtioNetStub ν) (rel : Nat) : VirtioNetStub ν :=
  if rel = isrCfgBarOffset then { v with isrStatus := 0 } else v

/-- What reading `n` bytes from `rel` on leaves. -/
def afterBytes (v : VirtioNetStub ν) (rel n : Nat) : VirtioNetStub ν :=
  if rel ≤ isrCfgBarOffset ∧ isrCfgBarOffset < rel + n then { v with isrStatus := 0 } else v

/-- The access runs across `boundary`. -/
def Straddles (rel n boundary : Nat) : Prop := rel < boundary ∧ boundary < rel + n

/-- The access does not run into the device configuration, nor into an ISR byte that is set. -/
def RegionsFit (v : VirtioNetStub ν) (rel n : Nat) : Prop :=
  ¬Straddles rel n deviceCfgBarOffset ∧ (Straddles rel n isrCfgBarOffset → v.isrStatus = 0)

/-- The common configuration ends long before its region does. -/
theorem commonReadByte_of_gt (h : 55 < rel) : v.commonReadByte rel = 0 := by
  unfold commonReadByte
  dsimp only
  simp only [if_neg (show ¬rel ≤ 3 by omega), if_neg (show ¬rel ≤ 7 by omega),
    if_neg (show ¬rel ≤ 11 by omega), if_neg (show ¬rel ≤ 15 by omega),
    if_neg (show ¬rel ≤ 17 by omega), if_neg (show ¬rel ≤ 19 by omega),
    if_neg (show ¬rel ≤ 23 by omega), if_neg (show ¬rel ≤ 25 by omega),
    if_neg (show ¬rel ≤ 27 by omega), if_neg (show ¬rel ≤ 29 by omega),
    if_neg (show ¬rel ≤ 31 by omega), if_neg (show ¬rel ≤ 39 by omega),
    if_neg (show ¬rel ≤ 47 by omega), if_neg (show ¬rel ≤ 55 by omega),
    CommonOff.deviceStatus, CommonOff.configGeneration,
    if_neg (show ¬rel = 0x14 by omega), if_neg (show ¬rel = 0x15 by omega)]

theorem commonWriteByte_of_gt (h : 55 < rel) (byte : Byte) : v.commonWriteByte rel byte = v := by
  unfold commonWriteByte
  simp only [if_neg (show ¬rel ≤ 3 by omega), if_neg (show ¬rel ≤ 7 by omega),
    if_neg (show ¬rel ≤ 11 by omega), if_neg (show ¬rel ≤ 15 by omega),
    if_neg (show ¬rel ≤ 19 by omega), if_neg (show ¬rel ≤ 23 by omega),
    if_neg (show ¬rel ≤ 25 by omega), if_neg (show ¬rel ≤ 27 by omega),
    if_neg (show ¬rel ≤ 29 by omega), if_neg (show ¬rel ≤ 31 by omega),
    if_neg (show ¬rel ≤ 39 by omega), if_neg (show ¬rel ≤ 47 by omega),
    if_neg (show ¬rel ≤ 55 by omega), CommonOff.deviceStatus, CommonOff.configGeneration,
    if_neg (show ¬rel = 0x14 by omega), if_neg (show ¬rel = 0x15 by omega)]

/-- An offset into the BAR, as the device sees it. -/
theorem toNat_barOffset (h : rel < bar0Len) :
    ((BitVec.ofNat 64 rel).setWidth 32 : Long).toNat = rel := by
  have hlen : bar0Len = 0x4000 := rfl
  rw [BitVec.toNat_setWidth, BitVec.toNat_ofNat]
  omega

theorem composeLanes_byte (f : Nat → Byte) : composeLanes .w8 f = (f 0).setWidth 32 := by
  have hone : AccessWidth.w8.bytes = 1 := rfl
  refine eq_of_laneLE fun lane hlane => ?_
  rw [laneLE_composeLanes _ _ hlane, hone]
  refine BitVec.eq_of_getLsbD_eq fun i hi => ?_
  rw [getLsbD_laneLE _ _ hi, BitVec.getLsbD_setWidth]
  split
  · rename_i hzero
    have hlow : lane = 0 := by omega
    subst hlow
    simp [show i < 32 by omega]
  · rw [BitVec.getLsbD_of_ge (f 0) _ (by omega)]
    simp

theorem composeLanes_zero (width : AccessWidth) {f : Nat → Byte}
    (h : ∀ lane < width.bytes, f lane = 0) : composeLanes width f = 0 := by
  refine eq_of_laneLE fun lane hlane => ?_
  rw [laneLE_composeLanes _ _ hlane]
  split
  · rename_i hin
    rw [h lane hin]
    simp [laneLE]
  · simp [laneLE]

/-- One byte of BAR0. -/
theorem bar0Read_byte (h : rel < bar0Len) :
    v.bar0Read (BitVec.ofNat 64 rel) .w8 = ((v.barByte rel).setWidth 32, v.afterByte rel) := by
  unfold bar0Read barByte afterByte
  dsimp only
  rw [toNat_barOffset h]
  simp only [commonCfgBarLen, notifyCfgBarEnd, isrCfgBarEnd, isrCfgBarOffset, deviceCfgBarOffset]
  by_cases hcommon : rel < 0x1000
  · rw [if_pos hcommon, if_pos hcommon, if_neg (by omega)]
    exact Prod.ext (composeLanes_byte fun lane => v.commonReadByte (rel + lane)) rfl
  · rw [if_neg hcommon, if_neg hcommon]
    by_cases hisr : rel = 0x2000
    · subst hisr
      rfl
    · rw [if_neg hisr, if_neg hisr, if_neg hisr]
      by_cases hdevice : 0x3000 ≤ rel
      · rw [if_neg (by omega), if_neg (by omega), if_pos hdevice]
        rw [composeLanes_byte, Nat.add_zero]
      · rw [if_neg hdevice]
        split
        · rfl
        · rw [if_pos (by omega)]
          rfl

theorem bytes_bounds (width : AccessWidth) : 1 ≤ width.bytes ∧ width.bytes ≤ 4 := by
  cases width <;> decide

theorem composeLanes_first {f : Nat → Byte} (h : ∀ lane < width.bytes, 0 < lane → f lane = 0) :
    composeLanes width f = (f 0).setWidth 32 := by
  have hbytes := (bytes_bounds width).1
  have hone : AccessWidth.w8.bytes = 1 := rfl
  rw [← composeLanes_byte]
  refine eq_of_laneLE fun lane hlane => ?_
  rw [laneLE_composeLanes _ _ hlane, laneLE_composeLanes _ _ hlane, hone]
  rcases Nat.eq_zero_or_pos lane with rfl | hpos
  · rw [if_pos (by omega), if_pos (by omega)]
  · have hnot : ¬lane < 1 := by omega
    rw [if_neg hnot]
    split
    · rename_i hin
      exact h lane hin hpos
    · rfl

theorem barByte_common (h : rel < isrCfgBarOffset) : v.barByte rel = v.commonReadByte rel := by
  simp only [isrCfgBarOffset] at h
  unfold barByte
  simp only [commonCfgBarLen, isrCfgBarOffset, deviceCfgBarOffset]
  split
  · rfl
  · rw [if_neg (by omega), if_neg (by omega), commonReadByte_of_gt v (by omega)]

theorem barByte_notify (hlow : commonCfgBarLen ≤ rel) (hhigh : rel < deviceCfgBarOffset)
    (h : rel = isrCfgBarOffset → v.isrStatus = 0) : v.barByte rel = 0 := by
  unfold barByte
  rw [if_neg (by omega)]
  split
  · rename_i hisr
    exact h hisr
  · rw [if_neg (by omega)]

theorem barByte_device (h : deviceCfgBarOffset ≤ rel) :
    v.barByte rel = mac.getD (rel - deviceCfgBarOffset) 0 := by
  have hdevice : deviceCfgBarOffset = 0x3000 := rfl
  unfold barByte
  simp only [commonCfgBarLen, isrCfgBarOffset]
  rw [if_neg (by omega), if_neg (by omega), if_pos h]

theorem clear_of_isr {v : VirtioNetStub ν} (h : v.isrStatus = 0) :
    ({ v with isrStatus := 0 } : VirtioNetStub ν) = v := by
  rw [← h]

/-- **A sized read of BAR0 is its bytes** where the regions fit. -/
theorem bar0Read_of_fit {v : VirtioNetStub ν} (hin : rel + width.bytes ≤ bar0Len)
    (hfit : v.RegionsFit rel width.bytes) :
    v.bar0Read (BitVec.ofNat 64 rel) width =
      (composeLanes width fun lane => v.barByte (rel + lane), v.afterBytes rel width.bytes) := by
  obtain ⟨hdevice, hisr⟩ := hfit
  obtain ⟨hpos, hbytes⟩ := bytes_bounds width
  have hlen : bar0Len = 0x4000 := rfl
  unfold bar0Read afterBytes
  dsimp only
  rw [toNat_barOffset (by omega)]
  simp only [Straddles, deviceCfgBarOffset, isrCfgBarOffset] at hdevice hisr
  simp only [commonCfgBarLen, notifyCfgBarEnd, isrCfgBarEnd, isrCfgBarOffset]
  by_cases hcommon : rel < 0x1000
  · rw [if_pos hcommon, if_neg (by omega)]
    refine Prod.ext (composeLanes_congr fun lane hlane => ?_) rfl
    exact (v.barByte_common (by simp only [isrCfgBarOffset]; omega)).symm
  · rw [if_neg hcommon]
    by_cases hnotify : rel < 0x2000
    · rw [if_pos hnotify]
      refine Prod.ext (composeLanes_zero width fun lane hlane => ?_).symm ?_
      · refine v.barByte_notify (by simp only [commonCfgBarLen]; omega)
          (by simp only [deviceCfgBarOffset]; omega) fun hat => ?_
        simp only [isrCfgBarOffset] at hat
        exact hisr ⟨hnotify, by omega⟩
      · split
        · rename_i hcross
          exact (clear_of_isr (hisr ⟨hnotify, hcross.2⟩)).symm
        · rfl
    · rw [if_neg hnotify]
      by_cases hat : rel = 0x2000
      · subst hat
        rw [if_pos (by omega), if_pos rfl, if_pos (by omega)]
        refine Prod.ext ?_ rfl
        rw [composeLanes_first]
        · rfl
        · intro lane hlane hpos
          exact v.barByte_notify (by simp only [commonCfgBarLen]; omega)
            (by simp only [deviceCfgBarOffset]; omega) (by simp only [isrCfgBarOffset]; omega)
      · rw [if_neg hat, if_neg (show ¬(rel ≤ 0x2000 ∧ 0x2000 < rel + width.bytes) by omega)]
        split
        · refine Prod.ext (composeLanes_zero width fun lane hlane => ?_).symm rfl
          exact v.barByte_notify (by simp only [commonCfgBarLen]; omega)
            (by simp only [deviceCfgBarOffset]; omega) (by simp only [isrCfgBarOffset]; omega)
        · refine Prod.ext (composeLanes_congr fun lane hlane => ?_) rfl
          have hle : deviceCfgBarOffset ≤ rel := by
            simp only [deviceCfgBarOffset]
            omega
          rw [v.barByte_device (by omega), Nat.sub_add_comm hle]

/-- **Where a region does not fit**, the sized read misses the byte at its start. -/
theorem bar0Read_of_not_fit {v : VirtioNetStub ν} (hin : rel + width.bytes ≤ bar0Len)
    (hfit : ¬v.RegionsFit rel width.bytes) :
    ∃ lane < width.bytes, laneLE (v.bar0Read (BitVec.ofNat 64 rel) width).1 lane = 0 ∧
      v.barByte (rel + lane) ≠ 0 := by
  obtain ⟨hpos, hbytes⟩ := bytes_bounds width
  have hlen : bar0Len = 0x4000 := rfl
  have hregion : ∀ boundary, boundary = 0x2000 ∨ boundary = 0x3000 →
      Straddles rel width.bytes boundary →
        ∀ lane, laneLE (v.bar0Read (BitVec.ofNat 64 rel) width).1 lane = 0 := by
    rintro boundary hboundary ⟨hbefore, hafter⟩ lane
    have hvalue : (v.bar0Read (BitVec.ofNat 64 rel) width).1 = 0 := by
      unfold bar0Read
      dsimp only
      rw [toNat_barOffset (by omega)]
      simp only [commonCfgBarLen, notifyCfgBarEnd, isrCfgBarEnd, isrCfgBarOffset]
      rw [if_neg (by omega)]
      split
      · rfl
      · rw [if_pos (by omega), if_neg (by omega)]
    rw [hvalue]
    simp [laneLE]
  by_cases hdevice : Straddles rel width.bytes deviceCfgBarOffset
  · have hlt := hdevice.2
    refine ⟨deviceCfgBarOffset - rel, by omega, hregion _ (.inr rfl) hdevice _, ?_⟩
    have hle : rel ≤ deviceCfgBarOffset := Nat.le_of_lt hdevice.1
    rw [Nat.add_sub_cancel' hle, v.barByte_device (Nat.le_refl _), Nat.sub_self]
    decide
  · have hisr : Straddles rel width.bytes isrCfgBarOffset ∧ v.isrStatus ≠ 0 := by
      by_contra hnot
      exact hfit ⟨hdevice, fun hcross => by_contra fun hset => hnot ⟨hcross, hset⟩⟩
    obtain ⟨hcross, hset⟩ := hisr
    have hlt := hcross.2
    refine ⟨isrCfgBarOffset - rel, by omega, hregion _ (.inl rfl) hcross _, ?_⟩
    have hle : rel ≤ isrCfgBarOffset := Nat.le_of_lt hcross.1
    rw [Nat.add_sub_cancel' hle]
    unfold barByte
    rw [if_neg (by decide), if_pos rfl]
    exact hset

/-- **A sized write of BAR0 is its bytes**, whatever it runs across. -/
theorem bar0Write_eq (hin : rel + width.bytes ≤ bar0Len) (value : Long) :
    v.bar0Write (BitVec.ofNat 64 rel) width value =
      (List.range width.bytes).foldl
        (fun v lane => v.commonWriteByte (rel + lane) (laneLE value lane)) v := by
  obtain ⟨hpos, hbytes⟩ := bytes_bounds width
  unfold bar0Write
  dsimp only
  rw [toNat_barOffset (by omega)]
  split
  · rfl
  · rename_i hbeyond
    have hlen : commonCfgBarLen = 0x1000 := rfl
    generalize List.range width.bytes = lanes
    induction lanes with
    | nil => rfl
    | cons lane lanes ih =>
      rw [List.foldl_cons, commonWriteByte_of_gt v (by omega)]
      exact ih

/-! ### Runs of bytes -/

theorem afterBytes_zero (rel : Nat) : v.afterBytes rel 0 = v := by
  unfold afterBytes
  rw [if_neg (by omega)]

theorem afterBytes_succ (rel n : Nat) :
    (v.afterByte rel).afterBytes (rel + 1) n = v.afterBytes rel (n + 1) := by
  unfold afterByte afterBytes
  by_cases hisr : rel = isrCfgBarOffset
  · rw [if_pos hisr, if_neg (by omega), if_pos (by omega)]
  · have hiff : rel + 1 ≤ isrCfgBarOffset ∧ isrCfgBarOffset < rel + 1 + n ↔
        rel ≤ isrCfgBarOffset ∧ isrCfgBarOffset < rel + (n + 1) := by omega
    rw [if_neg hisr, if_congr hiff rfl rfl]

/-- Past the ISR byte, reading changes nothing. -/
theorem afterBytes_of_gt (h : isrCfgBarOffset < rel) (n : Nat) : v.afterBytes rel n = v := by
  unfold afterBytes
  rw [if_neg (by omega)]

/-- Reading one byte does not change another. -/
theorem barByte_afterByte {rel' : Nat} (h : rel' ≠ rel) :
    (v.afterByte rel).barByte rel' = v.barByte rel' := by
  unfold afterByte
  split
  · rename_i hisr
    have hother : ¬rel' = isrCfgBarOffset := fun hat => h (hat.trans hisr.symm)
    unfold barByte
    rw [if_neg hother, if_neg hother]
    rfl
  · rfl

def commonWriteBytes : VirtioNetStub ν → Nat → List Byte → VirtioNetStub ν
  | v, _, [] => v
  | v, rel, byte :: bytes => (v.commonWriteByte rel byte).commonWriteBytes (rel + 1) bytes

theorem commonWriteBytes_range (n : Nat) : ∀ (v : VirtioNetStub ν) (rel : Nat) (f : Nat → Byte),
    v.commonWriteBytes rel ((List.range n).map f) =
      (List.range n).foldl (fun v lane => v.commonWriteByte (rel + lane) (f lane)) v := by
  induction n with
  | zero => exact fun _ _ _ => rfl
  | succ n ih =>
    intro v rel f
    rw [List.range_succ_eq_map, List.map_cons, List.map_map, List.foldl_cons, List.foldl_map]
    show (v.commonWriteByte rel (f 0)).commonWriteBytes (rel + 1) _ = _
    rw [ih]
    simp only [Function.comp_apply, Nat.succ_eq_add_one, Nat.add_zero, Nat.add_right_comm rel 1,
      Nat.add_assoc rel _ 1]

theorem commonWriteBytes_of_gt (bytes : List Byte) : ∀ (v : VirtioNetStub ν) {rel : Nat},
    55 < rel → v.commonWriteBytes rel bytes = v := by
  induction bytes with
  | nil => exact fun _ _ _ => rfl
  | cons byte bytes ih =>
    intro v rel h
    show (v.commonWriteByte rel byte).commonWriteBytes (rel + 1) bytes = v
    rw [commonWriteByte_of_gt v h, ih v (by omega)]

/-- Bytes written into the rest of `device_feature_select` leave its first one. -/
theorem firstLane_commonWriteBytes (bytes : List Byte) : ∀ (v : VirtioNetStub ν) {rel : Nat},
    0 < rel → rel + bytes.length ≤ 4 →
      laneLE (v.commonWriteBytes rel bytes).deviceFeatureSelect 0 =
        laneLE v.deviceFeatureSelect 0 := by
  induction bytes with
  | nil => exact fun _ _ _ _ => rfl
  | cons byte bytes ih =>
    intro v rel hpos hlen
    rw [List.length_cons] at hlen
    show laneLE ((v.commonWriteByte rel byte).commonWriteBytes (rel + 1) bytes).deviceFeatureSelect
      0 = _
    rw [ih _ (by omega) (by omega)]
    unfold commonWriteByte mergeU32Of
    rw [if_pos (by omega)]
    show laneLE (mergeLE v.deviceFeatureSelect (rel - 0) byte) 0 = _
    rw [laneLE_mergeLE _ _ (by omega), if_neg (by omega)]

/-- **A byte that differs from the first one of the registers shows**, whatever follows it. -/
theorem commonWriteBytes_ne {v : VirtioNetStub ν} {byte : Byte} {bytes : List Byte}
    (hlen : bytes.length ≤ 3) (hbyte : byte ≠ laneLE v.deviceFeatureSelect 0) :
    v.commonWriteBytes 0 (byte :: bytes) ≠ v := by
  intro heq
  have hlane := congrArg (fun v => laneLE v.deviceFeatureSelect 0) heq
  have hwritten : laneLE (v.commonWriteByte 0 byte).deviceFeatureSelect 0 = byte := by
    show laneLE (mergeLE v.deviceFeatureSelect 0 byte) 0 = byte
    rw [laneLE_mergeLE _ _ (by omega), if_pos rfl]
  have hrest : laneLE (v.commonWriteBytes 0 (byte :: bytes)).deviceFeatureSelect 0 =
      laneLE (v.commonWriteByte 0 byte).deviceFeatureSelect 0 :=
    firstLane_commonWriteBytes bytes _ (by omega) (by omega)
  exact hbyte (hwritten.symm.trans (hrest.symm.trans hlane))

end VirtioNetStub

/-! ## Who decodes a page -/

theorem ConfigSpace.barWindow_none {c : ConfigSpace} {bar : Nat}
    (h : ∀ hbar : bar < 6, c.barKinds ⟨bar, hbar⟩ = .none) : c.barWindow bar = none := by
  unfold ConfigSpace.barWindow
  split
  · rfl
  · split
    · rename_i hbar
      rw [h hbar]
    · rfl

namespace Pci

variable {ν : Type}

/-- The BAR of the function decodes this page of 16 KiB. -/
def VirtioNetFunction.Decodes (f : VirtioNetFunction ν) (page : Nat) : Prop :=
  f.config.memorySpaceEnabled = true ∧ (f.config.barRegs firstBar).toNat / bar0Len = page

instance (f : VirtioNetFunction ν) (page : Nat) : Decidable (f.Decodes page) := by
  unfold VirtioNetFunction.Decodes; infer_instance

/-- The virtio-net function that decodes a page, if that is what the device is. -/
def PciFunction.decoding (page : Nat) : PciFunction ν → Option (VirtioNetFunction ν)
  | .virtioNet f => if f.Decodes page then some f else none
  | _ => none

/-- A BAR lies at a multiple of its size. -/
theorem VirtioNetFunction.base_mod (f : VirtioNetFunction ν) :
    (f.config.barRegs firstBar).toNat % bar0Len = 0 := by
  have hmasked := f.masked firstBar
  have hbits : (f.config.barKinds firstBar).addressBits = ~~~(0x3FFF : Long) := by
    rw [f.kinds]
    rfl
  rw [hbits, BitVec.not_not] at hmasked
  have hand := congrArg BitVec.toNat hmasked
  rw [BitVec.toNat_and] at hand
  have hmod := Nat.and_two_pow_sub_one_eq_mod (f.config.barRegs firstBar).toNat 14
  exact hmod.symm.trans hand

theorem VirtioNetFunction.barWindow_zero (f : VirtioNetFunction ν) :
    f.config.barWindow 0 =
      if f.config.memorySpaceEnabled then some ((f.config.barRegs firstBar).setWidth 64, 0x4000)
      else none := by
  have hkind : f.config.barKinds firstBar = .mem32 bar0Size := by
    rw [f.kinds]
    rfl
  unfold ConfigSpace.barWindow
  cases f.config.memorySpaceEnabled with
  | false => rfl
  | true =>
    simp only [Bool.not_true, Bool.false_eq_true, if_false, dif_pos firstBar_lt, hkind]
    rfl

variable [RingEngine ν]

/-- **A device decodes whole pages**, with BAR 0. -/
theorem decode_eq (d : PciFunction ν) (addr : Quad) :
    VirtualPciBus.decode d addr =
      (d.decoding (addr.toNat / bar0Len)).map fun _ =>
        (0, BitVec.ofNat 64 (addr.toNat % bar0Len)) := by
  have hbarless : ∀ f : BarlessFunction, (d.config = f.config) →
      VirtualPciBus.decode d addr = none := by
    intro f hconfig
    refine List.findSome?_eq_none_iff.mpr fun bar _ => ?_
    have hnone : PciDevice.barWindow d bar = none := by
      show d.config.barWindow bar = none
      rw [hconfig]
      refine ConfigSpace.barWindow_none fun hbar => ?_
      rw [f.kinds]
    rw [hnone]
  cases d with
  | hostBridge f => exact hbarless f rfl
  | intxTest f asserted => exact hbarless f rfl
  | virtioNet f =>
    have hrest : ∀ bar ∈ [1, 2, 3, 4, 5], f.config.barWindow bar = none := by
      intro bar hbar
      refine ConfigSpace.barWindow_none fun hlt => ?_
      rw [f.kinds]
      refine if_neg fun hzero => ?_
      have hval : bar = 0 := congrArg Fin.val hzero
      subst hval
      simp at hbar
    have hmod := f.base_mod
    have hlen : bar0Len = 0x4000 := rfl
    rw [hlen] at hmod
    have hreg := (f.config.barRegs firstBar).isLt
    have haddr := addr.isLt
    have hbase : ((f.config.barRegs firstBar).setWidth 64 : Quad).toNat =
        (f.config.barRegs firstBar).toNat := by
      rw [BitVec.toNat_setWidth]
      omega
    have hsize : (0x4000 : Quad).toNat = 0x4000 := rfl
    have hwindow : PciDevice.barWindow (PciFunction.virtioNet f) 0 =
        if f.config.memorySpaceEnabled then some ((f.config.barRegs firstBar).setWidth 64, 0x4000)
        else none := f.barWindow_zero
    have h1 : PciDevice.barWindow (PciFunction.virtioNet f) 1 = none := hrest 1 (by simp)
    have h2 : PciDevice.barWindow (PciFunction.virtioNet f) 2 = none := hrest 2 (by simp)
    have h3 : PciDevice.barWindow (PciFunction.virtioNet f) 3 = none := hrest 3 (by simp)
    have h4 : PciDevice.barWindow (PciFunction.virtioNet f) 4 = none := hrest 4 (by simp)
    have h5 : PciDevice.barWindow (PciFunction.virtioNet f) 5 = none := hrest 5 (by simp)
    have hdecoding : (PciFunction.virtioNet f).decoding (addr.toNat / bar0Len) =
        if f.Decodes (addr.toNat / bar0Len) then some f else none := rfl
    unfold VirtualPciBus.decode
    rw [hdecoding, show List.range 6 = [0, 1, 2, 3, 4, 5] from rfl]
    simp only [List.findSome?_cons, List.findSome?_nil, hwindow, h1, h2, h3, h4, h5]
    by_cases henabled : f.config.memorySpaceEnabled = true
    · simp only [if_pos henabled, hbase, hsize]
      -- the BAR starts a page, so being in it is being in its page
      by_cases hpage : (f.config.barRegs firstBar).toNat / 0x4000 = addr.toNat / 0x4000
      · have hoffset : addr - (f.config.barRegs firstBar).setWidth 64 =
            BitVec.ofNat 64 (addr.toNat % bar0Len) := by
          refine BitVec.eq_of_toNat_eq ?_
          rw [hlen, BitVec.toNat_sub_of_le (by rw [BitVec.le_def, hbase]; omega), hbase,
            BitVec.toNat_ofNat]
          omega
        have hin : (f.config.barRegs firstBar).toNat ≤ addr.toNat ∧
            addr.toNat - (f.config.barRegs firstBar).toNat < 0x4000 := by omega
        rw [if_pos hin, if_pos (show f.Decodes _ from ⟨henabled, hpage⟩), hoffset]
        rfl
      · have hout : ¬((f.config.barRegs firstBar).toNat ≤ addr.toNat ∧
            addr.toNat - (f.config.barRegs firstBar).toNat < 0x4000) := by omega
        rw [if_neg hout, if_neg (show ¬f.Decodes _ from fun h => hpage h.2)]
        rfl
    · simp only [if_neg henabled]
      rw [if_neg (show ¬f.Decodes _ from fun h => henabled h.1)]
      rfl

end Pci

namespace VirtualPciBus

variable {ν : Type} {page : Nat} {f : VirtioNetFunction ν}

theorem device_of_decoding {d : PciFunction ν} (h : d.decoding page = some f) :
    d = .virtioNet f ∧ f.Decodes page := by
  cases d with
  | hostBridge _ => cases h
  | intxTest _ _ => cases h
  | virtioNet g =>
    change (if g.Decodes page then some g else none) = some f at h
    split at h
    · rename_i hdecodes
      cases h
      exact ⟨rfl, hdecodes⟩
    · cases h

/-- The first virtio-net function of some slots, numbered from `i`, that decodes a page. -/
def ownerFrom (page : Nat) : List (VirtualSlot (PciFunction ν)) → Nat →
    Option (Nat × VirtioNetFunction ν)
  | [], _ => none
  | slot :: rest, i =>
    match slot.device.decoding page with
    | some f => some (i, f)
    | none => ownerFrom page rest (i + 1)

/-- The slot and the function that decode a page. -/
def owner (v : VirtualPciBus (PciFunction ν)) (page : Nat) : Option (Nat × VirtioNetFunction ν) :=
  ownerFrom page v.devices 0

/-- Where the owner stands, and what replacing it by another of the same page makes of the list. -/
theorem ownerFrom_modify (slots : List (VirtualSlot (PciFunction ν))) :
    ∀ {n i : Nat} {f : VirtioNetFunction ν}, ownerFrom page slots n = some (i, f) →
      n ≤ i ∧ f.Decodes page ∧
      (∀ g : VirtioNetFunction ν, g.Decodes page →
        ownerFrom page (slots.modify (i - n) fun slot => { slot with device := .virtioNet g }) n =
          some (i, g)) ∧
      (slots.modify (i - n) fun slot => { slot with device := .virtioNet f }) = slots := by
  induction slots with
  | nil =>
    intro n i f h
    cases h
  | cons slot rest ih =>
    intro n i f h
    unfold ownerFrom at h
    cases hdecoding : slot.device.decoding page with
    | some f' =>
      rw [hdecoding] at h
      cases h
      obtain ⟨hdevice, hdecodes⟩ := device_of_decoding hdecoding
      rw [Nat.sub_self, List.modify_zero_cons]
      refine ⟨Nat.le_refl _, hdecodes, fun g hg => ?_, ?_⟩
      · rw [List.modify_zero_cons]
        unfold ownerFrom
        rw [show (PciFunction.virtioNet g).decoding page = some g from if_pos hg]
      · rw [← hdevice]
    | none =>
      rw [hdecoding] at h
      obtain ⟨hle, hdecodes, hreplaced, hsame⟩ := ih h
      have hindex : i - n = i - (n + 1) + 1 := by omega
      rw [hindex]
      refine ⟨by omega, hdecodes, fun g hg => ?_, ?_⟩
      · rw [List.modify_succ_cons]
        unfold ownerFrom
        rw [hdecoding]
        exact hreplaced g hg
      · rw [List.modify_succ_cons, hsame]

variable [RingEngine ν] {v : VirtualPciBus (PciFunction ν)} {i : Nat} {addr : Quad}

theorem findSome_decode (addr : Quad) (slots : List (VirtualSlot (PciFunction ν))) : ∀ n : Nat,
    ((slots.zipIdx n).findSome? fun slot =>
      (decode slot.1.device addr).map fun hit => (slot.2, slot.1.device, hit.1, hit.2)) =
      (ownerFrom (addr.toNat / bar0Len) slots n).map fun p =>
        (p.1, .virtioNet p.2, 0, BitVec.ofNat 64 (addr.toNat % bar0Len)) := by
  induction slots with
  | nil => exact fun _ => rfl
  | cons slot rest ih =>
    intro n
    rw [List.zipIdx_cons, List.findSome?_cons, decode_eq]
    unfold ownerFrom
    cases hdecoding : slot.device.decoding (addr.toNat / bar0Len) with
    | some f =>
      obtain ⟨hdevice, -⟩ := device_of_decoding hdecoding
      show some (n, slot.device, 0, BitVec.ofNat 64 (addr.toNat % bar0Len)) = _
      rw [hdevice]
      rfl
    | none => exact ih (n + 1)

/-- **An access reaches the owner of its first byte's page.** -/
theorem target_eq (v : VirtualPciBus (PciFunction ν)) (addr : Quad) :
    v.target addr = (v.owner (addr.toNat / bar0Len)).map fun p =>
      (p.1, .virtioNet p.2, 0, BitVec.ofNat 64 (addr.toNat % bar0Len)) :=
  findSome_decode addr v.devices 0

/-- The device behind the BAR of the owner, replaced. -/
def setStub (v : VirtualPciBus (PciFunction ν)) (i : Nat) (f : VirtioNetFunction ν)
    (stub : VirtioNetStub ν) : VirtualPciBus (PciFunction ν) :=
  v.setDevice i (.virtioNet (f.withStub stub))

omit [RingEngine ν] in
theorem setStub_same (h : v.owner page = some (i, f)) : v.setStub i f f.stub = v := by
  obtain ⟨-, -, -, hsame⟩ := ownerFrom_modify v.devices h
  unfold setStub setDevice
  exact congrArg VirtualPciBus.mk hsame

omit [RingEngine ν] in
theorem owner_setStub (h : v.owner page = some (i, f)) (stub : VirtioNetStub ν) :
    (v.setStub i f stub).owner page = some (i, f.withStub stub) := by
  obtain ⟨-, hdecodes, hreplaced, -⟩ := ownerFrom_modify v.devices h
  exact hreplaced (f.withStub stub) hdecodes

omit [RingEngine ν] in
theorem setStub_setStub (v : VirtualPciBus (PciFunction ν)) (i : Nat) (f : VirtioNetFunction ν)
    (stub stub' : VirtioNetStub ν) :
    (v.setStub i f stub).setStub i (f.withStub stub) stub' = v.setStub i f stub' := by
  unfold setStub setDevice
  dsimp only
  rw [List.modify_modify_eq]
  rfl

omit [RingEngine ν] in
/-- A replaced device shows. -/
theorem setStub_injective (h : v.owner page = some (i, f)) {stub stub' : VirtioNetStub ν}
    (heq : v.setStub i f stub = v.setStub i f stub') : stub = stub' := by
  have howner := (owner_setStub h stub).symm.trans ((congrArg (·.owner page) heq).trans
    (owner_setStub h stub'))
  exact congrArg VirtioNetFunction.stub (congrArg Prod.snd (Option.some.inj howner))

/-! ### Accesses of any width -/

theorem memRead_none (h : v.owner (addr.toNat / bar0Len) = none) (width : AccessWidth) :
    PciBackend.memRead v addr width = (allOnes width, v) := by
  simp only [PciBackend.memRead, target_eq, h]
  rfl

theorem memRead_some (h : v.owner (addr.toNat / bar0Len) = some (i, f)) (width : AccessWidth) :
    PciBackend.memRead v addr width =
      ((f.stub.bar0Read (BitVec.ofNat 64 (addr.toNat % bar0Len)) width).1,
        v.setStub i f (f.stub.bar0Read (BitVec.ofNat 64 (addr.toNat % bar0Len)) width).2) := by
  simp only [PciBackend.memRead, target_eq, h]
  rfl

theorem memWrite_none (h : v.owner (addr.toNat / bar0Len) = none) (width : AccessWidth)
    (value : Long) : PciBackend.memWrite v addr width value = v := by
  simp only [PciBackend.memWrite, target_eq, h]
  rfl

theorem memWrite_some (h : v.owner (addr.toNat / bar0Len) = some (i, f)) (width : AccessWidth)
    (value : Long) :
    PciBackend.memWrite v addr width value =
      v.setStub i f
        (f.stub.bar0Write (BitVec.ofNat 64 (addr.toNat % bar0Len)) width value) := by
  simp only [PciBackend.memWrite, target_eq, h]
  rfl

end VirtualPciBus

end M68kMachine
