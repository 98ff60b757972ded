import M68kMachine.Machine.Bus
import M68kMachine.Properties.ApertureBytes

/-!
# Sized accesses to the aperture

A naturally aligned word or longword in the bridge's aperture is one access to PCI memory space,
routed by its first byte; its bytes are each routed on their own. The two agree as long as the
access stays in one BAR, or out of all, and in regions of it that answer alike. Alignment is that of
the CPU address; `APERTURE_BASE` moves it.

* `readApertureBytes`, `writeApertureBytes` — an access, byte by byte
* `WidthFaithful` — a sized access is its bytes
* `AccessFits` — the condition under which it is
-/

namespace M68kMachine

open Pci VirtioNet VirtioNetStub

/-! ## The aperture, byte by byte -/

theorem byteOf_eq_laneLE (value : Long) (lane : Nat) :
    byteOf value lane = laneLE value (3 - lane) := rfl

/-- The lanes of four bytes, most significant first. -/
theorem laneLE_be32 (a b c d : Byte) :
    laneLE (be32 a b c d) 0 = d ∧ laneLE (be32 a b c d) 1 = c ∧ laneLE (be32 a b c d) 2 = b ∧
      laneLE (be32 a b c d) 3 = a := by
  refine ⟨?_, ?_, ?_, ?_⟩ <;>
  · refine BitVec.eq_of_getLsbD_eq fun i hi => ?_
    rw [getLsbD_laneLE _ _ hi]
    unfold be32
    simp only [BitVec.getLsbD_append]
    split_ifs <;> first | omega | (congr 1; omega)

theorem laneLE_be16 (a b : Byte) :
    laneLE ((be16 a b).setWidth 32 : Long) 0 = b ∧
      laneLE ((be16 a b).setWidth 32 : Long) 1 = a := by
  refine ⟨?_, ?_⟩ <;>
  · refine BitVec.eq_of_getLsbD_eq fun i hi => ?_
    rw [getLsbD_laneLE _ _ hi, BitVec.getLsbD_setWidth, decide_eq_true (by omega), Bool.true_and]
    unfold be16
    simp only [BitVec.getLsbD_append]
    split_ifs <;> first | omega | (congr 1; omega)

namespace PciBridge

/-- The value a CPU composes of bytes, the most significant first. -/
def cpuValue : AccessWidth → List Byte → Long
  | .w8, bytes => (bytes.getD 0 0).setWidth 32
  | .w16, bytes => (be16 (bytes.getD 0 0) (bytes.getD 1 0)).setWidth 32
  | .w32, bytes => be32 (bytes.getD 0 0) (bytes.getD 1 0) (bytes.getD 2 0) (bytes.getD 3 0)

/-- The bytes of a value a CPU writes. -/
def cpuBytes : AccessWidth → Long → List Byte
  | .w8, value => [byteOf value 3]
  | .w16, value => [byteOf value 2, byteOf value 3]
  | .w32, value => toBytes32 value

/-- The lanes a backend is handed are the bytes of the CPU, in the order of their addresses. -/
theorem map_laneLE_swapLanes (value : Long) (width : AccessWidth) :
    (List.range width.bytes).map (laneLE (swapLanes value width)) = cpuBytes width value := by
  cases width with
  | w8 => rfl
  | w16 =>
    obtain ⟨h0, h1⟩ := laneLE_be16 (byteOf value 3) (byteOf value 2)
    show [laneLE (swapLanes value .w16) 0, laneLE (swapLanes value .w16) 1] = _
    unfold swapLanes cpuBytes
    rw [h0, h1]
  | w32 =>
    obtain ⟨h0, h1, h2, h3⟩ :=
      laneLE_be32 (byteOf value 3) (byteOf value 2) (byteOf value 1) (byteOf value 0)
    show [laneLE (swapLanes value .w32) 0, laneLE (swapLanes value .w32) 1,
      laneLE (swapLanes value .w32) 2, laneLE (swapLanes value .w32) 3] = _
    unfold swapLanes cpuBytes toBytes32
    rw [h0, h1, h2, h3]

theorem swapLanes_composeLanes (width : AccessWidth) (f : Nat → Byte) :
    swapLanes (VirtioNetStub.composeLanes width f) width =
      cpuValue width ((List.range width.bytes).map f) := by
  have hlane : ∀ lane < 4, lane < width.bytes →
      laneLE (VirtioNetStub.composeLanes width f) lane = f lane := by
    intro lane hlane hin
    rw [laneLE_composeLanes _ _ hlane, if_pos hin]
  cases width with
  | w8 => exact VirtioNetStub.composeLanes_byte f
  | w16 =>
    unfold swapLanes
    simp only [byteOf_eq_laneLE]
    rw [hlane 0 (by decide) (by decide), hlane 1 (by decide) (by decide)]
    rfl
  | w32 =>
    unfold swapLanes
    simp only [byteOf_eq_laneLE]
    rw [hlane 0 (by decide) (by decide), hlane 1 (by decide) (by decide),
      hlane 2 (by decide) (by decide), hlane 3 (by decide) (by decide)]
    rfl

/-- A CPU value is its lanes, least significant first. -/
theorem cpuBytes_eq (width : AccessWidth) (value : Long) :
    cpuBytes width value = ((List.range width.bytes).map (laneLE value)).reverse := by
  cases width <;> rfl

/-- Two values the CPU sees alike have the same lanes. -/
theorem laneLE_of_swapLanes {a b : Long} {width : AccessWidth}
    (h : swapLanes a width = swapLanes b width) {lane : Nat} (hlane : lane < width.bytes) :
    laneLE a lane = laneLE b lane := by
  have hbytes : cpuBytes width a = cpuBytes width b := by
    rw [← map_laneLE_swapLanes, ← map_laneLE_swapLanes, h]
  rw [cpuBytes_eq, cpuBytes_eq, List.reverse_inj, List.map_inj_left] at hbytes
  exact hbytes lane (List.mem_range.mpr hlane)

section Bytes

variable {π : Type} [PciBackend π]

/-- `n` bytes of the aperture, read one after the other. -/
def readApertureBytes : PciBridge π → Nat → Nat → List Byte × PciBridge π
  | d, _, 0 => ([], d)
  | d, k, n + 1 =>
    let (byte, d) := d.readAperture k
    let (rest, d) := d.readApertureBytes (k + 1) n
    (byte :: rest, d)

/-- Bytes written one after the other. -/
def writeApertureBytes : PciBridge π → Nat → List Byte → PciBridge π
  | d, _, [] => d
  | d, k, byte :: rest => (d.writeAperture k byte).writeApertureBytes (k + 1) rest

theorem readApertureBytes_add (m n : Nat) : ∀ (d : PciBridge π) (k : Nat),
    d.readApertureBytes k (m + n) =
      ((d.readApertureBytes k m).1 ++ ((d.readApertureBytes k m).2.readApertureBytes (k + m) n).1,
        ((d.readApertureBytes k m).2.readApertureBytes (k + m) n).2) := by
  induction m with
  | zero =>
    intro d k
    rw [Nat.zero_add]
    rfl
  | succ m ih =>
    intro d k
    rw [Nat.succ_add, Nat.add_succ k m, ← Nat.succ_add k m]
    show ((d.readAperture k).1 :: ((d.readAperture k).2.readApertureBytes (k + 1) (m + n)).1,
      ((d.readAperture k).2.readApertureBytes (k + 1) (m + n)).2) = _
    rw [ih]
    rfl

theorem writeApertureBytes_append (xs ys : List Byte) : ∀ (d : PciBridge π) (k : Nat),
    d.writeApertureBytes k (xs ++ ys) =
      (d.writeApertureBytes k xs).writeApertureBytes (k + xs.length) ys := by
  induction xs with
  | nil => exact fun _ _ => rfl
  | cons x xs ih =>
    intro d k
    rw [List.length_cons, Nat.add_succ, ← Nat.succ_add]
    exact ih _ _

/-- A sized access does what its bytes do, one after the other. -/
structure WidthFaithful (d : PciBridge π) (k : Nat) (width : AccessWidth) : Prop where
  read : d.readApertureSized k width =
    (cpuValue width (d.readApertureBytes k width.bytes).1,
      (d.readApertureBytes k width.bytes).2)
  write (value : Long) :
    d.writeApertureSized k width value = d.writeApertureBytes k (cpuBytes width value)

end Bytes

/-! ## One function at a time -/

section VirtualBus

variable {ν : Type} [RingEngine ν]

theorem toNat_apertureAddr {π : Type} (d : PciBridge π) {k : Nat} (h : k < 0x200000000) :
    (d.apertureAddr k).toNat = d.apertureBase.toNat + k := by
  have hbase := d.apertureBase.isLt
  unfold apertureAddr
  rw [BitVec.toNat_add, BitVec.toNat_setWidth, BitVec.toNat_ofNat]
  omega

omit [RingEngine ν] in
/-- The page of an address and the offset into it. -/
theorem page_rel {d : PciBridge (VirtualPciBus (PciFunction ν))} {k page rel : Nat}
    (hk : k < 0x200000000) (hat : d.apertureBase.toNat + k = bar0Len * page + rel)
    (hrel : rel < bar0Len) :
    (d.apertureAddr k).toNat / bar0Len = page ∧ (d.apertureAddr k).toNat % bar0Len = rel := by
  rw [d.toNat_apertureAddr hk, hat, Nat.mul_add_div (by decide), Nat.mul_add_mod,
    Nat.div_eq_of_lt hrel, Nat.mod_eq_of_lt hrel]
  exact ⟨rfl, rfl⟩

/-- The device behind a BAR, replaced. -/
def setStub (d : PciBridge (VirtualPciBus (PciFunction ν))) (i : Nat) (f : VirtioNetFunction ν)
    (stub : VirtioNetStub ν) : PciBridge (VirtualPciBus (PciFunction ν)) :=
  { d with backend := d.backend.setStub i f stub }

variable {d : PciBridge (VirtualPciBus (PciFunction ν))} {k page rel i : Nat}
  {f : VirtioNetFunction ν} {width : AccessWidth}

omit [RingEngine ν] in
theorem setStub_same (h : d.backend.owner page = some (i, f)) : d.setStub i f f.stub = d := by
  unfold setStub
  rw [VirtualPciBus.setStub_same h]

theorem readAperture_open (h : d.backend.owner ((d.apertureAddr k).toNat / bar0Len) = none) :
    d.readAperture k = (0xFF, d) := by
  unfold readAperture memRead
  dsimp only
  rw [VirtualPciBus.memRead_none h]
  rfl

theorem readAperture_owned
    (h : d.backend.owner ((d.apertureAddr k).toNat / bar0Len) = some (i, f)) :
    d.readAperture k =
      (f.stub.barByte ((d.apertureAddr k).toNat % bar0Len),
        d.setStub i f (f.stub.afterByte ((d.apertureAddr k).toNat % bar0Len))) := by
  unfold readAperture memRead
  dsimp only
  rw [VirtualPciBus.memRead_some h, VirtioNetStub.bar0Read_byte _ (Nat.mod_lt _ (by decide))]
  refine Prod.ext ?_ rfl
  simp

theorem writeAperture_open (h : d.backend.owner ((d.apertureAddr k).toNat / bar0Len) = none)
    (byte : Byte) : d.writeAperture k byte = d := by
  unfold writeAperture memWrite
  rw [VirtualPciBus.memWrite_none h]

theorem writeAperture_owned
    (h : d.backend.owner ((d.apertureAddr k).toNat / bar0Len) = some (i, f)) (byte : Byte) :
    d.writeAperture k byte =
      d.setStub i f (f.stub.commonWriteByte ((d.apertureAddr k).toNat % bar0Len) byte) := by
  have hlane : laneLE (byte.setWidth 32 : Long) 0 = byte := by simp [laneLE]
  have hone : AccessWidth.w8.bytes = 1 := rfl
  have hrel := Nat.mod_lt (d.apertureAddr k).toNat (show 0 < bar0Len by decide)
  unfold writeAperture memWrite
  rw [VirtualPciBus.memWrite_some h, VirtioNetStub.bar0Write_eq _ (by rw [hone]; omega), hone]
  show d.setStub i f (f.stub.commonWriteByte _ (laneLE (byte.setWidth 32 : Long) 0)) = _
  rw [hlane, Nat.add_zero]

/-! ### Runs of bytes -/

/-- Bytes nobody decodes are open. -/
theorem readApertureBytes_open (n : Nat) : ∀ {k : Nat},
    (∀ lane < n, d.backend.owner ((d.apertureAddr (k + lane)).toNat / bar0Len) = none) →
      d.readApertureBytes k n = (List.replicate n 0xFF, d) := by
  induction n with
  | zero => exact fun _ => rfl
  | succ n ih =>
    intro k h
    have hrest : ∀ lane < n,
        d.backend.owner ((d.apertureAddr (k + 1 + lane)).toNat / bar0Len) = none := by
      intro lane hlane
      rw [Nat.add_assoc, Nat.add_comm 1]
      exact h (lane + 1) (by omega)
    have hfirst : d.backend.owner ((d.apertureAddr k).toNat / bar0Len) = none := h 0 (by omega)
    unfold readApertureBytes
    rw [readAperture_open hfirst]
    dsimp only
    rw [ih hrest]
    rfl

theorem writeApertureBytes_open (bytes : List Byte) : ∀ {k : Nat},
    (∀ lane < bytes.length,
      d.backend.owner ((d.apertureAddr (k + lane)).toNat / bar0Len) = none) →
      d.writeApertureBytes k bytes = d := by
  induction bytes with
  | nil => exact fun _ => rfl
  | cons byte bytes ih =>
    intro k h
    rw [List.length_cons] at h
    have hrest : ∀ lane < bytes.length,
        d.backend.owner ((d.apertureAddr (k + 1 + lane)).toNat / bar0Len) = none := by
      intro lane hlane
      rw [Nat.add_assoc, Nat.add_comm 1]
      exact h (lane + 1) (by omega)
    have hfirst : d.backend.owner ((d.apertureAddr k).toNat / bar0Len) = none := h 0 (by omega)
    unfold writeApertureBytes
    rw [writeAperture_open hfirst, ih hrest]

/-- **The bytes of one page are the bytes of its owner.** -/
theorem readApertureBytes_owned (n : Nat) :
    ∀ {d : PciBridge (VirtualPciBus (PciFunction ν))} {k rel : Nat} {f : VirtioNetFunction ν},
      d.backend.owner page = some (i, f) → k + n ≤ 0x200000000 →
      d.apertureBase.toNat + k = bar0Len * page + rel → rel + n ≤ bar0Len →
        d.readApertureBytes k n =
          ((List.range n).map fun lane => f.stub.barByte (rel + lane),
            d.setStub i f (f.stub.afterBytes rel n)) := by
  induction n with
  | zero =>
    intro d k rel f howner _ _ _
    rw [VirtioNetStub.afterBytes_zero, setStub_same howner]
    rfl
  | succ n ih =>
    intro d k rel f howner hk hat hin
    obtain ⟨hpage, hrel⟩ := page_rel (show k < 0x200000000 by omega) hat (by omega)
    have hnext : (d.setStub i f (f.stub.afterByte rel)).backend.owner page =
        some (i, f.withStub (f.stub.afterByte rel)) := VirtualPciBus.owner_setStub howner _
    unfold readApertureBytes
    rw [readAperture_owned (by rw [hpage]; exact howner), hrel]
    dsimp only
    rw [ih hnext (by omega)
      (show d.apertureBase.toNat + (k + 1) = bar0Len * page + (rel + 1) by omega) (by omega)]
    refine Prod.ext ?_ ?_
    · rw [List.range_succ_eq_map, List.map_cons, List.map_map]
      refine congrArg (f.stub.barByte rel :: ·) (List.map_congr_left fun lane _ => ?_)
      show (f.stub.afterByte rel).barByte (rel + 1 + lane) = f.stub.barByte (rel + (lane + 1))
      rw [VirtioNetStub.barByte_afterByte _ (by omega), Nat.add_assoc, Nat.add_comm 1]
    · unfold setStub
      dsimp only
      rw [VirtualPciBus.setStub_setStub]
      exact congrArg (fun stub => d.setStub i f stub) (f.stub.afterBytes_succ rel n)

theorem writeApertureBytes_owned (bytes : List Byte) :
    ∀ {d : PciBridge (VirtualPciBus (PciFunction ν))} {k rel : Nat} {f : VirtioNetFunction ν},
      d.backend.owner page = some (i, f) → k + bytes.length ≤ 0x200000000 →
      d.apertureBase.toNat + k = bar0Len * page + rel → rel + bytes.length ≤ bar0Len →
        d.writeApertureBytes k bytes = d.setStub i f (f.stub.commonWriteBytes rel bytes) := by
  induction bytes with
  | nil =>
    intro d k rel f howner _ _ _
    exact (setStub_same howner).symm
  | cons byte bytes ih =>
    intro d k rel f howner hk hat hin
    rw [List.length_cons] at hk hin
    obtain ⟨hpage, hrel⟩ := page_rel (show k < 0x200000000 by omega) hat (by omega)
    have hnext : (d.setStub i f (f.stub.commonWriteByte rel byte)).backend.owner page =
        some (i, f.withStub (f.stub.commonWriteByte rel byte)) :=
      VirtualPciBus.owner_setStub howner _
    unfold writeApertureBytes
    rw [writeAperture_owned (by rw [hpage]; exact howner), hrel]
    rw [ih hnext (by omega)
      (show d.apertureBase.toNat + (k + 1) = bar0Len * page + (rel + 1) by omega) (by omega)]
    unfold setStub
    dsimp only
    rw [VirtualPciBus.setStub_setStub]
    rfl

/-! ## Sized accesses -/

theorem readApertureSized_open (h : d.backend.owner ((d.apertureAddr k).toNat / bar0Len) = none)
    (width : AccessWidth) : d.readApertureSized k width = (swapLanes (allOnes width) width, d) := by
  unfold readApertureSized memRead
  dsimp only
  rw [VirtualPciBus.memRead_none h]

theorem readApertureSized_owned
    (h : d.backend.owner ((d.apertureAddr k).toNat / bar0Len) = some (i, f))
    (width : AccessWidth) :
    d.readApertureSized k width =
      (swapLanes (f.stub.bar0Read (BitVec.ofNat 64 ((d.apertureAddr k).toNat % bar0Len)) width).1
        width,
      d.setStub i f
        (f.stub.bar0Read (BitVec.ofNat 64 ((d.apertureAddr k).toNat % bar0Len)) width).2) := by
  unfold readApertureSized memRead
  dsimp only
  rw [VirtualPciBus.memRead_some h]
  rfl

theorem writeApertureSized_open (h : d.backend.owner ((d.apertureAddr k).toNat / bar0Len) = none)
    (width : AccessWidth) (value : Long) : d.writeApertureSized k width value = d := by
  unfold writeApertureSized memWrite
  rw [VirtualPciBus.memWrite_none h]

theorem writeApertureSized_owned
    (h : d.backend.owner ((d.apertureAddr k).toNat / bar0Len) = some (i, f))
    (width : AccessWidth) (value : Long) :
    d.writeApertureSized k width value =
      d.setStub i f (f.stub.bar0Write (BitVec.ofNat 64 ((d.apertureAddr k).toNat % bar0Len)) width
        (swapLanes value width)) := by
  unfold writeApertureSized memWrite
  rw [VirtualPciBus.memWrite_some h]
  rfl

/-- An access nobody decodes a byte of is open, sized or not. -/
theorem widthFaithful_of_open
    (h : ∀ lane < width.bytes,
      d.backend.owner ((d.apertureAddr (k + lane)).toNat / bar0Len) = none) :
    d.WidthFaithful k width := by
  have hfirst : d.backend.owner ((d.apertureAddr k).toNat / bar0Len) = none :=
    h 0 (bytes_bounds width).1
  have hones : swapLanes (allOnes width) width =
      cpuValue width (List.replicate width.bytes 0xFF) := by
    cases width <;> decide
  refine ⟨?_, fun value => ?_⟩
  · rw [readApertureSized_open hfirst, readApertureBytes_open width.bytes h, hones]
  · have hlen : (cpuBytes width value).length = width.bytes := by
      rw [cpuBytes_eq, List.length_reverse, List.length_map, List.length_range]
    rw [writeApertureSized_open hfirst, writeApertureBytes_open _ (by rw [hlen]; exact h)]

/-- **Inside one BAR, where the regions fit, a sized access is its bytes.** -/
theorem widthFaithful_of_owned (hk : k < 0x100000000)
    (hat : d.apertureBase.toNat + k = bar0Len * page + rel) (hin : rel + width.bytes ≤ bar0Len)
    (howner : d.backend.owner page = some (i, f)) (hfit : f.stub.RegionsFit rel width.bytes) :
    d.WidthFaithful k width := by
  obtain ⟨hpos, hbytes⟩ := bytes_bounds width
  obtain ⟨hpage, hrel⟩ := page_rel (show k < 0x200000000 by omega) hat (by omega)
  have hfirst : d.backend.owner ((d.apertureAddr k).toNat / bar0Len) = some (i, f) := by
    rw [hpage]
    exact howner
  refine ⟨?_, fun value => ?_⟩
  · rw [readApertureSized_owned hfirst, hrel, VirtioNetStub.bar0Read_of_fit hin hfit,
      swapLanes_composeLanes, readApertureBytes_owned width.bytes howner (by omega) hat hin]
  · have hlen : (cpuBytes width value).length = width.bytes := by
      rw [cpuBytes_eq, List.length_reverse, List.length_map, List.length_range]
    rw [writeApertureSized_owned hfirst, hrel, VirtioNetStub.bar0Write_eq _ hin,
      writeApertureBytes_owned _ howner (by omega) hat (by omega), ← map_laneLE_swapLanes,
      VirtioNetStub.commonWriteBytes_range]

/-- In one page the regions of the owner fit; across two both pages are open. -/
def AccessFits (d : PciBridge (VirtualPciBus (PciFunction ν))) (k : Nat) (width : AccessWidth) :
    Prop :=
  let page := (d.apertureAddr k).toNat / bar0Len
  let rel := (d.apertureAddr k).toNat % bar0Len
  if rel + width.bytes ≤ bar0Len then
    ∀ i f, d.backend.owner page = some (i, f) → f.stub.RegionsFit rel width.bytes
  else d.backend.owner page = none ∧ d.backend.owner (page + 1) = none

omit [RingEngine ν] in
/-- A lane lies in the page of the first byte, or in the next. -/
theorem page_lane {lane : Nat} (hk : k + lane < 0x200000000) (hlane : lane < 4) :
    (d.apertureAddr (k + lane)).toNat / bar0Len =
      if (d.apertureAddr k).toNat % bar0Len + lane < bar0Len then
        (d.apertureAddr k).toNat / bar0Len
      else (d.apertureAddr k).toNat / bar0Len + 1 := by
  have hlen : bar0Len = 0x4000 := rfl
  rw [d.toNat_apertureAddr hk, d.toNat_apertureAddr (by omega), hlen]
  split <;> omega

theorem widthFaithful_of_fits (hk : k < 0x100000000) (h : d.AccessFits k width) :
    d.WidthFaithful k width := by
  obtain ⟨hpos, hbytes⟩ := bytes_bounds width
  have haddr := d.toNat_apertureAddr (show k < 0x200000000 by omega)
  unfold AccessFits at h
  dsimp only at h
  split at h
  · rename_i hin
    cases howner : d.backend.owner ((d.apertureAddr k).toNat / bar0Len) with
    | some owner =>
      have hat := (Nat.div_add_mod (d.apertureAddr k).toNat bar0Len).symm
      exact widthFaithful_of_owned hk (haddr.symm.trans hat) hin howner (h owner.1 owner.2 howner)
    | none =>
      refine widthFaithful_of_open fun lane hlane => ?_
      rw [page_lane (by omega) (by omega), if_pos (by omega)]
      exact howner
  · refine widthFaithful_of_open fun lane hlane => ?_
    rw [page_lane (by omega) (by omega)]
    split
    · exact h.1
    · exact h.2

/-! ### Where it does not fit -/

omit [RingEngine ν] in
/-- The bytes before the end of a page an access runs past lie in the device configuration. -/
theorem beyond_of_crossing (hcross : bar0Len < rel + width.bytes) :
    isrCfgBarOffset < rel ∧ 55 < rel := by
  obtain ⟨-, hbytes⟩ := bytes_bounds width
  have hlen : bar0Len = 0x4000 := rfl
  simp only [isrCfgBarOffset]
  omega

theorem writeApertureBytes_before {bytes : List Byte} (hk : k + 4 < 0x200000000)
    (hat : d.apertureBase.toNat + k = bar0Len * page + rel) (hcross : bar0Len < rel + width.bytes)
    (hlen : rel + bytes.length ≤ bar0Len) : d.writeApertureBytes k bytes = d := by
  obtain ⟨-, hbytes⟩ := bytes_bounds width
  obtain ⟨-, hrel⟩ := beyond_of_crossing hcross
  cases howner : d.backend.owner page with
  | some owner =>
    rw [writeApertureBytes_owned bytes howner (by omega) hat hlen,
      VirtioNetStub.commonWriteBytes_of_gt bytes _ hrel, setStub_same howner]
  | none =>
    refine writeApertureBytes_open bytes fun lane hlane => ?_
    obtain ⟨hpage, -⟩ := page_rel (by omega)
      (show d.apertureBase.toNat + (k + lane) = bar0Len * page + (rel + lane) by omega) (by omega)
    rw [hpage]
    exact howner

theorem writeApertureSized_before (hk : k < 0x100000000)
    (hat : d.apertureBase.toNat + k = bar0Len * page + rel) (hin : rel < bar0Len)
    (hcross : bar0Len < rel + width.bytes) (value : Long) :
    d.writeApertureSized k width value = d := by
  obtain ⟨hpage, hrel⟩ := page_rel (show k < 0x200000000 by omega) hat hin
  obtain ⟨hisr, -⟩ := beyond_of_crossing hcross
  cases howner : d.backend.owner page with
  | some owner =>
    have hbeyond : ¬rel < commonCfgBarLen := by
      simp only [isrCfgBarOffset] at hisr
      simp only [commonCfgBarLen]
      omega
    rw [writeApertureSized_owned (by rw [hpage]; exact howner), hrel]
    unfold bar0Write
    dsimp only
    rw [toNat_barOffset hin, if_neg hbeyond, setStub_same howner]
  | none => exact writeApertureSized_open (by rw [hpage]; exact howner) width value

/-- A value all of whose bytes are alike. -/
theorem cpuBytes_replicate (width : AccessWidth) (byte : Byte) :
    cpuBytes width (be32 byte byte byte byte) = List.replicate width.bytes byte := by
  obtain ⟨h0, h1, h2, h3⟩ := laneLE_be32 byte byte byte byte
  have hlane : ∀ lane < 4, laneLE (be32 byte byte byte byte) lane = byte := by
    intro lane hlt
    rcases (by omega : lane = 0 ∨ lane = 1 ∨ lane = 2 ∨ lane = 3) with rfl | rfl | rfl | rfl
    · exact h0
    · exact h1
    · exact h2
    · exact h3
  have hbytes := (bytes_bounds width).2
  rw [cpuBytes_eq, List.map_congr_left (g := fun _ => byte), List.map_const', List.length_range,
    List.reverse_replicate]
  exact fun lane hmem => hlane lane (Nat.lt_of_lt_of_le (List.mem_range.mp hmem) hbytes)

/-- **An access that runs into a BAR writes its bytes there; the sized one writes nothing.** -/
theorem not_widthFaithful_of_next (hk : k < 0x100000000)
    (hat : d.apertureBase.toNat + k = bar0Len * page + rel) (hin : rel < bar0Len)
    (hcross : bar0Len < rel + width.bytes) (howner : d.backend.owner (page + 1) = some (i, f)) :
    ¬d.WidthFaithful k width := by
  intro h
  obtain ⟨-, hbytes⟩ := bytes_bounds width
  have hlen : bar0Len = 0x4000 := rfl
  -- a byte that is not in the register at the start of that BAR
  obtain ⟨byte, hbyte⟩ : ∃ byte : Byte, byte ≠ laneLE f.stub.deviceFeatureSelect 0 :=
    ⟨laneLE f.stub.deviceFeatureSelect 0 + 1, by bv_omega⟩
  obtain ⟨rest, hrest⟩ : ∃ rest, width.bytes = (bar0Len - rel) + (rest + 1) :=
    ⟨width.bytes - (bar0Len - rel) - 1, by omega⟩
  have hstart : d.apertureBase.toNat + (k + (bar0Len - rel)) = bar0Len * (page + 1) + 0 := by
    rw [Nat.mul_succ]
    omega
  have hwrite := h.write (be32 byte byte byte byte)
  rw [writeApertureSized_before hk hat hin hcross, cpuBytes_replicate, hrest,
    ← List.replicate_append_replicate, writeApertureBytes_append, List.length_replicate,
    writeApertureBytes_before (by omega) hat hcross (by rw [List.length_replicate]; omega),
    writeApertureBytes_owned _ howner (by rw [List.length_replicate]; omega) hstart
      (by rw [List.length_replicate]; omega)] at hwrite
  have hsame : d.backend.setStub i f f.stub =
      d.backend.setStub i f (f.stub.commonWriteBytes 0 (List.replicate (rest + 1) byte)) :=
    (VirtualPciBus.setStub_same howner).trans (congrArg PciBridge.backend hwrite)
  have hstub := VirtualPciBus.setStub_injective howner hsame
  rw [List.replicate_succ] at hstub
  exact commonWriteBytes_ne (by rw [List.length_replicate]; omega) hbyte hstub.symm

theorem cpuValue_eq (width : AccessWidth) (bytes : List Byte) :
    cpuValue width bytes =
      swapLanes (composeLanes width fun lane => bytes.getD lane 0) width := by
  rw [swapLanes_composeLanes]
  cases width <;> rfl

/-- **An access that runs out of a BAR reads open bytes there; the sized one reads zeros.** -/
theorem not_widthFaithful_of_last (hk : k < 0x100000000)
    (hat : d.apertureBase.toNat + k = bar0Len * page + rel) (hin : rel < bar0Len)
    (hcross : bar0Len < rel + width.bytes) (howner : d.backend.owner page = some (i, f))
    (hnext : d.backend.owner (page + 1) = none) : ¬d.WidthFaithful k width := by
  intro h
  obtain ⟨-, hbytes⟩ := bytes_bounds width
  have hlen : bar0Len = 0x4000 := rfl
  obtain ⟨hpage, hrel⟩ := page_rel (show k < 0x200000000 by omega) hat hin
  obtain ⟨hisr, -⟩ := beyond_of_crossing hcross
  have hsplit : width.bytes = (bar0Len - rel) + (width.bytes - (bar0Len - rel)) := by omega
  have hopen : ∀ lane < width.bytes - (bar0Len - rel),
      d.backend.owner ((d.apertureAddr (k + (bar0Len - rel) + lane)).toNat / bar0Len) = none := by
    intro lane hlane
    obtain ⟨hpage', -⟩ := page_rel (by omega)
      (show d.apertureBase.toNat + (k + (bar0Len - rel) + lane) = bar0Len * (page + 1) + lane by
        rw [Nat.mul_succ]; omega) (by omega)
    rw [hpage']
    exact hnext
  have hlist : (d.readApertureBytes k width.bytes).1 =
      ((List.range (bar0Len - rel)).map fun lane => f.stub.barByte (rel + lane)) ++
        List.replicate (width.bytes - (bar0Len - rel)) 0xFF := by
    rw [hsplit, readApertureBytes_add,
      readApertureBytes_owned (bar0Len - rel) howner (by omega) hat (by omega),
      VirtioNetStub.afterBytes_of_gt _ hisr, setStub_same howner]
    dsimp only
    rw [readApertureBytes_open _ hopen, ← hsplit]
  have hzero : (f.stub.bar0Read (BitVec.ofNat 64 rel) width).1 = 0 := by
    unfold bar0Read
    dsimp only
    rw [toNat_barOffset hin]
    simp only [commonCfgBarLen, notifyCfgBarEnd, isrCfgBarEnd]
    rw [if_neg (by omega), if_neg (by omega), if_neg (by omega)]
    refine composeLanes_zero width fun lane _ => ?_
    have hbeyond : mac.length ≤ rel - deviceCfgBarOffset + lane := by
      show 6 ≤ rel - 0x3000 + lane
      omega
    rw [List.getD_eq_getElem?_getD, List.getElem?_eq_none hbeyond]
    rfl
  have hread := congrArg Prod.fst h.read
  rw [readApertureSized_owned (by rw [hpage]; exact howner), hrel, hzero, cpuValue_eq,
    hlist] at hread
  have hlane := laneLE_of_swapLanes hread (show bar0Len - rel < width.bytes by omega)
  rw [laneLE_composeLanes _ _ (by omega), if_pos (by omega), List.getD_eq_getElem?_getD,
    List.getElem?_append_right (by rw [List.length_map, List.length_range]), List.length_map,
    List.length_range, Nat.sub_self, List.getElem?_replicate_of_lt (by omega)] at hlane
  have hfirst : laneLE (0 : Long) (bar0Len - rel) = 0 := by simp [laneLE]
  exact absurd (hfirst.symm.trans hlane) (by decide)

theorem fits_of_widthFaithful (hk : k < 0x100000000) (h : d.WidthFaithful k width) :
    d.AccessFits k width := by
  have hin := Nat.mod_lt (d.apertureAddr k).toNat (show 0 < bar0Len by decide)
  have hat := (d.toNat_apertureAddr (show k < 0x200000000 by omega)).symm.trans
    (Nat.div_add_mod (d.apertureAddr k).toNat bar0Len).symm
  obtain ⟨hpos, hbytes⟩ := bytes_bounds width
  unfold AccessFits
  dsimp only
  split
  · rename_i hwithin
    intro i f howner
    by_contra hfit
    obtain ⟨lane, hlane, hzero, hbyte⟩ := bar0Read_of_not_fit hwithin hfit
    have hread := congrArg Prod.fst h.read
    rw [readApertureSized_owned howner,
      readApertureBytes_owned width.bytes howner (by omega) hat hwithin,
      ← swapLanes_composeLanes] at hread
    have hsame := laneLE_of_swapLanes hread hlane
    rw [hzero, laneLE_composeLanes _ _ (by omega), if_pos hlane] at hsame
    exact hbyte hsame.symm
  · rename_i hcross
    have hnext : d.backend.owner ((d.apertureAddr k).toNat / bar0Len + 1) = none := by
      cases howner : d.backend.owner ((d.apertureAddr k).toNat / bar0Len + 1) with
      | none => rfl
      | some owner =>
        exact absurd h (not_widthFaithful_of_next hk hat hin (by omega)
          (howner : _ = some (owner.1, owner.2)))
    refine ⟨?_, hnext⟩
    cases howner : d.backend.owner ((d.apertureAddr k).toNat / bar0Len) with
    | none => rfl
    | some owner =>
      exact absurd h (not_widthFaithful_of_last hk hat hin (by omega)
        (howner : _ = some (owner.1, owner.2)) hnext)

/-- With an aligned `APERTURE_BASE` every aligned access is its bytes. -/
theorem widthFaithful_of_aligned (hk : k < 0x100000000) (hbase : d.apertureBase.toNat % 4 = 0)
    (halign : k % width.bytes = 0) : d.WidthFaithful k width := by
  have hlen : bar0Len = 0x4000 := rfl
  have hmod : (d.apertureAddr k).toNat % width.bytes = 0 := by
    rw [d.toNat_apertureAddr (by omega)]
    cases width with
    | w8 => exact Nat.mod_one _
    | w16 =>
      show (d.apertureBase.toNat + k) % 2 = 0
      have : k % 2 = 0 := halign
      omega
    | w32 =>
      show (d.apertureBase.toNat + k) % 4 = 0
      have : k % 4 = 0 := halign
      omega
  obtain ⟨addr, hat⟩ : ∃ addr, (d.apertureAddr k).toNat = addr := ⟨_, rfl⟩
  rw [hat] at hmod
  have hbounds : addr % bar0Len + width.bytes ≤ bar0Len ∧ ∀ boundary, boundary % 4 = 0 →
      ¬Straddles (addr % bar0Len) width.bytes boundary := by
    rw [hlen]
    unfold Straddles
    cases width with
    | w8 =>
      show addr % 0x4000 + 1 ≤ 0x4000 ∧
        ∀ boundary, _ → ¬(addr % 0x4000 < boundary ∧ boundary < addr % 0x4000 + 1)
      exact ⟨by omega, fun boundary hboundary => by omega⟩
    | w16 =>
      have htwo : addr % 2 = 0 := hmod
      show addr % 0x4000 + 2 ≤ 0x4000 ∧
        ∀ boundary, _ → ¬(addr % 0x4000 < boundary ∧ boundary < addr % 0x4000 + 2)
      exact ⟨by omega, fun boundary hboundary => by omega⟩
    | w32 =>
      have hfour : addr % 4 = 0 := hmod
      show addr % 0x4000 + 4 ≤ 0x4000 ∧
        ∀ boundary, _ → ¬(addr % 0x4000 < boundary ∧ boundary < addr % 0x4000 + 4)
      exact ⟨by omega, fun boundary hboundary => by omega⟩
  refine widthFaithful_of_fits hk ?_
  unfold AccessFits
  dsimp only
  rw [hat, if_pos hbounds.1]
  exact fun i f _ => ⟨hbounds.2 _ rfl, fun hcross => absurd hcross (hbounds.2 _ rfl)⟩

/-- **A sized access to the aperture is its bytes exactly where it fits**: out of every BAR, or in
one and across neither the start of the device configuration nor a set ISR byte. -/
theorem aperture_width_faithful (d : PciBridge (VirtualPciBus (PciFunction ν))) (k : Long)
    (width : AccessWidth) :
    d.WidthFaithful k.toNat width ↔ d.AccessFits k.toNat width := by
  have hk := k.isLt
  exact ⟨fits_of_widthFaithful (by omega), widthFaithful_of_fits (by omega)⟩

end VirtualBus

/-! ## A base that is not a multiple of four -/

/-- A function whose rings stand still. -/
instance : RingEngine Unit where
  tick v mem := (v, mem)

/-- A virtio-net function with its BAR at `0x80000000`, memory space enabled. -/
def placedNet : VirtioNetFunction Unit :=
  let net : VirtioNetFunction Unit :=
    { config := ConfigSpace.oneBar
      stub := .new ()
      kinds := rfl
      masked := (ConfigSpace.Built.new _ _).masked }
  (net.configWrite 0x10 .w32 0x80000000).configWrite 0x04 .w16 0x0002

/-- The bridge over it, its `APERTURE_BASE` two bytes before the MAC address. -/
def misaligned : PciBridge (VirtualPciBus (PciFunction Unit)) :=
  { PciBridge.new ⟨[⟨⟨0, 1, 0⟩, .virtioNet placedNet⟩]⟩ with apertureBase := 0x80002FFE }

/-- The longword at the start of the aperture reads zero in place of two bytes of the MAC
address. -/
theorem misaligned_long :
    ¬misaligned.WidthFaithful 0 .w32 ∧ (misaligned.readApertureSized 0 .w32).1 = 0 ∧
      (misaligned.readApertureBytes 0 4).1 = [0, 0, 0x02, 0x6D] := by
  have hsized : (misaligned.readApertureSized 0 .w32).1 = 0 := by decide
  have hbytes : (misaligned.readApertureBytes 0 4).1 = [0, 0, 0x02, 0x6D] := by decide
  refine ⟨fun h => ?_, hsized, hbytes⟩
  have hvalue := congrArg Prod.fst h.read
  rw [hsized] at hvalue
  change 0 = cpuValue .w32 (misaligned.readApertureBytes 0 4).1 at hvalue
  rw [hbytes] at hvalue
  exact absurd hvalue (by decide)

end PciBridge

/-! ## Accesses of the CPU -/

namespace MachineBus

variable {δ ρ π : Type} [PciBackend π] {b : MachineBus δ ρ π} {address : Long} {width : AccessWidth}
  {k : Nat} {dev : PciBridge π}

/-- **A naturally aligned read composes the bytes of a card faithful to its width.** -/
theorem apertureLoad_bytes (hk : pcibridgeApertureSized b.devices address width = some k)
    (hdev : b.devices.pcibridge = some dev) (h : dev.WidthFaithful k width) :
    b.apertureLoad address width =
      some (PciBridge.cpuValue width (dev.readApertureBytes k width.bytes).1,
        b.mapDevices fun d =>
          { d with pcibridge := some (dev.readApertureBytes k width.bytes).2 }) := by
  unfold apertureLoad
  rw [hk, hdev]
  dsimp only
  rw [h.read]

/-- A write stores the bytes, and asks the card for its interrupt once, afterwards. -/
theorem apertureStore_bytes (hk : pcibridgeApertureSized b.devices address width = some k)
    (hdev : b.devices.pcibridge = some dev) (h : dev.WidthFaithful k width) (value : Long) :
    b.apertureStore address width value =
      (let (irq, dev) := (dev.writeApertureBytes k (PciBridge.cpuBytes width value)).irqPending
      let b := b.mapDevices fun d => { d with pcibridge := some dev }
      some (if irq then (b.mapDevices (·.raisePorts true)).requestBoundary b.pendingIrqLevel
        else b)) := by
  unfold apertureStore
  rw [hk, hdev]
  dsimp only
  rw [h.write]

end MachineBus

end M68kMachine
