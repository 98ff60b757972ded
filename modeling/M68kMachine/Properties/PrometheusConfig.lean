import M68kMachine.Cards.PciFunctions
import M68kMachine.Properties.ApertureWidths
import M68kMachine.Properties.PrometheusCycles

/-!
# The configuration accessors of prometheus.library

The SDK presents every longword of configuration space as a big-endian image. The library moves the
offset within the longword, the bridge carries values, and the functions store least significant
bytes first: together byte `k` of the image is config byte `k ^ 3` at every width.

* `deviceAt` — the functions of the virtual bus, through configuration cycles
* `presentedAt`, `longAt` — the image, byte by byte and longword by longword
* `prmRead`, `prmWrite` — the six accessors by their width
-/

namespace M68kMachine

open Pci Pcibridge VirtioNetStub Transition

/-! ## The functions behind the bus -/

namespace VirtualPciBus

variable {ν : Type} {bdf : Bdf} {v : VirtualPciBus (PciFunction ν)} {device : PciFunction ν}

/-- The function at an address. -/
def deviceAt (v : VirtualPciBus (PciFunction ν)) (bdf : Bdf) : Option (PciFunction ν) :=
  (v.devices.find? fun slot => slot.bdf = bdf).map fun slot => slot.device

theorem find?_zipIdx {slot : VirtualSlot (PciFunction ν)} {i : Nat}
    (slots : List (VirtualSlot (PciFunction ν))) : ∀ n : Nat,
    (slots.zipIdx n).find? (fun slot => slot.1.bdf = bdf) = some (slot, i) →
      n ≤ i ∧ slot.bdf = bdf ∧ slots.find? (fun slot => slot.bdf = bdf) = some slot ∧
      ∀ device bdf', ((slots.modify (i - n) fun slot => { slot with device := device }).find?
          fun slot => slot.bdf = bdf').map (fun slot => slot.device) =
        if bdf' = bdf then some device
        else (slots.find? fun slot => slot.bdf = bdf').map fun slot => slot.device := by
  induction slots with
  | nil =>
    intro n h
    cases h
  | cons first slots ih =>
    intro n h
    rw [List.zipIdx_cons, List.find?_cons] at h
    by_cases hfirst : first.bdf = bdf
    · simp only [hfirst, decide_true] at h
      cases h
      refine ⟨Nat.le_refl _, hfirst, by simp [hfirst], fun device bdf' => ?_⟩
      rw [Nat.sub_self, List.modify_zero_cons, List.find?_cons, List.find?_cons]
      by_cases hbdf : bdf' = bdf
      · simp [hfirst, hbdf]
      · have hne : ¬ slot.bdf = bdf' := fun h => hbdf (h.symm.trans hfirst)
        simp [hne, hbdf]
    · simp only [hfirst, decide_false] at h
      obtain ⟨hle, hslot, hfind, hset⟩ := ih (n + 1) h
      refine ⟨by omega, hslot, by simp [hfirst, hfind], fun device bdf' => ?_⟩
      have hi : i - n = i - (n + 1) + 1 := by omega
      rw [hi, List.modify_succ_cons, List.find?_cons, List.find?_cons]
      by_cases hbdf : first.bdf = bdf'
      · have hne : ¬ bdf' = bdf := fun h => hfirst (hbdf.trans h)
        simp [hbdf, hne]
      · simp only [hbdf, decide_false]
        exact hset device bdf'

/-- A cycle finds the function at its address, and leaves its answer in that slot. -/
theorem find_deviceAt (h : v.deviceAt bdf = some device) : ∃ i slot, v.find bdf = some (i, slot) ∧
      slot.device = device ∧ ∀ device' bdf', (v.setDevice i device').deviceAt bdf' =
        if bdf' = bdf then some device' else v.deviceAt bdf' := by
  obtain ⟨slot, hslot, rfl⟩ := Option.map_eq_some_iff.mp h
  cases hfind : v.devices.zipIdx.find? fun slot => slot.1.bdf = bdf with
  | none =>
    have hmem := List.mem_of_find?_eq_some hslot
    obtain ⟨i, hi, hget⟩ := List.getElem_of_mem hmem
    have hin : (slot, i) ∈ v.devices.zipIdx := by
      rw [List.mem_zipIdx_iff_getElem?, List.getElem?_eq_getElem hi, hget]
    have := List.find?_eq_none.mp hfind _ hin
    exact absurd (List.find?_some hslot) this
  | some hit =>
    obtain ⟨slot', i⟩ := hit
    obtain ⟨-, -, hsame, hset⟩ := find?_zipIdx v.devices 0 hfind
    rw [hslot] at hsame
    cases hsame
    refine ⟨i, slot, ?_, rfl, hset⟩
    unfold find
    rw [hfind]
    rfl

variable [RingEngine ν]

theorem configRead_deviceAt (h : v.deviceAt bdf = some device) (offset : Word)
    (width : AccessWidth) :
    (PciBackend.configRead v bdf offset width).1 = device.config.read offset width ∧
      ∀ bdf', (PciBackend.configRead v bdf offset width).2.deviceAt bdf' = v.deviceAt bdf' := by
  obtain ⟨i, slot, hfind, rfl, hset⟩ := find_deviceAt h
  have hread : PciBackend.configRead v bdf offset width =
      (slot.device.config.read offset width, v.setDevice i slot.device) := by
    simp only [PciBackend.configRead, hfind]
    rfl
  rw [hread]
  refine ⟨rfl, fun bdf' => ?_⟩
  rw [hset]
  split
  · rename_i hbdf
    rw [hbdf, h]
  · rfl

theorem configWrite_deviceAt (h : v.deviceAt bdf = some device) (offset : Word)
    (width : AccessWidth) (value : Long) (bdf' : Bdf) :
    (PciBackend.configWrite v bdf offset width value).deviceAt bdf' =
      if bdf' = bdf then some (device.configWrite offset width value) else v.deviceAt bdf' := by
  obtain ⟨i, slot, hfind, rfl, hset⟩ := find_deviceAt h
  have hwrite : PciBackend.configWrite v bdf offset width value =
      v.setDevice i (slot.device.configWrite offset width value) := by
    simp only [PciBackend.configWrite, hfind]
    rfl
  rw [hwrite, hset]

/-- The configuration space of the function at an address. -/
def spaceAt (v : VirtualPciBus (PciFunction ν)) (bdf : Bdf) : Option ConfigSpace :=
  (v.deviceAt bdf).map PciFunction.config

omit [RingEngine ν] in
theorem config_configWrite (device : PciFunction ν) (offset : Word) (width : AccessWidth)
    (value : Long) :
    (device.configWrite offset width value).config = device.config.write offset width value := by
  cases device <;> rfl

end VirtualPciBus

/-! ## The image -/

namespace ConfigSpace

/-- The value of the aligned longword an offset lies in. -/
def longAt (c : ConfigSpace) (o : Byte) : Long := c.read ((o &&& ~~~3).setWidth 16) .w32

/-- Byte `k` of the big-endian image. -/
def presentedAt (c : ConfigSpace) (k : Byte) : Byte := c.readByte (k ^^^ 3).toNat

theorem toNat_longword (o : Byte) : (o &&& ~~~3).toNat = 4 * (o.toNat / 4) := by
  revert o
  decide

theorem toNat_swapped (k : Byte) : (k ^^^ 3).toNat = 4 * (k.toNat / 4) + (3 - k.toNat % 4) := by
  revert k
  decide

theorem toNat_swappedWord (o : Byte) :
    ((o &&& ~~~1) ^^^ 2).toNat = 4 * (o.toNat / 4) + (2 - 2 * (o.toNat % 4 / 2)) := by
  revert o
  decide

theorem laneLE_longAt (c : ConfigSpace) (o : Byte) {lane : Nat} (h : lane < 4) :
    laneLE (c.longAt o) lane = c.readByte (4 * (o.toNat / 4) + lane) := by
  have ho := o.isLt
  have hword : ((o &&& ~~~3).setWidth 16 : Word).toNat = 4 * (o.toNat / 4) := by
    rw [BitVec.toNat_setWidth, toNat_longword]
    exact Nat.mod_eq_of_lt (by omega)
  have hin : ((o &&& ~~~3).setWidth 16 : Word).toNat + AccessWidth.w32.bytes ≤ configSpaceLen := by
    rw [hword]
    simp only [AccessWidth.bytes, configSpaceLen]
    omega
  unfold longAt
  rw [read_of_le hin, laneLE_composeLanes _ _ h, hword]
  exact if_pos h

end ConfigSpace

namespace Prometheus

/-! ## The accessors by width -/

section

variable {π : Type} [PciBackend π] (d : PciBridge π) (board : Option PciFunction)

def prmRead : AccessWidth → Byte → Cycle π
  | .w8, o => prmReadConfigByte d board o
  | .w16, o => prmReadConfigWord d board o
  | .w32, o => prmReadConfigLong d board o

/-- The low bytes of `data`, as many as the accessor takes. -/
def prmWrite : AccessWidth → Long → Byte → Cycle π
  | .w8, data, o => prmWriteConfigByte d board (data.setWidth 8) o
  | .w16, data, o => prmWriteConfigWord d board (data.setWidth 16) o
  | .w32, data, o => prmWriteConfigLong d board data o

/-- The offset an accessor names to the bridge. -/
def cfgOffset : AccessWidth → Byte → Byte
  | .w8, o => o ^^^ 3
  | .w16, o => (o &&& ~~~1) ^^^ 2
  | .w32, o => o &&& ~~~3

theorem toNat_cfgOffset (width : AccessWidth) (o : Byte) :
    ((cfgOffset width o).setWidth 16 : Word).toNat =
      4 * (o.toNat / 4) + (4 - width.bytes - width.bytes * (o.toNat % 4 / width.bytes)) := by
  have ho := (cfgOffset width o).isLt
  rw [BitVec.toNat_setWidth, Nat.mod_eq_of_lt (by omega)]
  cases width with
  | w8 =>
    simp only [cfgOffset, ConfigSpace.toNat_swapped, AccessWidth.bytes]
    omega
  | w16 =>
    simp only [cfgOffset, ConfigSpace.toNat_swappedWord, AccessWidth.bytes]
  | w32 =>
    rw [show cfgOffset .w32 o = o &&& ~~~3 from rfl, ConfigSpace.toNat_longword]
    simp [AccessWidth.bytes]

theorem cfgOffset_named {dev fn : Byte} (hdev : dev.toNat < 32) (hfn : fn.toNat < 8)
    (width : AccessWidth) (o : Byte) :
    Named dev fn ((cfgOffset width o).setWidth 16) width := by
  have ho := o.isLt
  refine ⟨hdev, hfn, ?_, ?_⟩ <;> rw [toNat_cfgOffset] <;> cases width <;>
    simp only [AccessWidth.bytes] <;> omega

end

/-- The bytes an access at `o` presents: those of its aligned unit. -/
def SameUnit (width : AccessWidth) (o k : Byte) : Prop :=
  k.toNat / width.bytes = o.toNat / width.bytes

instance (width : AccessWidth) (o k : Byte) : Decidable (SameUnit width o k) :=
  inferInstanceAs (Decidable (_ = _))

/-- The lane of byte `k` in a value of this width, from the most significant of a longword. -/
def laneOf (width : AccessWidth) (k : Byte) : Nat := 4 - width.bytes + k.toNat % width.bytes

/-! ## Lanes of a part of a longword -/

variable {lane : Nat}

theorem laneLE_upper (v : Long) (h : lane < 4) :
    laneLE (v >>> 16) lane = if lane < 2 then laneLE v (lane + 2) else 0 := by
  refine BitVec.eq_of_getLsbD_eq fun i hi => ?_
  rw [getLsbD_laneLE _ _ hi, BitVec.getLsbD_ushiftRight]
  split_ifs with hlane
  · rw [getLsbD_laneLE _ _ hi]
    congr 1
    omega
  · rw [BitVec.getLsbD_of_ge _ _ (by omega)]
    simp

theorem laneLE_lower (v : Long) (h : lane < 4) :
    laneLE (v &&& 0xFFFF) lane = if lane < 2 then laneLE v lane else 0 := by
  have hmask : ∀ lane < 4, laneLE (0xFFFF : Long) lane = if lane < 2 then 0xFF else 0 := by decide
  rw [laneLE_and, hmask lane h]
  split_ifs
  · exact BitVec.and_allOnes
  · exact BitVec.and_zero

theorem laneLE_byte (b : Byte) (h : lane < 4) :
    laneLE (b.setWidth 32 : Long) lane = if lane < 1 then b else 0 := by
  refine BitVec.eq_of_getLsbD_eq fun i hi => ?_
  rw [getLsbD_laneLE _ _ hi, BitVec.getLsbD_setWidth]
  split_ifs with hlane
  · obtain rfl : lane = 0 := by omega
    simp [show i < 32 by omega]
  · rw [BitVec.getLsbD_of_ge b _ (by omega)]
    simp

/-! ## Reads -/

section

variable {ν : Type} [RingEngine ν] {d : PciBridge (VirtualPciBus (Pci.PciFunction ν))}
  {f : PciFunction} {c : ConfigSpace}

/-- The lanes a value has room for. -/
theorem laneLE_onesOf (width : AccessWidth) {lane : Nat} (h : lane < 4) :
    laneLE (onesOf (widthByte width)) lane = if lane < width.bytes then 0xFF else 0 := by
  revert lane
  cases width <;> decide

theorem cfgOffset_le (width : AccessWidth) (o : Byte) :
    ((cfgOffset width o).setWidth 16 : Word).toNat + width.bytes ≤ configSpaceLen := by
  have ho := o.isLt
  rw [toNat_cfgOffset]
  cases width <;> simp only [AccessWidth.bytes, configSpaceLen] <;> omega

theorem prmRead_eq (d : PciBridge (VirtualPciBus (Pci.PciFunction ν))) (width : AccessWidth)
    (o : Byte) : prmRead d (some f) width o =
      { cfgCycle d f.bus f.dev f.fn ((cfgOffset width o).setWidth 16) (widthByte width) opRead
          0 with
        value := (cfgCycle d f.bus f.dev f.fn ((cfgOffset width o).setWidth 16) (widthByte width)
          opRead 0).value &&& onesOf (widthByte width) } := by
  cases width <;> rfl

variable (hdev : f.dev.toNat < 32) (hfn : f.fn.toNat < 8)
  (hspace : d.backend.spaceAt ⟨f.bus, f.dev, f.fn⟩ = some c)

include hdev hfn hspace

/-- A read shows the bytes of its unit, is not rejected, and changes no function. -/
theorem prmRead_spec (width : AccessWidth) (o : Byte) :
    (∀ lane < 4, laneLE (prmRead d (some f) width o).value lane =
      if lane < width.bytes then
        c.readByte (((cfgOffset width o).setWidth 16 : Word).toNat + lane)
      else 0) ∧
    (prmRead d (some f) width o).rejected = false ∧
    ∀ bdf, (prmRead d (some f) width o).bridge.backend.spaceAt bdf = d.backend.spaceAt bdf := by
  obtain ⟨device, hdevice, rfl⟩ := Option.map_eq_some_iff.mp hspace
  obtain ⟨hvalue, hsame⟩ := VirtualPciBus.configRead_deviceAt hdevice
    ((cfgOffset width o).setWidth 16) width
  rw [prmRead_eq, cfgCycle_read d (cfgOffset_named hdev hfn width o)]
  refine ⟨fun lane hlane => ?_, rfl, fun bdf => ?_⟩
  · rw [laneLE_and, hvalue, ConfigSpace.read_of_le (cfgOffset_le width o),
      laneLE_composeLanes _ _ hlane, laneLE_onesOf width hlane]
    split_ifs
    · exact BitVec.and_allOnes
    · exact BitVec.and_zero
  · exact congrArg (Option.map Pci.PciFunction.config) (hsame bdf)

/-! ## Writes -/

omit [RingEngine ν] hdev hfn hspace in
/-- The data bytes of a write, the low ones of a longword. -/
theorem prmWrite_eq (width : AccessWidth) (data : Long) (o : Byte)
    (d : PciBridge (VirtualPciBus (Pci.PciFunction ν))) [RingEngine ν] :
    ∃ value : Long, (∀ lane < width.bytes, laneLE value lane = laneLE data lane) ∧
      prmWrite d (some f) width data o =
        cfgCycle d f.bus f.dev f.fn ((cfgOffset width o).setWidth 16) (widthByte width) opWrite
          value := by
  have hlow : ∀ {w : Nat} (lane : Nat), 8 * lane + 8 ≤ w → w ≤ 32 →
      laneLE ((data.setWidth w).setWidth 32) lane = laneLE data lane := by
    intro w lane hin hw
    refine BitVec.eq_of_getLsbD_eq fun i hi => ?_
    rw [getLsbD_laneLE _ _ hi, getLsbD_laneLE _ _ hi, BitVec.getLsbD_setWidth,
      BitVec.getLsbD_setWidth, decide_eq_true (by omega), decide_eq_true (by omega)]
    simp
  cases width with
  | w8 => exact ⟨_, fun lane hlane => hlow lane (by simp only [AccessWidth.bytes] at hlane; omega)
      (by decide), rfl⟩
  | w16 => exact ⟨_, fun lane hlane => hlow lane (by simp only [AccessWidth.bytes] at hlane; omega)
      (by decide), rfl⟩
  | w32 => exact ⟨_, fun _ _ => rfl, rfl⟩

end

end Prometheus

namespace ConfigSpace

/-- One write, byte by byte. -/
theorem readByte_write {c : ConfigSpace} (h : c.Masked) {offset : Word} {width : AccessWidth}
    (hin : offset.toNat + width.bytes ≤ configSpaceLen) (value : Long) (j : Nat) :
    (c.write offset width value).readByte j =
      if offset.toNat ≤ j ∧ j < offset.toNat + width.bytes then
        MaskedStore.merge (writable c.barKinds j) (c.readByte j) (laneLE value (j - offset.toNat))
      else c.readByte j := by
  have hrun := congrFun (readByte_run h [⟨offset, width, value⟩]) j
  have hbytes : Write.bytes ⟨offset, width, value⟩ =
      (List.range width.bytes).map fun lane => (offset.toNat + lane, laneLE value lane) :=
    if_neg (Nat.not_lt.mpr hin)
  rw [List.flatMap_cons, List.flatMap_nil, List.append_nil, hbytes, MaskedStore.foldl_write] at hrun
  refine hrun.trans ?_
  have hlast : ∀ n, MaskedStore.last
      ((List.range n).map fun lane => (offset.toNat + lane, laneLE value lane)) j =
        if offset.toNat ≤ j ∧ j < offset.toNat + n then some (laneLE value (j - offset.toNat))
        else none := by
    intro n
    induction n with
    | zero => simp [MaskedStore.last]
    | succ n ih =>
      rw [List.range_succ, List.map_append, List.map_singleton, MaskedStore.last_concat, ih]
      by_cases hn : offset.toNat + n = j
      · rw [if_pos hn, if_pos (by omega), ← hn, Nat.add_sub_cancel_left]
      · rw [if_neg hn]
        by_cases hlt : offset.toNat ≤ j ∧ j < offset.toNat + n
        · rw [if_pos hlt, if_pos (by omega)]
        · rw [if_neg hlt, if_neg (by omega)]
  rw [hlast]
  split_ifs <;> rfl

end ConfigSpace

namespace Prometheus

section

variable {ν : Type} [RingEngine ν] {d : PciBridge (VirtualPciBus (Pci.PciFunction ν))}
  {f : PciFunction} {c : ConfigSpace} (hdev : f.dev.toNat < 32) (hfn : f.fn.toNat < 8)
  (hspace : d.backend.spaceAt ⟨f.bus, f.dev, f.fn⟩ = some c) (hmasked : c.Masked)

include hdev hfn hspace

/-- A write is one write of the function, is not rejected, and reaches no other function. -/
theorem prmWrite_spec (width : AccessWidth) (data : Long) (o : Byte) :
    (∃ value : Long, (∀ lane < width.bytes, laneLE value lane = laneLE data lane) ∧
      (prmWrite d (some f) width data o).bridge.backend.spaceAt ⟨f.bus, f.dev, f.fn⟩ =
        some (c.write ((cfgOffset width o).setWidth 16) width value)) ∧
    (prmWrite d (some f) width data o).rejected = false ∧
    ∀ bdf, bdf ≠ ⟨f.bus, f.dev, f.fn⟩ →
      (prmWrite d (some f) width data o).bridge.backend.spaceAt bdf = d.backend.spaceAt bdf := by
  obtain ⟨device, hdevice, rfl⟩ := Option.map_eq_some_iff.mp hspace
  obtain ⟨value, hvalue, heq⟩ := prmWrite_eq (f := f) width data o d
  have hset := VirtualPciBus.configWrite_deviceAt hdevice ((cfgOffset width o).setWidth 16) width
    value
  rw [heq, cfgCycle_write d (cfgOffset_named hdev hfn width o)]
  refine ⟨⟨value, hvalue, ?_⟩, rfl, fun bdf hbdf => ?_⟩
  · refine (congrArg (Option.map Pci.PciFunction.config) (hset _)).trans ?_
    rw [if_pos rfl, Option.map_some, VirtualPciBus.config_configWrite]
  · refine (congrArg (Option.map Pci.PciFunction.config) (hset _)).trans ?_
    rw [if_neg hbdf]
    rfl

include hmasked

/-- **The accessors are slices of one image.** -/
theorem image_write (width : AccessWidth) (data : Long) (o : Byte) :
    ∃ c', (prmWrite d (some f) width data o).bridge.backend.spaceAt ⟨f.bus, f.dev, f.fn⟩ = some c' ∧
      ∀ k : Byte, c'.presentedAt k =
        if SameUnit width o k then
          MaskedStore.merge (ConfigSpace.writable c.barKinds (k ^^^ 3).toNat) (c.presentedAt k)
            (byteOf data (laneOf width k))
        else c.presentedAt k := by
  obtain ⟨⟨value, hvalue, hc'⟩, -, -⟩ := prmWrite_spec hdev hfn hspace width data o
  refine ⟨_, hc', fun k => ?_⟩
  unfold ConfigSpace.presentedAt
  rw [ConfigSpace.readByte_write hmasked (cfgOffset_le width o)]
  have hoff := toNat_cfgOffset width o
  have hk := ConfigSpace.toNat_swapped k
  by_cases hunit : SameUnit width o k
  · have hsame := hunit
    unfold SameUnit at hsame
    have hin : ((cfgOffset width o).setWidth 16 : Word).toNat ≤ (k ^^^ 3).toNat ∧
        (k ^^^ 3).toNat - ((cfgOffset width o).setWidth 16 : Word).toNat =
          width.bytes - 1 - k.toNat % width.bytes := by
      rw [hoff, hk]
      cases width <;> simp only [AccessWidth.bytes] at hsame ⊢ <;> omega
    have hpos : 0 < width.bytes := by cases width <;> decide
    rw [if_pos hunit, if_pos (by omega), hin.2, hvalue _ (by omega), byteOf_eq_laneLE]
    unfold laneOf
    congr 2
    have := Nat.mod_lt k.toNat hpos
    cases width <;> simp only [AccessWidth.bytes] at this ⊢ <;> omega
  · have hout := hunit
    unfold SameUnit at hout
    rw [if_neg hunit, if_neg]
    rw [hoff, hk]
    cases width <;> simp only [AccessWidth.bytes] at hout ⊢ <;> omega

omit hmasked in
/-- The bytes a read shows at an offset are those of the image. -/
theorem byteOf_prmRead (width : AccessWidth) (o k : Byte) (hunit : SameUnit width o k) :
    byteOf (prmRead d (some f) width o).value (laneOf width k) = c.presentedAt k := by
  have hpos : 0 < width.bytes := by cases width <;> decide
  have hlane : laneOf width k < 4 := by
    unfold laneOf
    have := Nat.mod_lt k.toNat hpos
    cases width <;> simp only [AccessWidth.bytes] at this ⊢ <;> omega
  have hlow : 3 - laneOf width k = width.bytes - 1 - k.toNat % width.bytes := by
    unfold laneOf
    have := Nat.mod_lt k.toNat hpos
    cases width <;> simp only [AccessWidth.bytes] at this ⊢ <;> omega
  rw [byteOf_eq_laneLE, (prmRead_spec hdev hfn hspace width o).1 _ (by omega), hlow,
    if_pos (by omega), ConfigSpace.presentedAt, ConfigSpace.toNat_swapped, toNat_cfgOffset]
  congr 1
  unfold SameUnit at hunit
  cases width <;> simp only [AccessWidth.bytes] at hunit ⊢ <;> omega

end

/-! ## Slices -/

variable {ν : Type} [RingEngine ν]

/-- What the accessors do to a function whose configuration space is `c`. -/
structure Slices (d : PciBridge (VirtualPciBus (Pci.PciFunction ν))) (f : PciFunction)
    (c : ConfigSpace) : Prop where
  long (o : Byte) : (prmReadConfigLong d (some f) o).value = c.longAt o
  word (o : Byte) : (prmReadConfigWord d (some f) o).value =
    if o &&& 2 = 0 then c.longAt o >>> 16 else c.longAt o &&& 0xFFFF
  byte (o : Byte) : (prmReadConfigByte d (some f) o).value =
    (byteOf (c.longAt o) (o.toNat % 4)).setWidth 32
  /-- A write merges its bytes under the device's mask and changes no other. -/
  write (width : AccessWidth) (data : Long) (o : Byte) :
    ∃ c', (prmWrite d (some f) width data o).bridge.backend.spaceAt ⟨f.bus, f.dev, f.fn⟩ = some c' ∧
      ∀ k : Byte, c'.presentedAt k =
        if SameUnit width o k then
          MaskedStore.merge (ConfigSpace.writable c.barKinds (k ^^^ 3).toNat)
            (byteOf (prmRead d (some f) width o).value (laneOf width k))
            (byteOf data (laneOf width k))
        else c.presentedAt k
  /-- Reads change nothing, and writes nothing of another function. -/
  frame (width : AccessWidth) (data : Long) (o : Byte) (bdf : Bdf) :
    (prmRead d (some f) width o).bridge.backend.spaceAt bdf = d.backend.spaceAt bdf ∧
      (bdf ≠ ⟨f.bus, f.dev, f.fn⟩ →
        (prmWrite d (some f) width data o).bridge.backend.spaceAt bdf = d.backend.spaceAt bdf)
  accepted (width : AccessWidth) (data : Long) (o : Byte) :
    (prmRead d (some f) width o).rejected = false ∧
      (prmWrite d (some f) width data o).rejected = false

/-- **The accessors are slices of one big-endian image**, of every function and in every state its
configuration space can be written to. -/
theorem config_slices (d : PciBridge (VirtualPciBus (Pci.PciFunction ν))) (f : PciFunction)
    (hdev : f.dev.toNat < 32) (hfn : f.fn.toNat < 8) {c : ConfigSpace} (hc : c.Built)
    (ws : List ConfigSpace.Write)
    (hspace : d.backend.spaceAt ⟨f.bus, f.dev, f.fn⟩ = some (run ConfigSpace.step c ws)) :
    Slices d f (run ConfigSpace.step c ws) := by
  have hmasked := (ConfigSpace.frame_run hc.masked ws).masked
  generalize run ConfigSpace.step c ws = c at hspace hmasked
  have hread := prmRead_spec hdev hfn hspace
  have hlanes := fun o lane (h : lane < 4) => ConfigSpace.laneLE_longAt c o h
  constructor
  · intro o
    refine eq_of_laneLE fun lane hlane => ?_
    rw [hlanes o lane hlane]
    refine ((hread .w32 o).1 lane hlane).trans ((if_pos hlane).trans ?_)
    rw [toNat_cfgOffset]
    simp [AccessWidth.bytes]
  · intro o
    refine eq_of_laneLE fun lane hlane => ((hread .w16 o).1 lane hlane).trans ?_
    have hhalf : o &&& 2 = 0 ↔ o.toNat % 4 < 2 := by
      revert o
      decide
    have hbytes : AccessWidth.w16.bytes = 2 := rfl
    by_cases hin : lane < AccessWidth.w16.bytes
    · have htwo : lane < 2 := hin
      rw [if_pos hin, toNat_cfgOffset, hbytes]
      by_cases hupper : o &&& 2 = 0
      · have hlow := hhalf.mp hupper
        rw [if_pos hupper, laneLE_upper _ hlane, if_pos htwo, hlanes o _ (by omega)]
        congr 1
        omega
      · have hhigh : ¬ o.toNat % 4 < 2 := fun h => hupper (hhalf.mpr h)
        rw [if_neg hupper, laneLE_lower _ hlane, if_pos htwo, hlanes o lane hlane]
        congr 1
        omega
    · rw [if_neg hin]
      split
      · rw [laneLE_upper _ hlane]
        exact (if_neg hin).symm
      · rw [laneLE_lower _ hlane]
        exact (if_neg hin).symm
  · intro o
    refine eq_of_laneLE fun lane hlane => ((hread .w8 o).1 lane hlane).trans ?_
    rw [laneLE_byte _ hlane]
    have hbytes : AccessWidth.w8.bytes = 1 := rfl
    by_cases hin : lane < AccessWidth.w8.bytes
    · have hone : lane < 1 := hin
      rw [if_pos hin, if_pos hone, toNat_cfgOffset, hbytes, byteOf_eq_laneLE,
        hlanes o _ (by omega)]
      congr 1
      omega
    · rw [if_neg hin]
      exact (if_neg hin).symm
  · intro width data o
    obtain ⟨c', hspace', himage⟩ := image_write hdev hfn hspace hmasked width data o
    refine ⟨c', hspace', fun k => ?_⟩
    rw [himage]
    split
    · rename_i hunit
      rw [byteOf_prmRead hdev hfn hspace width o k hunit]
    · rfl
  · exact fun width data o bdf => ⟨(hread width o).2.2 bdf,
      (prmWrite_spec hdev hfn hspace width data o).2.2 bdf⟩
  · exact fun width data o => ⟨(hread width o).2.1,
      (prmWrite_spec hdev hfn hspace width data o).2.1⟩

theorem oneBar_masked : ConfigSpace.oneBar.Masked := (ConfigSpace.Built.new _ _).masked

theorem oneBar_kinds : ConfigSpace.oneBar.barKinds = virtioBars := rfl

/-- The bridge over one network function, at device 1. -/
def netBridge : PciBridge (VirtualPciBus (Pci.PciFunction Unit)) :=
  .new ⟨[⟨⟨0, 1, 0⟩, .virtioNet ⟨ConfigSpace.oneBar, .new (), oneBar_kinds, oneBar_masked⟩⟩]⟩

def netBoard : PciFunction where
  bus := 0
  dev := 1
  fn := 0
  intPin := 1
  vendor := 0x1AF4
  device := 0x1041
  revision := 1
  class' := 2
  subClass := 0
  barPci := fun _ => 0
  barSize := fun _ => 0

/-- The word at offset 0 is the device, and not the vendor. -/
theorem config_slices_net : (prmReadConfigWord netBridge (some netBoard) 0).value = 0x1041 :=
  ((config_slices netBridge netBoard (by decide) (by decide) (.new _ _) [] rfl).word 0).trans
    (by decide)

end Prometheus

end M68kMachine
