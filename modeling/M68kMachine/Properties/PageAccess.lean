import M68kMachine.Properties.PageTypes

/-!
# Accesses on a typed page

What the machine does at an address whose page the table types as RAM, ROM or open bus: it reads the
memory there, whatever the width of the access and wherever it begins.

* `Spot`, `MemorySpan` — addresses of memory
* `readWord_memory`, `readLong_memory` — an access to memory reads its bytes
* `StoreSpan` — an access within one RAM region stores its bytes there
* `Silent` — nothing answers, and the reads there; `Deaf` — nothing takes a write
-/

namespace M68kMachine

open Autoconfig AutoConfig BusDevices

variable {δ ρ π : Type}

namespace MachineBus

/-- The byte that the slices read first hold at `a`. -/
def byteAt (d : BusDevices δ ρ π) (a : Long) : Byte :=
  ((fastRegion d a).bind fun region => region.1.get? region.2).getD 0

/-- Fast RAM is above the 24-bit address space. -/
def HighWindow (r : GuestRam) : Prop :=
  ∀ base len, r.fastWindow = some (base, len) → 0x01000000 ≤ base.toNat

section Regions

variable {d : BusDevices δ ρ π} {a : Long}

theorem fastRegion_chip (hchip : a.toNat < chipRamEnd) (hover : overlaid d a = false) :
    fastRegion d a = some (⟨chipRamSize, d.ram.chipRam⟩, a.toNat) := by
  have hin : inRange chipRamBase chipRamEnd a = true := inRange_iff.mpr ⟨Nat.zero_le _, hchip⟩
  unfold fastRegion
  rw [hin, hover]
  rfl

theorem fastRegion_rom (hhigh : HighWindow d.ram) (hfull : d.rom.size = romWindowSize)
    (hrom : inRange romBase romEnd a = true) :
    fastRegion d a = some (d.rom, a.toNat - romBase) := by
  have hlt := inRange_iff.mp hrom
  simp only [romBase, romEnd, romWindowSize] at hlt
  have hchip : inRange chipRamBase chipRamEnd a = false := by
    rw [inRange_eq_false]
    simp only [chipRamBase, chipRamEnd, chipRamSize]
    omega
  have hoff : fastOffset d.ram a = none := by
    unfold fastOffset
    split
    · rfl
    · rename_i base len hw
      have hle := hhigh base len hw
      exact if_neg (by omega)
  unfold fastRegion
  rw [hchip, hoff]
  simp only [Bool.false_and, Bool.false_eq_true, if_false]
  exact if_pos ⟨hfull, hrom⟩

theorem fastRegion_fast (hhigh : HighWindow d.ram) {base len : Long} {mem : ByteSlice}
    (hw : d.ram.fastWindow = some (base, len)) (hmem : d.ram.fastRam = some mem)
    (hle : base.toNat ≤ a.toNat) (hlt : a.toNat < base.toNat + len.toNat) :
    fastRegion d a = some (mem, a.toNat - base.toNat) ∧
      fastRegionMut d.ram a = some (.fast mem, a.toNat - base.toNat) := by
  have hchip : inRange chipRamBase chipRamEnd a = false := by
    have habove := hhigh base len hw
    rw [inRange_eq_false]
    simp only [chipRamBase, chipRamEnd, chipRamSize]
    omega
  have hoff : fastOffset d.ram a = some (a.toNat - base.toNat) := by
    unfold fastOffset
    rw [hw]
    exact if_pos ⟨hle, by omega⟩
  unfold fastRegion fastRegionMut
  rw [hchip, hoff, hmem]
  exact ⟨rfl, rfl⟩

/-- `a` is an address of chip RAM, of a full ROM or of the buffer behind fast RAM. -/
inductive Spot (d : BusDevices δ ρ π) (a : Long) : Prop
  | chip (hchip : a.toNat < chipRamEnd) (hover : overlaid d a = false)
  | rom (hfull : d.rom.size = romWindowSize) (hrom : inRange romBase romEnd a = true)
  | fast {base len : Long} {mem : ByteSlice} (hw : d.ram.fastWindow = some (base, len))
      (hmem : d.ram.fastRam = some mem) (hle : base.toNat ≤ a.toNat)
      (hlt : a.toNat < base.toNat + len.toNat) (hsize : a.toNat < base.toNat + mem.size)

theorem Spot.region (hhigh : HighWindow d.ram) (h : Spot d a) :
    ∃ region off, fastRegion d a = some (region, off) ∧ off < region.size := by
  cases h with
  | chip hchip hover => exact ⟨_, _, fastRegion_chip hchip hover, hchip⟩
  | rom hfull hrom =>
    refine ⟨_, _, fastRegion_rom hhigh hfull hrom, ?_⟩
    have hlt := inRange_iff.mp hrom
    simp only [romEnd] at hlt
    omega
  | fast hw hmem hle hlt hsize =>
    exact ⟨_, _, (fastRegion_fast hhigh hw hmem hle hlt).1, by omega⟩

/-- Memory goes on in the slice it began in, except from ROM to fast RAM right behind it. -/
theorem Spot.follows (hhigh : HighWindow d.ram) {k : Nat} {c : Long} (hk : k < 4)
    (hc : c.toNat = a.toNat + k) (h : Spot d a) (h' : Spot d c)
    (hwhole : 0x01000000 ≤ a.toNat ∨ a.toNat + k < 0x01000000) :
    ∃ region off, fastRegion d a = some (region, off) ∧
      fastRegion d c = some (region, off + k) := by
  cases h with
  | chip hchip hover =>
    simp only [chipRamEnd, chipRamBase, chipRamSize] at hchip
    refine ⟨_, _, fastRegion_chip hchip hover, ?_⟩
    cases h' with
    | chip hchip' hover' => rw [fastRegion_chip hchip' hover', hc]
    | rom hfull hrom =>
      have hlt := inRange_iff.mp hrom
      simp only [romBase] at hlt
      omega
    | fast hw hmem hle hlt hsize =>
      have habove := hhigh _ _ hw
      omega
  | rom hfull hrom =>
    have hin := inRange_iff.mp hrom
    simp only [romBase, romEnd, romWindowSize] at hin
    refine ⟨_, _, fastRegion_rom hhigh hfull hrom, ?_⟩
    cases h' with
    | chip hchip hover =>
      simp only [chipRamEnd, chipRamBase, chipRamSize] at hchip
      omega
    | rom hfull' hrom' =>
      rw [fastRegion_rom hhigh hfull' hrom', hc, Option.some.injEq, Prod.mk.injEq]
      exact ⟨rfl, by simp only [romBase]; omega⟩
    | fast hw hmem hle hlt hsize =>
      have habove := hhigh _ _ hw
      omega
  | fast hw hmem hle hlt hsize =>
    have habove := hhigh _ _ hw
    refine ⟨_, _, (fastRegion_fast hhigh hw hmem hle hlt).1, ?_⟩
    cases h' with
    | chip hchip hover =>
      simp only [chipRamEnd, chipRamBase, chipRamSize] at hchip
      omega
    | rom hfull hrom =>
      have hin := inRange_iff.mp hrom
      simp only [romBase, romEnd, romWindowSize] at hin
      omega
    | fast hw' hmem' hle' hlt' hsize' =>
      cases hw.symm.trans hw'
      cases hmem.symm.trans hmem'
      rw [(fastRegion_fast hhigh hw hmem hle' hlt').1, hc, Option.some.injEq, Prod.mk.injEq]
      exact ⟨rfl, by omega⟩

theorem Spot.get (hhigh : HighWindow d.ram) (h : Spot d a) {region : ByteSlice} {off : Nat}
    (hregion : fastRegion d a = some (region, off)) : region.get? off = some (byteAt d a) := by
  obtain ⟨region', off', hregion', hlt⟩ := h.region hhigh
  cases hregion.symm.trans hregion'
  unfold byteAt
  rw [hregion, Option.bind_some, ByteSlice.get?, Buffer.get?_eq_some hlt, Option.getD_some]

end Regions

/-! ## Spans of memory -/

/-- The `k`th address of an access. -/
def nth (a : Long) (k : Nat) : Long := a + BitVec.ofNat 32 k

/-- The `n` bytes from `a` on are memory, and the address does not wrap on the way. -/
structure MemorySpan (d : BusDevices δ ρ π) (a : Long) (n : Nat) : Prop where
  spot : ∀ k, k < n → Spot d (nth a k)
  noWrap : a.toNat + n ≤ 0x100000000

def bytesAt (d : BusDevices δ ρ π) (a : Long) (n : Nat) : List Byte :=
  (List.range n).map fun k => byteAt d (nth a k)

section Spans

variable {d : BusDevices δ ρ π} {a : Long} {n : Nat}

theorem toNat_nth {k : Nat} (h : a.toNat + k < 0x100000000) : (nth a k).toNat = a.toNat + k := by
  unfold nth
  rw [BitVec.toNat_add, BitVec.toNat_ofNat]
  omega

theorem nth_add (a : Long) (j k : Nat) : nth (nth a j) k = nth a (j + k) := by
  unfold nth
  rw [BitVec.add_assoc, BitVec.ofNat_add]

theorem mapM_eq_map {α β : Type} {f : α → Option β} {g : α → β} : ∀ {xs : List α},
    (∀ x ∈ xs, f x = some (g x)) → xs.mapM f = some (xs.map g)
  | [], _ => rfl
  | x :: xs, h => by
    rw [List.mapM_cons, h x List.mem_cons_self,
      mapM_eq_map fun y hy => h y (List.mem_cons_of_mem x hy)]
    rfl

theorem mapM_eq_none {α β : Type} {f : α → Option β} {x : α} (hx : f x = none) :
    ∀ {xs : List α}, x ∈ xs → xs.mapM f = none
  | y :: ys, h => by
    rw [List.mapM_cons]
    rcases List.mem_cons.mp h with rfl | h
    · rw [hx]
      rfl
    · rw [mapM_eq_none hx h]
      cases f y <;> rfl

/-- An access that stays on one side of the end of the ROM is one load. -/
theorem fastLoad_span (hhigh : HighWindow d.ram) (h : MemorySpan d a n) (hn : 0 < n ∧ n ≤ 4)
    (hwhole : 0x01000000 ≤ a.toNat ∨ a.toNat + n ≤ 0x01000000) :
    fastLoad d a n = some (bytesAt d a n) := by
  have hnoWrap := h.noWrap
  have hfirst := h.spot 0 hn.1
  have hzero : nth a 0 = a := BitVec.add_zero a
  rw [hzero] at hfirst
  obtain ⟨region, off, hregion, -⟩ := hfirst.region hhigh
  unfold fastLoad
  rw [hregion]
  refine mapM_eq_map fun k hk => ?_
  rw [List.mem_range] at hk
  obtain ⟨region', off', hregion', hnext⟩ :=
    hfirst.follows hhigh (by omega) (toNat_nth (by omega)) (h.spot k hk) (by omega)
  cases hregion.symm.trans hregion'
  exact (h.spot k hk).get hhigh hnext

/-- An access from the ROM to the fast RAM behind it leaves the slice of the ROM. -/
theorem fastLoad_crossing (hhigh : HighWindow d.ram) (h : Spot d a)
    (hlo : a.toNat < 0x01000000) (hhi : 0x01000000 < a.toNat + n) (hn : n ≤ 4) :
    fastLoad d a n = none := by
  cases h with
  | chip hchip hover =>
    simp only [chipRamEnd, chipRamBase, chipRamSize] at hchip
    omega
  | fast hw hmem hle hlt hsize =>
    have habove := hhigh _ _ hw
    omega
  | rom hfull hrom =>
    unfold fastLoad
    rw [fastRegion_rom hhigh hfull hrom]
    refine mapM_eq_none (x := 0x01000000 - a.toNat) ?_ (List.mem_range.mpr (by omega))
    refine Buffer.get?_eq_none ?_
    have hin := inRange_iff.mp hrom
    simp only [romBase, romEnd, romWindowSize] at hin hfull ⊢
    omega

end Spans

/-! ## Reads of memory -/

section Reads

variable [BlockDevice δ] [PacketBackend ρ] [PciBackend π] {b : MachineBus δ ρ π} {a : Long}

omit [BlockDevice δ] [PacketBackend ρ] in
theorem apertureLoad_unaligned (width : AccessWidth) (h : a.toNat % width.bytes ≠ 0) :
    b.apertureLoad a width = none := by
  unfold apertureLoad pcibridgeApertureSized
  rw [if_pos h]

omit [BlockDevice δ] [PacketBackend ρ] [PciBackend π] in
theorem Spot.not_custom (hhigh : HighWindow b.devices.ram) (h : Spot b.devices a) :
    inRange customBase customEnd a = false := by
  rw [inRange_eq_false]
  simp only [customBase, customEnd]
  cases h with
  | chip hchip hover =>
    simp only [chipRamEnd, chipRamBase, chipRamSize] at hchip
    omega
  | rom hfull hrom =>
    have hin := inRange_iff.mp hrom
    simp only [romBase, romEnd, romWindowSize] at hin
    omega
  | fast hw hmem hle hlt hsize =>
    have habove := hhigh _ _ hw
    omega

theorem readByte_spot (hhigh : HighWindow b.devices.ram) (h : Spot b.devices a) :
    b.readByte a = (byteAt b.devices a, b) := by
  obtain ⟨region, off, hregion, -⟩ := h.region hhigh
  exact readByte_of_region hregion (h.get hhigh hregion)

/-- **A word of memory is its two bytes**, also from the last byte of the ROM on. -/
theorem readWord_memory (hhigh : HighWindow b.devices.ram) (h : MemorySpan b.devices a 2) :
    b.readWord a = (be16 (byteAt b.devices a) (byteAt b.devices (nth a 1)), b) := by
  have hzero : nth a 0 = a := BitVec.add_zero a
  have hfirst : Spot b.devices a := hzero ▸ h.spot 0 (by omega)
  unfold readWord
  rw [hfirst.not_custom hhigh]
  simp only [Bool.and_false, Bool.false_eq_true, if_false]
  by_cases hwhole : 0x01000000 ≤ a.toNat ∨ a.toNat + 2 ≤ 0x01000000
  · rw [fastLoad_span hhigh h (by omega) hwhole]
    simp [bytesAt, List.range_succ, hzero]
  · rw [fastLoad_crossing hhigh hfirst (by omega) (by omega) (by omega),
      apertureLoad_unaligned .w16 (by simp only [AccessWidth.bytes]; omega)]
    simp only [readWordBytes]
    rw [readByte_spot hhigh hfirst]
    simp only
    rw [show a + 1 = nth a 1 from rfl, readByte_spot hhigh (h.spot 1 (by omega))]

omit [BlockDevice δ] [PacketBackend ρ] [PciBackend π] in
theorem MemorySpan.tail {d : BusDevices δ ρ π} (h : MemorySpan d a 4) :
    MemorySpan d (nth a 2) 2 := by
  have hlt := h.noWrap
  refine ⟨fun k hk => ?_, by rw [toNat_nth (by omega)]; omega⟩
  rw [nth_add]
  exact h.spot (2 + k) (by omega)

/-- **A longword of memory is its four bytes.** -/
theorem readLong_memory (hhigh : HighWindow b.devices.ram) (h : MemorySpan b.devices a 4) :
    b.readLong a = (be32 (byteAt b.devices a) (byteAt b.devices (nth a 1))
      (byteAt b.devices (nth a 2)) (byteAt b.devices (nth a 3)), b) := by
  have hzero : nth a 0 = a := BitVec.add_zero a
  have hlt := h.noWrap
  have hfirst : Spot b.devices a := hzero ▸ h.spot 0 (by omega)
  unfold readLong
  by_cases hwhole : 0x01000000 ≤ a.toNat ∨ a.toNat + 4 ≤ 0x01000000
  · rw [fastLoad_span hhigh h (by omega) hwhole]
    simp [bytesAt, List.range_succ, hzero]
  · have hhead : MemorySpan b.devices a 2 := ⟨fun k hk => h.spot k (by omega), by omega⟩
    rw [fastLoad_crossing hhigh hfirst (by omega) (by omega) (by omega),
      apertureLoad_unaligned .w32 (by simp only [AccessWidth.bytes]; omega)]
    simp only
    rw [readWord_memory hhigh hhead]
    simp only
    rw [show a + 2 = nth a 2 from rfl, readWord_memory hhigh h.tail, nth_add, be16_append]

end Reads

/-! ## Stores to RAM -/

/-- The `n` bytes from `a` on are in one RAM region. -/
def StoreSpan (d : BusDevices δ ρ π) (a : Long) (n : Nat) (region : RamRegion) (off : Nat) :
    Prop := fastRegionMut d.ram a = some (region, off) ∧ off + n ≤ region.size

section Stores

variable [BlockDevice δ] [PacketBackend ρ] [PciBackend π] {b : MachineBus δ ρ π} {a : Long}
  {region : RamRegion} {off : Nat}

omit [BlockDevice δ] [PacketBackend ρ] [PciBackend π] in
theorem fastStore_span (bs : List Byte) (h : StoreSpan b.devices a bs.length region off) :
    fastStore b.devices a bs =
      some { b.devices with ram := storeRegion b.devices.ram region off bs } := by
  unfold fastStore
  rw [h.1]
  exact if_pos h.2

theorem writeByte_span {value : Byte} (h : StoreSpan b.devices a 1 region off) :
    b.writeByte a value =
      b.mapDevices fun d => { d with ram := storeRegion d.ram region off [value] } := by
  unfold writeByte
  rw [fastStore_span [value] h]
  rfl

theorem writeWord_span {value : Word} (hcustom : inRange customBase customEnd a = false)
    (h : StoreSpan b.devices a 2 region off) :
    b.writeWord a value =
      b.mapDevices fun d => { d with ram := storeRegion d.ram region off (toBytes16 value) } := by
  unfold writeWord
  rw [hcustom, fastStore_span (toBytes16 value) h]
  rfl

theorem writeLong_span {value : Long} (h : StoreSpan b.devices a 4 region off) :
    b.writeLong a value =
      b.mapDevices fun d => { d with ram := storeRegion d.ram region off (toBytes32 value) } := by
  unfold writeLong
  rw [fastStore_span (toBytes32 value) h]
  rfl

end Stores

/-! ## Open bus -/

/-- Neither RAM nor a board answers at `a`. -/
structure Absent (d : BusDevices δ ρ π) (a : Long) : Prop where
  fast : fastOffset d.ram a = none
  bridge : pcibridgeTarget d a = none
  board : d.autoconfig.boardAt a = none

/-- Nothing answers at `a`. -/
structure Silent (d : BusDevices δ ρ π) (a : Long) : Prop extends Absent d a where
  fixed : OutsideFixed a

/-- Nothing takes a write at `a`. -/
structure Deaf (d : BusDevices δ ρ π) (a : Long) : Prop extends Absent d a where
  chip : chipRamEnd ≤ a.toNat
  config : AutoConfig.respondsTo a = false
  cia : inRange ciaBase ciaEnd a = false
  custom : inRange customBase customEnd a = false

section OpenBus

variable {d : BusDevices δ ρ π}

theorem Silent.deaf {a : Long} (h : Silent d a) : Deaf d a :=
  ⟨h.toAbsent, h.fixed.chip, h.fixed.config, h.fixed.cia, h.fixed.custom⟩

/-- No board is placed over the ROM's window. -/
theorem Absent.deaf_rom {a : Long} (h : Absent d a) (hrom : inRange romBase romEnd a = true) :
    Deaf d a := by
  have hin := inRange_iff.mp hrom
  simp only [romBase, romEnd, romWindowSize] at hin
  refine ⟨h, ?_, ?_, ?_, ?_⟩
  · simp only [chipRamEnd, chipRamBase, chipRamSize]
    omega
  · rw [Bool.eq_false_iff, ne_eq, respondsTo_iff]
    omega
  all_goals
    rw [inRange_eq_false]
    simp only [ciaBase, ciaEnd, customBase, customEnd]
    omega

variable [BlockDevice δ] [PacketBackend ρ] [PciBackend π] {b : MachineBus δ ρ π} {a : Long}

omit [BlockDevice δ] [PacketBackend ρ] [PciBackend π] in
theorem Deaf.region (h : Deaf d a) : fastRegionMut d.ram a = none := by
  have hchip : inRange chipRamBase chipRamEnd a = false := inRange_eq_false.mpr (.inr h.chip)
  unfold fastRegionMut
  rw [hchip, h.fast]
  rfl

omit [BlockDevice δ] [PacketBackend ρ] [PciBackend π] in
theorem Silent.region (h : Silent d a) : fastRegion d a = none := by
  have hchip : inRange chipRamBase chipRamEnd a = false := inRange_eq_false.mpr (.inr h.fixed.chip)
  unfold fastRegion
  rw [hchip, h.fast, h.fixed.rom]
  simp

omit [BlockDevice δ] [PacketBackend ρ] in
theorem Absent.aperture (h : Absent b.devices a) (width : AccessWidth) (value : Long) :
    b.apertureLoad a width = none ∧ b.apertureStore a width value = none := by
  have hsized : pcibridgeApertureSized b.devices a width = none := by
    unfold pcibridgeApertureSized
    rw [h.bridge]
    split <;> rfl
  unfold apertureLoad apertureStore
  rw [hsized]
  exact ⟨rfl, rfl⟩

theorem readByte_silent (h : Silent b.devices a) : b.readByte a = (0xFF, b) := by
  have hchip := h.fixed.chip
  have hover : overlaid b.devices a = false := (not_chip (b := b) hchip).2
  unfold readByte
  rw [h.region, Option.bind_none]
  simp only
  unfold readByteSlow
  simp only [hover, h.fixed.config, h.fixed.cia, h.fixed.custom, h.fixed.extRom, h.fixed.rom,
    h.board, Bool.false_and, Bool.false_eq_true, if_false]
  rw [dif_neg (by omega)]
  rfl

theorem readWord_silent (h : Silent b.devices a) (h' : Silent b.devices (nth a 1)) :
    b.readWord a = (0xFFFF, b) := by
  have hones : be16 0xFF 0xFF = 0xFFFF := by decide
  unfold readWord fastLoad readWordBytes
  rw [h.fixed.custom, h.region, (h.aperture .w16 0).1, readByte_silent h]
  simp only [Bool.and_false, Bool.false_eq_true, if_false]
  rw [show a + 1 = nth a 1 from rfl, readByte_silent h']
  exact Prod.ext hones rfl

theorem readLong_silent (h : ∀ k, k < 4 → Silent b.devices (nth a k)) :
    b.readLong a = (0xFFFFFFFF, b) := by
  have hfirst : Silent b.devices a := BitVec.add_zero a ▸ h 0 (by omega)
  have hones : (0xFFFF : Word) ++ (0xFFFF : Word) = (0xFFFFFFFF : Long) := by decide
  unfold readLong fastLoad
  rw [hfirst.region, (hfirst.aperture .w32 0).1, readWord_silent hfirst (h 1 (by omega))]
  simp only
  rw [show a + 2 = nth a 2 from rfl,
    readWord_silent (h 2 (by omega)) (nth_add a 2 1 ▸ h 3 (by omega))]
  exact Prod.ext hones rfl

theorem writeByte_deaf (h : Deaf b.devices a) (value : Byte) : b.writeByte a value = b := by
  have hchip := h.chip
  unfold writeByte fastStore
  rw [h.region]
  simp only
  rw [if_neg (by omega)]
  unfold writeByteSlow
  simp only [h.config, h.cia, h.custom, h.board, Bool.false_eq_true, if_false]
  exact requestBoundary_self b

theorem writeWord_deaf (h : Deaf b.devices a) (h' : Deaf b.devices (nth a 1))
    (value : Word) : b.writeWord a value = b := by
  unfold writeWord fastStore writeWordBytes
  rw [h.custom, h.region, (h.aperture .w16 _).2, writeByte_deaf h]
  simp only [Bool.false_eq_true, if_false, Option.getD_none]
  exact writeByte_deaf h' _

theorem writeLong_deaf (h : ∀ k, k < 4 → Deaf b.devices (nth a k)) (value : Long) :
    b.writeLong a value = b := by
  have hfirst : Deaf b.devices a := BitVec.add_zero a ▸ h 0 (by omega)
  unfold writeLong fastStore
  rw [hfirst.region, (hfirst.aperture .w32 value).2,
    writeWord_deaf hfirst (h 1 (by omega))]
  simp only [Option.getD_none]
  exact writeWord_deaf (h 2 (by omega)) (nth_add a 2 1 ▸ h 3 (by omega)) _

end OpenBus

end MachineBus

end M68kMachine
