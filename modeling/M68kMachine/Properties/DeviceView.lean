import M68kMachine.Machine.Runs

/-!
# RAM as a device sees it

A device asks for a span of RAM; the CPU reads one byte after the other. `chipRamSpan` and
`fastRamSpan` compare the ends of the span, the CPU only the address of a byte.

* `InChip`, `InFast` — a span of bytes the CPU finds in one region
* `SameView` — a device gets exactly these, and they read as the CPU reads them
* `device_view_iff` — when it does
-/

namespace M68kMachine

namespace GuestRam

/-- Every byte is chip RAM. -/
def InChip (addr len : Long) : Prop := ∀ i < len.toNat, addr.toNat + i < chipRamEnd

/-- Every byte is in the window, in the buffer, and not chip RAM. -/
def InFast (r : GuestRam) (addr len : Long) : Prop :=
  ∃ base windowLen mem, r.fastWindow = some (base, windowLen) ∧ r.fastRam = some mem ∧
    ∀ i < len.toNat, addr.toNat + i < 0x100000000 ∧ chipRamEnd ≤ addr.toNat + i ∧
      base.toNat ≤ addr.toNat + i ∧ addr.toNat + i - base.toNat < windowLen.toNat ∧
      addr.toNat + i - base.toNat < mem.size

/-- A span inside the window and the buffer does not go on past the end of chip RAM, and the window
of one beyond it ends below the top of the address space. -/
def Plain (r : GuestRam) (addr len : Long) : Prop :=
  ∀ base windowLen mem, r.fastWindow = some (base, windowLen) → r.fastRam = some mem →
    base.toNat ≤ addr.toNat → addr.toNat + len.toNat ≤ base.toNat + windowLen.toNat →
    addr.toNat - base.toNat + len.toNat ≤ mem.size →
    addr.toNat + len.toNat ≤ 0x100000000 →
    (addr.toNat < chipRamEnd → addr.toNat + len.toNat ≤ chipRamEnd ∨
      0x100000000 ≤ base.toNat + windowLen.toNat) ∧
    (chipRamEnd ≤ addr.toNat → base.toNat + windowLen.toNat < 0x100000000)

variable {r : GuestRam} {addr len : Long}

theorem inChip_iff (hlen : 0 < len.toNat) :
    InChip addr len ↔ addr.toNat + len.toNat ≤ chipRamEnd := by
  constructor
  · intro h
    have hlast := h (len.toNat - 1) (by omega)
    omega
  · intro h i hi
    omega

theorem inFast_iff (hlen : 0 < len.toNat) : r.InFast addr len ↔
    ∃ base windowLen mem, r.fastWindow = some (base, windowLen) ∧ r.fastRam = some mem ∧
      chipRamEnd ≤ addr.toNat ∧ base.toNat ≤ addr.toNat ∧
      addr.toNat + len.toNat ≤ base.toNat + windowLen.toNat ∧
      addr.toNat - base.toNat + len.toNat ≤ mem.size ∧
      addr.toNat + len.toNat ≤ 0x100000000 := by
  refine exists_congr fun base => exists_congr fun windowLen => exists_congr fun mem =>
    and_congr_right fun _ => and_congr_right fun _ => ?_
  constructor
  · intro h
    obtain ⟨-, hchip, hbase, -, -⟩ := h 0 hlen
    obtain ⟨htop, -, -, hwindow, hsize⟩ := h (len.toNat - 1) (by omega)
    omega
  · rintro ⟨hchip, hbase, hwindow, hsize, htop⟩ i hi
    omega

theorem isSome_chipRamSpan : (chipRamSpan addr len).isSome ↔
    addr.toNat + len.toNat ≤ chipRamEnd := by
  have hend : chipRamEnd = 0x200000 := rfl
  have hsize : chipRamSize = 0x200000 := rfl
  unfold chipRamSpan
  cases h : checkedAdd addr len with
  | none =>
    have hover : ¬ addr.toNat + len.toNat < 2 ^ 32 := by
      rw [← checkedAdd_isSome, h]
      simp
    simp only [Option.isSome_none, Bool.false_eq_true, false_iff]
    omega
  | some last =>
    have hlast := (toNat_of_checkedAdd h).1
    simp only
    split <;> simp <;> omega

theorem isSome_fastRamSpan {size : Nat} : (fastRamSpan r.fastWindow size addr len).isSome ↔
    ∃ base windowLen, r.fastWindow = some (base, windowLen) ∧ base.toNat ≤ addr.toNat ∧
      addr.toNat + len.toNat ≤ base.toNat + windowLen.toNat ∧
      base.toNat + windowLen.toNat < 0x100000000 ∧
      addr.toNat - base.toNat + len.toNat ≤ size := by
  unfold fastRamSpan
  cases hw : r.fastWindow with
  | none => simp
  | some window =>
    obtain ⟨base, windowLen⟩ := window
    simp only
    constructor
    · intro h
      refine ⟨base, windowLen, rfl, ?_⟩
      split at h
      · rename_i last windowEnd hlast hend
        obtain ⟨hlast', -⟩ := toNat_of_checkedAdd hlast
        obtain ⟨hend', hlt⟩ := toNat_of_checkedAdd hend
        split at h
        · cases h
        · split at h
          · omega
          · cases h
      · cases h
    · rintro ⟨base', windowLen', heq, hbase, hwindow, htop, hsize⟩
      cases heq
      obtain ⟨windowEnd, hend⟩ := Option.isSome_iff_exists.mp (checkedAdd_isSome.mpr htop)
      obtain ⟨last, hlast⟩ := Option.isSome_iff_exists.mp
        (checkedAdd_isSome.mpr (Nat.lt_of_le_of_lt hwindow htop))
      have hlast' := (toNat_of_checkedAdd hlast).1
      have hend' := (toNat_of_checkedAdd hend).1
      rw [hend, hlast]
      simp only
      rw [if_neg (by omega), dif_pos hsize]
      rfl

/-- **Which spans a device is granted.** -/
theorem isSome_ramSlice_iff : (GuestMemory.ramSlice r addr len).isSome ↔
    addr.toNat + len.toNat ≤ chipRamEnd ∨
      ∃ base windowLen mem, r.fastWindow = some (base, windowLen) ∧ r.fastRam = some mem ∧
        base.toNat ≤ addr.toNat ∧ addr.toNat + len.toNat ≤ base.toNat + windowLen.toNat ∧
        base.toNat + windowLen.toNat < 0x100000000 ∧
        addr.toNat - base.toNat + len.toNat ≤ mem.size := by
  rw [isSome_ramSlice, Bool.or_eq_true, isSome_chipRamSpan]
  refine or_congr Iff.rfl ?_
  cases hmem : r.fastRam with
  | none => simp
  | some mem =>
    simp only [Option.map_some, Option.any_some, isSome_fastRamSpan]
    constructor
    · rintro ⟨base, windowLen, hw, h⟩
      exact ⟨base, windowLen, mem, hw, rfl, h⟩
    · rintro ⟨base, windowLen, mem', hw, heq, h⟩
      cases heq
      exact ⟨base, windowLen, hw, h⟩

/-- **A device is granted what the CPU finds in one region, on plain spans and on no other.** -/
theorem granted_iff_plain (hlen : 0 < len.toNat) :
    ((GuestMemory.ramSlice r addr len).isSome ↔ InChip addr len ∨ r.InFast addr len) ↔
      r.Plain addr len := by
  rw [isSome_ramSlice_iff, inChip_iff hlen, inFast_iff hlen]
  constructor
  · intro h base windowLen mem hw hmem hbase hwindow hsize htop
    refine ⟨fun hchip => ?_, fun hchip => ?_⟩
    · by_contra hover
      have hgranted := h.mp (.inr ⟨base, windowLen, mem, hw, hmem, hbase, hwindow, by omega, hsize⟩)
      rcases hgranted with hin | ⟨base', windowLen', mem', -, -, hin, -⟩ <;> omega
    · have hgranted := h.mpr (.inr ⟨base, windowLen, mem, hw, hmem, hchip, hbase, hwindow, hsize,
        htop⟩)
      rcases hgranted with hin | ⟨base', windowLen', mem', hw', -, -, -, hin, -⟩
      · omega
      · rw [hw] at hw'
        cases hw'
        exact hin
  · intro h
    constructor
    · rintro (hchip | ⟨base, windowLen, mem, hw, hmem, hbase, hwindow, htop, hsize⟩)
      · exact .inl hchip
      · have hplain := h base windowLen mem hw hmem hbase hwindow hsize (by omega)
        rcases Nat.lt_or_ge addr.toNat chipRamEnd with hchip | hchip
        · rcases hplain.1 hchip with hin | hover
          · exact .inl hin
          · omega
        · exact .inr ⟨base, windowLen, mem, hw, hmem, hchip, hbase, hwindow, hsize, by omega⟩
    · rintro (hchip | ⟨base, windowLen, mem, hw, hmem, hchip, hbase, hwindow, hsize, htop⟩)
      · exact .inl hchip
      · have hplain := h base windowLen mem hw hmem hbase hwindow hsize htop
        exact .inr ⟨base, windowLen, mem, hw, hmem, hbase, hwindow, hplain.2 hchip, hsize⟩

end GuestRam

namespace MachineBus

open GuestRam

variable {δ ρ π : Type} [BlockDevice δ] [PacketBackend ρ] [PciBackend π]
  {b : MachineBus δ ρ π} {addr len : Long} {a : Long}

theorem readByte_region {region : ByteSlice} {off : Nat} {value : Byte}
    (h : fastRegion b.devices a = some (region, off)) (hv : region.get? off = some value) :
    (b.readByte a).1 = value := by
  unfold readByte
  rw [h, Option.bind_some, hv]

theorem readByte_chip (hoverlay : b.devices.overlay = false) (h : a.toNat < chipRamEnd) :
    b.devices.ram.chipRam.get? a.toNat = some (b.readByte a).1 := by
  have hregion : fastRegion b.devices a =
      some (⟨chipRamSize, b.devices.ram.chipRam⟩, a.toNat) := by
    have hin : inRange chipRamBase chipRamEnd a = true := inRange_iff.mpr ⟨Nat.zero_le _, h⟩
    unfold fastRegion overlaid
    rw [hin, hoverlay]
    rfl
  have hlt : a.toNat < chipRamSize := h
  have hvalue := Buffer.get?_eq_some (b := b.devices.ram.chipRam) hlt
  rw [readByte_region hregion hvalue]
  exact hvalue

theorem readByte_fast {base windowLen : Long} {mem : ByteSlice}
    (hw : b.devices.ram.fastWindow = some (base, windowLen))
    (hmem : b.devices.ram.fastRam = some mem) (hchip : chipRamEnd ≤ a.toNat)
    (hbase : base.toNat ≤ a.toNat) (hwindow : a.toNat - base.toNat < windowLen.toNat)
    (hsize : a.toNat - base.toNat < mem.size) :
    mem.bytes.get? (a.toNat - base.toNat) = some (b.readByte a).1 := by
  have hregion : fastRegion b.devices a = some (mem, a.toNat - base.toNat) := by
    have hout : inRange chipRamBase chipRamEnd a = false := inRange_eq_false.mpr (.inr hchip)
    have hoff : fastOffset b.devices.ram a = some (a.toNat - base.toNat) := by
      unfold fastOffset
      rw [hw]
      exact if_pos ⟨hbase, hwindow⟩
    unfold fastRegion
    rw [hout, hoff, hmem]
    rfl
  have hvalue := Buffer.get?_eq_some (b := mem.bytes) hsize
  rw [readByte_region hregion hvalue]
  exact hvalue

/-- A device is granted the spans the CPU finds in one region, and both see one another's bytes
there. -/
structure SameView (b : MachineBus δ ρ π) (addr len : Long) : Prop where
  granted : (GuestMemory.ramSlice b.devices.ram addr len).isSome ↔
    InChip addr len ∨ b.devices.ram.InFast addr len
  read : ∀ bytes, GuestMemory.ramSlice b.devices.ram addr len = some bytes →
    bytes.length = len.toNat ∧
      ∀ i < len.toNat, bytes[i]? = some (b.readByte (addr + BitVec.ofNat 32 i)).1
  grantedMut : (GuestMemory.ramSliceMut b.devices.ram addr len).isSome ↔
    InChip addr len ∨ b.devices.ram.InFast addr len
  stored : ∀ before put, GuestMemory.ramSliceMut b.devices.ram addr len = some (before, put) →
    ∀ bytes : List Byte, bytes.length = len.toNat → ∀ i < len.toNat,
      bytes[i]? = some (({ b with devices := { b.devices with ram := put bytes } } :
        MachineBus δ ρ π).readByte (addr + BitVec.ofNat 32 i)).1

omit [BlockDevice δ] [PacketBackend ρ] [PciBackend π] in
theorem toNat_add_lt (addr : Long) {i : Nat} (h : addr.toNat + i < 0x100000000) :
    (addr + BitVec.ofNat 32 i).toNat = addr.toNat + i := by
  have haddr := addr.isLt
  rw [BitVec.toNat_add, BitVec.toNat_ofNat]
  omega

/-- **The bytes of a slice are the bytes the CPU reads.** -/
theorem read_ramSlice (hoverlay : b.devices.overlay = false)
    (hin : InChip addr len ∨ b.devices.ram.InFast addr len) {bytes : List Byte}
    (hbytes : GuestMemory.ramSlice b.devices.ram addr len = some bytes) {i : Nat}
    (hi : i < len.toNat) : bytes[i]? = some (b.readByte (addr + BitVec.ofNat 32 i)).1 := by
  have hend : chipRamEnd = 0x200000 := rfl
  simp only [GuestMemory.ramSlice] at hbytes
  rcases hin with hchip | ⟨base, windowLen, mem, hw, hmem, hfast⟩
  · obtain ⟨s, hs⟩ := Option.isSome_iff_exists.mp
      (isSome_chipRamSpan.mpr ((inChip_iff (by omega)).mp hchip))
    obtain ⟨hstart, hslen⟩ := chipRamSpan_eq_some hs
    have hlt := hchip i hi
    have haddr := toNat_add_lt addr (i := i) (by omega)
    rw [hs] at hbytes
    cases hbytes
    rw [Buffer.getElem?_slice _ _ (by omega), hstart, ← haddr]
    exact readByte_chip hoverlay (by omega)
  · have hnone : chipRamSpan addr len = none := by
      have hfirst := hfast 0 (by omega)
      refine Option.not_isSome_iff_eq_none.mp fun hsome => ?_
      have hle := isSome_chipRamSpan.mp hsome
      omega
    rw [hnone, hmem] at hbytes
    obtain ⟨s, hs, rfl⟩ := Option.map_eq_some_iff.mp hbytes
    obtain ⟨base', windowLen', hw', hle, hstart, hslen, -⟩ := fastRamSpan_eq_some hs
    rw [hw] at hw'
    cases hw'
    obtain ⟨htop, hbeyond, hbase, hwindow, hsize⟩ := hfast i hi
    have haddr := toNat_add_lt addr htop
    rw [← haddr] at hbeyond hbase hwindow hsize
    rw [Buffer.getElem?_slice _ _ (by omega), hstart,
      show addr.toNat - base.toNat + i = (addr + BitVec.ofNat 32 i).toNat - base.toNat by omega]
    exact readByte_fast hw hmem hbeyond hbase hwindow hsize

omit [BlockDevice δ] [PacketBackend ρ] [PciBackend π] in
theorem inFast_of_sameMap {r r' : GuestRam} (h : r.sameMap r') (hin : r.InFast addr len) :
    r'.InFast addr len := by
  obtain ⟨base, windowLen, mem, hw, hmem, hbytes⟩ := hin
  obtain ⟨hwindow, -, hsize⟩ := h
  rw [hmem, Option.map_some] at hsize
  obtain ⟨mem', hmem', hsame⟩ := Option.map_eq_some_iff.mp hsize
  refine ⟨base, windowLen, mem', hwindow.trans hw, hmem', ?_⟩
  rw [hsame]
  exact hbytes

theorem sameView_of_plain (hoverlay : b.devices.overlay = false) (hlen : 0 < len.toNat)
    (h : b.devices.ram.Plain addr len) : b.SameView addr len := by
  have hgranted := (granted_iff_plain hlen).mpr h
  have hmut : (GuestMemory.ramSliceMut b.devices.ram addr len).isSome =
      (GuestMemory.ramSlice b.devices.ram addr len).isSome := by
    rw [← LawfulGuestMemory.ramSliceMut_fst, Option.isSome_map]
  refine ⟨hgranted, ?_, hmut ▸ hgranted, ?_⟩
  · intro bytes hbytes
    have hin := hgranted.mp (by rw [hbytes]; rfl)
    exact ⟨LawfulGuestMemory.length_ramSlice hbytes, fun i hi =>
      read_ramSlice hoverlay hin hbytes hi⟩
  · intro before put hput bytes hbytes i hi
    have hin := hgranted.mp (by rw [← hmut, hput]; rfl)
    have hmap := sameMap_put hput bytes
    -- the slice that was stored is what the device would be granted next
    refine read_ramSlice (b := { b with devices := { b.devices with ram := put bytes } }) hoverlay
      (hin.imp_right (inFast_of_sameMap hmap)) ?_ hi
    exact LawfulGuestMemory.slice_put hput hbytes

/-- **A device sees the RAM the CPU sees, on plain spans and on no other.** -/
theorem device_view_iff {b : MachineBus δ ρ π} (hoverlay : b.devices.overlay = false)
    {addr len : Long} (hlen : 1 ≤ len.toNat) :
    b.SameView addr len ↔ b.devices.ram.Plain addr len :=
  ⟨fun h => (granted_iff_plain hlen).mp h.granted, sameView_of_plain hoverlay hlen⟩

/-- A machine with 16 MB of fast RAM at `hi`, `lo`, and the overlay switched off. -/
def fastMachine (hi lo : Byte) : MachineBus MemDisk Empty Empty :=
  Transition.run step (MachineBus.new (fun _ => 0) (ByteSlice.zero 0))
    [.attach (.fastRam (ByteSlice.zero 0x01000000)), .guest (.access (.writeByte 0xBFE001 0)),
      .guest (.access (.writeByte 0xE80044 hi)), .guest (.access (.writeByte 0xE80045 lo))]

/-- Fast RAM at `$10000000`: its last four bytes. -/
theorem device_view_iff_last :
    (fastMachine 0x10 0x00).SameView 0x10FFFFFC 4 := by
  have hw : (fastMachine 0x10 0x00).devices.ram.fastWindow = some (0x10000000, 0x01000000) := by
    decide
  refine (device_view_iff (by decide) (by decide)).mpr ?_
  intro base windowLen mem hwin _ _ _ _ _
  rw [hw] at hwin
  cases hwin
  exact ⟨fun h => absurd h (by decide), fun _ => by decide⟩

/-- Fast RAM over the end of chip RAM: of four granted bytes the CPU reads two from chip RAM. -/
theorem device_view_straddles :
    (fastMachine 0x00 0x10).Reachable ∧ (fastMachine 0x00 0x10).devices.overlay = false ∧
      (GuestMemory.ramSlice (fastMachine 0x00 0x10).devices.ram 0x1FFFFE 4).isSome = true ∧
      ¬(fastMachine 0x00 0x10).SameView 0x1FFFFE 4 := by
  have hsome : (GuestMemory.ramSlice (fastMachine 0x00 0x10).devices.ram 0x1FFFFE 4).isSome =
      true := by
    have hw : (fastMachine 0x00 0x10).devices.ram.fastWindow = some (0x00100000, 0x01000000) := by
      decide
    have hsize : (fastMachine 0x00 0x10).devices.ram.fastRam.map (·.size) = some 0x01000000 := by
      decide
    rw [isSome_ramSlice, hw, hsize]
    decide
  refine ⟨(Transition.Reachable.start ⟨_, _, rfl⟩).run _, by decide, hsome, fun h => ?_⟩
  rcases h.granted.mp hsome with hchip | ⟨_, _, _, -, -, hfast⟩
  · exact absurd (hchip 2 (by decide)) (by decide)
  · exact absurd (hfast 0 (by decide)).2.1 (by decide)

end MachineBus

end M68kMachine
