import M68kMachine.Properties.MirroredRam

/-!
# One access on both sides of a replay log

The machine of a player has no devices to speak of: it has the same ROM, the same boards in its
chain, and RAM that mirrors the recorded machine's. An access to memory does the same on both sides,
and of those to devices the player repeats what matters to its own decoding.

* `Mirrors` — the player's machine and the recorded one
* `readWidth_memory`, `writeWidth_span`, … — the accesses of either machine, any width
* `Beyond` — an access to devices only, which the player leaves out
* `Mirrors.config` — a write to the AUTOCONFIG window, which it repeats
-/

namespace M68kMachine

open Autoconfig AutoConfig BusDevices MachineBus

variable {δ ρ π : Type} (x : Byte) {d m : BusDevices δ ρ π} {a : Long}

/-! ## The two machines -/

/-- The player's machine `m` beside the recorded one. -/
structure Mirrors (m d : BusDevices δ ρ π) : Prop where
  rom : m.rom = d.rom
  chain : m.autoconfig = d.autoconfig
  map : d.ram.sameMap m.ram
  bridge : m.pcibridgeBoard = d.pcibridgeBoard
  window : m.pcibridgeWindow = d.pcibridgeWindow
  card : m.pcibridge.isSome = d.pcibridge.isSome
  ram : Logged m.ram d.ram

/-- A step of the recorded machine that the player need not repeat. -/
structure Alone (d d' : BusDevices δ ρ π) : Prop where
  fitted : Fitted d d'
  quiet : Quiet d d'

theorem Alone.refl (d : BusDevices δ ρ π) : Alone d d := ⟨.refl d, .refl d⟩

theorem Alone.trans {d d' d'' : BusDevices δ ρ π} (h : Alone d d') (h' : Alone d' d'') :
    Alone d d'' := ⟨h.fitted.trans h'.fitted, h.quiet.trans h'.quiet⟩

theorem Alone.inv {d d' : BusDevices δ ρ π} (h : Alone d d') (hinv : d.ChainInv) : d'.ChainInv :=
  (Written.of_quiet h.fitted h.quiet).inv hinv

theorem Classifiable.seamFree (h : Classifiable d) : d.ram.SeamFree := by
  intro mem base len _ hw _
  have habove := h.above hw
  left
  simp only [chipRamEnd, chipRamBase, chipRamSize]
  omega

theorem Mirrors.high (h : Mirrors m d) (hhigh : HighWindow d.ram) : HighWindow m.ram :=
  fun base len hw => hhigh base len (h.map.1.symm.trans hw)

/-- The recorded machine goes on by itself. -/
theorem Mirrors.alone {d' : BusDevices δ ρ π} (h : Mirrors m d) (hseam : d.ram.SeamFree)
    (ha : Alone d d') : Mirrors m d' where
  rom := h.rom.trans ha.fitted.rom.symm
  chain := h.chain.trans ha.quiet.chain.symm
  map := ha.quiet.map.symm.trans h.map
  bridge := h.bridge.trans ha.fitted.bridge.symm
  window := h.window.trans ha.fitted.window.symm
  card := h.card.trans ha.fitted.card.symm
  ram := ha.quiet.logged m.ram hseam h.ram

/-- The player's machine changes outside RAM. -/
theorem Mirrors.wired {m' : BusDevices δ ρ π} (h : Mirrors m d) (hw : Wired m m')
    (hchain : m'.autoconfig = m.autoconfig) (hram : m'.ram = m.ram) : Mirrors m' d where
  rom := hw.rom.trans h.rom
  chain := hchain.trans h.chain
  map := by
    rw [hram]
    exact h.map
  bridge := hw.bridge.trans h.bridge
  window := hw.window.trans h.window
  card := hw.card.trans h.card
  ram := by
    rw [hram]
    exact h.ram

/-- The same bytes were stored in both. -/
theorem Mirrors.stored {m d : BusDevices δ ρ π} (h : Mirrors m d) {m' r' : GuestRam} {a n : Long}
    {bs : List Byte} (hm : StoredAt m.ram m' a n bs) (hr : StoredAt d.ram r' a n bs)
    (hlog : r'.writeLog = d.ram.writeLog) :
    Mirrors { m with ram := m' } { d with ram := r' } :=
  ⟨h.rom, h.chain, (hr.map.symm.trans h.map).trans hm.map, h.bridge, h.window, h.card,
    h.ram.stored h.map hm hr hlog⟩

/-! ## Loads of memory -/

/-- The number that some bytes spell, most significant first. -/
def beValue (bytes : List Byte) : Long :=
  bytes.foldl (fun value b => (value <<< 8) ||| b.setWidth 32) 0

theorem beValue_byte : beValue [x] = x.setWidth 32 := by
  simp [beValue]

theorem getLsbD_be16 (y : Byte) (i : Nat) :
    (be16 x y).getLsbD i = if i < 8 then y.getLsbD i else x.getLsbD (i - 8) :=
  BitVec.getLsbD_append

theorem getLsbD_be32 (y z w : Byte) (i : Nat) :
    (be32 x y z w).getLsbD i =
      if i < 16 then (be16 z w).getLsbD i else (be16 x y).getLsbD (i - 16) := by
  rw [← be16_append]
  exact BitVec.getLsbD_append

theorem beValue_word (y : Byte) : beValue [x, y] = (be16 x y).setWidth 32 := by
  apply BitVec.eq_of_getLsbD_eq
  intro i hi
  by_cases h : i < 8
  · simp [beValue, getLsbD_be16, h, hi]
  · simp [beValue, getLsbD_be16, h, hi, BitVec.getLsbD_of_ge y i (by omega)]

theorem beValue_long (y z w : Byte) : beValue [x, y, z, w] = be32 x y z w := by
  apply BitVec.eq_of_getLsbD_eq
  intro i hi
  simp only [beValue, List.foldl_cons, List.foldl_nil, getLsbD_be32, getLsbD_be16,
    BitVec.getLsbD_or, BitVec.getLsbD_shiftLeft, BitVec.getLsbD_setWidth]
  -- by the byte the bit lies in
  by_cases h8 : i < 8
  · simp [h8, hi, show i < 16 by omega]
  rw [BitVec.getLsbD_of_ge w i (by omega)]
  by_cases h16 : i < 16
  · simp [h8, hi, h16, show i - 8 < 32 by omega, show i - 8 < 8 by omega]
  rw [BitVec.getLsbD_of_ge z (i - 8) (by omega)]
  by_cases h24 : i < 24
  · simp [h8, hi, h16, show i - 16 < 8 by omega, show i - 8 < 32 by omega,
      show ¬i - 8 < 8 by omega, Nat.sub_sub, show i - 16 < 32 by omega]
  rw [BitVec.getLsbD_of_ge y (i - 8 - 8) (by omega)]
  simp [h8, hi, h16, show ¬i - 16 < 8 by omega, show i - 8 < 32 by omega,
    show ¬i - 8 < 8 by omega, Nat.sub_sub, show i - 16 < 32 by omega,
    show i - 24 < 32 by omega]

section Loads

variable {d : BusDevices δ ρ π} {a n : Long} {e : Extent}

/-- A span of RAM that the overlay does not hide is read by `ram_slice` as by the machine. -/
theorem memory_of_extent (hhigh : HighWindow d.ram) (hover : overlaid d a = false)
    (hn : n.toNat ≤ 4) (h : d.ram.extent a n = some e) :
    MemorySpan d a n.toNat ∧ GuestMemory.ramSlice d.ram a n = some (bytesAt d a n.toNat) := by
  obtain ⟨bs, hbs, hlen, hget⟩ := ramSlice_extent h
  have hnoWrap := LawfulGuestMemory.noWrap hbs
  have hbyte : ∀ k < n.toNat, Spot d (nth a k) ∧
      d.ram.cell ⟨e.ram, e.start + k⟩ = some (byteAt d (nth a k)) := by
    intro k hk
    have hto := toNat_nth (a := a) (k := k) (by omega)
    by_cases hchip : a.toNat + n.toNat ≤ chipRamEnd
    · rw [GuestRam.extent_chip d.ram hchip] at h
      cases h
      have hchip' : (nth a k).toNat < chipRamEnd := by omega
      have hover' : overlaid d (nth a k) = false := by
        unfold overlaid at hover ⊢
        rw [Bool.and_eq_false_iff, decide_eq_false_iff_not] at hover ⊢
        exact hover.imp id (by omega)
      have hspot : Spot d (nth a k) := .chip hchip' hover'
      have hvalue := hspot.get hhigh (fastRegion_chip hchip' hover')
      rw [hto] at hvalue
      exact ⟨hspot, hvalue⟩
    · obtain ⟨mem, base, len, hmem, hw, hle, -, hhi, hsize, rfl⟩ :=
        (GuestRam.extent_fast_iff (by omega)).mp h
      have hspot : Spot d (nth a k) :=
        .fast hw hmem (by omega) (by omega) (by omega)
      have hvalue := hspot.get hhigh
        (fastRegion_fast hhigh hw hmem (by omega) (by omega)).1
      rw [hto, show a.toNat + k - base.toNat = a.toNat - base.toNat + k by omega] at hvalue
      refine ⟨hspot, ?_⟩
      unfold GuestRam.cell
      simp only
      rw [hmem, Option.bind_some]
      exact hvalue
  have hlen' := GuestRam.len_of_extent h
  refine ⟨⟨fun k hk => (hbyte k hk).1, hnoWrap⟩, ?_⟩
  rw [hbs, Option.some.injEq]
  refine List.ext_getElem? fun i => ?_
  unfold bytesAt
  by_cases hi : i < n.toNat
  · rw [hget i (by omega), (hbyte i hi).2, List.getElem?_map, List.getElem?_range hi]
    rfl
  · rw [List.getElem?_eq_none (by omega), List.getElem?_eq_none (by simp; omega)]

end Loads

section Accesses

variable [BlockDevice δ] [PacketBackend ρ] [PciBackend π] {b : MachineBus δ ρ π} {a : Long}
  {width : AccessWidth}

theorem readWidth_memory (hhigh : HighWindow b.devices.ram)
    (h : MemorySpan b.devices a width.bytes) :
    readWidth b a width = (beValue (bytesAt b.devices a width.bytes), b) := by
  have hzero : nth a 0 = a := BitVec.add_zero a
  cases width with
  | w8 =>
    have hbyte := readByte_spot hhigh (hzero ▸ h.spot 0 Nat.one_pos)
    simp [readWidth, access, hbyte, bytesAt, AccessWidth.bytes, hzero, beValue_byte]
  | w16 =>
    have hword := readWord_memory hhigh h
    simp [readWidth, access, hword, bytesAt, AccessWidth.bytes, List.range_succ, hzero,
      beValue_word]
  | w32 =>
    have hlong := readLong_memory hhigh h
    simp [readWidth, access, hlong, bytesAt, AccessWidth.bytes, List.range_succ, hzero,
      beValue_long]

theorem readWidth_silent (h : ∀ k, k < width.bytes → Silent b.devices (nth a k)) :
    readWidth b a width = (openBusValue width, b) := by
  have hfirst : Silent b.devices a := BitVec.add_zero a ▸ h 0 (by cases width <;> decide)
  cases width with
  | w8 => simp [readWidth, access, readByte_silent hfirst, openBusValue]
  | w16 => simp [readWidth, access, readWord_silent hfirst (h 1 (by decide)), openBusValue]
  | w32 => simp [readWidth, access, readLong_silent h, openBusValue]

theorem writeWidth_deaf (h : ∀ k, k < width.bytes → Deaf b.devices (nth a k)) (value : Long) :
    writeWidth b a value width = b := by
  have hfirst : Deaf b.devices a := BitVec.add_zero a ▸ h 0 (by cases width <;> decide)
  cases width with
  | w8 => exact writeByte_deaf hfirst _
  | w16 => exact writeWord_deaf hfirst (h 1 (by decide)) _
  | w32 => exact writeLong_deaf h value

theorem beBytes_eq (value : Long) : ∀ width : AccessWidth,
    Player.beBytes width.bytes value = match width with
      | .w8 => [value.setWidth 8]
      | .w16 => toBytes16 (value.setWidth 16)
      | .w32 => toBytes32 value
  | .w8 => rfl
  | .w16 => by
    simp only [Player.beBytes, AccessWidth.bytes, toBytes16, List.drop_succ_cons, List.drop_zero]
    congr 1
    · ext i hi
      simp [BitVec.getElem_setWidth, show 8 + i < 16 by omega]
    · congr 1
      ext i hi
      simp [BitVec.getElem_setWidth]
  | .w32 => by
    simp only [Player.beBytes, AccessWidth.bytes, toBytes32, Nat.sub_self, List.drop_zero]
    congr 1

theorem length_beBytes (value : Long) (width : AccessWidth) :
    (Player.beBytes width.bytes value).length = width.bytes := by
  cases width <;> rfl

theorem writeWidth_span {region : RamRegion} {off : Nat}
    (hcustom : inRange customBase customEnd a = false)
    (h : StoreSpan b.devices a width.bytes region off) (value : Long) :
    writeWidth b a value width = b.mapDevices fun d =>
      { d with ram := storeRegion d.ram region off (Player.beBytes width.bytes value) } := by
  rw [beBytes_eq]
  cases width with
  | w8 => exact writeByte_span h
  | w16 => exact writeWord_span hcustom h
  | w32 => exact writeLong_span h

end Accesses

/-! ## Writes to devices -/

/-- No RAM answers at `a`, nor the chain. -/
structure Beyond (d : BusDevices δ ρ π) (a : Long) : Prop where
  chip : chipRamEnd ≤ a.toNat
  config : AutoConfig.respondsTo a = false
  fast : fastOffset d.ram a = none

theorem region_of_outside {r : GuestRam} (hchip : chipRamEnd ≤ a.toNat)
    (hfast : fastOffset r a = none) : fastRegionMut r a = none := by
  have hout : inRange chipRamBase chipRamEnd a = false := inRange_eq_false.mpr (.inr hchip)
  unfold fastRegionMut
  rw [hout, hfast]
  rfl

theorem fastStore_of_outside (hchip : chipRamEnd ≤ a.toNat) (hfast : fastOffset d.ram a = none)
    (bs : List Byte) : fastStore d a bs = none := by
  unfold fastStore
  rw [region_of_outside hchip hfast]

theorem Beyond.alone {d' : BusDevices δ ρ π} (h : Beyond d a) (ha : Alone d d') : Beyond d' a := by
  refine ⟨h.chip, h.config, ?_⟩
  have hfast := h.fast
  unfold fastOffset at hfast ⊢
  rwa [ha.quiet.map.1]

section Beyond

variable [BlockDevice δ] [PacketBackend ρ] [PciBackend π] [LawfulPacketBackend ρ]
  [LawfulPciBackend π] {b : MachineBus δ ρ π} {a : Long}

theorem BusDevices.Driven.alone {d d' : BusDevices δ ρ π} (h : Driven d d') : Alone d d' :=
  ⟨h.fitted, h.quiet⟩

/-- A board that answers outside the window of fast RAM is another one. -/
theorem alone_writeBoard {d : BusDevices δ ρ π} {idx : Nat} (hinv : d.ChainInv)
    (hfast : fastOffset d.ram a = none) (hboard : d.autoconfig.boardAt a = some idx)
    (value : Byte) : Alone d (d.writeBoard idx a value) := by
  have hrole := boardRole_ne_fastRam hinv.fast hboard hfast
  unfold writeBoard
  split
  · exact .refl d
  · exact (driven_writeRole d hrole _ value).alone

theorem alone_writeCustomWord (b : MachineBus δ ρ π) (a : Long) (value : Word) :
    Alone b.devices (b.writeCustomWord a value).devices :=
  (driven_writeCustomWord b a value).alone

theorem alone_writeByte (hinv : b.devices.ChainInv) (h : Beyond b.devices a) (value : Byte) :
    Alone b.devices (b.writeByte a value).devices := by
  have hchip := h.chip
  unfold writeByte
  rw [fastStore_of_outside h.chip h.fast]
  simp only
  rw [if_neg (by omega), devices_requestBoundary]
  unfold writeByteSlow
  rw [h.config]
  simp only [Bool.false_eq_true, if_false]
  split_ifs
  · exact (driven_writeCia b a value).alone
  · exact (driven_writeCustomByte b a value).alone
  · split
    · rename_i hboard
      exact alone_writeBoard hinv h.fast hboard value
    · exact .refl _

theorem alone_apertureStore {fallback : MachineBus δ ρ π} (width : AccessWidth) (value : Long)
    (h : Alone b.devices fallback.devices) :
    Alone b.devices ((b.apertureStore a width value).getD fallback).devices := by
  cases hs : b.apertureStore a width value with
  | none => exact h
  | some b' => exact (driven_apertureStore b a hs).alone

theorem alone_writeWord (hinv : b.devices.ChainInv) (h : Beyond b.devices a)
    (h' : Beyond b.devices (nth a 1)) (value : Word) :
    Alone b.devices (b.writeWord a value).devices := by
  unfold writeWord
  split_ifs
  · exact alone_writeCustomWord b a value
  · rw [fastStore_of_outside h.chip h.fast]
    have hfirst := alone_writeByte hinv h ((value >>> 8).setWidth 8)
    exact alone_apertureStore _ _
      (hfirst.trans (alone_writeByte (hfirst.inv hinv) (h'.alone hfirst) _))

/-- **A write beyond RAM and the chain** stores nothing but what the log has. -/
theorem alone_writeWidth (hinv : b.devices.ChainInv) {width : AccessWidth}
    (h : ∀ k, k < width.bytes → Beyond b.devices (nth a k)) (value : Long) :
    Alone b.devices (writeWidth b a value width).devices := by
  have hfirst : Beyond b.devices a := BitVec.add_zero a ▸ h 0 (by cases width <;> decide)
  cases width with
  | w8 => exact alone_writeByte hinv hfirst _
  | w16 => exact alone_writeWord hinv hfirst (h 1 Nat.one_lt_two) _
  | w32 =>
    have hhigh := alone_writeWord hinv hfirst (h 1 (by decide)) ((value >>> 16).setWidth 16)
    unfold writeWidth writeLong
    rw [fastStore_of_outside hfirst.chip hfirst.fast]
    refine alone_apertureStore _ _ (hhigh.trans (alone_writeWord (hhigh.inv hinv) ?_ ?_ _))
    · exact (h 2 (by decide)).alone hhigh
    · rw [show a + 2 = nth a 2 from rfl, nth_add]
      exact (h 3 (by decide)).alone hhigh

end Beyond

/-! ## Writes to the chain -/

/-- The machine after a byte was written to the AUTOCONFIG window. -/
def BusDevices.configured (d : BusDevices δ ρ π) (a : Long) (value : Byte) : BusDevices δ ρ π :=
  { d with autoconfig := d.autoconfig.write a value }.refreshWindows

theorem Mirrors.configured {m d : BusDevices δ ρ π} (h : Mirrors m d) (hinv : d.MapInv)
    (a : Long) (value : Byte) : Mirrors (m.configured a value) (d.configured a value) := by
  obtain ⟨hwindow, hboard, hsize⟩ := h.map
  have hplace (board : Option Nat) : windowOf (m.autoconfig.write a value) board =
      windowOf (d.autoconfig.write a value) board := by rw [h.chain]
  refine ⟨h.rom, ?_, ⟨?_, hboard, hsize⟩, h.bridge, ?_, h.card, ?_⟩
  · simp only [BusDevices.configured, refreshWindows, h.chain]
  · simp only [BusDevices.configured, refreshWindows, hboard, hplace]
  · simp only [BusDevices.configured, refreshWindows, h.bridge, hplace]
  · exact h.ram.placed _ _ fun v hv => ((kept_autoconfig d a value).window hinv v hv).1.trans hv

section Chain

variable [BlockDevice δ] [PacketBackend ρ] [PciBackend π] {p b : MachineBus δ ρ π} {a : Long}

theorem outside_of_respondsTo {r : GuestRam} (hhigh : HighWindow r)
    (hin : AutoConfig.respondsTo a = true) : chipRamEnd ≤ a.toNat ∧ fastOffset r a = none := by
  obtain ⟨hlo, hhi⟩ := respondsTo_iff.mp hin
  refine ⟨?_, ?_⟩
  · simp only [chipRamEnd, chipRamBase, chipRamSize]
    omega
  · unfold fastOffset
    split
    · rfl
    · rename_i base len hw
      have hle := hhigh base len hw
      exact if_neg (by omega)

theorem writeByte_config (hhigh : HighWindow b.devices.ram)
    (hin : AutoConfig.respondsTo a = true) (value : Byte) :
    (b.writeByte a value).devices = b.devices.configured a value := by
  obtain ⟨hchip, hfast⟩ := outside_of_respondsTo hhigh hin
  unfold writeByte
  rw [fastStore_of_outside hchip hfast]
  simp only
  rw [if_neg (by omega), devices_requestBoundary]
  unfold writeByteSlow
  rw [if_pos hin]
  rfl

omit [BlockDevice δ] [PacketBackend ρ] in
theorem isSome_apertureStore (b : MachineBus δ ρ π) (a : Long) (width : AccessWidth)
    (value : Long) : (b.apertureStore a width value).isSome =
      ((pcibridgeApertureSized b.devices a width).isSome && b.devices.pcibridge.isSome) := by
  unfold apertureStore
  cases pcibridgeApertureSized b.devices a width <;> cases b.devices.pcibridge <;> rfl

omit [BlockDevice δ] [PacketBackend ρ] in
/-- The card does not store to RAM when it is asked for its interrupt. -/
theorem ram_apertureStore {width : AccessWidth} {value : Long}
    (h : p.apertureStore a width value = some b) : b.devices.ram = p.devices.ram := by
  unfold apertureStore at h
  split at h
  · dsimp only at h
    split at h <;> cases h
    · rw [devices_requestBoundary]
      rfl
    · rfl
  · cases h

/-- Both machines have an aperture there, or neither has. -/
theorem Mirrors.aperture [LawfulPacketBackend ρ] [LawfulPciBackend π] {p' b' : MachineBus δ ρ π}
    (h : Mirrors p.devices b.devices) (hseam : b.devices.ram.SeamFree) (width : AccessWidth)
    (value : Long)
    (hfallback : b.apertureStore a width value = none → Mirrors p'.devices b'.devices) :
    Mirrors ((p.apertureStore a width value).getD p').devices
      ((b.apertureStore a width value).getD b').devices := by
  have hboth : (p.apertureStore a width value).isSome =
      (b.apertureStore a width value).isSome := by
    have hsized : pcibridgeApertureSized p.devices a width =
        pcibridgeApertureSized b.devices a width := by
      unfold pcibridgeApertureSized pcibridgeTarget
      rw [h.window]
    rw [isSome_apertureStore, isSome_apertureStore, hsized, h.card]
  cases hb : b.apertureStore a width value with
  | none =>
    rw [hb, Option.isSome_none, Option.isSome_eq_false_iff, Option.isNone_iff_eq_none] at hboth
    rw [hboth]
    exact hfallback hb
  | some b' =>
    rw [hb, Option.isSome_some] at hboth
    obtain ⟨p', hp⟩ := Option.isSome_iff_exists.mp hboth
    rw [hp]
    have halone : Mirrors p.devices b'.devices :=
      h.alone hseam (driven_apertureStore b a hb).alone
    exact halone.wired (wired_apertureStore p a width value hp)
      (driven_apertureStore p a hp).quiet.chain (ram_apertureStore hp)

theorem Mirrors.configByte (h : Mirrors p.devices b.devices) (hc : Classifiable b.devices)
    (hin : AutoConfig.respondsTo a = true) (value : Byte) :
    Mirrors (p.writeByte a value).devices (b.writeByte a value).devices := by
  rw [writeByte_config hc.high hin, writeByte_config (h.high hc.high) hin]
  exact h.configured ⟨hc.inv.fast, hc.inv.unplaced⟩ a value

variable [LawfulPacketBackend ρ] [LawfulPciBackend π]

/-- A machine whose fast RAM is clear of the rest after an operation was so before. -/
theorem OnChain.before (hs : OnChain b.devices) (op : LiveOp)
    (hclear : FastClear (b.live op).2.devices.ram) : Classifiable b.devices :=
  hs.classifiable (hclear.before (live_keeps hs op).2.1 hs.mapInv)

theorem Mirrors.configWord (h : Mirrors p.devices b.devices) (hs : OnChain b.devices)
    (hin : AutoConfig.respondsTo a = true) (hin' : AutoConfig.respondsTo (nth a 1) = true)
    (value : Word) (hclear : FastClear (b.writeWord a value).devices.ram) :
    Mirrors (p.writeWord a value).devices (b.writeWord a value).devices := by
  have hc := hs.before (.access (.writeWord a value)) hclear
  obtain ⟨hchip, hfast⟩ := outside_of_respondsTo hc.high hin
  obtain ⟨-, hfast'⟩ := outside_of_respondsTo (h.high hc.high) hin
  have hcustom : inRange customBase customEnd a = false := by
    have hle := respondsTo_iff.mp hin
    rw [inRange_eq_false]
    simp only [customBase, customEnd]
    omega
  unfold writeWord at hclear ⊢
  rw [hcustom, fastStore_of_outside hchip hfast] at hclear ⊢
  rw [fastStore_of_outside hchip hfast']
  simp only [Bool.false_eq_true, if_false] at hclear ⊢
  refine h.aperture hc.seamFree _ _ fun hnone => ?_
  rw [hnone, Option.getD_none] at hclear
  have hfirst := h.configByte hc hin ((value >>> 8).setWidth 8)
  have hs' := (live_keeps hs (.access (.writeByte a ((value >>> 8).setWidth 8)))).1
  exact hfirst.configByte (hs'.before (.access (.writeByte (nth a 1) (value.setWidth 8))) hclear)
    hin' _

/-- **A write to the AUTOCONFIG window** configures the boards of both machines alike. -/
theorem Mirrors.config (h : Mirrors p.devices b.devices) (hs : OnChain b.devices)
    {width : AccessWidth} (hin : ∀ k, k < width.bytes → AutoConfig.respondsTo (nth a k) = true)
    (value : Long) (hclear : FastClear (writeWidth b a value width).devices.ram) :
    Mirrors (writeWidth p a value width).devices (writeWidth b a value width).devices := by
  have hfirst : AutoConfig.respondsTo a = true :=
    BitVec.add_zero a ▸ hin 0 (by cases width <;> decide)
  cases width with
  | w8 => exact h.configByte (hs.before (.access (.writeByte a _)) hclear) hfirst _
  | w16 => exact h.configWord hs hfirst (hin 1 Nat.one_lt_two) _ hclear
  | w32 =>
    have hc := hs.before (.access (.writeLong a value)) hclear
    obtain ⟨hchip, hfast⟩ := outside_of_respondsTo hc.high hfirst
    obtain ⟨-, hfast'⟩ := outside_of_respondsTo (h.high hc.high) hfirst
    unfold writeWidth writeLong at hclear ⊢
    rw [fastStore_of_outside hchip hfast] at hclear ⊢
    rw [fastStore_of_outside hchip hfast']
    simp only at hclear ⊢
    refine h.aperture hc.seamFree _ _ fun hnone => ?_
    rw [hnone, Option.getD_none] at hclear
    have hs' := (live_keeps hs (.access (.writeWord a ((value >>> 16).setWidth 16)))).1
    have hhigh := h.configWord hs hfirst (hin 1 (by decide)) ((value >>> 16).setWidth 16)
      (hs'.before (.access (.writeWord (nth a 2) (value.setWidth 16))) hclear).clear
    refine hhigh.configWord hs' (hin 2 (by decide)) ?_ _ hclear
    rw [nth_add]
    exact hin 3 (by decide)

end Chain

/-! ## Accesses by the type of their page -/

/-- A player can repeat a read of RAM that no device stored to since the last tick, of ROM or open
bus to its end, or of devices. -/
def ReadOk (table : PageTable) (d : BusDevices δ ρ π) (a : Long) (n : Nat) : Prop :=
  match table (pageOf a) with
  | .ram => (GuestMemory.ramSlice d.ram a (BitVec.ofNat 32 n)).isSome ∧
      ∃ log, d.ram.writeLog = some log ∧ log.overflowed = false ∧
        ∀ span ∈ log.spans, SpanDisjoint a (BitVec.ofNat 32 n) span.1 span.2
  | .rom | .openBus => ∀ k, k < n → table (pageOf (nth a k)) = table (pageOf a)
  | .io => True

/-- Devices are written to on one page, outside the window of fast RAM. -/
def WriteOk (table : PageTable) (d : BusDevices δ ρ π) (a : Long) (n : Nat) : Prop :=
  match table (pageOf a) with
  | .ram => (GuestMemory.ramSlice d.ram a (BitVec.ofNat 32 n)).isSome
  | .rom | .openBus => ∀ k, k < n → table (pageOf (nth a k)) = table (pageOf a)
  | .io => ∀ k, k < n → pageOf (nth a k) = pageOf a ∧ fastOffset d.ram (nth a k) = none

instance (table : PageTable) (d : BusDevices δ ρ π) (a : Long) (n : Nat) :
    Decidable (ReadOk table d a n) := by
  unfold ReadOk
  cases table (pageOf a) with
  | ram =>
    -- The spans of the log are gone through, not all spans there are.
    letI (log : DeviceWriteLog) : Decidable
        (∀ span ∈ log.spans, SpanDisjoint a (BitVec.ofNat 32 n) span.1 span.2) :=
      List.decidableBAll _ _
    exact inferInstanceAs (Decidable ((GuestMemory.ramSlice d.ram a (BitVec.ofNat 32 n)).isSome ∧
      ∃ log, log ∈ d.ram.writeLog ∧ (log.overflowed = false ∧
        ∀ span ∈ log.spans, SpanDisjoint a (BitVec.ofNat 32 n) span.1 span.2)))
  | rom => exact inferInstanceAs (Decidable (∀ k, k < n → _))
  | openBus => exact inferInstanceAs (Decidable (∀ k, k < n → _))
  | io => exact inferInstanceAs (Decidable True)

instance (table : PageTable) (d : BusDevices δ ρ π) (a : Long) (n : Nat) :
    Decidable (WriteOk table d a n) := by
  unfold WriteOk
  cases table (pageOf a) <;> infer_instance

section Typed

variable [BlockDevice δ] [PacketBackend ρ] [PciBackend π] {p b : MachineBus δ ρ π} {a : Long}
  {width : AccessWidth} {table : PageTable} {romFull : Bool} {d : BusDevices δ ρ π}

theorem toNat_bytes (width : AccessWidth) :
    (BitVec.ofNat 32 width.bytes).toNat = width.bytes ∧ 0 < width.bytes ∧ width.bytes ≤ 4 := by
  cases width <;> decide

omit [BlockDevice δ] [PacketBackend ρ] [PciBackend π] in
/-- A page of RAM is not hidden, and it is no page of registers. -/
theorem ram_of_promise (hc : Classifiable d)
    (h : Promise d romFull d.fastRamWindow (List.range maxBoards) a .ram) :
    overlaid d a = false ∧ inRange customBase customEnd a = false := by
  rcases h with ⟨hchip, hover⟩ | ⟨base, len, hmapped, hle, -⟩
  · refine ⟨hover, ?_⟩
    rw [inRange_eq_false]
    simp only [chipRamEnd, chipRamBase, chipRamSize, customBase] at hchip ⊢
    omega
  · obtain ⟨_, _, -, hw, -⟩ := fastRamWindow_eq_some hmapped
    have habove := hc.above hw
    constructor
    · unfold overlaid
      rw [Bool.and_eq_false_iff, decide_eq_false_iff_not]
      right
      simp only [overlayEnd]
      omega
    · rw [inRange_eq_false]
      simp only [customBase, customEnd]
      omega

omit [BlockDevice δ] [PacketBackend ρ] [PciBackend π] in
theorem byteAt_rom (hhigh : HighWindow d.ram) (hfull : d.rom.size = romWindowSize)
    (hrom : inRange romBase romEnd a = true) :
    byteAt d a = (d.rom.get? (a.toNat - romBase)).getD 0 := by
  unfold byteAt
  rw [fastRegion_rom hhigh hfull hrom, Option.bind_some]

omit [BlockDevice δ] [PacketBackend ρ] [PciBackend π] in
theorem memorySpan_rom {n : Nat} (hn : 0 < n) (hfull : d.rom.size = romWindowSize)
    (hrom : ∀ k, k < n → inRange romBase romEnd (nth a k) = true) (hle : n ≤ 4) :
    MemorySpan d a n := by
  refine ⟨fun k hk => .rom hfull (hrom k hk), ?_⟩
  have hfirst := inRange_iff.mp (hrom 0 hn)
  rw [show nth a 0 = a from BitVec.add_zero a] at hfirst
  simp only [romBase, romEnd, romWindowSize] at hfirst
  omega

/-- **A read of memory**: the player reads what was read, and neither machine changes. -/
theorem Mirrors.replayRead (h : Mirrors p.devices b.devices) (hc : Classifiable b.devices)
    (htable : table =
      buildPageTable b.devices (b.devices.rom.size = romWindowSize) b.devices.fastRamWindow)
    {player : Player} (hclass : player.classify a = table (pageOf a))
    (hok : ReadOk table b.devices a width.bytes) (hio : table (pageOf a) ≠ .io) (pc : Long) :
    replayRead player p a width pc = ((readWidth b a width).1, player, p) ∧
      (readWidth b a width).2 = b := by
  obtain ⟨hbytes, hpos, hle⟩ := toNat_bytes width
  have hpromise (x : Long) : Promise b.devices (b.devices.rom.size = romWindowSize)
      b.devices.fastRamWindow (List.range maxBoards) x (table (pageOf x)) := by
    rw [htable]
    exact promise_buildPageTable hc.aligned
  have hfirst := hpromise a
  unfold ReadOk at hok
  unfold M68kMachine.replayRead
  rw [hclass]
  cases htype : table (pageOf a) with
  | io => exact absurd htype hio
  | ram =>
    rw [htype] at hok hfirst
    obtain ⟨hsome, log, hlog, hover, hsettled⟩ := hok
    obtain ⟨e, he⟩ := GuestRam.exists_extent hsome
    have hmemory := memory_of_extent hc.high (ram_of_promise hc hfirst).1 (by omega) he
    rw [hbytes] at hmemory
    obtain ⟨hspan, hslice⟩ := hmemory
    rw [readWidth_memory hc.high hspan]
    refine ⟨?_, rfl⟩
    have hmirrored := ramSlice_mirrored h.ram h.map hlog hover hsettled hsome
    simp only [Player.readRam, MachineBus.ram]
    rw [hmirrored, hslice]
    rfl
  | rom =>
    rw [htype] at hok
    have hrom (k : Nat) (hk : k < width.bytes) :
        b.devices.rom.size = romWindowSize ∧ inRange romBase romEnd (nth a k) = true := by
      have hbyte := hpromise (nth a k)
      rw [hok k hk] at hbyte
      exact ⟨of_decide_eq_true hbyte.1, hbyte.2.1⟩
    have hfull := (hrom 0 hpos).1
    have hfull' : p.devices.rom.size = romWindowSize := by rw [h.rom, hfull]
    have hspan := memorySpan_rom hpos hfull (fun k hk => (hrom k hk).2) hle
    have hspan' := memorySpan_rom hpos hfull' (fun k hk => (hrom k hk).2) hle
    have hsame : bytesAt p.devices a width.bytes = bytesAt b.devices a width.bytes := by
      refine List.map_congr_left fun k hk => ?_
      have hin := (hrom k (List.mem_range.mp hk)).2
      rw [byteAt_rom (h.high hc.high) hfull' hin, byteAt_rom hc.high hfull hin, h.rom]
    simp only
    rw [readWidth_memory hc.high hspan, readWidth_memory (h.high hc.high) hspan', hsame]
    exact ⟨rfl, rfl⟩
  | openBus =>
    rw [htype] at hok
    have hsilent (k : Nat) (hk : k < width.bytes) : Silent b.devices (nth a k) := by
      have hbyte := hpromise (nth a k)
      rw [hok k hk] at hbyte
      exact ⟨hbyte.2.absent hc.inv, hbyte.1⟩
    rw [readWidth_silent hsilent]
    exact ⟨rfl, rfl⟩

/-- A write of memory stores its bytes, or none when the page takes no write. -/
theorem writeWidth_typed (hc : Classifiable b.devices)
    (htable : table =
      buildPageTable b.devices (b.devices.rom.size = romWindowSize) b.devices.fastRamWindow)
    (hok : WriteOk table b.devices a width.bytes) (hio : table (pageOf a) ≠ .io) (value : Long) :
    (table (pageOf a) = .ram ∧ ∃ region off,
      StoreSpan b.devices a width.bytes region off ∧
      writeWidth b a value width = (b.mapDevices fun d =>
        { d with ram := storeRegion d.ram region off (Player.beBytes width.bytes value) }) ∧
      StoredAt b.devices.ram
        (storeRegion b.devices.ram region off (Player.beBytes width.bytes value)) a
        (BitVec.ofNat 32 width.bytes) (Player.beBytes width.bytes value)) ∨
      table (pageOf a) ≠ .ram ∧ writeWidth b a value width = b := by
  obtain ⟨hbytes, hpos, hle⟩ := toNat_bytes width
  have hpromise (x : Long) : Promise b.devices (b.devices.rom.size = romWindowSize)
      b.devices.fastRamWindow (List.range maxBoards) x (table (pageOf x)) := by
    rw [htable]
    exact promise_buildPageTable hc.aligned
  have hfirst := hpromise a
  unfold WriteOk at hok
  cases htype : table (pageOf a) with
  | io => exact absurd htype hio
  | ram =>
    rw [htype] at hok hfirst
    obtain ⟨e, he⟩ := GuestRam.exists_extent hok
    obtain ⟨region, off, hspan, hstored⟩ := storeSpan_of_extent hc.high (by omega) he
    rw [hbytes] at hspan
    refine .inl ⟨rfl, region, off, hspan,
      writeWidth_span (ram_of_promise hc hfirst).2 hspan value, hstored _ ?_⟩
    rw [length_beBytes, hbytes]
  | rom =>
    rw [htype] at hok
    refine .inr ⟨by simp, writeWidth_deaf (fun k hk => ?_) value⟩
    have hbyte := hpromise (nth a k)
    rw [hok k hk] at hbyte
    exact (hbyte.2.2.absent hc.inv).deaf_rom hbyte.2.1
  | openBus =>
    rw [htype] at hok
    refine .inr ⟨by simp, writeWidth_deaf (fun k hk => ?_) value⟩
    have hbyte := hpromise (nth a k)
    rw [hok k hk] at hbyte
    have hsilent : Silent b.devices (nth a k) := ⟨hbyte.2.absent hc.inv, hbyte.1⟩
    exact hsilent.deaf

/-- After it every address is decoded as before. -/
theorem steady_writeWidth (hc : Classifiable b.devices)
    (htable : table =
      buildPageTable b.devices (b.devices.rom.size = romWindowSize) b.devices.fastRamWindow)
    (hok : WriteOk table b.devices a width.bytes) (hio : table (pageOf a) ≠ .io) (value : Long) :
    Steady b.devices (writeWidth b a value width).devices := by
  rcases writeWidth_typed hc htable hok hio value with ⟨-, region, off, hspan, heq, -⟩ | ⟨-, heq⟩
  · rw [heq]
    exact steady_storeRegion hspan _
  · rw [heq]
    exact .refl _

/-- **A write of memory**: the player stores the same bytes. -/
theorem Mirrors.replayWrite (h : Mirrors p.devices b.devices) (hc : Classifiable b.devices)
    (htable : table =
      buildPageTable b.devices (b.devices.rom.size = romWindowSize) b.devices.fastRamWindow)
    {player : Player} (hclass : player.classify a = table (pageOf a))
    (hok : WriteOk table b.devices a width.bytes) (hio : table (pageOf a) ≠ .io)
    (value pc : Long) :
    ∃ p', replayWrite player p a width value pc = (player, p') ∧
      Mirrors p'.devices (writeWidth b a value width).devices := by
  have hbytes := (toNat_bytes width).1
  unfold M68kMachine.replayWrite
  rw [hclass]
  rcases writeWidth_typed hc htable hok hio value with
    ⟨htype, region, off, hspan, heq, hstored⟩ | ⟨htype, heq⟩
  · unfold WriteOk at hok
    rw [htype] at hok ⊢
    have hsome : (GuestMemory.ramSliceMut p.devices.ram a
        (BitVec.ofNat 32 width.bytes)).isSome := by
      rw [← Option.isSome_map, LawfulGuestMemory.ramSliceMut_fst, GuestRam.isSome_of_sameMap h.map]
      exact hok
    obtain ⟨⟨old, put⟩, hput⟩ := Option.isSome_iff_exists.mp hsome
    refine ⟨p.setRam (put (Player.beBytes width.bytes value)), ?_, ?_⟩
    · simp only [Player.writeRam, MachineBus.ram]
      rw [hput]
    · have hlog : (storeRegion b.devices.ram region off
          (Player.beBytes width.bytes value)).writeLog = b.devices.ram.writeLog := by
        cases region <;> rfl
      rw [heq]
      exact h.stored (storedAt_put hput (by rw [length_beBytes, hbytes])) hstored hlog
  · rw [heq]
    refine ⟨p, ?_, h⟩
    cases hclass' : table (pageOf a) with
    | ram => exact absurd hclass' htype
    | io => exact absurd hclass' hio
    | rom => rfl
    | openBus => rfl

variable [LawfulPacketBackend ρ] [LawfulPciBackend π]

theorem writeWidth_keeps (hs : OnChain b.devices) (a value : Long) (width : AccessWidth) :
    OnChain (writeWidth b a value width).devices ∧
      Kept b.devices (writeWidth b a value width).devices ∧
      Written b.devices (writeWidth b a value width).devices := by
  cases width with
  | w8 => exact live_keeps hs (.access (.writeByte a _))
  | w16 => exact live_keeps hs (.access (.writeWord a _))
  | w32 => exact live_keeps hs (.access (.writeLong a _))

theorem steady_readWidth (b : MachineBus δ ρ π) (a : Long) (width : AccessWidth) :
    Steady b.devices (readWidth b a width).2.devices ∧
      Alone b.devices (readWidth b a width).2.devices := by
  have hboth {d' : BusDevices δ ρ π} (hs : Stirred b.devices d') :
      Steady b.devices d' ∧ Alone b.devices d' := ⟨hs.steady, hs.driven.alone⟩
  cases width with
  | w8 => exact hboth (stirred_readByte b a)
  | w16 => exact hboth (stirred_readWord b a)
  | w32 => exact hboth (stirred_readLong b a)

/-- **A write to devices**: only chip RAM under the overlay and the chain matter to the player. -/
theorem Mirrors.replayIoWrite (h : Mirrors p.devices b.devices) (hs : OnChain b.devices)
    (value : Long) (hclear : FastClear (writeWidth b a value width).devices.ram)
    (hok : ∀ k, k < width.bytes →
      pageOf (nth a k) = pageOf a ∧ fastOffset b.devices.ram (nth a k) = none) :
    Mirrors (if replayWriteMustApply a then writeWidth p a value width else p).devices
      (writeWidth b a value width).devices := by
  obtain ⟨hbytes, hpos, hle⟩ := toNat_bytes width
  have hc := hs.classifiable
    (hclear.before (writeWidth_keeps hs a value width).2.1 hs.mapInv)
  -- The bounds of the ranges are bounds of pages, so the bytes are in the same range.
  have hpage (k : Nat) (hk : k < width.bytes) : (nth a k).toNat / 65536 = a.toNat / 65536 :=
    Fin.mk.inj (hok k hk).1
  by_cases hchip : a.toNat < chipRamEnd
  · have hin : inRange chipRamBase chipRamEnd a = true :=
      inRange_iff.mpr ⟨Nat.zero_le _, hchip⟩
    have hcustom : inRange customBase customEnd a = false := by
      rw [inRange_eq_false]
      simp only [chipRamEnd, chipRamBase, chipRamSize, customBase] at hchip ⊢
      omega
    have hlast := hpage (width.bytes - 1) (by omega)
    have hsmall : a.toNat < 0x100000000 - 4 := by
      simp only [chipRamEnd, chipRamBase, chipRamSize] at hchip
      omega
    rw [toNat_nth (by omega)] at hlast
    have hend : a.toNat + (BitVec.ofNat 32 width.bytes).toNat ≤ chipRamEnd := by
      rw [hbytes]
      simp only [chipRamEnd, chipRamBase, chipRamSize] at hchip ⊢
      omega
    have hlen : (Player.beBytes width.bytes value).length =
        (BitVec.ofNat 32 width.bytes).toNat := by rw [length_beBytes, hbytes]
    obtain ⟨region, off, hspan, hstored⟩ :=
      storeSpan_of_extent hc.high (by omega) (GuestRam.extent_chip b.devices.ram hend)
    obtain ⟨region', off', hspan', hstored'⟩ :=
      storeSpan_of_extent (h.high hc.high) (by omega) (GuestRam.extent_chip p.devices.ram hend)
    rw [hbytes] at hspan hspan'
    have happly : replayWriteMustApply a = true := by
      unfold replayWriteMustApply
      rw [hin]
      rfl
    rw [if_pos happly, writeWidth_span hcustom hspan, writeWidth_span hcustom hspan']
    have hlog : (storeRegion b.devices.ram region off
        (Player.beBytes width.bytes value)).writeLog = b.devices.ram.writeLog := by
      cases region <;> rfl
    exact h.stored (hstored' _ hlen) (hstored _ hlen) hlog
  · have hhigh (k : Nat) (hk : k < width.bytes) : chipRamEnd ≤ (nth a k).toNat := by
      have hk := hpage k hk
      simp only [chipRamEnd, chipRamBase, chipRamSize] at hchip ⊢
      omega
    have hnot : inRange chipRamBase chipRamEnd a = false :=
      inRange_eq_false.mpr (.inr (by omega))
    cases hconfig : AutoConfig.respondsTo a with
    | true =>
      have hall (k : Nat) (hk : k < width.bytes) : AutoConfig.respondsTo (nth a k) = true := by
        have hk := hpage k hk
        rw [respondsTo_iff] at hconfig ⊢
        omega
      have happly : replayWriteMustApply a = true := by
        unfold replayWriteMustApply
        rw [Bool.or_eq_true]
        exact .inr (inRange_iff.mpr (respondsTo_iff.mp hconfig))
      rw [if_pos happly]
      exact h.config hs hall value hclear
    | false =>
      have hall (k : Nat) (hk : k < width.bytes) : Beyond b.devices (nth a k) := by
        refine ⟨hhigh k hk, ?_, (hok k hk).2⟩
        have hk := hpage k hk
        rw [Bool.eq_false_iff, ne_eq, respondsTo_iff] at hconfig ⊢
        omega
      have happly : replayWriteMustApply a = false := by
        unfold replayWriteMustApply
        rw [hnot, Bool.false_or, Bool.eq_false_iff, ne_eq, inRange_iff]
        rw [Bool.eq_false_iff, ne_eq, respondsTo_iff] at hconfig
        exact hconfig
      rw [if_neg (by rw [happly]; simp)]
      exact h.alone hc.seamFree (alone_writeWidth hs.inv hall value)

end Typed

end M68kMachine
