import M68kMachine.Properties.AutoconfigWindows
import M68kMachine.Properties.AccessWidths

/-!
# What is behind fast RAM's window

Fast RAM's board declares a size out of a table of seven; the buffer keeps the length it came
with. The bus answers for the buffer and leaves the rest of the window open.

* `Moved` — an operation of a running machine moves the chain by writes to the window only
* `DeclaredInv` — the board on the chain declares the size the buffer's length rounds to
* `fast_ram_backing` — in a placed window, what is backed and what is not
-/

namespace M68kMachine

open Autoconfig AutoConfig Transition

variable {δ ρ π : Type}

namespace AutoConfig

/-- A placement has the size of the board's identity. -/
def PlacedSizes (a : AutoConfig) : Prop :=
  ∀ i p, a.placement i = some p → ∃ spec, a.SpecAt i spec ∧ p.sizeBytes = spec.sizeBytes

theorem PlacedSizes.write {a : AutoConfig} (h : a.PlacedSizes) (address : Long) (value : Byte) :
    (a.write address value).PlacedSizes := by
  intro i p hp
  rcases a.write_effect address value with ⟨q, hplace, hw⟩ | ⟨-, hw⟩
  · obtain ⟨spec, hcur, hsize, -⟩ := placing_eq_some hplace
    have hspec := BusDevices.currentSpec_specAt hcur
    rw [hw, BusDevices.placement_set (lt_of_specAt hspec)] at hp
    split at hp
    · rename_i hi
      subst hi
      cases hp
      exact ⟨spec, (specAt_write _ _ _ _ _).mpr hspec, hsize⟩
    · obtain ⟨spec', hs, hsize'⟩ := h i p hp
      exact ⟨spec', (specAt_write _ _ _ _ _).mpr hs, hsize'⟩
  · have hold : a.placement i = some p := by
      rcases hw with ⟨hw, -⟩ | ⟨hw, -⟩ | ⟨hw, -⟩ <;> rw [hw] at hp <;> exact hp
    obtain ⟨spec, hs, hsize⟩ := h i p hold
    exact ⟨spec, (specAt_write _ _ _ _ _).mpr hs, hsize⟩

theorem PlacedSizes.addBoard {a : AutoConfig} (h : a.PlacedSizes) (spec : BoardSpec) :
    (a.addBoard spec).2.PlacedSizes := by
  intro i p hp
  rw [placement_of_placed (a.addBoard_chain spec).1] at hp
  obtain ⟨s, hs, hsize⟩ := h i p hp
  exact ⟨s, (a.specAt_addBoard spec).1 i s hs, hsize⟩

/-- The chain after writes to the window. -/
def writes (a : AutoConfig) (bytes : List (Long × Byte)) : AutoConfig :=
  bytes.foldl (fun a byte => a.write byte.1 byte.2) a

theorem writes_append (a : AutoConfig) (bytes later : List (Long × Byte)) :
    a.writes (bytes ++ later) = (a.writes bytes).writes later := List.foldl_append

theorem PlacedSizes.writes {a : AutoConfig} (h : a.PlacedSizes) (bytes : List (Long × Byte)) :
    (a.writes bytes).PlacedSizes := by
  induction bytes generalizing a with
  | nil => exact h
  | cons byte bytes ih => exact ih (h.write byte.1 byte.2)

theorem specAt_writes (a : AutoConfig) (bytes : List (Long × Byte)) (i : Nat) (spec : BoardSpec) :
    (a.writes bytes).SpecAt i spec ↔ a.SpecAt i spec := by
  induction bytes generalizing a with
  | nil => exact Iff.rfl
  | cons byte bytes ih => exact (ih (a.write byte.1 byte.2)).trans (specAt_write ..)

end AutoConfig

namespace BusDevices

/-- The length of fast RAM's buffer. -/
def fastSize (d : BusDevices δ ρ π) : Option Nat := d.ram.fastRam.map (·.size)

/-- Fast RAM's board and buffer stay, and the chain moves by writes to the window. -/
structure Moved (d d' : BusDevices δ ρ π) : Prop where
  board : d'.ram.fastRamBoard = d.ram.fastRamBoard
  size : d'.fastSize = d.fastSize
  chain : ∃ bytes, d'.autoconfig = d.autoconfig.writes bytes

theorem Moved.refl (d : BusDevices δ ρ π) : Moved d d := ⟨rfl, rfl, [], rfl⟩

theorem Moved.trans {d d' d'' : BusDevices δ ρ π} (h : Moved d d') (h' : Moved d' d'') :
    Moved d d'' := by
  obtain ⟨bytes, hbytes⟩ := h.chain
  obtain ⟨later, hlater⟩ := h'.chain
  refine ⟨h'.board.trans h.board, h'.size.trans h.size, bytes ++ later, ?_⟩
  rw [hlater, hbytes, writes_append]

variable {d d' : BusDevices δ ρ π}

theorem Quiet.moved (h : Quiet d d') : Moved d d' :=
  ⟨h.map.2.1, h.map.2.2, [], h.chain⟩

/-- A store of the CPU. -/
theorem Moved.of_store (hmap : d.ram.sameMap d'.ram) (hchain : d'.autoconfig = d.autoconfig) :
    Moved d d' := ⟨hmap.2.1, hmap.2.2, [], hchain⟩

/-- The board on the chain declares what the buffer's length rounds to. -/
structure DeclaredInv (d : BusDevices δ ρ π) : Prop where
  board : ∀ i, d.ram.fastRamBoard = some i → ∃ size, d.fastSize = some size ∧
    d.autoconfig.SpecAt i (Fastram.autoconfigBoardSpec (size % 0x100000000))
  sizes : d.autoconfig.PlacedSizes

theorem DeclaredInv.moved (h : d.DeclaredInv) (hm : Moved d d') : d'.DeclaredInv := by
  obtain ⟨bytes, hbytes⟩ := hm.chain
  refine ⟨?_, hbytes ▸ h.sizes.writes bytes⟩
  intro i hi
  rw [hm.board] at hi
  obtain ⟨size, hsize, hspec⟩ := h.board i hi
  exact ⟨size, hm.size.trans hsize, hbytes ▸ (specAt_writes _ bytes i _).mpr hspec⟩

/-! ## Operations of a running machine -/

section Steps

variable [BlockDevice δ] [PacketBackend ρ] [PciBackend π] [LawfulPacketBackend ρ]
  [LawfulPciBackend π]

theorem Change.moved (h : Change d d') : Moved d d' := by
  cases h with
  | drive h => exact h.quiet.moved
  | config address value => exact ⟨rfl, rfl, [(address, value)], rfl⟩
  | chip off bs => exact .of_store ⟨rfl, rfl, rfl⟩ rfl
  | fast hmem off bs => exact .of_store ⟨rfl, rfl, by rw [hmem]; rfl⟩ rfl

theorem Changed.moved (h : Changed d d') : Moved d d' := by
  induction h with
  | refl => exact .refl d
  | tail _ hc ih => exact ih.trans hc.moved

end Steps

theorem moved_host [PciBackend π] (d : BusDevices δ ρ π) (op : HostOp) : Moved d (d.host op) :=
  .of_store (sameMap_host d op) (autoconfig_host d op)

/-! ## Building the machine -/

/-- A card joined that is not fast RAM. -/
theorem DeclaredInv.of_boards (h : d.DeclaredInv)
    (hram : d'.ram.fastRamBoard = d.ram.fastRamBoard ∧ d'.fastSize = d.fastSize)
    (hspec : ∀ i s, d.autoconfig.SpecAt i s → d'.autoconfig.SpecAt i s)
    (hsizes : d'.autoconfig.PlacedSizes) : d'.DeclaredInv := by
  refine ⟨?_, hsizes⟩
  intro i hi
  rw [hram.1] at hi
  obtain ⟨size, hsize, hs⟩ := h.board i hi
  exact ⟨size, hram.2.trans hsize, hspec i _ hs⟩

theorem addBoards_keeps : ∀ (specs : List BoardSpec) {a : AutoConfig}, a.PlacedSizes →
    (∀ i s, a.SpecAt i s → (addBoards a specs).2.SpecAt i s) ∧ (addBoards a specs).2.PlacedSizes
  | [], _, h => ⟨fun _ _ hs => hs, h⟩
  | spec :: specs, a, h => by
    obtain ⟨hkeep, hsizes⟩ := addBoards_keeps specs (h.addBoard spec)
    exact ⟨fun i s hs => hkeep i s ((a.specAt_addBoard spec).1 i s hs), hsizes⟩

theorem DeclaredInv.attach {d : BusDevices δ ρ π} (h : d.DeclaredInv) (card : Attach δ ρ π) :
    (d.attach card).DeclaredInv := by
  have hone : ∀ (spec : BoardSpec) (d' : BusDevices δ ρ π), d'.ram = d.ram →
      d'.autoconfig = (d.autoconfig.addBoard spec).2 → d'.DeclaredInv := by
    rintro spec d' hram hchain
    refine h.of_boards ⟨by rw [hram], by unfold fastSize; rw [hram]⟩ ?_ ?_
    · rw [hchain]
      exact (d.autoconfig.specAt_addBoard spec).1
    · rw [hchain]
      exact h.sizes.addBoard spec
  have hsame : ∀ d' : BusDevices δ ρ π, d'.ram.fastRamBoard = d.ram.fastRamBoard →
      d'.fastSize = d.fastSize → d'.autoconfig = d.autoconfig → d'.DeclaredInv := by
    rintro d' hboard hsize hchain
    exact h.of_boards ⟨hboard, hsize⟩ (fun _ _ hs => hchain ▸ hs) (hchain ▸ h.sizes)
  cases card with
  | mirage unit device =>
    simp only [BusDevices.attach, withMirage]
    split
    · exact hsame _ rfl rfl rfl
    · exact hone Mirage.boardSpec _ rfl rfl
  | hostblk unit device writeProtect diagRom =>
    simp only [BusDevices.attach, withHostblk]
    split
    · exact hsame _ rfl rfl rfl
    · exact hone Hostblk.boardSpec _ rfl rfl
  | graphics vram =>
    obtain ⟨hkeep, hsizes⟩ :=
      addBoards_keeps (Graffity.withVariant .zorroII vram).boardSpecs h.sizes
    exact h.of_boards ⟨rfl, rfl⟩ hkeep hsizes
  | graphicsZorroIII vram =>
    obtain ⟨hkeep, hsizes⟩ :=
      addBoards_keeps (Graffity.withVariant .zorroIII vram).boardSpecs h.sizes
    exact h.of_boards ⟨rfl, rfl⟩ hkeep hsizes
  | fastRam mem =>
    refine ⟨fun i hi => ⟨mem.size, rfl, ?_⟩, h.sizes.addBoard _⟩
    exact (d.autoconfig.specAt_addBoard _).2.2 i hi
  | input diagRom =>
    simp only [BusDevices.attach, withInput]
    split
    · exact h
    · exact hone NativeInput.boardSpec _ rfl rfl
  | pktport backend diagRom => exact hone Pktport.boardSpec _ rfl rfl
  | rtgboard vram catalog => exact hone RtgBoard.boardSpec _ rfl rfl
  | pcibridge backend =>
    exact h.of_boards ⟨rfl, rfl⟩ (d.autoconfig.specAt_addBoard PciBridge.boardSpec).1
      (h.sizes.addBoard PciBridge.boardSpec)
  | extRom extRom => exact hsame _ rfl rfl rfl
  | floppy presence => exact hsame _ rfl rfl rfl
  | deviceWriteLog capacity => exact hsame _ rfl rfl rfl

end BusDevices

namespace MachineBus

open BusDevices

variable [BlockDevice δ] [PacketBackend ρ] [PciBackend π]

section Reach

variable [LawfulPacketBackend ρ] [LawfulPciBackend π] {b : MachineBus δ ρ π}

theorem declaredInv_step (h : b.devices.DeclaredInv) (op : BusOp δ ρ π) :
    (b.step op).devices.DeclaredInv := by
  cases op with
  | guest op => exact h.moved (changed_stepGuest b op).moved
  | host op =>
    simp only [step, stepHost]
    split
    · exact h
    · exact h.moved (moved_host b.devices op)
  | attach card => exact h.attach card

theorem Reachable.declaredInv (h : b.Reachable) : b.devices.DeclaredInv := by
  refine Transition.Reachable.invariant (P := fun b => b.devices.DeclaredInv) ?_ ?_ h
  · rintro _ ⟨chipRam, rom, rfl⟩
    refine ⟨fun i hi => ?_, fun i p hp => ?_⟩
    · cases hi
    exact absurd (hp.symm.trans (AutoConfig.unplaced_new i (Nat.zero_le i))) (by simp)
  · exact fun _ op hinv => declaredInv_step hinv op

/-- A placed window has the size that was declared for the buffer behind it. -/
theorem Reachable.window_size (h : b.Reachable) {base len : Long}
    (hw : b.devices.ram.fastWindow = some (base, len)) :
    ∃ mem, b.devices.ram.fastRam = some mem ∧
      len = (Fastram.autoconfigBoardSpec (mem.size % 0x100000000)).sizeBytes := by
  rw [h.mapInv.window] at hw
  obtain ⟨i, p, hi, hp, -, rfl⟩ := windowOf_eq_some hw
  obtain ⟨size, hsize, hspec⟩ := h.declaredInv.board i hi
  obtain ⟨spec, hspec', hlen⟩ := h.declaredInv.sizes i p hp
  obtain ⟨mem, hmem, rfl⟩ := Option.map_eq_some_iff.mp hsize
  rw [hspec'.unique hspec] at hlen
  exact ⟨mem, hmem, hlen⟩

end Reach

/-! ## The bytes of the window -/

/-- `a` lies outside every window the bus decodes before the boards. -/
structure OutsideFixed (a : Long) : Prop where
  chip : chipRamEnd ≤ a.toNat
  config : respondsTo a = false
  cia : inRange ciaBase ciaEnd a = false
  custom : inRange customBase customEnd a = false
  extRom : inRange extRomBase (extRomBase + extRomWindowSize) a = false
  rom : inRange romBase romEnd a = false

/-- The board that answers at `a` is fast RAM's. -/
def FastBoardAt (d : BusDevices δ ρ π) (a : Long) : Prop :=
  (d.autoconfig.boardAt a).map d.boardRole = some .fastRam

section Bytes

variable {b : MachineBus δ ρ π} {base len a : Long} {mem : ByteSlice}

omit [BlockDevice δ] [PacketBackend ρ] [PciBackend π] in
theorem not_chip (h : chipRamEnd ≤ a.toNat) :
    inRange chipRamBase chipRamEnd a = false ∧ overlaid b.devices a = false := by
  have hend : chipRamEnd = 0x200000 := rfl
  constructor
  · rw [inRange_eq_false]
    exact .inr h
  · unfold overlaid
    rw [Bool.and_eq_false_iff, decide_eq_false_iff_not]
    simp only [overlayEnd]
    omega

omit [BlockDevice δ] [PacketBackend ρ] [PciBackend π] in
/-- An address in the window outside chip RAM is decoded to the buffer. -/
theorem regions_of_window (hw : b.devices.ram.fastWindow = some (base, len))
    (hmem : b.devices.ram.fastRam = some mem) (hchip : chipRamEnd ≤ a.toNat)
    (hle : base.toNat ≤ a.toNat) (hlt : a.toNat - base.toNat < len.toNat) :
    fastRegion b.devices a = some (mem, a.toNat - base.toNat) ∧
      fastRegionMut b.devices.ram a = some (.fast mem, a.toNat - base.toNat) := by
  have hoff : fastOffset b.devices.ram a = some (a.toNat - base.toNat) := by
    unfold fastOffset
    rw [hw]
    exact if_pos ⟨hle, hlt⟩
  unfold fastRegion fastRegionMut
  rw [(not_chip (b := b) hchip).1, hoff, hmem]
  exact ⟨rfl, rfl⟩

/-- **A byte of the buffer is there.** -/
theorem readByte_writeByte (hw : b.devices.ram.fastWindow = some (base, len))
    (hmem : b.devices.ram.fastRam = some mem) (hchip : chipRamEnd ≤ a.toNat)
    (hle : base.toNat ≤ a.toNat) (hlt : a.toNat - base.toNat < len.toNat)
    (hsize : a.toNat - base.toNat < mem.size) (value : Byte) :
    ((b.writeByte a value).readByte a).1 = value := by
  obtain ⟨-, hmut⟩ := regions_of_window hw hmem hchip hle hlt
  have hstore : fastStore b.devices a [value] =
      some { b.devices with
        ram := storeRegion b.devices.ram (.fast mem) (a.toNat - base.toNat) [value] } := by
    unfold fastStore
    rw [hmut]
    exact if_pos (by simp only [List.length_singleton, RamRegion.size]; omega)
  rw [writeByte_of_store hstore]
  have hregion : fastRegion { b.devices with
      ram := storeRegion b.devices.ram (.fast mem) (a.toNat - base.toNat) [value] } a =
        some ({ mem with bytes := mem.bytes.setFrom (a.toNat - base.toNat) [value] },
          a.toNat - base.toNat) :=
    (regions_of_window (b := { b with devices := { b.devices with
      ram := storeRegion b.devices.ram (.fast mem) (a.toNat - base.toNat) [value] } })
      hw rfl hchip hle hlt).1
  have hget : ByteSlice.get?
      { mem with bytes := mem.bytes.setFrom (a.toNat - base.toNat) [value] }
      (a.toNat - base.toNat) = some value := by
    show (mem.bytes.set (a.toNat - base.toNat) value).get? _ = _
    rw [Buffer.get?_set, if_pos ⟨rfl, hsize⟩]
  have hread := readByte_of_region (b := { b with devices := { b.devices with
    ram := storeRegion b.devices.ram (.fast mem) (a.toNat - base.toNat) [value] } }) hregion hget
  exact congrArg Prod.fst hread

omit [BlockDevice δ] [PacketBackend ρ] [PciBackend π] in
theorem role_of_fastBoardAt (h : FastBoardAt b.devices a) :
    ∃ idx, b.devices.autoconfig.boardAt a = some idx ∧ b.devices.boardRole idx = .fastRam := by
  exact Option.map_eq_some_iff.mp h

omit [BlockDevice δ] [PacketBackend ρ] [PciBackend π] in
/-- The board that answers is the one the window is cached for. -/
theorem placement_of_fastBoardAt (hinv : b.devices.MapInv)
    (hw : b.devices.ram.fastWindow = some (base, len)) {idx : Nat}
    (h : b.devices.boardRole idx = .fastRam) :
    ∃ p, b.devices.autoconfig.placement idx = some p ∧ p.base = base := by
  have hidx : b.devices.ram.fastRamBoard = some idx := by
    unfold boardRole at h
    split_ifs at h with h1 h2
    · exact h2.symm
    · split at h <;> cases h
  rw [hinv.window, hidx] at hw
  obtain ⟨i, p, hi, hp, hbase, -⟩ := windowOf_eq_some hw
  cases hi
  exact ⟨p, hp, hbase⟩

omit [BlockDevice δ] [PacketBackend ρ] [PciBackend π] in
theorem requestBoundary_self (b : MachineBus δ ρ π) :
    b.requestBoundary b.pendingIrqLevel = b := by
  unfold requestBoundary
  exact if_neg (not_not_intro rfl)

/-- **Past the buffer the window is open bus**: reads return `$FF`, writes are discarded. -/
theorem access_past_buffer (hinv : b.devices.MapInv)
    (hw : b.devices.ram.fastWindow = some (base, len))
    (hmem : b.devices.ram.fastRam = some mem) (hfixed : OutsideFixed a)
    (hboard : FastBoardAt b.devices a) (hle : base.toNat ≤ a.toNat)
    (hlt : a.toNat - base.toNat < len.toNat) (hsize : mem.size ≤ a.toNat - base.toNat)
    (value : Byte) : b.readByte a = (0xFF, b) ∧ b.writeByte a value = b := by
  obtain ⟨idx, hat, hrole⟩ := role_of_fastBoardAt hboard
  obtain ⟨p, hp, rfl⟩ := placement_of_fastBoardAt hinv hw hrole
  obtain ⟨hregion, hmut⟩ := regions_of_window hw hmem hfixed.chip hle hlt
  obtain ⟨-, hoverlay⟩ := not_chip (b := b) hfixed.chip
  constructor
  · have hread : b.devices.readBoard idx a = (openBusByte, b.devices) := by
      unfold readBoard
      rw [hp]
      dsimp only
      rw [hrole]
      unfold readRole
      dsimp only
      rw [hmem, Option.bind_some, ByteSlice.get?, Buffer.get?_eq_none hsize]
      rfl
    unfold readByte
    rw [hregion, Option.bind_some, ByteSlice.get?, Buffer.get?_eq_none hsize]
    dsimp only
    unfold readByteSlow
    dsimp only
    rw [hoverlay, dif_neg (by have := hfixed.chip; omega), hfixed.config, hfixed.cia, hfixed.custom,
      hfixed.extRom, hfixed.rom, hat]
    simp only [Bool.false_eq_true, if_false, Bool.false_and]
    unfold mapDevices
    dsimp only
    rw [hread]
    exact Prod.ext rfl (requestBoundary_self b)
  · have hstore : fastStore b.devices a [value] = none := by
      unfold fastStore
      rw [hmut]
      exact if_neg (by simp only [List.length_singleton, RamRegion.size]; omega)
    have hset : mem.set (a.toNat - p.base.toNat) value = mem := by
      unfold ByteSlice.set
      congr 1
      funext j
      exact if_neg (by have := j.isLt; omega)
    have hwrite : b.devices.writeBoard idx a value = b.devices := by
      unfold writeBoard
      rw [hp]
      dsimp only
      rw [hrole]
      unfold writeRole
      dsimp only
      rw [hmem]
      dsimp only
      rw [hset, ← hmem]
    unfold writeByte
    rw [hstore]
    dsimp only
    rw [if_neg (by have := hfixed.chip; omega)]
    unfold writeByteSlow
    rw [hfixed.config, hfixed.cia, hfixed.custom, hat]
    simp only [Bool.false_eq_true, if_false]
    unfold mapDevices
    dsimp only
    rw [hwrite]
    exact requestBoundary_self b

end Bytes

/-! ## The declared size -/

theorem toNat_declared (bytes : Nat) :
    (Fastram.autoconfigBoardSpec bytes).sizeBytes.toNat =
      if bytes ≤ 0x01000000 then 0x01000000 else if bytes ≤ 0x02000000 then 0x02000000
      else if bytes ≤ 0x04000000 then 0x04000000 else if bytes ≤ 0x08000000 then 0x08000000
      else if bytes ≤ 0x10000000 then 0x10000000 else if bytes ≤ 0x20000000 then 0x20000000
      else 0x40000000 := by
  have hcode : Fastram.extendedSizeCode bytes =
      if bytes ≤ 0x01000000 then 0 else if bytes ≤ 0x02000000 then 1
      else if bytes ≤ 0x04000000 then 2 else if bytes ≤ 0x08000000 then 3
      else if bytes ≤ 0x10000000 then 4 else if bytes ≤ 0x20000000 then 5 else 6 := by
    unfold Fastram.extendedSizeCode
    simp only [List.find?_cons, List.find?_nil]
    split_ifs <;> simp only [*, decide_true, decide_false] <;> try rfl
    -- the largest size has the code that is also the default
    cases decide (bytes ≤ 0x40000000) <;> rfl
  unfold Fastram.autoconfigBoardSpec
  dsimp only
  rw [hcode]
  split_ifs <;> rfl

/-- The declared window fits the buffer of a size of the table, or of a gigabyte or more. -/
theorem declared_le_iff (size : Nat) :
    (Fastram.autoconfigBoardSpec (size % 0x100000000)).sizeBytes.toNat ≤ size ↔
      size ∈ Fastram.extendedSizes.map Prod.fst ∨ Fastram.maxSizeBytes ≤ size := by
  rw [toNat_declared]
  simp only [Fastram.extendedSizes, Fastram.maxSizeBytes, List.map_cons, List.map_nil,
    List.mem_cons, List.not_mem_nil, or_false]
  rcases Nat.lt_or_ge size 0x100000000 with hlt | hge
  · rw [Nat.mod_eq_of_lt hlt]
    split_ifs <;> omega
  · split_ifs <;> omega

section Lawful

variable [LawfulPacketBackend ρ] [LawfulPciBackend π]

/-- **What is behind fast RAM's placed window.** Outside chip RAM the buffer reads back what was
written, and past it the window is open bus; so all of it is backed exactly when the buffer's length
is a size of the table, or a gigabyte or more. -/
theorem fast_ram_backing {b : MachineBus δ ρ π} (hb : b.Reachable) {base len : Long}
    (hw : b.devices.ram.fastWindow = some (base, len)) :
    ∃ mem, b.devices.ram.fastRam = some mem ∧
      (∀ a value, base.toNat ≤ a.toNat → a.toNat - base.toNat < len.toNat →
        chipRamEnd ≤ a.toNat → a.toNat - base.toNat < mem.size →
        ((b.writeByte a value).readByte a).1 = value) ∧
      (∀ a value, base.toNat ≤ a.toNat → a.toNat - base.toNat < len.toNat → OutsideFixed a →
        FastBoardAt b.devices a → mem.size ≤ a.toNat - base.toNat →
        b.readByte a = (0xFF, b) ∧ b.writeByte a value = b) ∧
      (len.toNat ≤ mem.size ↔
        mem.size ∈ Fastram.extendedSizes.map Prod.fst ∨ Fastram.maxSizeBytes ≤ mem.size) := by
  obtain ⟨mem, hmem, hlen⟩ := hb.window_size hw
  refine ⟨mem, hmem, ?_, ?_, ?_⟩
  · intro a value hle hlt hchip hsize
    exact readByte_writeByte hw hmem hchip hle hlt hsize value
  · intro a value hle hlt hfixed hboard hsize
    exact access_past_buffer hb.mapInv hw hmem hfixed hboard hle hlt hsize value
  · rw [hlen]
    exact declared_le_iff mem.size

end Lawful

theorem fastWindow_largeMachine :
    (largeMachine 0x01000000).devices.ram.fastWindow = some (0x10000000, 0x01000000) ∧
      (largeMachine 0x01800000).devices.ram.fastWindow = some (0x10000000, 0x02000000) :=
  ⟨by decide, by decide⟩

/-- The last byte of 16 MB. -/
theorem fast_ram_backing_last :
    (((largeMachine 0x01000000).writeByte 0x10FFFFFF 0x5A).readByte 0x10FFFFFF).1 = 0x5A := by
  obtain ⟨mem, hmem, hbacked, -⟩ :=
    fast_ram_backing (reachable_largeMachine 0x01000000) fastWindow_largeMachine.1
  have hsize : (largeMachine 0x01000000).devices.ram.fastRam.map (·.size) = some 0x01000000 := by
    decide
  rw [hmem, Option.map_some, Option.some.injEq] at hsize
  refine hbacked 0x10FFFFFF 0x5A (by decide) (by decide) (by decide) ?_
  rw [hsize]
  decide

/-- 24 MB declare a window of 32 MB: its byte at 24 MB does not read back. -/
theorem rounded_window_open :
    (largeMachine 0x01800000).devices.ram.fastWindow = some (0x10000000, 0x02000000) ∧
      OutsideFixed 0x11800000 ∧
      (((largeMachine 0x01800000).writeByte 0x11800000 0).readByte 0x11800000).1 ≠ 0 :=
  ⟨fastWindow_largeMachine.2, ⟨by decide, by decide, by decide, by decide, by decide, by decide⟩,
    by decide⟩

end MachineBus

end M68kMachine
