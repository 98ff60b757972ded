import M68kMachine.Machine.Moves
import M68kMachine.Properties.AutoconfigChain
import M68kMachine.Properties.DeviceWriteRuns

/-!
# Windows the guest places

`AutoConfig::write` places a board wherever the guest says. What the bus then relies on, and the
writes that break it.

* `Sound` — the assertions of `refresh_windows`, and placed windows in the address space
* `SafeWrite` — a Zorro III base leaves room, and the AUTOCONFIG window free
* `sound_iff_safe` — writes to the window leave every state sound exactly when all are safe
-/

namespace M68kMachine

open Autoconfig AutoConfig Transition

variable {δ ρ π : Type}

namespace AutoConfig

/-- Board `i` of the chain has the identity `spec`. -/
def SpecAt (a : AutoConfig) (i : Nat) (spec : BoardSpec) : Prop :=
  (a.specs[i]?).join = some spec

/-- The page number the two bytes of a Zorro III base write make. -/
def basePage (hi lo : Byte) : Nat := hi.toNat * 256 + lo.toNat

theorem toNat_z3Base (hi lo : Byte) : (z3Base hi lo).toNat = basePage hi lo * 0x10000 := by
  have hhi := hi.isLt
  have hlo := lo.isLt
  have hor : hi.toNat * 2 ^ 24 ||| lo.toNat * 2 ^ 16 = hi.toNat * 2 ^ 24 + lo.toNat * 2 ^ 16 := by
    rw [Nat.mul_comm hi.toNat]
    exact (Nat.two_pow_add_eq_or_of_lt (by omega) _).symm
  unfold z3Base basePage
  rw [BitVec.toNat_or, BitVec.toNat_shiftLeft, BitVec.toNat_shiftLeft, BitVec.toNat_setWidth,
    BitVec.toNat_setWidth, Nat.shiftLeft_eq, Nat.shiftLeft_eq,
    Nat.mod_eq_of_lt (by omega : hi.toNat < 2 ^ 32),
    Nat.mod_eq_of_lt (by omega : lo.toNat < 2 ^ 32),
    Nat.mod_eq_of_lt (by omega : hi.toNat * 2 ^ 24 < 2 ^ 32),
    Nat.mod_eq_of_lt (by omega : lo.toNat * 2 ^ 16 < 2 ^ 32), hor]
  omega

theorem toNat_z2Base (value : Byte) : (z2Base value).toNat = value.toNat * 0x10000 := by
  have hlt := value.isLt
  unfold z2Base
  rw [BitVec.toNat_shiftLeft, BitVec.toNat_setWidth, Nat.shiftLeft_eq]
  omega

/-- What adding a board does to the identities on the chain. -/
theorem specAt_addBoard (a : AutoConfig) (spec : BoardSpec) :
    (∀ i s, a.SpecAt i s → (a.addBoard spec).2.SpecAt i s) ∧
      (∀ i s, (a.addBoard spec).2.SpecAt i s → a.SpecAt i s ∨ s = spec) ∧
      ∀ i, (a.addBoard spec).1 = some i → (a.addBoard spec).2.SpecAt i spec := by
  unfold addBoard
  split
  · exact ⟨fun _ _ h => h, fun _ _ h => .inl h, fun _ h => by cases h⟩
  · rename_i idx hidx
    obtain ⟨hlt, hnone, -⟩ := List.findIdx?_eq_some_iff_getElem.mp hidx
    have hlt' : idx < 8 := by simpa using hlt
    unfold SpecAt
    simp only [Vector.getElem?_setIfInBounds]
    refine ⟨?_, ?_, ?_⟩
    · intro i s h
      -- The board goes to the first free place, so no identity is overwritten.
      have hne : idx ≠ i := by
        rintro rfl
        rw [Vector.getElem?_eq_getElem hlt'] at h
        have hsome : a.specs[idx] = some s := by simpa using h
        rw [Vector.getElem_toList, hsome] at hnone
        cases hnone
      rwa [if_neg hne]
    · intro i s h
      by_cases hi : idx = i
      · subst hi
        rw [if_pos rfl, if_pos hlt'] at h
        exact .inr (by simpa using h.symm)
      · rw [if_neg hi] at h
        exact .inl h
    · rintro i ⟨⟩
      rw [if_pos rfl, if_pos hlt']
      rfl

theorem SpecAt.unique {a : AutoConfig} {i : Nat} {s s' : BoardSpec} (h : a.SpecAt i s)
    (h' : a.SpecAt i s') : s = s' := Option.some.inj (h.symm.trans h')

theorem specAt_write (a : AutoConfig) (address : Long) (value : Byte) (i : Nat)
    (spec : BoardSpec) : (a.write address value).SpecAt i spec ↔ a.SpecAt i spec := by
  rcases a.write_effect address value with ⟨p, -, hw⟩ | ⟨-, ⟨hw, -⟩ | ⟨hw, -⟩ | ⟨hw, -⟩⟩ <;>
    rw [hw] <;> exact Iff.rfl

theorem lt_of_specAt {a : AutoConfig} {i : Nat} {spec : BoardSpec} (h : a.SpecAt i spec) :
    i < 8 := by
  by_contra hge
  unfold SpecAt at h
  rw [Vector.getElem?_eq_none (by omega)] at h
  cases h

end AutoConfig

namespace BusDevices

/-- `overlaps_autoconfig_window`. The window's end saturates. -/
def overlapsAutoconfigWindow (base len : Long) : Bool :=
  base.toNat < autoconfigEnd && autoconfigBase < min (base.toNat + len.toNat) 0xFFFFFFFF

/-- The assertions of `refresh_windows`. -/
def WindowsClear (d : BusDevices δ ρ π) : Prop :=
  (∀ base len, d.ram.fastWindow = some (base, len) → overlapsAutoconfigWindow base len = false) ∧
    ∀ base len, d.pcibridgeWindow = some (base, len) → overlapsAutoconfigWindow base len = false

/-- The assertions hold, and `base + size` of a placed window does not wrap. -/
structure Sound (d : BusDevices δ ρ π) : Prop where
  clear : d.WindowsClear
  ends : ∀ i p, d.autoconfig.placement i = some p → p.base.toNat + p.sizeBytes.toNat < 0x100000000

/-- Whether board `i` is fast RAM's or the PCI bridge's. -/
def Cached (d : BusDevices δ ρ π) (i : Nat) : Prop :=
  d.ram.fastRamBoard = some i ∨ d.pcibridgeBoard = some i

/-- A byte that completes a Zorro III base leaves the board room in the address space, and puts fast
RAM and the PCI bridge at `$E90000` or above. -/
def SafeWrite (d : BusDevices δ ρ π) (address : Long) (value : Byte) : Prop :=
  ∀ spec hi, address = registerAt (Ec.z3Baseaddress + 1) → d.autoconfig.currentSpec = some spec →
    isZorroIII spec = true → d.autoconfig.z3BaseHi = some hi →
    basePage hi value * 0x10000 + spec.sizeBytes.toNat < 0x100000000 ∧
      (d.Cached d.autoconfig.current → 0xE9 ≤ basePage hi value)

/-- The AUTOCONFIG arm of `write_byte_slow`. -/
def configWrite (d : BusDevices δ ρ π) (address : Long) (value : Byte) : BusDevices δ ρ π :=
  { d with autoconfig := d.autoconfig.write address value }.refreshWindows

/-- The caches are fresh, boards from the current one on are unplaced, Zorro II boards are small,
and boards with a cached window are Zorro III and reach past the AUTOCONFIG window. -/
structure ChainInv (d : BusDevices δ ρ π) : Prop where
  fast : d.ram.fastWindow = windowOf d.autoconfig d.ram.fastRamBoard
  bridge : d.pcibridgeWindow = windowOf d.autoconfig d.pcibridgeBoard
  unplaced : d.autoconfig.Unplaced
  zorroII : ∀ i spec, d.autoconfig.SpecAt i spec → isZorroII spec = true →
    spec.sizeBytes.toNat ≤ 0x00800000
  cached : ∀ i, d.Cached i → ∃ spec, d.autoconfig.SpecAt i spec ∧ isZorroIII spec = true ∧
    0x00E90000 ≤ spec.sizeBytes.toNat

/-! ## The machine as it was built -/

/-- A machine no board of which is placed. -/
structure Fresh (d : BusDevices δ ρ π) : Prop where
  inv : d.ChainInv
  blank : ∀ i, d.autoconfig.placement i = none

variable {a : AutoConfig}

theorem windowOf_eq_none (h : ∀ i, a.placement i = none) (board : Option Nat) :
    windowOf a board = none := by
  cases board with
  | none => rfl
  | some i => simp [windowOf, h i]

theorem fresh_new (chipRam : Buffer Byte chipRamSize) (rom : ByteSlice) :
    Fresh (BusDevices.new chipRam rom : BusDevices δ ρ π) := by
  have hnone : ∀ i, AutoConfig.new.placement i = none :=
    fun i => unplaced_new i (Nat.zero_le i)
  refine ⟨⟨rfl, rfl, unplaced_new, ?_, ?_⟩, hnone⟩
  · intro i spec h
    have hlt := lt_of_specAt h
    unfold SpecAt at h
    simp [BusDevices.new, AutoConfig.new, hlt] at h
  · rintro i (h | h) <;> cases h

variable {d d' : BusDevices δ ρ π}

/-- A board joins the chain; the devices remember the cached ones. -/
theorem Fresh.addBoard (h : d.Fresh) (spec : BoardSpec)
    (hchain : d'.autoconfig = (d.autoconfig.addBoard spec).2) (hwindow : d'.ram.fastWindow = none)
    (hbridge : d'.pcibridgeWindow = none)
    (hsize : isZorroII spec = true → spec.sizeBytes.toNat ≤ 0x00800000)
    (hcached : ∀ i, d'.Cached i → d.Cached i ∨ (d.autoconfig.addBoard spec).1 = some i ∧
      isZorroIII spec = true ∧ 0x00E90000 ≤ spec.sizeBytes.toNat) : d'.Fresh := by
  obtain ⟨hkeep, hfrom, hnew⟩ := d.autoconfig.specAt_addBoard spec
  have hnone : ∀ i, d'.autoconfig.placement i = none := by
    intro i
    rw [hchain, placement_of_placed (d.autoconfig.addBoard_chain spec).1]
    exact h.blank i
  refine ⟨⟨?_, ?_, ?_, ?_, ?_⟩, hnone⟩
  · rw [hwindow, windowOf_eq_none hnone]
  · rw [hbridge, windowOf_eq_none hnone]
  · intro i _
    exact hnone i
  · intro i s hs hz
    rw [hchain] at hs
    rcases hfrom i s hs with hs | rfl
    · exact h.inv.zorroII i s hs hz
    · exact hsize hz
  · intro i hi
    rw [hchain]
    rcases hcached i hi with hi | ⟨hidx, hz, hlarge⟩
    · obtain ⟨s, hs, hz, hlarge⟩ := h.inv.cached i hi
      exact ⟨s, hkeep i s hs, hz, hlarge⟩
    · exact ⟨spec, hnew i hidx, hz, hlarge⟩

/-- A device changed that is not on the chain. -/
theorem Fresh.of_same (h : d.Fresh) (hchain : d'.autoconfig = d.autoconfig)
    (hwindow : d'.ram.fastWindow = d.ram.fastWindow)
    (hbridge : d'.pcibridgeWindow = d.pcibridgeWindow)
    (hboard : d'.ram.fastRamBoard = d.ram.fastRamBoard)
    (hbridgeBoard : d'.pcibridgeBoard = d.pcibridgeBoard) : d'.Fresh := by
  have hcached : ∀ i, d'.Cached i ↔ d.Cached i := by
    intro i
    unfold Cached
    rw [hboard, hbridgeBoard]
  refine ⟨⟨?_, ?_, hchain ▸ h.inv.unplaced, hchain ▸ h.inv.zorroII, ?_⟩, hchain ▸ h.blank⟩
  · rw [hwindow, hchain, hboard]
    exact h.inv.fast
  · rw [hbridge, hchain, hbridgeBoard]
    exact h.inv.bridge
  · intro i hi
    rw [hchain]
    exact h.inv.cached i ((hcached i).mp hi)

theorem Fresh.windows (h : d.Fresh) : d.ram.fastWindow = none ∧ d.pcibridgeWindow = none :=
  ⟨by rw [h.inv.fast, windowOf_eq_none h.blank], by rw [h.inv.bridge, windowOf_eq_none h.blank]⟩

theorem Fresh.sound (h : d.Fresh) : d.Sound := by
  obtain ⟨hfast, hbridge⟩ := h.windows
  refine ⟨⟨?_, ?_⟩, ?_⟩
  · intro base len hw
    rw [hfast] at hw
    cases hw
  · intro base len hw
    rw [hbridge] at hw
    cases hw
  · intro i p hp
    rw [h.blank i] at hp
    cases hp

/-- A board without a cached window joins. -/
theorem Fresh.addPlain (h : d.Fresh) (spec : BoardSpec)
    (hchain : d'.autoconfig = (d.autoconfig.addBoard spec).2) (hram : d'.ram = d.ram)
    (hbridge : d'.pcibridgeWindow = d.pcibridgeWindow)
    (hbridgeBoard : d'.pcibridgeBoard = d.pcibridgeBoard)
    (hsize : isZorroII spec = true → spec.sizeBytes.toNat ≤ 0x00800000) : d'.Fresh := by
  obtain ⟨hfast, hnone⟩ := h.windows
  refine h.addBoard spec hchain (by rw [hram, hfast]) (by rw [hbridge, hnone]) hsize ?_
  intro i hi
  unfold Cached at hi ⊢
  rw [hram, hbridgeBoard] at hi
  exact .inl hi

theorem graffity_zorroII_le {g : Graffity} {spec : BoardSpec} (h : spec ∈ g.boardSpecs) :
    isZorroII spec = true → spec.sizeBytes.toNat ≤ 0x00800000 := by
  have hvram : ∀ len, (Graffity.vramSpec len).sizeBytes.toNat ≤ 0x00800000 := by
    intro len
    show (BitVec.ofNat 32 (Graffity.zorroIISizeBytes (Graffity.zorroIISizeCode len))).toNat ≤ _
    unfold Graffity.zorroIISizeBytes
    cases hfind : Graffity.zorroIISizes.find? fun size => size.2 = Graffity.zorroIISizeCode len with
    | none => decide
    | some size =>
      have hall : ∀ size ∈ Graffity.zorroIISizes, size.1 ≤ 0x00800000 := by decide
      -- The size found is one of the table's.
      have hle := hall size (List.mem_of_find?_eq_some hfind)
      rw [Option.map_some, Option.getD_some, BitVec.toNat_ofNat]
      omega
  unfold Graffity.boardSpecs at h
  split at h
  · rcases List.mem_cons.mp h with rfl | hregs
    · exact fun _ => hvram _
    · rcases List.mem_singleton.mp hregs with rfl
      exact fun _ => by decide
  · rcases List.mem_singleton.mp h with rfl
    exact fun hz => absurd hz (by decide)

/-- Fast RAM's board is a Zorro III one of at least 16 MB. -/
theorem fastRam_board (bytes : Nat) :
    isZorroIII (Fastram.autoconfigBoardSpec bytes) = true ∧
      isZorroII (Fastram.autoconfigBoardSpec bytes) = false ∧
      0x00E90000 ≤ (Fastram.autoconfigBoardSpec bytes).sizeBytes.toNat := by
  have hcode : ∀ code ∈ Fastram.extendedSizes.map Prod.snd,
      (ertZorroIII ||| ertfMemlist ||| code) &&& 0xC0 = ertZorroIII ∧
        0x00E90000 ≤ (BitVec.ofNat 32 (Fastram.extendedSizeBytes code)).toNat := by
    decide
  -- Every code of the table is Zorro III and at least 16 MB; the mask keeps the type apart.
  have hmem : Fastram.extendedSizeCode bytes ∈ Fastram.extendedSizes.map Prod.snd := by
    unfold Fastram.extendedSizeCode
    cases hfind : Fastram.extendedSizes.find? fun size => bytes ≤ size.1 with
    | none => decide
    | some size => exact List.mem_map_of_mem (List.mem_of_find?_eq_some hfind)
  obtain ⟨htype, hsize⟩ := hcode _ hmem
  refine ⟨?_, ?_, hsize⟩
  · exact decide_eq_true htype
  · exact decide_eq_false fun he => absurd (htype.symm.trans he) (by decide)

theorem Fresh.addBoards {d : BusDevices δ ρ π} (h : d.Fresh) : ∀ (specs : List BoardSpec),
    (∀ spec ∈ specs, isZorroII spec = true → spec.sizeBytes.toNat ≤ 0x00800000) →
    Fresh { d with autoconfig := (BusDevices.addBoards d.autoconfig specs).2 }
  | [], _ => h
  | spec :: specs, hspecs => by
    have hone : Fresh { d with autoconfig := (d.autoconfig.addBoard spec).2 } :=
      h.addPlain spec rfl rfl rfl rfl (hspecs spec List.mem_cons_self)
    have hrest := hone.addBoards specs fun s hs => hspecs s (List.mem_cons_of_mem spec hs)
    exact hrest

theorem Fresh.attachGraphics (h : d.Fresh) (card : Graffity) : (d.attachGraphics card).Fresh := by
  have hboards := h.addBoards card.boardSpecs fun _ => graffity_zorroII_le
  exact hboards.of_same rfl rfl rfl rfl rfl

/-- **Attaching a card leaves no board placed.** -/
theorem Fresh.attach {d : BusDevices δ ρ π} (h : d.Fresh) (card : Attach δ ρ π) :
    (d.attach card).Fresh := by
  cases card with
  | mirage unit device =>
    -- The first unit adds the board, a later one only sits in a slot of it.
    simp only [BusDevices.attach, withMirage]
    split
    · exact h.of_same rfl rfl rfl rfl rfl
    · exact h.addPlain Mirage.boardSpec rfl rfl rfl rfl (by decide)
  | hostblk unit device writeProtect diagRom =>
    simp only [BusDevices.attach, withHostblk]
    split
    · exact h.of_same rfl rfl rfl rfl rfl
    · exact h.addPlain Hostblk.boardSpec rfl rfl rfl rfl (by decide)
  | graphics vram => exact h.attachGraphics _
  | graphicsZorroIII vram => exact h.attachGraphics _
  | fastRam mem =>
    obtain ⟨hz, hII, hlarge⟩ := fastRam_board (mem.size % 0x100000000)
    have hplaced := (d.autoconfig.addBoard_chain
      (Fastram.autoconfigBoardSpec (mem.size % 0x100000000))).1
    have hnone : ∀ i, (d.autoconfig.addBoard
        (Fastram.autoconfigBoardSpec (mem.size % 0x100000000))).2.placement i = none := by
      intro i
      rw [placement_of_placed hplaced]
      exact h.blank i
    refine h.addBoard (Fastram.autoconfigBoardSpec (mem.size % 0x100000000)) rfl
      (windowOf_eq_none hnone _) (windowOf_eq_none hnone _) (fun hII' => ?_) ?_
    · rw [hII] at hII'
      cases hII'
    · rintro i (hi | hi)
      · exact .inr ⟨hi, hz, hlarge⟩
      · exact .inl (.inr hi)
  | input diagRom =>
    simp only [BusDevices.attach, withInput]
    split
    · exact h
    · exact h.addPlain NativeInput.boardSpec rfl rfl rfl rfl (by decide)
  | pktport backend diagRom => exact h.addPlain Pktport.boardSpec rfl rfl rfl rfl (by decide)
  | rtgboard vram catalog => exact h.addPlain RtgBoard.boardSpec rfl rfl rfl rfl (by decide)
  | pcibridge backend =>
    have hplaced := (d.autoconfig.addBoard_chain PciBridge.boardSpec).1
    have hnone : ∀ i, (d.autoconfig.addBoard PciBridge.boardSpec).2.placement i = none := by
      intro i
      rw [placement_of_placed hplaced]
      exact h.blank i
    refine h.addBoard PciBridge.boardSpec rfl (windowOf_eq_none hnone _)
      (windowOf_eq_none hnone _) (by decide) ?_
    rintro i (hi | hi)
    · exact .inl (.inl hi)
    · exact .inr ⟨hi, by decide, by decide⟩
  | extRom extRom => exact h.of_same rfl rfl rfl rfl rfl
  | floppy presence => exact h.of_same rfl rfl rfl rfl rfl
  | deviceWriteLog capacity => exact h.of_same rfl rfl rfl rfl rfl

/-! ## One byte -/

theorem currentSpec_specAt {spec : BoardSpec} (h : a.currentSpec = some spec) :
    a.SpecAt a.current spec := h

theorem ChainInv.configWrite (h : d.ChainInv) (address : Long) (value : Byte) :
    (d.configWrite address value).ChainInv where
  fast := rfl
  bridge := rfl
  unplaced := h.unplaced.write address value
  zorroII i spec hs := h.zorroII i spec ((specAt_write _ _ _ _ _).mp hs)
  cached i hi := by
    obtain ⟨spec, hs, hz, hlarge⟩ := h.cached i hi
    exact ⟨spec, (specAt_write _ _ _ _ _).mpr hs, hz, hlarge⟩

/-- A window is a placement of a cached board. -/
theorem windowOf_eq_some {board : Option Nat} {base len : Long}
    (h : windowOf a board = some (base, len)) :
    ∃ i p, board = some i ∧ a.placement i = some p ∧ p.base = base ∧ p.sizeBytes = len := by
  obtain ⟨p, hp, hpair⟩ := Option.map_eq_some_iff.mp h
  obtain ⟨i, hi, hp⟩ := Option.bind_eq_some_iff.mp hp
  exact ⟨i, p, hi, hp, congrArg Prod.fst hpair, congrArg Prod.snd hpair⟩

theorem windowOf_of_placement {i : Nat} {p : Configured} (h : a.placement i = some p) :
    windowOf a (some i) = some (p.base, p.sizeBytes) := by
  unfold windowOf
  rw [Option.bind_some, h, Option.map_some]

/-- Soundness in terms of the placements on the chain. -/
theorem ChainInv.sound_iff (h : d.ChainInv) :
    d.Sound ↔ ∀ i p, d.autoconfig.placement i = some p →
      p.base.toNat + p.sizeBytes.toNat < 0x100000000 ∧
        (d.Cached i → overlapsAutoconfigWindow p.base p.sizeBytes = false) := by
  constructor
  · rintro ⟨⟨hfast, hbridge⟩, hends⟩ i p hp
    refine ⟨hends i p hp, ?_⟩
    rintro (hi | hi)
    · exact hfast p.base p.sizeBytes (by rw [h.fast, hi, windowOf_of_placement hp])
    · exact hbridge p.base p.sizeBytes (by rw [h.bridge, hi, windowOf_of_placement hp])
  · intro hall
    refine ⟨⟨?_, ?_⟩, fun i p hp => (hall i p hp).1⟩
    · intro base len hw
      rw [h.fast] at hw
      obtain ⟨i, p, hi, hp, rfl, rfl⟩ := windowOf_eq_some hw
      exact (hall i p hp).2 (.inl hi)
    · intro base len hw
      rw [h.bridge] at hw
      obtain ⟨i, p, hi, hp, rfl, rfl⟩ := windowOf_eq_some hw
      exact (hall i p hp).2 (.inr hi)

/-- A window longer than `$E90000` clears the AUTOCONFIG window exactly when it begins behind it. -/
theorem overlaps_page {base len : Long} {page : Nat} (hbase : base.toNat = page * 0x10000)
    (hlarge : 0x00E90000 ≤ len.toNat) :
    overlapsAutoconfigWindow base len = false ↔ 0xE9 ≤ page := by
  have hlo : autoconfigBase = 0xE80000 := rfl
  have hhi : autoconfigEnd = 0xE90000 := rfl
  unfold overlapsAutoconfigWindow
  rw [Bool.and_eq_false_iff, decide_eq_false_iff_not, decide_eq_false_iff_not, hbase, hlo, hhi]
  omega

theorem placement_set {p : Configured} (hlt : a.current < 8) (i : Nat) :
    AutoConfig.placement
        { a with placed := a.placed.setIfInBounds a.current (some p),
                 current := a.current + 1, z3BaseHi := none } i =
      if i = a.current then some p else a.placement i := by
  unfold AutoConfig.placement
  simp only [Vector.getElem?_setIfInBounds]
  by_cases hi : i = a.current
  · subst hi
    rw [if_pos rfl, if_pos rfl, if_pos hlt]
    rfl
  · rw [if_neg (fun h => hi h.symm), if_neg hi]

/-- **One byte leaves a sound machine sound exactly when it is safe.** -/
theorem sound_configWrite (h : d.ChainInv) (hsound : d.Sound) (address : Long) (value : Byte) :
    (d.configWrite address value).Sound ↔ d.SafeWrite address value := by
  rw [(h.configWrite address value).sound_iff]
  have hold := h.sound_iff.mp hsound
  have hcached : ∀ i, (d.configWrite address value).Cached i ↔ d.Cached i := fun i => Iff.rfl
  have hchain : (d.configWrite address value).autoconfig = d.autoconfig.write address value := rfl
  rw [hchain]
  rcases d.autoconfig.write_effect address value with ⟨p, hplace, hw⟩ | ⟨hplace, hw⟩
  · obtain ⟨spec, hcur, hsize, ⟨hz, haddr, hi, hlatch, hbase⟩ | ⟨hz, haddr, hbase⟩⟩ :=
      placing_eq_some hplace
    · -- A Zorro III board: this byte is the low half of its base.
      have hpage : p.base.toNat = basePage hi value * 0x10000 := by
        rw [hbase, toNat_z3Base]
      have hlarge : d.Cached d.autoconfig.current → 0x00E90000 ≤ p.sizeBytes.toNat := by
        intro hc
        obtain ⟨spec', hs, -, hlarge⟩ := h.cached _ hc
        rw [hsize, (currentSpec_specAt hcur).unique hs]
        exact hlarge
      -- Only the placement of the current board is new, and its page decides both conditions.
      rw [hw]
      constructor
      · intro hall spec' hi' _ hcur' _ hlatch'
        obtain rfl : spec = spec' := by simpa [hcur] using hcur'
        obtain rfl : hi = hi' := by simpa [hlatch] using hlatch'
        have hthis := hall d.autoconfig.current p (by
          rw [placement_set (lt_of_specAt hcur), if_pos rfl])
        rw [hpage, hsize] at hthis
        refine ⟨hthis.1, fun hc => ?_⟩
        rw [← overlaps_page hpage (hlarge hc), hsize]
        exact hthis.2 hc
      · intro hsafe i q hq
        obtain ⟨hend, hpageLe⟩ := hsafe spec hi haddr hcur hz hlatch
        rw [placement_set (lt_of_specAt hcur)] at hq
        split at hq
        · rename_i hi'
          subst hi'
          cases hq
          rw [hpage, hsize]
          refine ⟨hend, fun hc => ?_⟩
          rw [← hsize, overlaps_page hpage (hlarge hc)]
          exact hpageLe hc
        · exact hold i q hq
    · -- a Zorro II window ends below 24 MB, and no cached board is a Zorro II one
      have hII := h.zorroII _ spec (currentSpec_specAt hcur) hz
      have hne : registerAt Ec.baseaddress ≠ registerAt (Ec.z3Baseaddress + 1) := by decide
      refine ⟨fun _ spec' hi haddr' => absurd (haddr.symm.trans haddr') hne, fun _ i q hq => ?_⟩
      rw [hw, placement_set (lt_of_specAt hcur)] at hq
      split at hq
      · rename_i hi'
        subst hi'
        cases hq
        have hlt := value.isLt
        rw [hbase, toNat_z2Base, hsize]
        refine ⟨by omega, fun hc => ?_⟩
        obtain ⟨spec', hs, hz', -⟩ := h.cached _ hc
        obtain rfl := (currentSpec_specAt hcur).unique hs
        simp only [isZorroIII, isZorroII, decide_eq_true_eq] at hz hz'
        rw [hz] at hz'
        cases hz'
      · exact hold i q hq
  -- No board is placed: the chain has the placements it had.
  · have hsame : ∀ i,
        (d.autoconfig.write address value).placement i = d.autoconfig.placement i := by
      intro i
      rcases hw with ⟨hw, -⟩ | ⟨hw, -⟩ | ⟨hw, -⟩
      · rw [hw]
      · rw [hw]
        rfl
      · rw [hw]
        rfl
    constructor
    · intro _ spec hi haddr hcur hz hlatch
      unfold placing at hplace
      rw [hcur] at hplace
      dsimp only at hplace
      rw [if_pos ⟨haddr, hz⟩, hlatch] at hplace
      cases hplace
    · intro _ i q hq
      rw [hsame] at hq
      exact hold i q hq

/-! ## What every write keeps -/

/-- The chain invariant stays, and a machine that is sound afterwards was sound before. -/
structure Keeps (d d' : BusDevices δ ρ π) : Prop where
  inv : d.ChainInv → d'.ChainInv
  sound : d.ChainInv → d'.Sound → d.Sound

theorem Keeps.refl (d : BusDevices δ ρ π) : Keeps d d := ⟨id, fun _ => id⟩

theorem Keeps.trans {d'' : BusDevices δ ρ π} (h : Keeps d d') (h' : Keeps d' d'') : Keeps d d'' :=
  ⟨fun hinv => h'.inv (h.inv hinv), fun hinv hs => h.sound hinv (h'.sound (h.inv hinv) hs)⟩

/-- A step that leaves the chain and the cached windows alone. -/
theorem Keeps.of_same (hchain : d'.autoconfig = d.autoconfig)
    (hwindow : d'.ram.fastWindow = d.ram.fastWindow)
    (hbridge : d'.pcibridgeWindow = d.pcibridgeWindow)
    (hboard : d'.ram.fastRamBoard = d.ram.fastRamBoard)
    (hbridgeBoard : d'.pcibridgeBoard = d.pcibridgeBoard) : Keeps d d' := by
  constructor
  · intro h
    refine ⟨?_, ?_, hchain ▸ h.unplaced, hchain ▸ h.zorroII, ?_⟩
    · rw [hwindow, hchain, hboard]
      exact h.fast
    · rw [hbridge, hchain, hbridgeBoard]
      exact h.bridge
    · intro i hi
      unfold Cached at hi
      rw [hboard, hbridgeBoard] at hi
      rw [hchain]
      exact h.cached i hi
  · rintro - ⟨⟨hfast, hbridge'⟩, hends⟩
    exact ⟨⟨hwindow ▸ hfast, hbridge ▸ hbridge'⟩, hchain ▸ hends⟩

theorem keeps_configWrite (d : BusDevices δ ρ π) (address : Long) (value : Byte) :
    Keeps d (d.configWrite address value) := by
  refine ⟨fun h => h.configWrite address value, fun h hs => ?_⟩
  rw [(h.configWrite address value).sound_iff] at hs
  rw [h.sound_iff]
  intro i p hp
  exact hs i p (placement_write h.unplaced hp address value)

end BusDevices

namespace MachineBus

open BusDevices

section Stores

variable {d : BusDevices δ ρ π} {a : Long}

/-- No cached window of a sound machine holds an address of the AUTOCONFIG window. -/
theorem fastOffset_config (h : d.Sound) (ha : respondsTo a = true) : fastOffset d.ram a = none := by
  unfold fastOffset
  cases hw : d.ram.fastWindow with
  | none => rfl
  | some window =>
    obtain ⟨base, len⟩ := window
    have hclear := h.clear.1 base len hw
    have hlo : autoconfigBase = 0xE80000 := rfl
    have hhi : autoconfigEnd = 0xE90000 := rfl
    rw [respondsTo_iff] at ha
    unfold overlapsAutoconfigWindow at hclear
    rw [Bool.and_eq_false_iff, decide_eq_false_iff_not, decide_eq_false_iff_not, hlo, hhi] at hclear
    exact if_neg (by omega)

theorem pcibridgeTarget_config (h : d.Sound) (ha : respondsTo a = true) :
    pcibridgeTarget d a = none := by
  unfold pcibridgeTarget
  cases hw : d.pcibridgeWindow with
  | none => rfl
  | some window =>
    obtain ⟨base, len⟩ := window
    have hclear := h.clear.2 base len hw
    have hlo : autoconfigBase = 0xE80000 := rfl
    have hhi : autoconfigEnd = 0xE90000 := rfl
    rw [respondsTo_iff] at ha
    unfold overlapsAutoconfigWindow at hclear
    rw [Bool.and_eq_false_iff, decide_eq_false_iff_not, decide_eq_false_iff_not, hlo, hhi] at hclear
    exact if_pos (by omega)

theorem config_ranges (ha : respondsTo a = true) :
    inRange chipRamBase chipRamEnd a = false ∧ inRange customBase customEnd a = false ∧
      ¬a.toNat < chipRamEnd := by
  rw [respondsTo_iff] at ha
  rw [inRange_eq_false, inRange_eq_false]
  simp only [chipRamBase, chipRamEnd, chipRamSize, customBase, customEnd]
  omega

theorem fastStore_config (h : d.Sound) (ha : respondsTo a = true) (bs : List Byte) :
    fastStore d a bs = none := by
  unfold fastStore fastRegionMut
  rw [(config_ranges ha).1, fastOffset_config h ha]
  rfl

theorem keeps_fastStore {bs : List Byte} {d' : BusDevices δ ρ π}
    (h : fastStore d a bs = some d') : Keeps d d' := by
  obtain ⟨region, off, -, -, rfl⟩ := fastStore_eq_some h
  cases region <;> exact .of_same rfl rfl rfl rfl rfl

end Stores

/-- A guest write at the AUTOCONFIG window. -/
inductive ConfigWrite
  | byte (address : Long) (value : Byte)
  | word (address : Long) (value : Word)
  | long (address : Long) (value : Long)

/-- The bytes of a word at their addresses. -/
def wordBytes (address : Long) (value : Word) : List (Long × Byte) :=
  [(address, (value >>> 8).setWidth 8), (address + 1, value.setWidth 8)]

def ConfigWrite.bytes : ConfigWrite → List (Long × Byte)
  | .byte address value => [(address, value)]
  | .word address value => wordBytes address value
  | .long address value =>
    wordBytes address ((value >>> 16).setWidth 16) ++ wordBytes (address + 2) (value.setWidth 16)

/-- Every byte of the access lies in the window. -/
def ConfigWrite.InWindow (op : ConfigWrite) : Prop := ∀ byte ∈ op.bytes, respondsTo byte.1 = true

section Accesses

variable [BlockDevice δ] [PacketBackend ρ] [PciBackend π] {b : MachineBus δ ρ π} {a : Long}

def writeConfig (b : MachineBus δ ρ π) : ConfigWrite → MachineBus δ ρ π
  | .byte address value => b.writeByte address value
  | .word address value => b.writeWord address value
  | .long address value => b.writeLong address value

/-- One byte of an access, on its own. -/
def byteStep (b : MachineBus δ ρ π) (byte : Long × Byte) : MachineBus δ ρ π :=
  b.writeByte byte.1 byte.2

def SafeByte (b : MachineBus δ ρ π) (byte : Long × Byte) : Prop :=
  b.devices.SafeWrite byte.1 byte.2

/-- The machine after its cards were attached. -/
def withCards (chipRam : Buffer Byte chipRamSize) (rom : ByteSlice) (cards : List (Attach δ ρ π)) :
    MachineBus δ ρ π :=
  Transition.run step (MachineBus.new chipRam rom) (cards.map .attach)

theorem fresh_withCards (chipRam : Buffer Byte chipRamSize) (rom : ByteSlice)
    (cards : List (Attach δ ρ π)) : (withCards chipRam rom cards).devices.Fresh := by
  have hall : ∀ (cards : List (Attach δ ρ π)) (b : MachineBus δ ρ π), b.devices.Fresh →
      (Transition.run step b (cards.map .attach)).devices.Fresh := by
    intro cards
    induction cards with
    | nil => exact fun _ h => h
    | cons card cards ih =>
      intro b h
      exact ih _ (h.attach card)
  exact hall cards _ (fresh_new chipRam rom)

theorem writeByteSlow_config (ha : respondsTo a = true) (value : Byte) :
    (b.writeByteSlow a value).devices = b.devices.configWrite a value := by
  unfold writeByteSlow
  rw [if_pos ha]
  rfl

/-- A byte reaches the AUTOCONFIG arm of a sound machine. -/
theorem devices_writeByte_config (h : b.devices.Sound) (ha : respondsTo a = true) (value : Byte) :
    (b.writeByte a value).devices = b.devices.configWrite a value := by
  unfold writeByte
  rw [fastStore_config h ha]
  dsimp only
  rw [if_neg (config_ranges ha).2.2, devices_requestBoundary, writeByteSlow_config ha]

theorem keeps_writeByte (ha : respondsTo a = true) (value : Byte) :
    Keeps b.devices (b.writeByte a value).devices := by
  unfold writeByte
  split
  · rename_i d hstore
    exact keeps_fastStore hstore
  · rw [if_neg (config_ranges ha).2.2, devices_requestBoundary, writeByteSlow_config ha]
    exact keeps_configWrite b.devices a value

theorem keeps_run {bytes : List (Long × Byte)} (hin : ∀ byte ∈ bytes, respondsTo byte.1 = true) :
    Keeps b.devices (Transition.run byteStep b bytes).devices := by
  induction bytes generalizing b with
  | nil => exact .refl _
  | cons byte bytes ih =>
    have hfirst := keeps_writeByte (b := b) (hin byte List.mem_cons_self) byte.2
    exact hfirst.trans (ih fun byte hb => hin byte (List.mem_cons_of_mem _ hb))

omit [BlockDevice δ] [PacketBackend ρ] in
theorem keeps_apertureStore {width : AccessWidth} {value : Long} {b' : MachineBus δ ρ π}
    (h : b.apertureStore a width value = some b') : Keeps b.devices b'.devices := by
  unfold apertureStore at h
  split at h
  · cases h
    split
    · rw [devices_requestBoundary]
      exact .of_same rfl rfl rfl rfl rfl
    · exact .of_same rfl rfl rfl rfl rfl
  · cases h

theorem keeps_writeWord (ha : respondsTo a = true) (hsucc : respondsTo (a + 1) = true)
    (value : Word) : Keeps b.devices (b.writeWord a value).devices := by
  unfold writeWord
  rw [(config_ranges ha).2.1]
  simp only [Bool.false_eq_true, if_false]
  split
  · rename_i d hstore
    exact keeps_fastStore hstore
  · cases hstore : b.apertureStore a .w16 (value.setWidth 32) with
    | some b' => exact keeps_apertureStore hstore
    | none =>
      have hfirst := keeps_writeByte (b := b) ha ((value >>> 8).setWidth 8)
      exact hfirst.trans (keeps_writeByte hsucc (value.setWidth 8))

/-- **The bytes of a run** leave a sound machine sound exactly when all are safe. -/
theorem sound_bytes {bytes : List (Long × Byte)} (hin : ∀ byte ∈ bytes, respondsTo byte.1 = true)
    (hinv : b.devices.ChainInv) (hsound : b.devices.Sound) :
    (Transition.run byteStep b bytes).devices.Sound ↔ Each byteStep SafeByte b bytes := by
  induction bytes generalizing b with
  | nil => exact ⟨fun _ => each_nil, fun _ => hsound⟩
  | cons byte bytes ih =>
    have ha := hin byte List.mem_cons_self
    have hrest : ∀ byte ∈ bytes, respondsTo byte.1 = true :=
      fun byte hb => hin byte (List.mem_cons_of_mem _ hb)
    have hkeep := keeps_writeByte (b := b) ha byte.2
    have hone : (b.byteStep byte).devices.Sound ↔ SafeByte b byte := by
      unfold byteStep
      rw [devices_writeByte_config hsound ha]
      exact sound_configWrite hinv hsound byte.1 byte.2
    rw [run_cons, each_cons]
    constructor
    · intro h
      -- A machine that is sound after the rest was sound before it, so the first byte is safe too.
      have hmid := (keeps_run hrest).sound (hkeep.inv hinv) h
      exact ⟨hone.mp hmid, (ih hrest (hkeep.inv hinv) hmid).mp h⟩
    · rintro ⟨hsafe, h⟩
      exact (ih hrest (hkeep.inv hinv) (hone.mpr hsafe)).mpr h

omit [BlockDevice δ] [PacketBackend ρ] in
theorem apertureStore_config (h : b.devices.Sound) (ha : respondsTo a = true)
    (width : AccessWidth) (value : Long) : b.apertureStore a width value = none := by
  unfold apertureStore pcibridgeApertureSized
  rw [pcibridgeTarget_config h ha]
  split
  · rename_i k dev hk _
    split at hk <;> cases hk
  · rfl

/-- A word to a sound machine's window is its two bytes. -/
theorem writeWord_config (h : b.devices.Sound) (ha : respondsTo a = true) (value : Word) :
    b.writeWord a value = Transition.run byteStep b (wordBytes a value) := by
  unfold writeWord
  rw [(config_ranges ha).2.1, fastStore_config h ha, apertureStore_config h ha]
  rfl

theorem writeLong_config (h : b.devices.Sound) (ha : respondsTo a = true) (value : Long) :
    b.writeLong a value =
      (b.writeWord a ((value >>> 16).setWidth 16)).writeWord (a + 2) (value.setWidth 16) := by
  unfold writeLong
  rw [fastStore_config h ha, apertureStore_config h ha]
  rfl

/-- An access is its bytes, if it leaves the machine sound or its bytes are safe. -/
theorem writeConfig_bytes {op : ConfigWrite} (hin : op.InWindow) (hinv : b.devices.ChainInv)
    (hsound : b.devices.Sound)
    (h : (b.writeConfig op).devices.Sound ∨ Each byteStep SafeByte b op.bytes) :
    b.writeConfig op = Transition.run byteStep b op.bytes := by
  cases op with
  | byte address value => rfl
  | word address value => exact writeWord_config hsound (hin _ List.mem_cons_self) value
  | long address value =>
    have ha : respondsTo address = true := hin _ List.mem_cons_self
    have hhalf : ∀ byte ∈ wordBytes address ((value >>> 16).setWidth 16),
        respondsTo byte.1 = true :=
      fun byte hb => hin byte (List.mem_append_left _ hb)
    have hlow : ∀ byte ∈ wordBytes (address + 2) (value.setWidth 16), respondsTo byte.1 = true :=
      fun byte hb => hin byte (List.mem_append_right _ hb)
    have ha2 : respondsTo (address + 2) = true := hlow _ List.mem_cons_self
    have hhigh := writeWord_config hsound ha ((value >>> 16).setWidth 16)
    -- The two words are bytes only if the bus is sound between them; either hypothesis gives that.
    have hmid : (b.writeWord address ((value >>> 16).setWidth 16)).devices.Sound := by
      rcases h with h | h
      · have hkeep := keeps_writeWord (b := b) ha
          (hhalf _ (List.mem_cons_of_mem _ List.mem_cons_self))
          ((value >>> 16).setWidth 16)
        have hkeep2 := keeps_writeWord (b := b.writeWord address ((value >>> 16).setWidth 16)) ha2
          (hlow _ (List.mem_cons_of_mem _ List.mem_cons_self)) (value.setWidth 16)
        refine hkeep2.sound (hkeep.inv hinv) ?_
        rw [← writeLong_config hsound ha]
        exact h
      · rw [hhigh]
        exact (sound_bytes hhalf hinv hsound).mpr (each_append.mp h).1
    show b.writeLong address value = _
    rw [writeLong_config hsound ha, writeWord_config hmid ha2, hhigh]
    exact (run_append ..).symm

theorem sound_writes : ∀ (ops : List ConfigWrite) {b : MachineBus δ ρ π},
    (∀ op ∈ ops, op.InWindow) → b.devices.ChainInv → b.devices.Sound →
    (Always writeConfig (fun b => b.devices.Sound) b ops ↔
      Each byteStep SafeByte b (ops.flatMap ConfigWrite.bytes))
  | [], b, _, _, hsound => ⟨fun _ => each_nil, fun _ => always_nil.mpr hsound⟩
  | op :: ops, b, hin, hinv, hsound => by
    have hop : op.InWindow := hin op List.mem_cons_self
    have hops : ∀ op ∈ ops, op.InWindow := fun op h => hin op (List.mem_cons_of_mem _ h)
    have hbytes := sound_bytes (b := b) hop hinv hsound
    have hrun := (keeps_run (b := b) hop).inv hinv
    rw [always_cons, List.flatMap_cons, each_append]
    constructor
    · rintro ⟨-, h⟩
      have hlast := h.first
      have heq := writeConfig_bytes hop hinv hsound (.inl hlast)
      rw [heq] at h hlast
      exact ⟨hbytes.mp hlast, (sound_writes ops hops hrun hlast).mp h⟩
    · rintro ⟨hsafe, h⟩
      have hlast := hbytes.mpr hsafe
      rw [writeConfig_bytes hop hinv hsound (.inr hsafe)]
      exact ⟨hsound, (sound_writes ops hops hrun hlast).mpr h⟩

/-- **From a machine with any cards, every state is sound exactly when every byte that completes a
Zorro III base is safe.** -/
theorem sound_iff_safe (chipRam : Buffer Byte chipRamSize) (rom : ByteSlice)
    (cards : List (Attach δ ρ π)) (ops : List ConfigWrite) (hin : ∀ op ∈ ops, op.InWindow) :
    Always writeConfig (fun b => b.devices.Sound) (withCards chipRam rom cards) ops ↔
      Each byteStep SafeByte (withCards chipRam rom cards) (ops.flatMap ConfigWrite.bytes) := by
  have hfresh := fresh_withCards chipRam rom cards
  exact sound_writes ops hin hfresh.inv hfresh.sound

/-- A machine with 16 MB of fast RAM. -/
def fastBuilt : MachineBus MemDisk Empty Empty :=
  withCards (fun _ => 0) (ByteSlice.zero 0) [.fastRam (ByteSlice.zero 0x01000000)]

/-- One word places fast RAM at `$10000000`. -/
theorem sound_iff_safe_placed :
    Always writeConfig (fun b => b.devices.Sound) fastBuilt [.word 0xE80044 0x1000] := by
  refine (sound_iff_safe _ _ _ [.word 0xE80044 0x1000] ?_).mpr ?_
  · intro op hop
    rcases List.mem_singleton.mp hop with rfl
    intro byte hbyte
    rcases List.mem_pair.mp hbyte with rfl | rfl <;> decide
  · refine each_cons.mpr ⟨?_, each_cons.mpr ⟨?_, each_nil⟩⟩
    · intro spec hi haddr
      -- The high byte only latches; the low byte completes the base at page `$1000`.
      exact absurd haddr (by decide)
    · intro spec hi _ hcur _ hlatch
      have hsize : (fastBuilt.byteStep (0xE80044, 0x10)).devices.autoconfig.currentSpec.map
          BoardSpec.sizeBytes = some 0x01000000 := by decide
      have hhi : (fastBuilt.byteStep (0xE80044, 0x10)).devices.autoconfig.z3BaseHi = some 0x10 := by
        decide
      obtain rfl : (0x10 : Byte) = hi := Option.some.inj (hhi.symm.trans hlatch)
      have hspec : spec.sizeBytes = 0x01000000 := by
        have hmap := congrArg (Option.map BoardSpec.sizeBytes) hcur
        exact Option.some.inj (hmap.symm.trans hsize)
      rw [hspec]
      exact ⟨by decide, fun _ => by decide⟩

/-- Two bytes put fast RAM over the AUTOCONFIG window, two others past the address space. -/
theorem guest_places_anywhere :
    ¬Always writeConfig (fun b => b.devices.Sound) fastBuilt
        [.byte 0xE80044 0x00, .byte 0xE80045 0xE8] ∧
      ¬Always writeConfig (fun b => b.devices.Sound) fastBuilt
        [.byte 0xE80044 0xFF, .byte 0xE80045 0x00] := by
  constructor
  · intro h
    have hw : ((fastBuilt.writeByte 0xE80044 0x00).writeByte 0xE80045 0xE8).devices.ram.fastWindow =
        some (0x00E80000, 0x01000000) := by decide
    exact absurd (h.last.clear.1 _ _ hw) (by decide)
  · intro h
    have hp : ((fastBuilt.writeByte 0xE80044 0xFF).writeByte 0xE80045
        0x00).devices.autoconfig.placement 0 = some ⟨0xFF000000, 0x01000000⟩ := by decide
    exact absurd (h.last.ends 0 _ hp) (by decide)

end Accesses

end MachineBus

end M68kMachine
