import M68kMachine.Properties.DeviceView
import M68kMachine.Properties.DeviceWriteRuns

/-!
# Words and longwords are bytes

A word or a longword is first looked for as a whole in one region, and only then put together from
bytes. Every edge of the map is even, so a word stays in its region; a longword does not where the
buffer behind fast RAM is longer than its window.

* `AutoConfig.EvenChain` — the boards' sizes and bases are even
* `SameWord`, `SameLong` — an access is the chain of its bytes
* `Overrun` — the last word of a window with more buffer behind it
* `access_widths` — words are bytes, and longwords are unless they overrun
-/

namespace M68kMachine

open Autoconfig

theorem Buffer.setFrom_append {α : Type} {n : Nat} : ∀ (xs ys : List α) (b : Buffer α n)
    (i : Nat), b.setFrom i (xs ++ ys) = (b.setFrom i xs).setFrom (i + xs.length) ys
  | [], _, _, _ => rfl
  | x :: xs, ys, b, i => by
    have hrest := Buffer.setFrom_append xs ys (b.set i x) (i + 1)
    rw [Nat.add_assoc, Nat.add_comm 1] at hrest
    exact hrest

/-! ## Even boards -/

namespace AutoConfig

/-- The boards of the chain are of even size, and the placed ones begin at an even address. -/
structure EvenChain (a : AutoConfig) : Prop where
  spec : ∀ (i : Nat) (spec : BoardSpec), (a.specs[i]?).join = some spec →
    spec.sizeBytes.toNat % 2 = 0
  placement : ∀ (i : Nat) (p : Configured), a.placement i = some p →
    p.base.toNat % 2 = 0 ∧ p.sizeBytes.toNat % 2 = 0

theorem evenChain_new : EvenChain new := by
  constructor
  · intro i spec h
    by_cases hi : i < 8 <;> simp [new, hi] at h
  · intro i p h
    rw [unplaced_new i (Nat.zero_le i)] at h
    cases h

theorem even_of_getLsbD {x : Long} (h : x.getLsbD 0 = false) : x.toNat % 2 = 0 := by
  rw [BitVec.getLsbD, Nat.testBit_zero] at h
  have hne := of_decide_eq_false h
  omega

theorem EvenChain.addBoard {a : AutoConfig} (h : a.EvenChain) {spec : BoardSpec}
    (hspec : spec.sizeBytes.toNat % 2 = 0) : (a.addBoard spec).2.EvenChain := by
  refine ⟨?_, fun i p hp => ?_⟩
  · intro i s hs
    unfold AutoConfig.addBoard at hs
    split at hs
    · exact h.spec i s hs
    · simp only [Vector.getElem?_setIfInBounds] at hs
      split at hs
      · split at hs
        · cases hs
          exact hspec
        · cases hs
      · exact h.spec i s hs
  · rw [placement_of_placed (a.addBoard_chain spec).1] at hp
    exact h.placement i p hp

theorem EvenChain.configure {a : AutoConfig} (h : a.EvenChain) {spec : BoardSpec}
    (hspec : spec.sizeBytes.toNat % 2 = 0) {base : Long} (hbase : base.toNat % 2 = 0) :
    (a.configure spec base).EvenChain := by
  refine ⟨h.spec, fun i p hp => ?_⟩
  unfold AutoConfig.placement AutoConfig.configure advance at hp
  simp only [Vector.getElem?_setIfInBounds] at hp
  split at hp
  · split at hp
    · cases hp
      exact ⟨hbase, hspec⟩
    · cases hp
  · exact h.placement i p hp

theorem EvenChain.write {a : AutoConfig} (h : a.EvenChain) (address : Long) (value : Byte) :
    (a.write address value).EvenChain := by
  unfold AutoConfig.write
  split
  · exact h
  · rename_i spec hcurrent
    have hspec := h.spec a.current spec hcurrent
    dsimp only
    split_ifs
    · exact ⟨h.spec, h.placement⟩
    · split
      · refine EvenChain.configure ⟨h.spec, h.placement⟩ hspec (even_of_getLsbD ?_)
        simp
      · exact h
    · refine h.configure hspec (even_of_getLsbD ?_)
      simp
    · exact h
    · exact ⟨h.spec, h.placement⟩
    · exact h

end AutoConfig

/-- A size out of a table of even sizes. -/
theorem even_ofSizes {sizes : List (Nat × Byte)} {largest : Nat} {code : Byte}
    (heven : ∀ size ∈ sizes, size.1 % 2 = 0) (hlargest : largest % 2 = 0) :
    (BitVec.ofNat 32
      (((sizes.find? fun size => size.2 = code).map Prod.fst).getD largest)).toNat % 2 = 0 := by
  have hsize : ((sizes.find? fun size => size.2 = code).map Prod.fst).getD largest % 2 = 0 := by
    cases hfind : sizes.find? fun size => size.2 = code with
    | none => exact hlargest
    | some size => exact heven size (List.mem_of_find?_eq_some hfind)
  rw [BitVec.toNat_ofNat]
  omega

theorem Fastram.even_boardSpec (bytes : Nat) :
    (Fastram.autoconfigBoardSpec bytes).sizeBytes.toNat % 2 = 0 :=
  even_ofSizes (by decide) rfl

theorem Graffity.even_vramSpec (vramLen : Nat) :
    (Graffity.vramSpec vramLen).sizeBytes.toNat % 2 = 0 :=
  even_ofSizes (by decide) rfl

theorem Graffity.even_boardSpecs (g : Graffity) {spec : BoardSpec} (h : spec ∈ g.boardSpecs) :
    spec.sizeBytes.toNat % 2 = 0 := by
  unfold Graffity.boardSpecs at h
  split at h
  · rcases List.mem_cons.mp h with rfl | hregs
    · exact Graffity.even_vramSpec _
    · rcases List.mem_singleton.mp hregs with rfl
      decide
  · rcases List.mem_singleton.mp h with rfl
    decide

/-- Fast RAM's window begins and ends at an even address. -/
def GuestRam.EvenWindow (r : GuestRam) : Prop :=
  ∀ base len, r.fastWindow = some (base, len) → base.toNat % 2 = 0 ∧ len.toNat % 2 = 0

namespace BusDevices

open AutoConfig

variable {δ ρ π : Type} (d : BusDevices δ ρ π)

theorem evenChain_addBoards : ∀ {specs : List BoardSpec} {a : AutoConfig}, a.EvenChain →
    (∀ spec ∈ specs, spec.sizeBytes.toNat % 2 = 0) → (addBoards a specs).2.EvenChain
  | [], _, h, _ => h
  | spec :: specs, a, h, hspecs => by
    have hrest : ∀ s ∈ specs, s.sizeBytes.toNat % 2 = 0 :=
      fun s hs => hspecs s (List.mem_cons_of_mem spec hs)
    have hadded := evenChain_addBoards (h.addBoard (hspecs spec List.mem_cons_self)) hrest
    exact hadded

theorem evenChain_attach {d : BusDevices δ ρ π} (h : d.autoconfig.EvenChain)
    (card : Attach δ ρ π) : (d.attach card).autoconfig.EvenChain := by
  cases card with
  | mirage unit device =>
    simp only [attach, withMirage]
    split
    · exact h
    · exact h.addBoard (by decide)
  | hostblk unit device writeProtect diagRom =>
    simp only [attach, withHostblk]
    split
    · exact h
    · exact h.addBoard (by decide)
  | graphics vram =>
    exact evenChain_addBoards h fun _ => (Graffity.withVariant .zorroII vram).even_boardSpecs
  | graphicsZorroIII vram =>
    exact evenChain_addBoards h fun _ => (Graffity.withVariant .zorroIII vram).even_boardSpecs
  | fastRam mem => exact h.addBoard (Fastram.even_boardSpec _)
  | input diagRom =>
    simp only [attach, withInput]
    split
    · exact h
    · exact h.addBoard (by decide)
  | pktport backend diagRom => exact h.addBoard (by decide)
  | rtgboard vram catalog => exact h.addBoard (by decide)
  | pcibridge backend => exact h.addBoard (by decide)
  | extRom extRom => exact h
  | floppy presence => exact h
  | deviceWriteLog capacity => exact h

theorem autoconfig_host [PciBackend π] (op : HostOp) : (d.host op).autoconfig = d.autoconfig := by
  cases op with
  | mouseButton button pressed =>
    simp only [host, mouseButton]
    split <;> rfl
  | storeFastWindow off value =>
    simp only [host, storeFastWindow]
    split
    · split <;> rfl
    · rfl
  | _ => rfl

/-! ## What an access to a board leaves alone -/

/-- RAM and the bridge's window are as they were. -/
structure SamePlaces (d d' : BusDevices δ ρ π) : Prop where
  ram : d'.ram = d.ram
  bridge : d'.pcibridgeWindow = d.pcibridgeWindow

theorem SamePlaces.raisePorts {d d' : BusDevices δ ρ π} (h : SamePlaces d d') (irq : Bool) :
    SamePlaces d (d'.raisePorts irq) := by
  unfold BusDevices.raisePorts
  split
  · exact ⟨h.ram, h.bridge⟩
  · exact h

theorem SamePlaces.raiseExter {d d' : BusDevices δ ρ π} (h : SamePlaces d d') (irq : Bool) :
    SamePlaces d (d'.raiseExter irq) := by
  unfold BusDevices.raiseExter
  split
  · exact ⟨h.ram, h.bridge⟩
  · exact h

theorem samePlaces_readBoard [BlockDevice δ] [PciBackend π] (idx : Nat) (address : Long) :
    SamePlaces d (d.readBoard idx address).2 := by
  have hrole (role : BoardRole) (offset : Nat) : SamePlaces d (d.readRole role offset).2 := by
    unfold readRole
    split <;> (try split) <;>
      first
      | exact ⟨rfl, rfl⟩
      | exact SamePlaces.raisePorts (by exact ⟨rfl, rfl⟩) _
  unfold readBoard
  split
  · exact ⟨rfl, rfl⟩
  · exact hrole _ _

theorem samePlaces_writeRole [BlockDevice δ] [PciBackend π] {role : BoardRole}
    (hrole : role ≠ .fastRam) (offset : Nat) (value : Byte) :
    SamePlaces d (d.writeRole role offset value) := by
  unfold writeRole
  split <;> (try split) <;>
    first
    | exact absurd rfl hrole
    | exact ⟨rfl, rfl⟩
    | exact SamePlaces.raisePorts (by exact ⟨rfl, rfl⟩) _
    | exact ((SamePlaces.raisePorts (by exact ⟨rfl, rfl⟩) _).raiseExter _).raisePorts _

theorem pcibridgeWindow_writeBoard [BlockDevice δ] [PciBackend π] (idx : Nat) (address : Long)
    (value : Byte) : (d.writeBoard idx address value).pcibridgeWindow = d.pcibridgeWindow := by
  unfold writeBoard
  split
  · rfl
  · by_cases hrole : d.boardRole idx = .fastRam
    · rw [hrole]
      simp only [writeRole]
      split <;> rfl
    · exact (samePlaces_writeRole d hrole _ _).bridge

/-- A board that answers beside the window of fast RAM is another one. -/
theorem boardRole_ne_fastRam {d : BusDevices δ ρ π} {idx : Nat} {address : Long}
    (hwin : d.ram.fastWindow = windowOf d.autoconfig d.ram.fastRamBoard)
    (hboard : d.autoconfig.boardAt address = some idx)
    (hbeside : MachineBus.fastOffset d.ram address = none) : d.boardRole idx ≠ .fastRam := by
  intro hrole
  have hfast : d.ram.fastRamBoard = some idx := by
    unfold boardRole at hrole
    split_ifs at hrole with h1 h2
    · exact h2.symm
    · split at hrole <;> cases hrole
  -- then its window is the board's place, which holds the address
  have hany := List.find?_some hboard
  cases hp : d.autoconfig.placement idx with
  | none =>
    rw [hp] at hany
    cases hany
  | some p =>
    rw [hp, Option.any_some] at hany
    unfold MachineBus.fastOffset at hbeside
    rw [hwin, hfast, windowOf, Option.bind_some, hp] at hbeside
    simp only [Configured.contains, Bool.and_eq_true, decide_eq_true_eq] at hany
    simp only [Option.map_some, if_pos hany] at hbeside
    cases hbeside

theorem ram_writeBoard [BlockDevice δ] [PciBackend π] {d : BusDevices δ ρ π} (hinv : d.MapInv)
    {idx : Nat} {address : Long} (hboard : d.autoconfig.boardAt address = some idx)
    (hbeside : MachineBus.fastOffset d.ram address = none) (value : Byte) :
    (d.writeBoard idx address value).ram = d.ram := by
  have hrole := boardRole_ne_fastRam hinv.window hboard hbeside
  unfold writeBoard
  split
  · rfl
  · exact (samePlaces_writeRole d hrole _ _).ram

section Steps

variable [BlockDevice δ] [PacketBackend ρ] [PciBackend π] [LawfulPacketBackend ρ]
  [LawfulPciBackend π] {d d' : BusDevices δ ρ π}

theorem Change.evenChain (h : Change d d') (heven : d.autoconfig.EvenChain) :
    d'.autoconfig.EvenChain := by
  cases h with
  | drive h => exact h.quiet.chain ▸ heven
  | config address value => exact heven.write address value
  | chip off bs => exact heven
  | fast hmem off bs => exact heven

theorem Changed.evenChain (h : Changed d d') (heven : d.autoconfig.EvenChain) :
    d'.autoconfig.EvenChain := by
  induction h with
  | refl => exact heven
  | tail _ hc ih => exact hc.evenChain ih

end Steps

end BusDevices

namespace MachineBus

open BusDevices

variable {δ ρ π : Type}

/-! ## Regions -/

section Regions

variable {d : BusDevices δ ρ π} {r : GuestRam} {a : Long} {off : Nat}

theorem toNat_succ_of_even (heven : a.toNat % 2 = 0) : (a + 1).toNat = a.toNat + 1 := by
  have hlt := a.isLt
  have hone : (1 : Long).toNat = 1 := rfl
  rw [BitVec.toNat_add, hone]
  omega

theorem inRange_succ {base last : Nat} (hbase : base % 2 = 0) (hlast : last % 2 = 0)
    (heven : a.toNat % 2 = 0) : inRange base last (a + 1) = inRange base last a := by
  rw [Bool.eq_iff_iff, inRange_iff, inRange_iff, toNat_succ_of_even heven]
  omega

theorem overlaid_succ (heven : a.toNat % 2 = 0) : overlaid d (a + 1) = overlaid d a := by
  have hedge : a.toNat + 1 < overlayEnd ↔ a.toNat < overlayEnd := by
    simp only [overlayEnd]
    omega
  unfold overlaid
  rw [toNat_succ_of_even heven, decide_eq_decide.mpr hedge]

theorem fastOffset_succ (hr : r.EvenWindow) (heven : a.toNat % 2 = 0) :
    fastOffset r (a + 1) = (fastOffset r a).map (· + 1) := by
  unfold fastOffset
  cases hw : r.fastWindow with
  | none => rfl
  | some window =>
    obtain ⟨base, len⟩ := window
    have hwindow := hr base len hw
    simp only [toNat_succ_of_even heven]
    split
    · rw [if_pos (by omega)]
      simp only [Option.map_some, Option.some.injEq]
      omega
    · rw [if_neg (by omega)]
      rfl

/-- The second byte of a word is read from the region of the first. -/
theorem fastRegion_succ (hr : d.ram.EvenWindow) (heven : a.toNat % 2 = 0) :
    fastRegion d (a + 1) = (fastRegion d a).map fun region => (region.1, region.2 + 1) := by
  unfold fastRegion
  rw [inRange_succ (by decide) (by decide) heven, inRange_succ (by decide) (by decide) heven,
    overlaid_succ heven, fastOffset_succ hr heven, toNat_succ_of_even heven]
  split
  · rfl
  · cases fastOffset d.ram a with
    | some off => cases d.ram.fastRam <;> rfl
    | none =>
      simp only [Option.map_none]
      split
      · rename_i hrom
        have hin := inRange_iff.mp hrom.2
        simp only [Option.map_some, Option.some.injEq, Prod.mk.injEq, true_and]
        omega
      · rfl

theorem fastRegionMut_succ (hr : r.EvenWindow) (heven : a.toNat % 2 = 0) :
    fastRegionMut r (a + 1) =
      (fastRegionMut r a).map fun region => (region.1, region.2 + 1) := by
  unfold fastRegionMut
  rw [inRange_succ (by decide) (by decide) heven, fastOffset_succ hr heven,
    toNat_succ_of_even heven]
  split
  · rfl
  · cases fastOffset r a with
    | some off => cases r.fastRam <;> rfl
    | none => rfl

theorem fastLoad_eq_some {n : Nat} {bytes : List Byte} (h : fastLoad d a n = some bytes) :
    ∃ region off, fastRegion d a = some (region, off) ∧
      (List.range n).mapM (fun i => region.get? (off + i)) = some bytes := by
  unfold fastLoad at h
  split at h
  · cases h
  · rename_i region off hregion
    exact ⟨region, off, hregion, h⟩

/-- A store that stays in the region it begins in is the store of its two parts. -/
theorem fastStore_append {region : RamRegion} {xs ys : List Byte} {next : Long}
    (h : fastRegionMut d.ram a = some (region, off))
    (hnext : fastRegionMut d.ram next = some (region, off + xs.length))
    (hsize : off + (xs ++ ys).length ≤ region.size) :
    fastStore d a (xs ++ ys) = (fastStore d a xs).bind fun d' => fastStore d' next ys := by
  rw [List.length_append] at hsize
  unfold fastStore
  rw [h]
  simp only [List.length_append]
  rw [if_pos (by omega), if_pos (by omega), Option.bind_some]
  cases region with
  | chip =>
    obtain ⟨hin, hoff⟩ := fastRegionMut_chip hnext
    have hstored : fastRegionMut (storeRegion d.ram .chip off xs) next =
        some (.chip, off + xs.length) := by
      rw [hoff]
      exact if_pos hin
    simp only [hstored]
    rw [if_pos (by omega)]
    simp only [storeRegion, Buffer.setFrom_append]
  | fast mem =>
    obtain ⟨hchip, hoff, -⟩ := fastRegionMut_fast hnext
    have hstored : fastRegionMut (storeRegion d.ram (.fast mem) off xs) next =
        some (.fast { mem with bytes := mem.bytes.setFrom off xs }, off + xs.length) := by
      have hoff' : fastOffset (storeRegion d.ram (.fast mem) off xs) next =
          some (off + xs.length) := hoff
      unfold fastRegionMut
      rw [hchip, hoff']
      rfl
    simp only [hstored]
    have hfits : off + xs.length + ys.length ≤
        RamRegion.size (.fast { mem with bytes := mem.bytes.setFrom off xs }) := by
      show off + xs.length + ys.length ≤ mem.size
      have hmem : RamRegion.size (.fast mem) = mem.size := rfl
      omega
    rw [if_pos hfits]
    simp only [storeRegion, Buffer.setFrom_append]

theorem fastStore_word (hr : d.ram.EvenWindow) (heven : a.toNat % 2 = 0) {x y : Byte}
    {d' : BusDevices δ ρ π} (h : fastStore d a [x, y] = some d') :
    ∃ mid, fastStore d a [x] = some mid ∧ fastStore mid (a + 1) [y] = some d' := by
  obtain ⟨region, off, hregion, hsize, -⟩ := fastStore_eq_some h
  have hnext := fastRegionMut_succ hr heven
  rw [hregion, Option.map_some] at hnext
  rw [show [x, y] = [x] ++ [y] from rfl, fastStore_append hregion hnext hsize] at h
  exact Option.bind_eq_some_iff.mp h

theorem pcibridgeWindow_fastStore {bs : List Byte} {d' : BusDevices δ ρ π}
    (h : fastStore d a bs = some d') : d'.pcibridgeWindow = d.pcibridgeWindow := by
  obtain ⟨_, _, -, -, rfl⟩ := fastStore_eq_some h
  rfl

theorem toNat_add_two (a : Long) : (a + 2).toNat = (a.toNat + 2) % 0x100000000 := by
  have htwo : (2 : Long).toNat = 2 := rfl
  rw [BitVec.toNat_add, htwo]

theorem add_two_succ (a : Long) : a + 2 + 1 = a + 3 := by
  rw [BitVec.add_assoc]
  rfl

theorem toBytes32_halves (value : Long) :
    toBytes32 value =
      toBytes16 ((value >>> 16).setWidth 16) ++ toBytes16 (value.setWidth 16) := by
  have h0 : byteOf value 0 = ((value >>> 16).setWidth 16 >>> 8).setWidth 8 := by
    refine BitVec.eq_of_getLsbD_eq fun i hi => ?_
    simp [byteOf, hi, show 8 + i < 16 by omega, show 16 + (8 + i) = 24 + i by omega]
  have h1 : byteOf value 1 = ((value >>> 16).setWidth 16).setWidth 8 := by
    refine BitVec.eq_of_getLsbD_eq fun i hi => ?_
    simp [byteOf, hi]
  have h2 : byteOf value 2 = (value.setWidth 16 >>> 8).setWidth 8 := by
    refine BitVec.eq_of_getLsbD_eq fun i hi => ?_
    simp [byteOf, hi, show 8 + i < 16 by omega]
  have h3 : byteOf value 3 = (value.setWidth 16).setWidth 8 := by
    refine BitVec.eq_of_getLsbD_eq fun i hi => ?_
    simp [byteOf, hi]
  unfold toBytes32 toBytes16
  rw [h0, h1, h2, h3]
  rfl

theorem fastOffset_eq_some (h : fastOffset r a = some off) :
    ∃ base len, r.fastWindow = some (base, len) ∧ base.toNat ≤ a.toNat ∧
      off = a.toNat - base.toNat ∧ off < len.toNat := by
  unfold fastOffset at h
  split at h
  · cases h
  · rename_i base len hw
    split at h
    · rename_i hin
      cases h
      exact ⟨base, len, hw, hin.1, rfl, hin.2⟩
    · cases h

/-- Fast RAM was placed clear of chip RAM and of the ROM's window. -/
def WindowApart (r : GuestRam) : Prop :=
  ∀ a off, fastOffset r a = some off →
    inRange chipRamBase chipRamEnd a = false ∧ inRange romBase romEnd a = false

/-- A longword in fast RAM's buffer that begins in its window and does not end in it. -/
def Overrun (r : GuestRam) (a : Long) : Prop :=
  ∃ mem off, r.fastRam = some mem ∧ fastOffset r a = some off ∧ off + 4 ≤ mem.size ∧
    fastOffset r (a + 2) = none

/-- The third byte of a longword that fits in the buffer is in the window too. -/
theorem fastOffset_add_two (hapart : WindowApart r) (hover : ¬ Overrun r a) {mem : ByteSlice}
    (hmem : r.fastRam = some mem) (h : fastOffset r a = some off) (hsize : off + 4 ≤ mem.size) :
    fastOffset r (a + 2) = some (off + 2) := by
  cases hnext : fastOffset r (a + 2) with
  | none => exact absurd ⟨mem, off, hmem, h, hsize, hnext⟩ hover
  | some off' =>
    obtain ⟨base, len, hw, hbase, rfl, -⟩ := fastOffset_eq_some h
    obtain ⟨base', len', hw', hbase', rfl, -⟩ := fastOffset_eq_some hnext
    rw [hw] at hw'
    cases hw'
    -- at the top of the address space the next word would be chip RAM
    have hchip := inRange_eq_false.mp (hapart _ _ hnext).1
    simp only [chipRamBase, chipRamEnd, chipRamSize] at hchip
    have hlt := a.isLt
    rw [toNat_add_two] at hbase' hchip ⊢
    rw [Option.some.injEq]
    omega

/-- A longword that fits in the slice of its first byte is read from one region. -/
theorem fastRegion_add_two (hapart : WindowApart d.ram) (hover : ¬ Overrun d.ram a)
    {region : ByteSlice} (h : fastRegion d a = some (region, off)) (hsize : off + 4 ≤ region.size) :
    fastRegion d (a + 2) = some (region, off + 2) := by
  have hlt := a.isLt
  have hnext := toNat_add_two a
  unfold fastRegion at h
  split at h
  · rename_i hin
    cases h
    rw [Bool.and_eq_true, inRange_iff] at hin
    have hsum : (a + 2).toNat = a.toNat + 2 := by
      have hchip : a.toNat + 4 ≤ 0x200000 := hsize
      omega
    have hchip : inRange chipRamBase chipRamEnd (a + 2) = true := by
      have hfits : a.toNat + 4 ≤ chipRamEnd := hsize
      rw [inRange_iff]
      exact ⟨Nat.zero_le _, by omega⟩
    have hclear : overlaid d (a + 2) = false := by
      have hbefore := hin.2
      simp only [overlaid, Bool.not_eq_true', Bool.and_eq_false_iff, decide_eq_false_iff_not]
        at hbefore ⊢
      rcases hbefore with hoff | hoff
      · exact .inl hoff
      · exact .inr (by omega)
    unfold fastRegion
    rw [hchip, hclear, hsum]
    rfl
  · cases hoff : fastOffset d.ram a with
    | some off' =>
      rw [hoff] at h
      obtain ⟨mem, hmem, heq⟩ := Option.map_eq_some_iff.mp h
      cases heq
      have hoff2 := fastOffset_add_two hapart hover hmem hoff hsize
      unfold fastRegion
      rw [(hapart _ _ hoff2).1, hoff2, hmem]
      rfl
    | none =>
      rw [hoff] at h
      simp only at h
      split at h
      · rename_i hrom
        cases h
        have hin := inRange_iff.mp hrom.2
        rw [hrom.1] at hsize
        simp only [romBase, romEnd, romWindowSize] at hin hsize
        have hsum : (a + 2).toNat = a.toNat + 2 := by omega
        have hrom2 : inRange romBase romEnd (a + 2) = true := by
          rw [inRange_iff]
          simp only [romBase, romEnd, romWindowSize]
          omega
        have hchip2 : inRange chipRamBase chipRamEnd (a + 2) = false := by
          rw [inRange_eq_false]
          simp only [chipRamBase, chipRamEnd, chipRamSize]
          omega
        have hoff2 : fastOffset d.ram (a + 2) = none := by
          refine Option.eq_none_iff_forall_not_mem.mpr fun off' hoff' => ?_
          have hbeside := (hapart _ _ hoff').2
          rw [hrom2] at hbeside
          cases hbeside
        unfold fastRegion
        rw [hchip2, hoff2, hrom2, hsum]
        simp only [Bool.false_and, Bool.false_eq_true, if_false, hrom.1, and_self, if_true,
          Option.some.injEq, Prod.mk.injEq, true_and]
        simp only [romBase]
        omega
      · cases h

theorem fastRegionMut_add_two (hapart : WindowApart r) (hover : ¬ Overrun r a) {region : RamRegion}
    (h : fastRegionMut r a = some (region, off)) (hsize : off + 4 ≤ region.size) :
    fastRegionMut r (a + 2) = some (region, off + 2) := by
  have hnext := toNat_add_two a
  cases region with
  | chip =>
    obtain ⟨-, rfl⟩ := fastRegionMut_chip h
    have hfits : a.toNat + 4 ≤ chipRamEnd := hsize
    have hend : chipRamEnd = 0x200000 := rfl
    have hchip : inRange chipRamBase chipRamEnd (a + 2) = true := by
      rw [inRange_iff]
      exact ⟨Nat.zero_le _, by omega⟩
    unfold fastRegionMut
    rw [hchip, if_pos rfl, hnext, Nat.mod_eq_of_lt (by omega)]
  | fast mem =>
    obtain ⟨-, hoff, hmem⟩ := fastRegionMut_fast h
    have hoff2 := fastOffset_add_two hapart hover hmem hoff hsize
    unfold fastRegionMut
    rw [(hapart _ _ hoff2).1, hoff2, hmem]
    rfl

/-- The address is none of the registers that answer an access as a whole, nor a CIA's. -/
structure Outside (d : BusDevices δ ρ π) (a : Long) : Prop where
  cia : inRange ciaBase ciaEnd a = false
  custom : inRange customBase customEnd a = false
  aperture : ∀ offset, pcibridgeTarget d a = some offset → offset < Pcibridge.apertureBaseOffset

theorem Outside.not_sized (h : Outside d a) (width : AccessWidth) :
    pcibridgeApertureSized d a width = none := by
  unfold pcibridgeApertureSized
  split
  · rfl
  · cases ht : pcibridgeTarget d a with
    | none => rfl
    | some offset => exact if_neg (Nat.not_le.mpr (h.aperture offset ht))

theorem Outside.succ_windows (h : Outside d a) (heven : a.toNat % 2 = 0) :
    inRange ciaBase ciaEnd (a + 1) = false ∧ inRange customBase customEnd (a + 1) = false :=
  ⟨(inRange_succ (by decide) (by decide) heven).trans h.cia,
    (inRange_succ (by decide) (by decide) heven).trans h.custom⟩

theorem Outside.of_bridge {d' : BusDevices δ ρ π} (h : Outside d a)
    (hbridge : d'.pcibridgeWindow = d.pcibridgeWindow) : Outside d' a := by
  refine ⟨h.cia, h.custom, ?_⟩
  unfold pcibridgeTarget
  rw [hbridge]
  exact h.aperture

end Regions

variable [BlockDevice δ] [PacketBackend ρ] [PciBackend π]

section Lawful

variable [LawfulPacketBackend ρ] [LawfulPciBackend π] {b : MachineBus δ ρ π}

theorem evenChain_step (h : b.devices.autoconfig.EvenChain) (op : BusOp δ ρ π) :
    (b.step op).devices.autoconfig.EvenChain := by
  cases op with
  | guest op => exact (changed_stepGuest b op).evenChain h
  | host op =>
    simp only [step, stepHost]
    split
    · exact h
    · exact (autoconfig_host b.devices op).symm ▸ h
  | attach card => exact evenChain_attach h card

theorem Reachable.evenChain (h : b.Reachable) : b.devices.autoconfig.EvenChain := by
  refine Transition.Reachable.invariant (P := fun b => b.devices.autoconfig.EvenChain) ?_ ?_ h
  · rintro _ ⟨chipRam, rom, rfl⟩
    exact AutoConfig.evenChain_new
  · exact fun _ op hinv => evenChain_step hinv op

theorem Reachable.evenWindow (h : b.Reachable) : b.devices.ram.EvenWindow := by
  intro base len hw
  rw [h.mapInv.window] at hw
  obtain ⟨p, hp, heq⟩ := Option.map_eq_some_iff.mp hw
  obtain ⟨i, -, hi⟩ := Option.bind_eq_some_iff.mp hp
  cases heq
  exact h.evenChain.placement i p hi

end Lawful

/-! ## Words -/

/-- A word is two bytes, the most significant first. -/
structure SameWord (b : MachineBus δ ρ π) (a : Long) : Prop where
  read : b.readWord a = b.readWordBytes a
  write : ∀ value, b.writeWord a value = b.writeWordBytes a value

section Words

variable {b : MachineBus δ ρ π} {d : BusDevices δ ρ π} {a : Long} {off : Nat}

omit [BlockDevice δ] [PacketBackend ρ] in
theorem apertureLoad_outside (h : Outside b.devices a) (width : AccessWidth) :
    b.apertureLoad a width = none := by
  unfold apertureLoad
  rw [h.not_sized width]

omit [BlockDevice δ] [PacketBackend ρ] in
theorem apertureStore_outside (h : Outside b.devices a) (width : AccessWidth) (value : Long) :
    b.apertureStore a width value = none := by
  unfold apertureStore
  rw [h.not_sized width]

theorem readByte_of_region {region : ByteSlice} {value : Byte}
    (h : fastRegion b.devices a = some (region, off)) (hv : region.get? off = some value) :
    b.readByte a = (value, b) := by
  unfold readByte
  rw [h, Option.bind_some, hv]

/-- **A word is read as its two bytes.** -/
theorem readWord_bytes (hr : b.devices.ram.EvenWindow) (heven : a.toNat % 2 = 0)
    (h : Outside b.devices a) : b.readWord a = b.readWordBytes a := by
  unfold readWord
  rw [h.custom, Bool.and_false, apertureLoad_outside h]
  simp only [Bool.false_eq_true, if_false]
  split
  · rename_i bytes hload
    obtain ⟨region, off, hregion, hbytes⟩ := fastLoad_eq_some hload
    have hnext := fastRegion_succ hr heven
    rw [hregion, Option.map_some] at hnext
    simp only [List.range, List.range.loop, List.mapM_cons, List.mapM_nil, Nat.add_zero,
      Option.bind_eq_bind, Option.bind_eq_some_iff, Option.pure_def, Option.some.injEq] at hbytes
    obtain ⟨x, hx, _, ⟨y, hy, _, rfl, rfl⟩, rfl⟩ := hbytes
    unfold readWordBytes
    rw [readByte_of_region hregion hx]
    simp only
    rw [readByte_of_region hnext hy]
    rfl
  · rfl

theorem writeByte_of_store {value : Byte} (h : fastStore b.devices a [value] = some d) :
    b.writeByte a value = { b with devices := d } := by
  unfold writeByte
  rw [h]

/-- Two bytes that are stored as one word. -/
theorem writeWordBytes_of_store (hr : b.devices.ram.EvenWindow) (heven : a.toNat % 2 = 0)
    {value : Word} (h : fastStore b.devices a (toBytes16 value) = some d) :
    b.writeWordBytes a value = { b with devices := d } := by
  obtain ⟨mid, hfirst, hsecond⟩ := fastStore_word hr heven h
  unfold writeWordBytes
  rw [writeByte_of_store hfirst, writeByte_of_store (b := { b with devices := mid }) hsecond]

/-- **A word is written as its two bytes.** -/
theorem writeWord_bytes (hr : b.devices.ram.EvenWindow) (heven : a.toNat % 2 = 0)
    (h : Outside b.devices a) (value : Word) : b.writeWord a value = b.writeWordBytes a value := by
  unfold writeWord
  rw [h.custom, apertureStore_outside h]
  simp only [Bool.false_eq_true, if_false]
  split
  · rename_i d' hstore
    exact (writeWordBytes_of_store hr heven hstore).symm
  · rfl

end Words

/-! ## Longwords -/

def readLongBytes (b : MachineBus δ ρ π) (address : Long) : Long × MachineBus δ ρ π :=
  let (b0, b) := b.readByte address
  let (b1, b) := b.readByte (address + 1)
  let (b2, b) := b.readByte (address + 2)
  let (b3, b) := b.readByte (address + 3)
  (be32 b0 b1 b2 b3, b)

def writeLongBytes (b : MachineBus δ ρ π) (address value : Long) : MachineBus δ ρ π :=
  let b := b.writeByte address (byteOf value 0)
  let b := b.writeByte (address + 1) (byteOf value 1)
  let b := b.writeByte (address + 2) (byteOf value 2)
  b.writeByte (address + 3) (byteOf value 3)

/-- A longword is four bytes, the most significant first. -/
structure SameLong (b : MachineBus δ ρ π) (a : Long) : Prop where
  read : b.readLong a = b.readLongBytes a
  write : ∀ value, b.writeLong a value = b.writeLongBytes a value

section Longs

variable {b : MachineBus δ ρ π} {d : BusDevices δ ρ π} {r : GuestRam} {a : Long} {off : Nat}

/-! ### Between the halves -/

/-- A read beside the CIAs and the custom chips leaves the map alone. -/
theorem samePlaces_readByte (hcia : inRange ciaBase ciaEnd a = false)
    (hcustom : inRange customBase customEnd a = false) :
    SamePlaces b.devices (b.readByte a).2.devices := by
  have hslow : SamePlaces b.devices (b.readByteSlow a).2.devices := by
    unfold readByteSlow
    simp only [hcia, hcustom, Bool.false_eq_true, if_false]
    split_ifs
    · exact ⟨rfl, rfl⟩
    · exact ⟨rfl, rfl⟩
    · exact ⟨rfl, rfl⟩
    · exact ⟨rfl, rfl⟩
    · exact ⟨rfl, rfl⟩
    · split
      · rw [devices_requestBoundary]
        exact samePlaces_readBoard b.devices _ a
      · exact ⟨rfl, rfl⟩
  unfold readByte
  split
  · exact ⟨rfl, rfl⟩
  · exact hslow

theorem samePlaces_readWordBytes (h : Outside b.devices a) (heven : a.toNat % 2 = 0) :
    SamePlaces b.devices (b.readWordBytes a).2.devices := by
  obtain ⟨hcia, hcustom⟩ := h.succ_windows heven
  have hfirst := samePlaces_readByte (b := b) h.cia h.custom
  have hsecond := samePlaces_readByte (b := (b.readByte a).2) hcia hcustom
  exact ⟨hsecond.ram.trans hfirst.ram, hsecond.bridge.trans hfirst.bridge⟩

/-- **A longword is read as its four bytes.** -/
theorem readLong_bytes (hr : b.devices.ram.EvenWindow) (hapart : WindowApart b.devices.ram)
    (heven : a.toNat % 2 = 0) (h : Outside b.devices a) (h2 : Outside b.devices (a + 2))
    (hover : ¬ Overrun b.devices.ram a) : b.readLong a = b.readLongBytes a := by
  have heven2 : (a + 2).toNat % 2 = 0 := by
    rw [toNat_add_two]
    omega
  unfold readLong
  rw [apertureLoad_outside h]
  split
  · rename_i bytes hload
    obtain ⟨region, off, hregion, hbytes⟩ := fastLoad_eq_some hload
    simp only [List.range, List.range.loop, List.mapM_cons, List.mapM_nil, Nat.add_zero,
      Option.bind_eq_bind, Option.bind_eq_some_iff, Option.pure_def, Option.some.injEq] at hbytes
    obtain ⟨x0, hx0, _, ⟨x1, hx1, _, ⟨x2, hx2, _, ⟨x3, hx3, _, rfl, rfl⟩, rfl⟩, rfl⟩, rfl⟩ := hbytes
    have hsize : off + 4 ≤ region.size := by
      by_contra hlt
      unfold ByteSlice.get? at hx3
      rw [Buffer.get?_eq_none (by omega)] at hx3
      cases hx3
    have hregion1 := fastRegion_succ hr heven
    have hregion2 := fastRegion_add_two hapart hover hregion hsize
    have hregion3 := fastRegion_succ hr heven2
    rw [hregion, Option.map_some] at hregion1
    rw [hregion2, Option.map_some, add_two_succ] at hregion3
    unfold readLongBytes
    rw [readByte_of_region hregion hx0]
    simp only
    rw [readByte_of_region hregion1 hx1]
    simp only
    rw [readByte_of_region hregion2 hx2]
    simp only
    rw [readByte_of_region hregion3 hx3]
    rfl
  · have hplaces := samePlaces_readWordBytes h heven
    have hhigh := readWord_bytes hr heven h
    have hlow := readWord_bytes (b := (b.readWordBytes a).2) (hplaces.ram.symm ▸ hr) heven2
      (h2.of_bridge hplaces.bridge)
    simp only [hhigh, hlow]
    unfold readWordBytes readLongBytes
    simp only [add_two_succ, be16_append]

theorem writeLongBytes_halves (b : MachineBus δ ρ π) (a value : Long) :
    b.writeLongBytes a value = (b.writeWordBytes a ((value >>> 16).setWidth 16)).writeWordBytes
      (a + 2) (value.setWidth 16) := by
  have hbytes := toBytes32_halves value
  simp only [toBytes32, toBytes16, List.cons_append, List.nil_append, List.cons.injEq] at hbytes
  obtain ⟨h0, h1, h2, h3, -⟩ := hbytes
  unfold writeLongBytes writeWordBytes
  simp only [h0, h1, h2, h3, add_two_succ]

/-- **A longword is written as its four bytes.** -/
theorem writeLong_bytes {value : Long} (hr : b.devices.ram.EvenWindow)
    (hapart : WindowApart b.devices.ram) (heven : a.toNat % 2 = 0) (h : Outside b.devices a)
    (hover : ¬ Overrun b.devices.ram a)
    (hmid : (b.writeWordBytes a ((value >>> 16).setWidth 16)).devices.ram.EvenWindow)
    (h2 : Outside (b.writeWordBytes a ((value >>> 16).setWidth 16)).devices (a + 2)) :
    b.writeLong a value = b.writeLongBytes a value := by
  have heven2 : (a + 2).toNat % 2 = 0 := by
    rw [toNat_add_two]
    omega
  rw [writeLongBytes_halves]
  unfold writeLong
  rw [apertureStore_outside h]
  split
  · rename_i d' hstore
    obtain ⟨region, off, hregion, hsize, -⟩ := fastStore_eq_some hstore
    have hnext := fastRegionMut_add_two hapart hover hregion hsize
    rw [toBytes32_halves] at hstore hsize
    rw [fastStore_append hregion hnext hsize] at hstore
    obtain ⟨mid, hfirst, hsecond⟩ := Option.bind_eq_some_iff.mp hstore
    have hhigh := writeWordBytes_of_store hr heven hfirst
    rw [hhigh] at hmid ⊢
    exact (writeWordBytes_of_store (b := { b with devices := mid }) hmid heven2 hsecond).symm
  · have hhigh := writeWord_bytes hr heven h ((value >>> 16).setWidth 16)
    rw [Option.getD_none, hhigh]
    exact writeWord_bytes hmid heven2 h2 _

/-! ### Writes beside the window -/

/-- Only the AUTOCONFIG window places the bridge. -/
theorem pcibridgeWindow_writeByte (hcia : inRange ciaBase ciaEnd a = false)
    (hcustom : inRange customBase customEnd a = false) (hconfig : AutoConfig.respondsTo a = false)
    (value : Byte) :
    (b.writeByte a value).devices.pcibridgeWindow = b.devices.pcibridgeWindow := by
  unfold writeByte
  split
  · rename_i hstore
    exact pcibridgeWindow_fastStore hstore
  · split
    · rfl
    · rw [devices_requestBoundary]
      unfold writeByteSlow
      simp only [hcia, hcustom, hconfig, Bool.false_eq_true, if_false]
      split
      · exact pcibridgeWindow_writeBoard b.devices _ a value
      · rfl

theorem pcibridgeWindow_writeWordBytes (h : Outside b.devices a) (heven : a.toNat % 2 = 0)
    (hconfig : AutoConfig.respondsTo a = false) (value : Word) :
    (b.writeWordBytes a value).devices.pcibridgeWindow = b.devices.pcibridgeWindow := by
  obtain ⟨hcia, hcustom⟩ := h.succ_windows heven
  have hconfig1 : AutoConfig.respondsTo (a + 1) = false := by
    rw [Bool.eq_false_iff, ne_eq, AutoConfig.respondsTo_iff] at hconfig ⊢
    rw [toNat_succ_of_even heven]
    omega
  unfold writeWordBytes
  rw [pcibridgeWindow_writeByte hcia hcustom hconfig1,
    pcibridgeWindow_writeByte h.cia h.custom hconfig]

theorem fastRam_writeByte (hinv : b.devices.MapInv) (hcia : inRange ciaBase ciaEnd a = false)
    (hcustom : inRange customBase customEnd a = false)
    (hbeside : fastOffset b.devices.ram a = none) (value : Byte) :
    (b.writeByte a value).devices.ram.fastRam = b.devices.ram.fastRam := by
  unfold writeByte
  split
  · rename_i hstore
    obtain ⟨region, off, hregion, -, rfl⟩ := fastStore_eq_some hstore
    cases region with
    | chip => rfl
    | fast mem =>
      rw [(fastRegionMut_fast hregion).2.1] at hbeside
      cases hbeside
  · split
    · rfl
    · rw [devices_requestBoundary]
      unfold writeByteSlow
      simp only [hcia, hcustom, Bool.false_eq_true, if_false]
      split
      · rfl
      · split
        · rename_i hboard
          exact congrArg GuestRam.fastRam (ram_writeBoard hinv hboard hbeside value)
        · rfl

section Lawful

variable [LawfulPacketBackend ρ] [LawfulPciBackend π]

/-- Both bytes of a word beside the window leave fast RAM alone. -/
theorem fastRam_writeWordBytes {w : Long × Long} (hinv : b.devices.MapInv)
    (hw : b.devices.ram.fastWindow = some w) (hr : b.devices.ram.EvenWindow)
    (hcia : inRange ciaBase ciaEnd a = false) (hcustom : inRange customBase customEnd a = false)
    (heven : a.toNat % 2 = 0) (hbeside : fastOffset b.devices.ram a = none) (value : Word) :
    (b.writeWordBytes a value).devices.ram.fastRam = b.devices.ram.fastRam := by
  have hcia1 := (inRange_succ (by decide) (by decide) heven).trans hcia
  have hcustom1 := (inRange_succ (by decide) (by decide) heven).trans hcustom
  have hkept := (changed_writeByte b a ((value >>> 8).setWidth 8)).kept
  have hwindow := (hkept.window hinv w hw).1
  have hnext : fastOffset (b.writeByte a ((value >>> 8).setWidth 8)).devices.ram (a + 1)
      = none := by
    have hbefore := fastOffset_succ hr heven
    rw [hbeside] at hbefore
    unfold fastOffset at hbefore ⊢
    rw [hwindow]
    exact hbefore
  unfold writeWordBytes
  rw [fastRam_writeByte (hkept.map hinv) hcia1 hcustom1 hnext,
    fastRam_writeByte hinv hcia hcustom hbeside]

/-- **A longword that overruns the window is not its four bytes.** -/
theorem not_sameLong_of_overrun (hreach : b.Reachable) (hapart : WindowApart b.devices.ram)
    (heven : a.toNat % 2 = 0) (h2 : Outside b.devices (a + 2))
    (hover : Overrun b.devices.ram a) : ¬ b.SameLong a := by
  intro hsame
  obtain ⟨mem, off, hmem, hoff, hsize, hbeside⟩ := hover
  obtain ⟨base, len, hw, -⟩ := fastOffset_eq_some hoff
  have heven2 : (a + 2).toNat % 2 = 0 := by
    rw [toNat_add_two]
    omega
  have hregion : fastRegionMut b.devices.ram a = some (.fast mem, off) := by
    unfold fastRegionMut
    rw [(hapart _ _ hoff).1, hoff, hmem]
    rfl
  have hstore (bs : List Byte) (hbs : bs.length ≤ 4) : fastStore b.devices a bs =
      some { b.devices with ram := storeRegion b.devices.ram (.fast mem) off bs } := by
    have hfits : off + bs.length ≤ RamRegion.size (.fast mem) := by
      show off + bs.length ≤ mem.size
      omega
    unfold fastStore
    rw [hregion]
    exact if_pos hfits
  -- a longword whose third byte is not what the buffer holds there
  obtain ⟨x, hx⟩ : ∃ x, mem.bytes.get? (off + 2) = some x :=
    ⟨_, Buffer.get?_eq_some (by omega)⟩
  obtain ⟨value, hvalue⟩ : ∃ value : Long, byteOf value 2 ≠ x := by
    refine ⟨(~~~x).setWidth 32 <<< 8, fun heq => ?_⟩
    have hbit := congrArg (fun y : Byte => y.getLsbD 0) heq
    simp [byteOf] at hbit
  have hwhole : ((b.writeLong a value).devices.ram.fastRam.bind fun m => m.get? (off + 2)) =
      some (byteOf value 2) := by
    unfold writeLong
    rw [hstore (toBytes32 value) (Nat.le_refl 4)]
    have hin : off + 2 < mem.size := by omega
    simp [storeRegion, ByteSlice.get?, toBytes32, Buffer.setFrom, Buffer.get?_set, hin]
  have hfirst := writeWordBytes_of_store hreach.evenWindow heven
    (hstore (toBytes16 ((value >>> 16).setWidth 16)) (by show 2 ≤ 4; omega))
  obtain ⟨stored, hram, hfirst, hchain⟩ : ∃ stored : BusDevices δ ρ π,
      stored.ram = storeRegion b.devices.ram (.fast mem) off
        (toBytes16 ((value >>> 16).setWidth 16)) ∧
      b.writeWordBytes a ((value >>> 16).setWidth 16) = { b with devices := stored } ∧
      stored.autoconfig = b.devices.autoconfig := ⟨_, rfl, hfirst, rfl⟩
  have hkept : ((b.writeLongBytes a value).devices.ram.fastRam.bind fun m => m.get? (off + 2)) =
      some x := by
    have hinv : stored.MapInv :=
      hreach.mapInv.of_chain (by rw [hram]; exact ⟨rfl, rfl, by rw [hmem]; rfl⟩) hchain
    have hsecond := fastRam_writeWordBytes (b := { b with devices := stored }) hinv
      (by rw [hram]; exact hw) (by rw [hram]; exact hreach.evenWindow) h2.cia h2.custom heven2
      (by rw [hram]; exact hbeside) (value.setWidth 16)
    rw [writeLongBytes_halves, hfirst, hsecond, hram]
    simp [storeRegion, ByteSlice.get?, toBytes16, Buffer.setFrom, Buffer.get?_set, hx]
  rw [hsame.write value, hkept] at hwhole
  exact hvalue (Option.some.inj hwhole).symm

/-- The second half is outside also once the first half of `value` is written: written to the
AUTOCONFIG window it can place the bridge over it. -/
def StaysOutside (b : MachineBus δ ρ π) (a value : Long) : Prop :=
  AutoConfig.respondsTo a = true →
    Outside (b.writeWordBytes a ((value >>> 16).setWidth 16)).devices (a + 2)

omit [LawfulPacketBackend ρ] [LawfulPciBackend π] in
theorem reachable_writeWordBytes (h : b.Reachable) (a : Long) (value : Word) :
    (b.writeWordBytes a value).Reachable :=
  h.run [.guest (.access (.writeByte a ((value >>> 8).setWidth 8))),
    .guest (.access (.writeByte (a + 1) (value.setWidth 8)))]

theorem sameWord {b : MachineBus δ ρ π} (h : b.Reachable) {a : Long} (heven : a.toNat % 2 = 0)
    (hout : Outside b.devices a) : b.SameWord a :=
  ⟨readWord_bytes h.evenWindow heven hout, writeWord_bytes h.evenWindow heven hout⟩

theorem writeLong_sameBytes {b : MachineBus δ ρ π} (h : b.Reachable)
    (hapart : WindowApart b.devices.ram) {a : Long} (heven : a.toNat % 2 = 0)
    (hout : Outside b.devices a) (hout2 : Outside b.devices (a + 2))
    (hover : ¬ Overrun b.devices.ram a) {value : Long} (hstays : b.StaysOutside a value) :
    b.writeLong a value = b.writeLongBytes a value := by
  have hmid := reachable_writeWordBytes h a ((value >>> 16).setWidth 16)
  refine writeLong_bytes h.evenWindow hapart heven hout hover hmid.evenWindow ?_
  cases hconfig : AutoConfig.respondsTo a with
  | true => exact hstays hconfig
  | false => exact hout2.of_bridge (pcibridgeWindow_writeWordBytes hout heven hconfig _)

/-- **Every access width is the same memory.** A word always is its two bytes; a longword is its
four bytes unless it overruns fast RAM's window, and then it is not. -/
theorem access_widths {b : MachineBus δ ρ π} (h : b.Reachable)
    (hapart : WindowApart b.devices.ram) {a : Long} (heven : a.toNat % 2 = 0)
    (hout : Outside b.devices a) :
    b.SameWord a ∧ (Outside b.devices (a + 2) →
      (¬ Overrun b.devices.ram a → b.readLong a = b.readLongBytes a ∧
        ∀ value, b.StaysOutside a value → b.writeLong a value = b.writeLongBytes a value) ∧
      (Overrun b.devices.ram a → ¬ b.SameLong a)) := by
  refine ⟨sameWord h heven hout, fun hout2 => ⟨fun hover => ⟨?_, fun value hstays => ?_⟩, ?_⟩⟩
  · exact readLong_bytes h.evenWindow hapart heven hout hout2 hover
  · exact writeLong_sameBytes h hapart heven hout hout2 hover hstays
  · exact not_sameLong_of_overrun h hapart heven hout2

end Lawful

end Longs

/-- Fast RAM of `size` bytes at `$10000000`. -/
def largeMachine (size : Nat) : MachineBus MemDisk Empty Empty :=
  Transition.run step (MachineBus.new (fun _ => 0) (ByteSlice.zero 0))
    [.attach (.fastRam (ByteSlice.zero size)), .guest (.access (.writeByte 0xE80044 0x10)),
      .guest (.access (.writeByte 0xE80045 0x00))]

theorem reachable_largeMachine (size : Nat) : (largeMachine size).Reachable :=
  (Transition.Reachable.start ⟨_, _, rfl⟩).run _

/-- A window that lies above `$10000000` is clear of chip RAM and ROM. -/
theorem windowApart_of_high {r : GuestRam} {base len : Long} (hw : r.fastWindow = some (base, len))
    (hbase : 0x10000000 ≤ base.toNat) : WindowApart r := by
  intro a off hoff
  obtain ⟨base', len', hw', hle, -⟩ := fastOffset_eq_some hoff
  rw [hw] at hw'
  cases hw'
  simp only [inRange_eq_false, chipRamEnd, chipRamBase, chipRamSize, romEnd, romBase,
    romWindowSize]
  omega

theorem outside_of_unbridged {δ ρ π : Type} {d : BusDevices δ ρ π} {a : Long}
    (h : d.pcibridgeWindow = none) (hcia : inRange ciaBase ciaEnd a = false)
    (hcustom : inRange customBase customEnd a = false) : Outside d a := by
  refine ⟨hcia, hcustom, fun offset htarget => ?_⟩
  unfold pcibridgeTarget at htarget
  rw [h] at htarget
  cases htarget

/-- The longword across the end of 16 MB of fast RAM. -/
theorem access_widths_end : (largeMachine 0x01000000).SameLong 0x10FFFFFE := by
  have hw : (largeMachine 0x01000000).devices.ram.fastWindow =
      some (0x10000000, 0x01000000) := by decide
  have hbridge : (largeMachine 0x01000000).devices.pcibridgeWindow = none := by decide
  have hover : ¬ Overrun (largeMachine 0x01000000).devices.ram 0x10FFFFFE := by
    rintro ⟨mem, off, hmem, hoff, hsize, -⟩
    have hsized : (largeMachine 0x01000000).devices.ram.fastRam.map (·.size) =
        some 0x01000000 := by decide
    have hplaced : fastOffset (largeMachine 0x01000000).devices.ram 0x10FFFFFE =
        some 0x00FFFFFE := by decide
    rw [hmem, Option.map_some, Option.some.injEq] at hsized
    rw [hoff, Option.some.injEq] at hplaced
    omega
  obtain ⟨hread, hwrite⟩ := ((access_widths (reachable_largeMachine _)
    (windowApart_of_high hw (by decide)) (by decide)
    (outside_of_unbridged hbridge (by decide) (by decide))).2
    (outside_of_unbridged hbridge (by decide) (by decide))).1 hover
  exact ⟨hread, fun value => hwrite value fun hconfig => absurd hconfig (by decide)⟩

/-- The longword at the end of a window before a longer buffer reads two bytes too many. -/
theorem access_widths_overrun :
    let b := largeMachine 0x40000004
    b.Reachable ∧ WindowApart b.devices.ram ∧ Outside b.devices 0x4FFFFFFE ∧
      Outside b.devices 0x50000000 ∧ (∀ value, b.StaysOutside 0x4FFFFFFE value) ∧
      ¬ b.SameLong 0x4FFFFFFE := by
  intro b
  have hw : b.devices.ram.fastWindow = some (0x10000000, 0x40000000) := by decide
  have hbridge : b.devices.pcibridgeWindow = none := by decide
  refine ⟨reachable_largeMachine _, windowApart_of_high hw (by decide),
    outside_of_unbridged hbridge (by decide) (by decide),
    outside_of_unbridged hbridge (by decide) (by decide),
    fun _ hconfig => absurd hconfig (by decide), ?_⟩
  rintro ⟨hread, -⟩
  have hvalues : (b.readLong 0x4FFFFFFE).1 = 0x00000000 ∧
      (b.readLongBytes 0x4FFFFFFE).1 = 0x0000FFFF := by decide
  rw [hread] at hvalues
  exact absurd (hvalues.1.symm.trans hvalues.2) (by decide)

end MachineBus

end M68kMachine
