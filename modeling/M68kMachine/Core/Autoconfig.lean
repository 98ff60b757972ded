import M68kMachine.Core.Registers

/-!
# Zorro II/III AUTOCONFIG

The configuration chain of `autoconfig.rs`. Boards answer one at a time in the window at `$E80000`;
writing a base address (or `SHUTUP`) retires the current one. An identity is presented one nybble at
a time, complemented except in `er_Type`.
-/

namespace M68kMachine

/-- `OPEN_BUS_BYTE`. -/
def openBusByte : Byte := 0xFF

namespace Autoconfig

def autoconfigBase : Nat := 0x00E80000
def autoconfigEnd : Nat := autoconfigBase + 0x00010000

def ertZorroII : Byte := 0xC0
def ertZorroIII : Byte := 0x80
def ertfMemlist : Byte := 0x20
def ertfDiagvalid : Byte := 0x10
def ertfChainedconfig : Byte := 0x08

/-- `er_Flags` bits of a Zorro III board: `ERFF_ZORRO_III` and `ERFF_EXTENDED`. -/
def erffZorroIII : Byte := 0x10
def erffExtended : Byte := 0x20

/-! Offsets of the configuration registers within the window (`mod ec`). -/

namespace Ec

def z3Baseaddress : Nat := 0x44
def baseaddress : Nat := 0x48
def baseaddressLo : Nat := 0x4A
def shutup : Nat := 0x4C

end Ec

def maxBoards : Nat := 8
def autoconfigRomBytes : Nat := 16

/-- A board's AUTOCONFIG identity. -/
structure BoardSpec where
  boardType : Byte
  product : Byte
  flags : Byte
  manufacturer : Word
  serial : Long
  initDiagVec : Word
  sizeBytes : Long
  deriving DecidableEq

/-- Where the OS put a board. -/
structure Configured where
  base : Long
  sizeBytes : Long
  deriving DecidableEq

/-- Whether a placed window answers at `address`: `address - base < size`, without wrapping. -/
def Configured.contains (p : Configured) (address : Long) : Bool :=
  p.base.toNat ≤ address.toNat && address.toNat - p.base.toNat < p.sizeBytes.toNat

end Autoconfig

open Autoconfig

/-- The AUTOCONFIG chain; `current` is the board in the window, or past the last one. -/
structure AutoConfig where
  specs : Vector (Option BoardSpec) 8
  placed : Vector (Option Configured) 8
  current : Nat
  z3BaseHi : Option Byte

namespace AutoConfig

def new : AutoConfig where
  specs := Vector.replicate 8 none
  placed := Vector.replicate 8 none
  current := 0
  z3BaseHi := none

/-- Offer a board to the chain; its index, or `none` when the chain is full. -/
def addBoard (a : AutoConfig) (spec : BoardSpec) : Option Nat × AutoConfig :=
  match a.specs.toList.findIdx? (·.isNone) with
  | none => (none, a)
  | some idx => (some idx, { a with specs := a.specs.setIfInBounds idx (some spec) })

def placement (a : AutoConfig) (index : Nat) : Option Configured := (a.placed[index]?).join

/-- The first board, in chain order, whose placed window holds `address`. -/
def boardAt (a : AutoConfig) (address : Long) : Option Nat :=
  (List.range maxBoards).find? fun i => (a.placement i).any (·.contains address)

def respondsTo (address : Long) : Bool :=
  autoconfigBase ≤ address.toNat && address.toNat < autoconfigEnd

theorem respondsTo_iff {address : Long} :
    respondsTo address = true ↔ 0xE80000 ≤ address.toNat ∧ address.toNat < 0xE90000 := by
  unfold respondsTo
  rw [Bool.and_eq_true, decide_eq_true_eq, decide_eq_true_eq]
  rfl

def currentSpec (a : AutoConfig) : Option BoardSpec := (a.specs[a.current]?).join

/-- The 16-byte logical `ExpansionRom` image of a board. -/
def romBytes (spec : BoardSpec) : List Byte :=
  [spec.boardType, spec.product, spec.flags, 0,
    spec.manufacturer.extractLsb' 8 8, spec.manufacturer.extractLsb' 0 8,
    byteOf spec.serial 0, byteOf spec.serial 1, byteOf spec.serial 2, byteOf spec.serial 3,
    spec.initDiagVec.extractLsb' 8 8, spec.initDiagVec.extractLsb' 0 8,
    0, 0, 0, 0]

/-- Read a byte from the configuration window. The code takes `&mut self` and changes nothing. -/
def read (a : AutoConfig) (address : Long) : Byte :=
  match a.currentSpec with
  | none => openBusByte
  | some spec =>
    let off := address - BitVec.ofNat 32 autoconfigBase
    if off &&& 1 ≠ 0 then openBusByte
    else
      let byteIdx := off.toNat / 4
      if autoconfigRomBytes ≤ byteIdx then openBusByte
      else
        let logical := (romBytes spec).getD byteIdx 0
        let physical := if byteIdx = 0 then logical else ~~~logical
        let nibble := if off &&& 2 = 0 then physical >>> 4 else physical &&& 0x0F
        nibble <<< 4

/-- Retire the current board and let the next one answer. -/
def advance (a : AutoConfig) : AutoConfig :=
  { a with current := a.current + 1, z3BaseHi := none }

/-- Place the current board at `base` and advance the chain. -/
def configure (a : AutoConfig) (spec : BoardSpec) (base : Long) : AutoConfig :=
  advance { a with
    placed := a.placed.setIfInBounds a.current (some ⟨base, spec.sizeBytes⟩) }

/-- Write a byte to the configuration window. -/
def write (a : AutoConfig) (address : Long) (value : Byte) : AutoConfig :=
  match a.currentSpec with
  | none => a
  | some spec =>
    let off := (address - BitVec.ofNat 32 autoconfigBase).toNat
    let isZorroII := spec.boardType &&& 0xC0 = ertZorroII
    let isZorroIII := spec.boardType &&& 0xC0 = ertZorroIII
    if off = Ec.z3Baseaddress ∧ isZorroIII then { a with z3BaseHi := some value }
    else if off = Ec.z3Baseaddress + 1 ∧ isZorroIII then
      match a.z3BaseHi with
      | some hi =>
        configure { a with z3BaseHi := none } spec
          ((hi.setWidth 32 <<< 24) ||| (value.setWidth 32 <<< 16))
      | none => a
    else if off = Ec.baseaddress ∧ isZorroII then configure a spec (value.setWidth 32 <<< 16)
    -- `BASEADDRESS_LO` is accepted and inert: the high byte alone forms a Zorro II base
    else if off = Ec.baseaddressLo then a
    else if off = Ec.shutup then a.advance
    else a

/-! ## Placements stay -/

/-- Boards from the current one on are not placed yet. -/
def Unplaced (a : AutoConfig) : Prop := ∀ i, a.current ≤ i → a.placement i = none

theorem unplaced_new : Unplaced new := by
  intro i _
  unfold placement new
  by_cases hi : i < 8 <;> simp [hi]

variable {a : AutoConfig}

theorem placement_of_placed {a' : AutoConfig} (h : a'.placed = a.placed) (i : Nat) :
    a'.placement i = a.placement i := by
  unfold placement
  rw [h]

theorem placement_configure (a : AutoConfig) (spec : BoardSpec) (base : Long) (i : Nat)
    (hi : i ≠ a.current) : (a.configure spec base).placement i = a.placement i := by
  unfold placement configure advance
  simp only [Vector.getElem?_setIfInBounds]
  rw [if_neg (fun h => hi h.symm)]

/-- A write to the window leaves the chain, retires the current board or places it. -/
theorem write_cases (a : AutoConfig) (address : Long) (value : Byte) :
    ((a.write address value).placed = a.placed ∧ a.current ≤ (a.write address value).current) ∨
      ∃ (a' : AutoConfig) (spec : BoardSpec) (base : Long),
        a'.placed = a.placed ∧ a'.current = a.current ∧
        a.write address value = a'.configure spec base := by
  unfold write
  split
  · exact .inl ⟨rfl, Nat.le_refl _⟩
  · rename_i spec _
    dsimp only
    split_ifs
    · exact .inl ⟨rfl, Nat.le_refl _⟩
    · split
      · exact .inr ⟨{ a with z3BaseHi := none }, spec, _, rfl, rfl, rfl⟩
      · exact .inl ⟨rfl, Nat.le_refl _⟩
    · exact .inr ⟨a, spec, _, rfl, rfl, rfl⟩
    · exact .inl ⟨rfl, Nat.le_refl _⟩
    · exact .inl ⟨rfl, Nat.le_succ _⟩
    · exact .inl ⟨rfl, Nat.le_refl _⟩

theorem Unplaced.write {a : AutoConfig} (h : a.Unplaced) (address : Long) (value : Byte) :
    (a.write address value).Unplaced := by
  intro i hi
  rcases a.write_cases address value with ⟨hp, hc⟩ | ⟨a', spec, base, hp, hc, hw⟩
  · rw [placement_of_placed hp]
    exact h i (Nat.le_trans hc hi)
  · rw [hw] at hi ⊢
    have hlt : a'.current < i := hi
    rw [placement_configure _ _ _ _ (by omega), placement_of_placed hp]
    exact h i (by omega)

/-- **A placement, once made, stays.** -/
theorem placement_write (h : a.Unplaced) {i : Nat} {p : Configured} (hp : a.placement i = some p)
    (address : Long) (value : Byte) : (a.write address value).placement i = some p := by
  rcases a.write_cases address value with ⟨hpl, -⟩ | ⟨a', spec, base, hpl, hc, hw⟩
  · rw [placement_of_placed hpl, hp]
  · have hne : i ≠ a'.current := by
      rintro rfl
      rw [h a'.current (by omega)] at hp
      cases hp
    rw [hw, placement_configure _ _ _ _ hne, placement_of_placed hpl, hp]

theorem addBoard_chain (a : AutoConfig) (spec : BoardSpec) :
    (a.addBoard spec).2.placed = a.placed ∧ (a.addBoard spec).2.current = a.current := by
  unfold addBoard
  split <;> exact ⟨rfl, rfl⟩

theorem Unplaced.addBoard (h : a.Unplaced) (spec : BoardSpec) : (a.addBoard spec).2.Unplaced := by
  obtain ⟨hp, hc⟩ := a.addBoard_chain spec
  intro i hi
  rw [placement_of_placed hp]
  exact h i (hc ▸ hi)

end AutoConfig

end M68kMachine
