import M68kMachine.Properties.ConfigSpaceWrites

/-!
# The functions of the virtual bus

The `PciDevice`s of `pci.rs` a host attaches: the host bridge and the `INTx` test device, which have
no BAR, and the virtio-net function, whose one BAR is the register file of `VirtioNetStub`.
-/

namespace M68kMachine

open Pci

namespace Pci

theorem bar0Size_atLeast : 16 ≤ (0x4000 : Long).toNat := by decide

theorem bar0Size_powerOfTwo : ∃ k, (0x4000 : Long).toNat = 2 ^ k := ⟨14, by decide⟩

/-- `BAR0_SIZE`. -/
def bar0Size : BarSize := ⟨0x4000, bar0Size_atLeast, bar0Size_powerOfTwo⟩

abbrev bar0Len : Nat := 0x4000

theorem firstBar_lt : 0 < 6 := by decide

abbrev firstBar : Fin 6 := ⟨0, firstBar_lt⟩

def virtioBars : Fin 6 → BarKind := fun bar =>
  if bar = firstBar then .mem32 bar0Size else .none

/-- A function without a BAR. -/
structure BarlessFunction where
  config : ConfigSpace
  kinds : config.barKinds = fun _ => .none

structure VirtioNetFunction (ν : Type) where
  config : ConfigSpace
  stub : VirtioNetStub ν
  kinds : config.barKinds = virtioBars
  masked : config.Masked

inductive PciFunction (ν : Type)
  | hostBridge (f : BarlessFunction)
  | intxTest (f : BarlessFunction) (asserted : Bool)
  | virtioNet (f : VirtioNetFunction ν)

/-- What walking the rings of a virtio-net function does. Its loops need not return. -/
class RingEngine (ν : Type) where
  tick {μ : Type} [GuestMemory μ] : VirtioNetStub ν → μ → VirtioNetStub ν × μ

end Pci

namespace ConfigSpace

theorem barKinds_write (c : ConfigSpace) (offset : Word) (width : AccessWidth) (value : Long) :
    (c.write offset width value).barKinds = c.barKinds := by
  unfold write
  split
  · rfl
  · generalize List.range width.bytes = lanes
    induction lanes generalizing c with
    | nil => rfl
    | cons lane lanes ih => exact (ih _).trans (barKinds_writeByte c _ _)

end ConfigSpace

namespace Pci

def BarlessFunction.configWrite (f : BarlessFunction) (offset : Word) (width : AccessWidth)
    (value : Long) : BarlessFunction where
  config := f.config.write offset width value
  kinds := (f.config.barKinds_write offset width value).trans f.kinds

namespace VirtioNetFunction

variable {ν : Type}

def configWrite (f : VirtioNetFunction ν) (offset : Word) (width : AccessWidth) (value : Long) :
    VirtioNetFunction ν where
  config := f.config.write offset width value
  stub := f.stub
  kinds := (f.config.barKinds_write offset width value).trans f.kinds
  masked := (ConfigSpace.frame_run f.masked [⟨offset, width, value⟩]).masked

/-- The device behind the BAR, replaced. -/
def withStub (f : VirtioNetFunction ν) (stub : VirtioNetStub ν) : VirtioNetFunction ν :=
  { f with stub := stub }

end VirtioNetFunction

namespace PciFunction

variable {ν : Type}

def config : PciFunction ν → ConfigSpace
  | .hostBridge f => f.config
  | .intxTest f _ => f.config
  | .virtioNet f => f.config

def configWrite (d : PciFunction ν) (offset : Word) (width : AccessWidth) (value : Long) :
    PciFunction ν :=
  match d with
  | .hostBridge f => .hostBridge (f.configWrite offset width value)
  | .intxTest f asserted => .intxTest (f.configWrite offset width value) asserted
  | .virtioNet f => .virtioNet (f.configWrite offset width value)

/-- A function with nothing behind its BARs answers all ones. -/
def barRead (d : PciFunction ν) (bar : Nat) (offset : Quad) (width : AccessWidth) :
    Long × PciFunction ν :=
  match d with
  | .virtioNet f =>
    let (value, stub) := f.stub.barRead bar offset width
    (value, .virtioNet (f.withStub stub))
  | d => (0xFFFFFFFF, d)

def barWrite (d : PciFunction ν) (bar : Nat) (offset : Quad) (width : AccessWidth) (value : Long) :
    PciFunction ν :=
  match d with
  | .virtioNet f => .virtioNet (f.withStub (f.stub.barWrite bar offset width value))
  | d => d

def intxLevel : PciFunction ν → Bool
  | .hostBridge _ => false
  | .intxTest _ asserted => asserted
  | .virtioNet f => f.stub.intxLevel

instance [RingEngine ν] : PciDevice (PciFunction ν) where
  configRead d offset width := (d.config.read offset width, d)
  configWrite := configWrite
  barWindow d bar := d.config.barWindow bar
  barRead := barRead
  barWrite := barWrite
  intxLevel := intxLevel
  tick d mem :=
    match d with
    | .virtioNet f =>
      let (stub, mem) := RingEngine.tick f.stub mem
      (.virtioNet (f.withStub stub), mem)
    | d => (d, mem)

end PciFunction

end Pci

namespace VirtualPciBus

variable {ν : Type} [RingEngine ν]

/-- Sampling the lines of these functions leaves them as they are. -/
theorem levelsOf_same (slots : List (VirtualSlot (PciFunction ν))) : ∀ levels : Long,
    (levelsOf levels slots).2 = slots := by
  induction slots with
  | nil => exact fun _ => rfl
  | cons slot slots ih =>
    intro levels
    have hslot : (slotLevel levels slot).2 = slot := by
      unfold slotLevel
      split <;> rfl
    show (slotLevel levels slot).2 :: (levelsOf (slotLevel levels slot).1 slots).2 = slot :: slots
    rw [hslot, ih]

instance : LevelPciBackend (VirtualPciBus (PciFunction ν)) where
  intxLevels_again v := by
    show (levelsOf 0 (levelsOf 0 v.devices).2).1 = (levelsOf 0 v.devices).1
    rw [levelsOf_same]

end VirtualPciBus

end M68kMachine
