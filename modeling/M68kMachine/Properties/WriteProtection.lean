import M68kMachine.Properties.CardsAlone
import M68kMachine.Properties.HostblkTransfer

/-!
# Write protection

A disk attached to `hostblk` write-protected is only read, whatever the guest, the clock and the
board layer do. Units neither come nor go, and none changes its protection.

* `UnitKept` — what a unit keeps
* `protected_disk_only_read` — over any run
-/

namespace M68kMachine

open Evolution

variable {δ ρ π μ : Type}

namespace Hostblk

variable [BlockDevice δ] [GuestMemory μ] {u : Fin unitCount} {a : AttachedUnit δ}

/-- The disk was read, any number of times, and nothing else happened to it. -/
abbrev OnlyRead : δ → δ → Prop :=
  Relation.ReflTransGen fun dev dev' => ∃ lba buf, dev' = (BlockDevice.readSector dev lba buf).2.2

/-- A unit keeps its protection, and one that is protected has its disk only read. -/
structure UnitKept (a a' : AttachedUnit δ) : Prop where
  writeProtect : a'.writeProtect = a.writeProtect
  onlyRead : a.writeProtect = true → OnlyRead a.device a'.device

instance : Std.Refl (@UnitKept δ _) where
  refl _ := ⟨rfl, fun _ => .refl⟩

instance : IsTrans (AttachedUnit δ) UnitKept where
  trans _ _ _ h h' :=
    ⟨h'.writeProtect.trans h.writeProtect,
      fun hp => (h.onlyRead hp).trans (h'.onlyRead (h.writeProtect.trans hp))⟩

/-- No unit comes or goes, and each is kept. -/
def UnitsKept (h h' : Hostblk δ) : Prop := ∀ u, Option.Rel UnitKept (h.units u) (h'.units u)

instance : Std.Refl (@UnitsKept δ _) where
  refl h u := Std.Refl.refl (h.units u)

instance : IsTrans (Hostblk δ) UnitsKept where
  trans _ _ _ h h' u := IsTrans.trans _ _ _ (h u) (h' u)

theorem unitsKept_of_eq {h h' : Hostblk δ} (hunits : h'.units = h.units) : UnitsKept h h' := by
  intro u
  rw [hunits]
  exact Std.Refl.refl (h.units u)

theorem unitsKept_setUnit {h : Hostblk δ} {a' : AttachedUnit δ} (hu : h.units u = some a)
    (ha : UnitKept a a') : UnitsKept h (h.setUnit u a') := by
  intro v
  unfold setUnit
  dsimp only
  split_ifs with hv
  · rw [hv, hu]
    exact .some ha
  · exact Std.Refl.refl (h.units v)

/-! ## A request -/

theorem onlyRead_transferSectors (startLba : Quad) (remaining i : Nat) (dev : δ)
    (sectorBuf : Sector) (buf : List Byte) (actual : Long) :
    OnlyRead dev (transferSectors false startLba remaining i dev sectorBuf buf actual).device := by
  induction remaining generalizing i dev sectorBuf buf actual with
  | zero => exact .refl
  | succ remaining ih =>
    have hread : OnlyRead dev
        (BlockDevice.readSector dev (startLba + BitVec.ofNat 64 i) sectorBuf).2.2 :=
      .single ⟨_, _, rfl⟩
    simp only [transferSectors, Bool.false_eq_true, if_false]
    split
    · rename_i hstop
      rw [hstop] at hread
      exact hread
    · rename_i hgo
      rw [hgo] at hread
      exact hread.trans (ih ..)

theorem unitsKept_transfer {h : Hostblk δ} (hu : h.units u = some a) (desc : Descriptor) (mem : μ)
    (isWrite : Bool) : UnitsKept h (h.transfer u a desc mem isWrite).2.1 := by
  have hrefl := Std.Refl.refl (r := UnitsKept) h
  unfold transfer
  split_ifs with hprotect hlength hoffset
  · exact hrefl
  · exact hrefl
  · exact hrefl
  · dsimp only
    split
    · exact hrefl
    · split
      · exact hrefl
      · split
        · exact hrefl
        · refine unitsKept_setUnit hu ⟨rfl, fun hp => ?_⟩
          -- a protected unit is past the first check on a read only
          have hread : isWrite = false := by simpa [hp] using hprotect
          rw [hread]
          exact onlyRead_transferSectors ..

omit [BlockDevice δ] in
theorem units_of_unitIndex {h : Hostblk δ} {unit : Byte} (hi : h.unitIndex unit = some (u, a)) :
    h.units u = some a := by
  unfold unitIndex at hi
  split at hi
  · obtain ⟨b, hb, hab⟩ := Option.map_eq_some_iff.mp hi
    cases hab
    exact hb
  · cases hi

theorem unitsKept_execute (h : Hostblk δ) (ptr : Long) (mem : μ) :
    UnitsKept h (h.execute ptr mem).2.1 := by
  unfold execute
  split
  · exact Std.Refl.refl h
  · split
    · exact Std.Refl.refl h
    · rename_i hi
      have hu := units_of_unitIndex hi
      split_ifs
      · exact unitsKept_transfer hu _ mem false
      · exact unitsKept_transfer hu _ mem true
      · exact Std.Refl.refl h
      · exact Std.Refl.refl h

theorem unitsKept_tick (h : Hostblk δ) (mem : μ) : UnitsKept h (h.tick mem).1 := by
  unfold tick tickChecked
  split
  · exact Std.Refl.refl h
  · split
    · exact Std.Refl.refl h
    · rename_i ptr rest _
      exact unitsKept_execute { h with submitQueue := rest } ptr mem

theorem unitsKept_write (h : Hostblk δ) (o : Nat) (value : Byte) :
    UnitsKept h (h.write o value) := by
  have hsubmit (h : Hostblk δ) (ptr : Long) : (h.submit ptr).units = h.units := by
    unfold submit
    split <;> rfl
  refine unitsKept_of_eq ?_
  unfold write
  dsimp only
  split_ifs <;> first | rfl | exact hsubmit _ _

theorem unitsKept_notifyMediaChange (h : Hostblk δ) (unit : Byte) :
    UnitsKept h (h.notifyMediaChange unit) := by
  unfold notifyMediaChange
  split
  · split
    · rename_i hu
      exact unitsKept_setUnit hu ⟨rfl, fun _ => .refl⟩
    · exact Std.Refl.refl h
  · exact Std.Refl.refl h

theorem Does.unitsKept {h h' : Hostblk δ} (hd : h.Does h') : UnitsKept h h' := by
  cases hd with
  | write offset value => exact unitsKept_write h offset value
  | tick ram => exact unitsKept_tick h ram
  | mediaChange unit => exact unitsKept_notifyMediaChange h unit

end Hostblk

namespace MachineBus

variable [BlockDevice δ] [PacketBackend ρ] [PciBackend π]

/-! ## Runs -/

/-- **Write protection holds.** In every run the units stay as attached, and the disk of a protected
one is only read. -/
theorem protected_disk_only_read (b : MachineBus δ ρ π) (ops : List LiveOp) :
    Option.Rel Hostblk.UnitsKept b.devices.hostblk (b.liveRun ops).2.devices.hostblk :=
  (evolve_liveRun ops b).hostblk.rel fun _ _ hd => hd.unitsKept

end MachineBus

end M68kMachine
