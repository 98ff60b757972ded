import M68kMachine.Machine.Runs
import M68kMachine.Properties.DeviceWriteLog

/-!
# What the operations of a bus do to RAM

Every operation of a bus is made of a few kinds of step. Seen from RAM and its log they are stores
that are recorded, stores of the CPU that are not, the placement of a board, and changes elsewhere.

* `MapInv` — the cached window is the placement of fast RAM's board, made at most once
* `Quiet` — RAM changes by recorded stores only
* `Kept` — a map that was made stays, and a log whose entries were in place keeps them
-/

namespace M68kMachine

variable {δ ρ π : Type} {r : GuestRam}

namespace BusDevices

/-- The address map of RAM as the chain has it. -/
structure MapInv (d : BusDevices δ ρ π) : Prop where
  window : d.ram.fastWindow = windowOf d.autoconfig d.ram.fastRamBoard
  unplaced : d.autoconfig.Unplaced

/-- RAM changed by recorded stores only. -/
structure Quiet (d d' : BusDevices δ ρ π) : Prop where
  map : d.ram.sameMap d'.ram
  chain : d'.autoconfig = d.autoconfig
  logged : ∀ before, d.ram.SeamFree → Logged before d.ram → Logged before d'.ram

/-- The entries of a log stay in place. -/
structure Kept (d d' : BusDevices δ ρ π) : Prop where
  map : d.MapInv → d'.MapInv
  window : d.MapInv → ∀ w, d.ram.fastWindow = some w → d.ram.sameMap d'.ram
  logged : d.MapInv → d'.ram.SeamFree → Logged d.ram d.ram → Logged d'.ram d'.ram

theorem Quiet.refl (d : BusDevices δ ρ π) : Quiet d d := ⟨⟨rfl, rfl, rfl⟩, rfl, fun _ _ h => h⟩

theorem Quiet.trans {d d' d'' : BusDevices δ ρ π} (h : Quiet d d') (h' : Quiet d' d'') :
    Quiet d d'' where
  map := h.map.trans h'.map
  chain := h'.chain.trans h.chain
  logged before hseam hl :=
    h'.logged before (hseam.of_sameMap h.map.symm) (h.logged before hseam hl)

instance : Std.Refl (Quiet (δ := δ) (ρ := ρ) (π := π)) := ⟨.refl⟩

instance : IsTrans (BusDevices δ ρ π) Quiet := ⟨fun _ _ _ => .trans⟩

/-- A step that leaves RAM and the chain alone. -/
theorem Quiet.of_eq {d d' : BusDevices δ ρ π} (hram : d'.ram = d.ram)
    (hchain : d'.autoconfig = d.autoconfig) : Quiet d d' := by
  refine ⟨?_, hchain, ?_⟩
  · rw [hram]
    exact ⟨rfl, rfl, rfl⟩
  · intro before _ h
    rwa [hram]

/-- A device that was handed RAM. -/
theorem Quiet.of_touched {d d' : BusDevices δ ρ π} (h : GuestMemory.Touched d.ram d'.ram)
    (hchain : d'.autoconfig = d.autoconfig) : Quiet d d' :=
  ⟨GuestRam.sameMap_of_touched h, hchain, fun _ hseam hl => hl.touched hseam h⟩

end BusDevices

/-- A log whose entries are in place covers an unchanged RAM. -/
theorem Logged.self {before : GuestRam} (h : Logged before r) : Logged r r := by
  intro log hlog hover
  exact ⟨(h log hlog hover).placed, fun _ hne => absurd rfl hne⟩

/-- The entries stay in place while the map does. -/
theorem Logged.of_sameMap {r' : GuestRam} (h : Logged r r) (hmap : r.sameMap r')
    (hlog : r'.writeLog = r.writeLog) : Logged r' r' := by
  intro log hl hover
  refine ⟨?_, fun _ hne => absurd rfl hne⟩
  intro span hspan
  rw [GuestRam.extent_of_sameMap hmap]
  exact (h log (hlog ▸ hl) hover).placed span hspan

/-- Without a window there is no seam. -/
theorem GuestRam.SeamFree.of_unplaced (h : r.fastWindow = none) : r.SeamFree := by
  intro mem base windowLen _ hw
  rw [h] at hw
  cases hw

namespace BusDevices

variable {d' : BusDevices δ ρ π}

theorem MapInv.of_chain {d : BusDevices δ ρ π} (h : d.MapInv) (hmap : d.ram.sameMap d'.ram)
    (hchain : d'.autoconfig = d.autoconfig) : d'.MapInv := by
  refine ⟨?_, hchain ▸ h.unplaced⟩
  rw [hmap.1, hmap.2.1, hchain]
  exact h.window

theorem Quiet.kept {d : BusDevices δ ρ π} (h : Quiet d d') : Kept d d' where
  map hinv := hinv.of_chain h.map h.chain
  window _ _ _ := h.map
  logged _ hseam hl := (h.logged d.ram (hseam.of_sameMap h.map) hl).self

theorem Kept.refl (d : BusDevices δ ρ π) : Kept d d := (Quiet.refl d).kept

/-- A map that is free of a seam was so before, as long as a placed window stays. -/
theorem Kept.seamFree {d : BusDevices δ ρ π} (h : Kept d d') (hinv : d.MapInv)
    (hseam : d'.ram.SeamFree) : d.ram.SeamFree := by
  cases hw : d.ram.fastWindow with
  | none => exact .of_unplaced hw
  | some w => exact hseam.of_sameMap (h.window hinv w hw)

theorem Kept.trans {d d' d'' : BusDevices δ ρ π} (h : Kept d d') (h' : Kept d' d'') :
    Kept d d'' where
  map hinv := h'.map (h.map hinv)
  window hinv w hw := by
    have hmap := h.window hinv w hw
    exact hmap.trans (h'.window (h.map hinv) w (hmap.1.trans hw))
  logged hinv hseam hl :=
    h'.logged (h.map hinv) hseam (h.logged hinv (h'.seamFree (h.map hinv) hseam) hl)

instance : Std.Refl (Kept (δ := δ) (ρ := ρ) (π := π)) := ⟨.refl⟩

instance : IsTrans (BusDevices δ ρ π) Kept := ⟨fun _ _ _ => .trans⟩

/-- A store of the CPU. -/
theorem Kept.of_store {d : BusDevices δ ρ π} (hmap : d.ram.sameMap d'.ram)
    (hchain : d'.autoconfig = d.autoconfig) (hlog : d'.ram.writeLog = d.ram.writeLog) :
    Kept d d' where
  map hinv := hinv.of_chain hmap hchain
  window _ _ _ := hmap
  logged _ _ hl := hl.of_sameMap hmap hlog

/-! ## The devices -/

theorem Quiet.raisePorts {d d' : BusDevices δ ρ π} (h : Quiet d d') (irq : Bool) :
    Quiet d (d'.raisePorts irq) := by
  unfold BusDevices.raisePorts
  split
  · exact h.trans (.of_eq rfl rfl)
  · exact h

theorem Quiet.raiseExter {d d' : BusDevices δ ρ π} (h : Quiet d d') (irq : Bool) :
    Quiet d (d'.raiseExter irq) := by
  unfold BusDevices.raiseExter
  split
  · exact h.trans (.of_eq rfl rfl)
  · exact h

theorem Quiet.reassertLevelIrqs {d : BusDevices δ ρ π} (h : Quiet d d') :
    Quiet d d'.reassertLevelIrqs := ((h.raisePorts _).raiseExter _).raisePorts _

/-! ## Ticks, reads and registers -/

section Steps

variable [BlockDevice δ] [PacketBackend ρ] [PciBackend π] [LawfulPacketBackend ρ]
  [LawfulPciBackend π] {d : BusDevices δ ρ π}

theorem Stir.quiet (h : Stir d d') : Quiet d d' := by
  cases h with
  | tickHostblk hh => exact .of_touched (Hostblk.touched_tick _ d.ram) rfl
  | tickPktport hp => exact .of_touched (Pktport.touched_tick _ d.ram) rfl
  | @tickPcibridge c hc => exact .of_touched (PciBridge.touched_tick c d.ram) rfl
  | readCustom offset =>
    unfold MachineBus.readCustomReg
    split <;> exact .of_eq rfl rfl
  | _ => exact .of_eq rfl rfl

/-- **A tick changes RAM by recorded stores only**, and a read leaves it alone. -/
theorem Stirred.quiet (h : Stirred d d') : Quiet d d' :=
  Relation.reflTransGen_le_of_le (fun _ _ hs => hs.quiet) _ _ h

omit [BlockDevice δ] [PacketBackend ρ] [PciBackend π] [LawfulPacketBackend ρ]
  [LawfulPciBackend π] in
theorem quiet_runBlitter (d : BusDevices δ ρ π) : Quiet d (MachineBus.runBlitter d) := by
  have hstored := Blitter.stored_executeLogged d.blitter ⟨d.ram.chipRam, d.ram.writeLog⟩
  have hblit : ∀ d' : BusDevices δ ρ π,
      d'.ram = d.ram.withBlit (d.blitter.executeLogged ⟨d.ram.chipRam, d.ram.writeLog⟩).2.2 →
      d'.autoconfig = d.autoconfig → Quiet d d' := by
    intro d' hram hchain
    refine ⟨?_, hchain, ?_⟩
    · rw [hram]
      exact ⟨rfl, rfl, rfl⟩
    -- A blit is logged as far as the seam between the regions is free.
    · intro before hseam hl
      rw [hram]
      exact Logged.blit (m := ⟨d.ram.chipRam, d.ram.writeLog⟩) hl hseam hstored
  unfold MachineBus.runBlitter
  dsimp only
  split
  · exact hblit _ rfl rfl
  · exact hblit _ rfl rfl

theorem Drive.quiet (h : Drive d d') : Quiet d d' := by
  cases h with
  | stir h => exact h.quiet
  | ciaB reg value =>
    unfold MachineBus.writeCiaB
    dsimp only
    split <;> exact .of_eq rfl rfl
  | custom offset value =>
    unfold MachineBus.writeCustomReg
    split
    · dsimp only
      split
      · refine Quiet.trans ?_ (quiet_runBlitter _)
        exact .of_eq rfl rfl
      · exact .of_eq rfl rfl
    · exact Quiet.trans (by exact .of_eq rfl rfl) (stirred_reassert _).quiet
  | _ => exact .of_eq rfl rfl

theorem Driven.quiet (h : Driven d d') : Quiet d d' :=
  Relation.reflTransGen_le_of_le (fun _ _ hs => hs.quiet) _ _ h

end Steps

/-! ## Stores and placements -/

variable (d : BusDevices δ ρ π)

/-- **The AUTOCONFIG window.** A write places fast RAM at most once. -/
theorem kept_autoconfig (address : Long) (value : Byte) :
    Kept d { d with autoconfig := d.autoconfig.write address value }.refreshWindows := by
  have hstay (hinv : d.MapInv) (w : Long × Long) (hw : d.ram.fastWindow = some w) :
      windowOf (d.autoconfig.write address value) d.ram.fastRamBoard = some w := by
    rw [hinv.window] at hw
    unfold windowOf at hw ⊢
    obtain ⟨p, hp, rfl⟩ := Option.map_eq_some_iff.mp hw
    obtain ⟨i, hi, hp⟩ := Option.bind_eq_some_iff.mp hp
    rw [hi, Option.bind_some, AutoConfig.placement_write hinv.unplaced hp, Option.map_some]
  have hmap (hinv : d.MapInv) (w : Long × Long) (hw : d.ram.fastWindow = some w) :
      d.ram.sameMap
        ({ d with autoconfig := d.autoconfig.write address value }.refreshWindows).ram :=
    ⟨(hstay hinv w hw).trans hw.symm, rfl, rfl⟩
  refine ⟨?_, hmap, ?_⟩
  · intro hinv
    exact ⟨rfl, hinv.unplaced.write address value⟩
  · intro hinv hseam hl log hlog hover
    have hold := hl log hlog hover
    refine ⟨?_, fun _ hne => absurd rfl hne⟩
    intro span hspan
    obtain ⟨hne, e, he⟩ := hold.placed span hspan
    refine ⟨hne, ?_⟩
    cases hw : d.ram.fastWindow with
    | some w =>
      rw [GuestRam.extent_of_sameMap (hmap hinv w hw)]
      exact ⟨e, he⟩
    | none =>
      -- nothing but chip RAM was there to be recorded
      by_cases hchip : span.1.toNat + span.2.toNat ≤ chipRamEnd
      · exact ⟨_, GuestRam.extent_chip _ hchip⟩
      · obtain ⟨mem, base, windowLen, -, hwin, -⟩ :=
          (GuestRam.extent_fast_iff (by omega)).mp he
        rw [hw] at hwin
        cases hwin

section Changes

variable [BlockDevice δ] [PacketBackend ρ] [PciBackend π] [LawfulPacketBackend ρ]
  [LawfulPciBackend π] {d : BusDevices δ ρ π}

theorem Change.kept (h : Change d d') : Kept d d' := by
  cases h with
  | drive h => exact h.quiet.kept
  | config address value => exact kept_autoconfig d address value
  | chip off bs => exact .of_store ⟨rfl, rfl, rfl⟩ rfl rfl
  | fast hmem off bs => exact .of_store ⟨rfl, rfl, by rw [hmem]; rfl⟩ rfl rfl

theorem Changed.kept (h : Changed d d') : Kept d d' :=
  Relation.reflTransGen_le_of_le (fun _ _ hs => hs.kept) _ _ h

end Changes

/-! ## The board layer -/

theorem kept_clearSpans : Kept d d.clearDeviceWriteSpans where
  map hinv := hinv.of_chain ⟨rfl, rfl, rfl⟩ rfl
  window _ _ _ := ⟨rfl, rfl, rfl⟩
  logged _ _ _ := by
    intro log hlog _
    obtain ⟨log', -, rfl⟩ := Option.map_eq_some_iff.mp hlog
    exact ⟨by simp [DeviceWriteLog.clear, DeviceWriteLog.new], fun _ hne => absurd rfl hne⟩

theorem sameMap_host [PciBackend π] (op : HostOp) : d.ram.sameMap (d.host op).ram := by
  cases op with
  | mouseButton button pressed =>
    simp only [host, mouseButton]
    split <;> exact ⟨rfl, rfl, rfl⟩
  | storeRam addr bytes =>
    simp only [host]
    cases hs : GuestMemory.store d.ram addr bytes with
    | none => exact ⟨rfl, rfl, rfl⟩
    | some ram =>
      obtain ⟨before, put, hput, rfl⟩ := GuestMemory.exists_put_of_store hs
      exact GuestRam.sameMap_put hput bytes
  | storeFastWindow off value =>
    simp only [host, storeFastWindow]
    split
    · rename_i mem _ hmem
      split
      · exact ⟨rfl, rfl, by rw [hmem]; rfl⟩
      · exact ⟨rfl, rfl, rfl⟩
    · exact ⟨rfl, rfl, rfl⟩
  | _ => exact ⟨rfl, rfl, rfl⟩

theorem kept_host [PciBackend π] (op : HostOp) : Kept d (d.host op) := by
  cases op with
  | mouseButton button pressed =>
    simp only [host, mouseButton]
    split <;> exact (Quiet.of_eq (by exact rfl) (by exact rfl)).kept
  | storeRam addr bytes =>
    simp only [host]
    cases hs : GuestMemory.store d.ram addr bytes with
    | none => exact .refl d
    | some ram =>
      obtain ⟨before, put, hput, rfl⟩ := GuestMemory.exists_put_of_store hs
      refine Quiet.kept ?_
      exact .of_touched (.put bytes (.refl d.ram) hput) rfl
  | storeFastWindow off value =>
    simp only [host, storeFastWindow]
    split
    · rename_i mem _ hmem
      split
      · exact .of_store ⟨rfl, rfl, by rw [hmem]; rfl⟩ rfl rfl
      · exact .refl d
    · exact .refl d
  | clearDeviceWriteSpans => exact kept_clearSpans d
  | _ => exact (Quiet.of_eq (by exact rfl) (by exact rfl)).kept

/-! ## Building the machine -/

/-- A builder that only adds boards to the chain. -/
theorem mapInv_addBoards {d : BusDevices δ ρ π} (h : d.MapInv)
    (hw : d'.ram.fastWindow = d.ram.fastWindow) (hb : d'.ram.fastRamBoard = d.ram.fastRamBoard)
    (hp : d'.autoconfig.placed = d.autoconfig.placed)
    (hc : d'.autoconfig.current = d.autoconfig.current) : d'.MapInv := by
  have hplace := AutoConfig.placement_of_placed hp
  constructor
  · rw [hw, hb, h.window]
    unfold windowOf
    congr 2
    funext i
    exact (hplace i).symm
  · intro i hi
    rw [hplace]
    exact h.unplaced i (hc ▸ hi)

theorem addBoards_chain : ∀ (specs : List Autoconfig.BoardSpec) (a : AutoConfig),
    (addBoards a specs).2.placed = a.placed ∧ (addBoards a specs).2.current = a.current
  | [], _ => ⟨rfl, rfl⟩
  | spec :: specs, a => by
    obtain ⟨h1, h2⟩ := addBoards_chain specs (a.addBoard spec).2
    obtain ⟨h3, h4⟩ := a.addBoard_chain spec
    exact ⟨h1.trans h3, h2.trans h4⟩

/-- **Attaching a card keeps the map.** -/
theorem mapInv_attach {d : BusDevices δ ρ π} (h : d.MapInv) (card : Attach δ ρ π) :
    (d.attach card).MapInv := by
  have hadd (spec : Autoconfig.BoardSpec) := d.autoconfig.addBoard_chain spec
  cases card with
  | mirage unit device =>
    simp only [attach, withMirage]
    split
    · exact mapInv_addBoards h rfl rfl rfl rfl
    · exact mapInv_addBoards h rfl rfl (hadd _).1 (hadd _).2
  | hostblk unit device writeProtect diagRom =>
    simp only [attach, withHostblk]
    split
    · exact mapInv_addBoards h rfl rfl rfl rfl
    · exact mapInv_addBoards h rfl rfl (hadd _).1 (hadd _).2
  | graphics vram =>
    obtain ⟨hp, hc⟩ := addBoards_chain (Graffity.withVariant .zorroII vram).boardSpecs d.autoconfig
    exact mapInv_addBoards h rfl rfl hp hc
  | graphicsZorroIII vram =>
    obtain ⟨hp, hc⟩ :=
      addBoards_chain (Graffity.withVariant .zorroIII vram).boardSpecs d.autoconfig
    exact mapInv_addBoards h rfl rfl hp hc
  | fastRam mem => exact ⟨rfl, h.unplaced.addBoard _⟩
  | input diagRom =>
    simp only [attach, withInput]
    split
    · exact h
    · exact mapInv_addBoards h rfl rfl (hadd _).1 (hadd _).2
  | pktport backend diagRom => exact mapInv_addBoards h rfl rfl (hadd _).1 (hadd _).2
  | rtgboard vram catalog => exact mapInv_addBoards h rfl rfl (hadd _).1 (hadd _).2
  | pcibridge backend =>
    refine ⟨rfl, ?_⟩
    exact h.unplaced.addBoard _
  | extRom extRom => exact mapInv_addBoards h rfl rfl rfl rfl
  | floppy presence => exact mapInv_addBoards h rfl rfl rfl rfl
  | deviceWriteLog capacity => exact mapInv_addBoards h rfl rfl rfl rfl

theorem mapInv_new (chipRam : Buffer Byte chipRamSize) (rom : ByteSlice) :
    (new chipRam rom : BusDevices δ ρ π).MapInv := ⟨rfl, AutoConfig.unplaced_new⟩

end BusDevices

end M68kMachine
