import M68kMachine.Properties.FastRamBacking

/-!
# What a running machine leaves alone

The ROM image, the overlay, the PCI bridge and its place, and whether a device-write log is
attached, while a guest runs. Only a write to CIA-A moves the overlay and only one to the AUTOCONFIG
window a placement.

* `Wired` — a step that changes none of them; `Fitted` is the part of it that a CIA keeps too
* `Steady` — a step after which every address is decoded as before
* `Written` — what is left of that after a write
-/

namespace M68kMachine

open Autoconfig AutoConfig BusDevices

variable {δ ρ π : Type}

namespace BusDevices

structure Fitted (d d' : BusDevices δ ρ π) : Prop where
  rom : d'.rom = d.rom
  bridge : d'.pcibridgeBoard = d.pcibridgeBoard
  window : d'.pcibridgeWindow = d.pcibridgeWindow
  card : d'.pcibridge.isSome = d.pcibridge.isSome
  log : d'.ram.writeLog.isSome = d.ram.writeLog.isSome

structure Wired (d d' : BusDevices δ ρ π) : Prop extends Fitted d d' where
  overlay : d'.overlay = d.overlay

theorem Fitted.refl (d : BusDevices δ ρ π) : Fitted d d := ⟨rfl, rfl, rfl, rfl, rfl⟩

theorem Fitted.trans {d d' d'' : BusDevices δ ρ π} (h : Fitted d d') (h' : Fitted d' d'') :
    Fitted d d'' :=
  ⟨h'.rom.trans h.rom, h'.bridge.trans h.bridge, h'.window.trans h.window,
    h'.card.trans h.card, h'.log.trans h.log⟩

theorem Wired.refl (d : BusDevices δ ρ π) : Wired d d := ⟨.refl d, rfl⟩

theorem Wired.trans {d d' d'' : BusDevices δ ρ π} (h : Wired d d') (h' : Wired d' d'') :
    Wired d d'' :=
  ⟨h.toFitted.trans h'.toFitted, h'.overlay.trans h.overlay⟩

/-- A device that was handed RAM leaves the log attached. -/
theorem isSome_writeLog_of_touched {r r' : GuestRam} (h : GuestMemory.Touched r r') :
    r'.writeLog.isSome = r.writeLog.isSome := by
  induction h with
  | refl => rfl
  | put bs _ hgrant ih => rw [(recorded_put hgrant bs).log, Option.isSome_map, ih]

/-- So does a blit. -/
theorem isSome_writeLog_of_stored {m m' : Blitter.BlitRam} (h : Blitter.Stored m m') :
    m'.log.isSome = m.log.isSome := by
  induction h with
  | refl => rfl
  | word ptr value _ ih =>
    unfold Blitter.BlitRam.writeWord
    rw [Option.isSome_map, ih]

variable {d : BusDevices δ ρ π}

/-- A step that works on the bridge's card. -/
theorem wired_setCard {dev : PciBridge π} (h : d.pcibridge = some dev) (dev' : PciBridge π) :
    Wired d { d with pcibridge := some dev' } :=
  ⟨⟨rfl, rfl, rfl, by rw [h]; rfl, rfl⟩, rfl⟩

section Steps

variable [BlockDevice δ] [PacketBackend ρ] [PciBackend π] [LawfulPacketBackend ρ]
  [LawfulPciBackend π] {d' : BusDevices δ ρ π}

theorem Stir.wired (h : Stir d d') : Wired d d' := by
  cases h with
  | @tickHostblk h hh =>
    have hlog := isSome_writeLog_of_touched (h.touched_tick d.ram)
    exact ⟨⟨rfl, rfl, rfl, rfl, hlog⟩, rfl⟩
  | @tickPktport p hp =>
    have hlog := isSome_writeLog_of_touched (p.touched_tick d.ram)
    exact ⟨⟨rfl, rfl, rfl, rfl, hlog⟩, rfl⟩
  | @tickPcibridge c hc =>
    have hlog := isSome_writeLog_of_touched (c.touched_tick d.ram)
    exact ⟨⟨rfl, rfl, rfl, (wired_setCard hc (c.tick d.ram).1).card, hlog⟩, rfl⟩
  | readPcibridge hc offset => exact wired_setCard hc _
  | readSized hc k width => exact wired_setCard hc _
  | irqPending hc => exact wired_setCard hc _
  | readCustom offset =>
    unfold MachineBus.readCustomReg
    split <;> exact ⟨⟨rfl, rfl, rfl, rfl, rfl⟩, rfl⟩
  | _ => exact ⟨⟨rfl, rfl, rfl, rfl, rfl⟩, rfl⟩

theorem Stirred.wired (h : Stirred d d') : Wired d d' := by
  induction h with
  | refl => exact .refl d
  | tail _ hs ih => exact ih.trans hs.wired

/-- Only the overlay may move with a CIA. -/
theorem Drive.fitted (h : Drive d d') : Fitted d d' := by
  cases h with
  | stir h => exact h.wired.toFitted
  | ciaB reg value =>
    unfold MachineBus.writeCiaB
    dsimp only
    split <;> exact ⟨rfl, rfl, rfl, rfl, rfl⟩
  | custom offset value =>
    have hblit (d : BusDevices δ ρ π) : Fitted d (MachineBus.runBlitter d) := by
      have hlog := isSome_writeLog_of_stored
        (Blitter.stored_executeLogged d.blitter ⟨d.ram.chipRam, d.ram.writeLog⟩)
      unfold MachineBus.runBlitter
      dsimp only
      split <;> exact ⟨rfl, rfl, rfl, rfl, hlog⟩
    unfold MachineBus.writeCustomReg
    split
    · dsimp only
      split
      · refine Fitted.trans ?_ (hblit _)
        exact ⟨rfl, rfl, rfl, rfl, rfl⟩
      · exact ⟨rfl, rfl, rfl, rfl, rfl⟩
    · refine Fitted.trans ?_ (stirred_reassert _).wired.toFitted
      exact ⟨rfl, rfl, rfl, rfl, rfl⟩
  | pcibridge hc offset value => exact (wired_setCard hc _).toFitted
  | writeSized hc k width value => exact (wired_setCard hc _).toFitted
  | _ => exact ⟨rfl, rfl, rfl, rfl, rfl⟩

theorem Driven.fitted (h : Driven d d') : Fitted d d' := by
  induction h with
  | refl => exact .refl d
  | tail _ hs ih => exact ih.trans hs.fitted

end Steps

section Boards

variable [PciBackend π]

theorem wired_host (d : BusDevices δ ρ π) (op : HostOp) : Wired d (d.host op) := by
  cases op with
  | mouseButton button pressed =>
    simp only [host, mouseButton]
    split <;> exact ⟨⟨rfl, rfl, rfl, rfl, rfl⟩, rfl⟩
  | inspectConfig bdf offset width =>
    exact ⟨⟨rfl, rfl, rfl, by simp only [host, Option.isSome_map], rfl⟩, rfl⟩
  | storeRam addr bytes =>
    simp only [host]
    cases hs : GuestMemory.store d.ram addr bytes with
    | none => exact .refl d
    | some ram =>
      obtain ⟨before, put, hput, rfl⟩ := GuestMemory.exists_put_of_store hs
      exact ⟨⟨rfl, rfl, rfl, rfl, isSome_writeLog_of_touched (.put bytes (.refl d.ram) hput)⟩, rfl⟩
  | storeFastWindow off value =>
    simp only [host, storeFastWindow]
    split
    · split <;> exact ⟨⟨rfl, rfl, rfl, rfl, rfl⟩, rfl⟩
    · exact .refl d
  | clearDeviceWriteSpans =>
    exact ⟨⟨rfl, rfl, rfl, rfl, by
      simp only [host, clearDeviceWriteSpans, Option.isSome_map]⟩, rfl⟩
  | _ => exact ⟨⟨rfl, rfl, rfl, rfl, rfl⟩, rfl⟩

end Boards

/-- A step after which every address is decoded as before. -/
structure Steady (d d' : BusDevices δ ρ π) : Prop extends Wired d d' where
  chain : d'.autoconfig = d.autoconfig
  map : d.ram.sameMap d'.ram

theorem Steady.refl (d : BusDevices δ ρ π) : Steady d d := ⟨.refl d, rfl, ⟨rfl, rfl, rfl⟩⟩

theorem Steady.trans {d d' d'' : BusDevices δ ρ π} (h : Steady d d') (h' : Steady d' d'') :
    Steady d d'' :=
  ⟨h.toWired.trans h'.toWired, h'.chain.trans h.chain, h.map.trans h'.map⟩

theorem Stirred.steady [BlockDevice δ] [PacketBackend ρ] [PciBackend π] [LawfulPacketBackend ρ]
    [LawfulPciBackend π] {d' : BusDevices δ ρ π} (h : Stirred d d') : Steady d d' :=
  ⟨h.wired, h.quiet.chain, h.quiet.map⟩

theorem steady_host [PciBackend π] (d : BusDevices δ ρ π) (op : HostOp) :
    Steady d (d.host op) := ⟨wired_host d op, autoconfig_host d op, sameMap_host d op⟩

end BusDevices

namespace MachineBus

theorem wired_apertureStore [PciBackend π] (b : MachineBus δ ρ π) (address : Long)
    (width : AccessWidth) (value : Long) {b' : MachineBus δ ρ π}
    (h : b.apertureStore address width value = some b') : Wired b.devices b'.devices := by
  have hraise (d : BusDevices δ ρ π) (irq : Bool) : Wired d (d.raisePorts irq) := by
    cases irq <;> exact ⟨⟨rfl, rfl, rfl, rfl, rfl⟩, rfl⟩
  unfold apertureStore at h
  split at h
  · rename_i hdev
    dsimp only at h
    split at h
    · cases h
      rw [devices_requestBoundary]
      exact (wired_setCard hdev _).trans (hraise _ true)
    · cases h
      exact wired_setCard hdev _
  · cases h

/-! ## Writes -/

/-- The ROM and the log stay, and the cached windows stay fresh. -/
structure Written (d d' : BusDevices δ ρ π) : Prop where
  rom : d'.rom = d.rom
  inv : d.ChainInv → d'.ChainInv
  log : d'.ram.writeLog.isSome = d.ram.writeLog.isSome

theorem Written.refl (d : BusDevices δ ρ π) : Written d d := ⟨rfl, id, rfl⟩

theorem Written.trans {d d' d'' : BusDevices δ ρ π} (h : Written d d') (h' : Written d' d'') :
    Written d d'' :=
  ⟨h'.rom.trans h.rom, fun hinv => h'.inv (h.inv hinv), h'.log.trans h.log⟩

variable {d d' : BusDevices δ ρ π}

/-- The chain invariant is about the chain, the cached windows and whose they are. -/
theorem Written.of_quiet (hfit : Fitted d d') (h : Quiet d d') : Written d d' :=
  ⟨hfit.rom, (Keeps.of_same h.chain h.map.1 hfit.window h.map.2.1 hfit.bridge).inv, hfit.log⟩

theorem Written.of_steady (h : Steady d d') : Written d d' :=
  ⟨h.rom, (Keeps.of_same h.chain h.map.1 h.window h.map.2.1 h.bridge).inv, h.log⟩

end MachineBus

namespace BusDevices

open MachineBus

section Steps

variable [BlockDevice δ] [PacketBackend ρ] [PciBackend π] [LawfulPacketBackend ρ]
  [LawfulPciBackend π] {d d' : BusDevices δ ρ π}

theorem Change.written (h : Change d d') : Written d d' := by
  cases h with
  | drive h => exact .of_quiet h.fitted h.quiet
  | config address value => exact ⟨rfl, fun hinv => hinv.configWrite address value, rfl⟩
  | chip off bs => exact ⟨rfl, Keeps.inv (by exact .of_same rfl rfl rfl rfl rfl), rfl⟩
  | fast hmem off bs => exact ⟨rfl, Keeps.inv (by exact .of_same rfl rfl rfl rfl rfl), rfl⟩

theorem Changed.written (h : Changed d d') : Written d d' := by
  induction h with
  | refl => exact .refl d
  | tail _ hc ih => exact ih.trans hc.written

end Steps

end BusDevices

end M68kMachine
