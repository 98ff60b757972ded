import M68kMachine.Hosted.DirectMap
import M68kMachine.Library.Evolution
import M68kMachine.Properties.AccessWidths

/-!
# Cards on their own

Whatever the guest and the board layer do, a card only goes through steps of its own. No card
reaches into another, and none comes or goes while a machine runs.

* `Does` — the steps of each card
* `CardsEvolve` — the cards before and after
* `evolve_liveRun` — over any run
-/

namespace M68kMachine

open Evolution

variable {δ ρ π : Type}

/-! ## What a card does -/

inductive Graffity.Does : Graffity → Graffity → Prop
  | read (g : Graffity) (board offset : Nat) : Does g (g.read board offset).2
  | write (g : Graffity) (board offset : Nat) (value : Byte) : Does g (g.write board offset value)
  | retrace (g : Graffity) : Does g g.signalVerticalRetrace

inductive Mirage.Does [BlockDevice δ] : Mirage δ → Mirage δ → Prop
  | read (m : Mirage δ) (offset : Nat) : Does m (m.read offset).2
  | write (m : Mirage δ) (offset : Nat) (value : Byte) : Does m (m.write offset value)
  | tick (m : Mirage δ) : Does m m.tick
  | mediaChange (m : Mirage δ) (unit : Nat) : Does m (m.notifyMediaChange unit)

inductive Hostblk.Does [BlockDevice δ] : Hostblk δ → Hostblk δ → Prop
  | write (h : Hostblk δ) (offset : Nat) (value : Byte) : Does h (h.write offset value)
  | tick (h : Hostblk δ) (ram : GuestRam) : Does h (h.tick ram).1
  | mediaChange (h : Hostblk δ) (unit : Byte) : Does h (h.notifyMediaChange unit)

inductive NativeInput.Does : NativeInput → NativeInput → Prop
  | write (c : NativeInput) (offset : Nat) (value : Byte) : Does c (c.write offset value)
  | push (c : NativeInput) (event : InputPush) : Does c (c.push event)

inductive Pktport.Does [PacketBackend ρ] : Pktport ρ → Pktport ρ → Prop
  | write (p : Pktport ρ) (offset : Nat) (value : Byte) : Does p (p.write offset value)
  | tick (p : Pktport ρ) (ram : GuestRam) : Does p (p.tick ram).1

inductive RtgBoard.Does : RtgBoard → RtgBoard → Prop
  | write (r : RtgBoard) (offset : Nat) (value : Byte) : Does r (r.write offset value)

inductive PciBridge.Does [PciBackend π] : PciBridge π → PciBridge π → Prop
  | read (d : PciBridge π) (offset : Nat) : Does d (d.read offset).2
  | write (d : PciBridge π) (offset : Nat) (value : Byte) : Does d (d.write offset value)
  | readSized (d : PciBridge π) (k : Nat) (width : AccessWidth) :
      Does d (d.readApertureSized k width).2
  | writeSized (d : PciBridge π) (k : Nat) (width : AccessWidth) (value : Long) :
      Does d (d.writeApertureSized k width value)
  | irqPending (d : PciBridge π) : Does d d.irqPending.2
  | tick (d : PciBridge π) (ram : GuestRam) : Does d (d.tick ram).1
  | inspect (d : PciBridge π) (bdf : Pci.Bdf) (offset : Word) (width : AccessWidth) :
      Does d { d with backend := (PciBackend.configRead d.backend bdf offset width).2 }

namespace BusDevices

variable [BlockDevice δ] [PacketBackend ρ] [PciBackend π] (d : BusDevices δ ρ π)
  {d' : BusDevices δ ρ π}

/-- Each card went through steps of its own. -/
structure CardsEvolve (d d' : BusDevices δ ρ π) : Prop where
  graphics : Slot Graffity.Does d.graphics d'.graphics
  mirage : Slot Mirage.Does d.mirage d'.mirage
  hostblk : Slot Hostblk.Does d.hostblk d'.hostblk
  input : Slot NativeInput.Does d.input d'.input
  pktport : Slot Pktport.Does d.pktport d'.pktport
  rtg : Slot RtgBoard.Does d.rtg d'.rtg
  pcibridge : Slot PciBridge.Does d.pcibridge d'.pcibridge

/-- The cards of two machines are the same. -/
structure SameCards (d d' : BusDevices δ ρ π) : Prop where
  graphics : d'.graphics = d.graphics
  mirage : d'.mirage = d.mirage
  hostblk : d'.hostblk = d.hostblk
  input : d'.input = d.input
  pktport : d'.pktport = d.pktport
  rtg : d'.rtg = d.rtg
  pcibridge : d'.pcibridge = d.pcibridge

theorem SameCards.evolve {d : BusDevices δ ρ π} (h : SameCards d d') : CardsEvolve d d' where
  graphics := .of_eq h.graphics
  mirage := .of_eq h.mirage
  hostblk := .of_eq h.hostblk
  input := .of_eq h.input
  pktport := .of_eq h.pktport
  rtg := .of_eq h.rtg
  pcibridge := .of_eq h.pcibridge

theorem CardsEvolve.refl : CardsEvolve d d :=
  SameCards.evolve ⟨rfl, rfl, rfl, rfl, rfl, rfl, rfl⟩

theorem CardsEvolve.trans {d d' d'' : BusDevices δ ρ π} (h : CardsEvolve d d')
    (h' : CardsEvolve d' d'') : CardsEvolve d d'' where
  graphics := h.graphics.trans h'.graphics
  mirage := h.mirage.trans h'.mirage
  hostblk := h.hostblk.trans h'.hostblk
  input := h.input.trans h'.input
  pktport := h.pktport.trans h'.pktport
  rtg := h.rtg.trans h'.rtg
  pcibridge := h.pcibridge.trans h'.pcibridge

instance : Std.Refl (CardsEvolve (δ := δ) (ρ := ρ) (π := π)) := ⟨.refl⟩

instance : IsTrans (BusDevices δ ρ π) CardsEvolve := ⟨fun _ _ _ => .trans⟩

/-! ## Steps of one card -/

section Steps

variable {d : BusDevices δ ρ π}

theorem Stir.evolve (h : Stir d d') : CardsEvolve d d' := by
  cases h with
  | retrace hg n => exact { CardsEvolve.refl d with graphics := .iterate hg .retrace n }
  | tickMirage hm => exact { CardsEvolve.refl d with mirage := .step hm (.tick _) }
  | tickHostblk hh => exact { CardsEvolve.refl d with hostblk := .step hh (.tick _ d.ram) }
  | tickPktport hp => exact { CardsEvolve.refl d with pktport := .step hp (.tick _ d.ram) }
  | tickPcibridge hc => exact { CardsEvolve.refl d with pcibridge := .step hc (.tick _ d.ram) }
  | readMirage hm offset => exact { CardsEvolve.refl d with mirage := .step hm (.read _ offset) }
  | readGraphics hg board offset =>
    exact { CardsEvolve.refl d with graphics := .step hg (.read _ board offset) }
  | readPcibridge hc offset =>
    exact { CardsEvolve.refl d with pcibridge := .step hc (.read _ offset) }
  | readSized hc k width =>
    exact { CardsEvolve.refl d with pcibridge := .step hc (.readSized _ k width) }
  | irqPending hc => exact { CardsEvolve.refl d with pcibridge := .step hc (.irqPending _) }
  | readCustom offset =>
    unfold MachineBus.readCustomReg
    split <;> exact SameCards.evolve ⟨rfl, rfl, rfl, rfl, rfl, rfl, rfl⟩
  | _ => exact SameCards.evolve ⟨rfl, rfl, rfl, rfl, rfl, rfl, rfl⟩

theorem Drive.evolve (h : Drive d d') : CardsEvolve d d' := by
  cases h with
  | stir h => exact h.evolve
  | ciaA reg value => exact SameCards.evolve ⟨rfl, rfl, rfl, rfl, rfl, rfl, rfl⟩
  | ciaB reg value =>
    unfold MachineBus.writeCiaB
    dsimp only
    split <;> exact SameCards.evolve ⟨rfl, rfl, rfl, rfl, rfl, rfl, rfl⟩
  | mirage hm offset value =>
    exact { CardsEvolve.refl d with mirage := .step hm (.write _ offset value) }
  | hostblk hh offset value =>
    exact { CardsEvolve.refl d with hostblk := .step hh (.write _ offset value) }
  | input hc offset value =>
    exact { CardsEvolve.refl d with input := .step hc (.write _ offset value) }
  | pktport hp offset value =>
    exact { CardsEvolve.refl d with pktport := .step hp (.write _ offset value) }
  | rtg offset value =>
    exact { CardsEvolve.refl d with rtg := .map (fun r => .write r offset value) d.rtg }
  | pcibridge hc offset value =>
    exact { CardsEvolve.refl d with pcibridge := .step hc (.write _ offset value) }
  | writeSized hc k width value =>
    exact { CardsEvolve.refl d with pcibridge := .step hc (.writeSized _ k width value) }
  | graphics hg board offset value =>
    exact { CardsEvolve.refl d with graphics := .step hg (.write _ board offset value) }
  | custom offset value =>
    have hblit (d : BusDevices δ ρ π) : SameCards d (MachineBus.runBlitter d) := by
      unfold MachineBus.runBlitter
      dsimp only
      split <;> exact ⟨rfl, rfl, rfl, rfl, rfl, rfl, rfl⟩
    unfold MachineBus.writeCustomReg
    split
    · dsimp only
      split
      · refine CardsEvolve.trans ?_ (hblit _).evolve
        exact SameCards.evolve ⟨rfl, rfl, rfl, rfl, rfl, rfl, rfl⟩
      · exact SameCards.evolve ⟨rfl, rfl, rfl, rfl, rfl, rfl, rfl⟩
    · have hirqs (d : BusDevices δ ρ π) : CardsEvolve d d.reassertLevelIrqs :=
        Relation.reflTransGen_le_of_le (fun _ _ hs => hs.evolve) _ _ (stirred_reassert d)
      refine CardsEvolve.trans ?_ (hirqs _)
      exact SameCards.evolve ⟨rfl, rfl, rfl, rfl, rfl, rfl, rfl⟩

theorem Change.evolve (h : Change d d') : CardsEvolve d d' := by
  cases h with
  | drive h => exact h.evolve
  | _ => exact SameCards.evolve ⟨rfl, rfl, rfl, rfl, rfl, rfl, rfl⟩

theorem Changed.evolve (h : Changed d d') : CardsEvolve d d' :=
  Relation.reflTransGen_le_of_le (fun _ _ hs => hs.evolve) _ _ h

end Steps

/-! ## The board layer -/

theorem evolve_host (op : HostOp) : CardsEvolve d (d.host op) := by
  cases op with
  | mouseButton button pressed =>
    simp only [host, mouseButton]
    split <;> exact SameCards.evolve ⟨rfl, rfl, rfl, rfl, rfl, rfl, rfl⟩
  | pushInput event =>
    exact { CardsEvolve.refl d with input := .map (fun c => .push c event) d.input }
  | mirageMediaChange unit =>
    exact { CardsEvolve.refl d with mirage := .map (fun m => .mediaChange m unit) d.mirage }
  | hostblkMediaChange unit =>
    exact { CardsEvolve.refl d with hostblk := .map (fun h => .mediaChange h unit) d.hostblk }
  | inspectConfig bdf offset width =>
    exact { CardsEvolve.refl d with
      pcibridge := .map (fun c => .inspect c bdf offset width) d.pcibridge }
  | storeFastWindow off value =>
    simp only [host, storeFastWindow]
    split
    · split <;> exact SameCards.evolve ⟨rfl, rfl, rfl, rfl, rfl, rfl, rfl⟩
    · exact .refl d
  | _ => exact SameCards.evolve ⟨rfl, rfl, rfl, rfl, rfl, rfl, rfl⟩

end BusDevices

namespace MachineBus

open BusDevices

variable [BlockDevice δ] [PacketBackend ρ] [PciBackend π] (b : MachineBus δ ρ π)

/-! ## Runs -/

theorem evolve_stepHost (op : HostOp) : CardsEvolve b.devices (b.stepHost op).devices := by
  unfold stepHost
  split
  · unfold takeBoundaryRequest
    exact .refl _
  · exact evolve_host b.devices _

theorem evolve_live (op : LiveOp) : CardsEvolve b.devices (b.live op).2.devices := by
  cases op with
  | access a => exact (changed_stepGuest b (.access a)).evolve
  | tick cpuClocks => exact (changed_stepGuest b (.tick cpuClocks)).evolve
  | host op => exact evolve_stepHost b op

theorem evolve_liveRun (ops : List LiveOp) :
    ∀ b : MachineBus δ ρ π, CardsEvolve b.devices (b.liveRun ops).2.devices := by
  induction ops with
  | nil => exact fun b => .refl b.devices
  | cons op ops ih => exact fun b => (evolve_live b op).trans (ih _)

end MachineBus

end M68kMachine
