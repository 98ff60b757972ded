import M68kMachine.Machine.Runs

/-!
# Level-triggered sources and their latches

CIA-A and the graphics card pull `PORTS`, CIA-B pulls `EXTER`. The bus polls them at a flush only,
so every step in between has to leave the latch of a pulling source set.

* `LevelIrqs` — every source that pulls has its `INTREQ` bit set
* `Raises` — a step that lets no source pull anew and clears no latch
* `Aside` — a step that leaves the clocks alone and keeps `LevelIrqs`
* `levelIrqs_tickExact`, `levelIrqs_reassert` — where the latches are set
-/

namespace M68kMachine

variable {δ ρ π : Type}

theorem Chipset.getLsbD_raiseInt_self (c : Chipset) {i : Nat} (hi : i < 16) :
    (c.raiseInt i).intreq.getLsbD i = true := by
  have hbit : ((1 : Word) <<< i).getLsbD i = true := by
    rw [BitVec.getLsbD_shiftLeft, Nat.sub_self]
    simp [hi]
  show (c.intreq ||| ((1 : Word) <<< i)).getLsbD i = true
  rw [BitVec.getLsbD_or, hbit, Bool.or_true]

theorem Chipset.getLsbD_raiseInt (c : Chipset) (i : Nat) {j : Nat}
    (h : c.intreq.getLsbD j = true) : (c.raiseInt i).intreq.getLsbD j = true := by
  unfold Chipset.raiseInt
  rw [BitVec.getLsbD_or, h, Bool.true_or]

/-- The beam is where it was, and a frame still has lines. -/
structure Chipset.SameBeam (c c' : Chipset) : Prop where
  carry : c'.carry = c.carry
  totalColourClocks : c'.totalColourClocks = c.totalColourClocks
  frame : 0 < c.linesPerFrame → 0 < c'.linesPerFrame

theorem Chipset.SameBeam.trans {c c' c'' : Chipset} (h : c.SameBeam c') (h' : c'.SameBeam c'') :
    c.SameBeam c'' :=
  ⟨h'.carry.trans h.carry, h'.totalColourClocks.trans h.totalColourClocks,
    fun hframe => h'.frame (h.frame hframe)⟩

/-- No write moves the beam. -/
theorem Chipset.sameBeam_write (c : Chipset) (offset : Nat) (value : Word) :
    c.SameBeam (c.write offset value) := by
  unfold Chipset.write
  split <;> (try exact ⟨rfl, rfl, id⟩)
  split_ifs <;> exact ⟨rfl, rfl, id⟩

/-- A read changes the serial receiver only. -/
theorem Chipset.read_beside (c : Chipset) (offset : Nat) :
    c.SameBeam (c.read offset).2 ∧ (c.read offset).2.intreq = c.intreq ∧
      (c.read offset).2.intena = c.intena := by
  unfold Chipset.read
  split <;> (try exact ⟨⟨rfl, rfl, id⟩, rfl, rfl⟩)
  unfold Chipset.readSerdatr
  simp only
  split <;> exact ⟨⟨rfl, rfl, id⟩, rfl, rfl⟩

namespace BusDevices

/-- Every source that pulls has its latch set. -/
structure LevelIrqs (d : BusDevices δ ρ π) : Prop where
  ciaA : d.ciaA.irqPending = true → d.chipset.intreq.getLsbD Chipset.Intbit.ports = true
  ciaB : d.ciaB.irqPending = true → d.chipset.intreq.getLsbD Chipset.Intbit.exter = true
  graphics : d.graphicsIrq = true → d.chipset.intreq.getLsbD Chipset.Intbit.ports = true

/-- The CIAs, the card and the beam as they were, and no latch cleared. -/
structure Raises (d d' : BusDevices δ ρ π) : Prop where
  ciaA : d'.ciaA = d.ciaA
  ciaB : d'.ciaB = d.ciaB
  graphics : d'.graphicsIrq = d.graphicsIrq
  beam : d.chipset.SameBeam d'.chipset
  intreq : ∀ i, d.chipset.intreq.getLsbD i = true → d'.chipset.intreq.getLsbD i = true

variable (d : BusDevices δ ρ π) {d' : BusDevices δ ρ π}

theorem Raises.refl : Raises d d :=
  ⟨rfl, rfl, rfl, ⟨rfl, rfl, id⟩, fun _ h => h⟩

theorem Raises.trans {d d' d'' : BusDevices δ ρ π} (h : Raises d d') (h' : Raises d' d'') :
    Raises d d'' :=
  ⟨h'.ciaA.trans h.ciaA, h'.ciaB.trans h.ciaB, h'.graphics.trans h.graphics, h.beam.trans h'.beam,
    fun i hi => h'.intreq i (h.intreq i hi)⟩

theorem Raises.levels {d : BusDevices δ ρ π} (h : Raises d d') (hl : d.LevelIrqs) :
    d'.LevelIrqs := by
  refine ⟨fun hirq => ?_, fun hirq => ?_, fun hirq => ?_⟩
  · rw [h.ciaA] at hirq
    exact h.intreq _ (hl.ciaA hirq)
  · rw [h.ciaB] at hirq
    exact h.intreq _ (hl.ciaB hirq)
  · rw [h.graphics] at hirq
    exact h.intreq _ (hl.graphics hirq)

/-- A step that leaves the chipset alone too. -/
theorem Raises.of_eq {d : BusDevices δ ρ π} (hA : d'.ciaA = d.ciaA) (hB : d'.ciaB = d.ciaB)
    (hg : d'.graphics = d.graphics) (hc : d'.chipset = d.chipset) : Raises d d' := by
  refine ⟨hA, hB, ?_, ?_, ?_⟩
  · unfold graphicsIrq
    rw [hg]
  · rw [hc]
    exact ⟨rfl, rfl, id⟩
  · intro i hi
    rwa [hc]

theorem raises_chipset {c : Chipset} (hbeam : d.chipset.SameBeam c)
    (h : ∀ i, d.chipset.intreq.getLsbD i = true → c.intreq.getLsbD i = true) :
    Raises d { d with chipset := c } := ⟨rfl, rfl, rfl, hbeam, h⟩

theorem raises_raiseInt (i : Nat) : Raises d (d.raiseInt i) :=
  ⟨rfl, rfl, rfl, ⟨rfl, rfl, id⟩, fun _ h => d.chipset.getLsbD_raiseInt i h⟩

theorem Raises.raisePorts {d d' : BusDevices δ ρ π} (h : Raises d d') (irq : Bool) :
    Raises d (d'.raisePorts irq) := by
  unfold BusDevices.raisePorts
  split
  · exact h.trans (raises_raiseInt d' _)
  · exact h

theorem Raises.raiseExter {d d' : BusDevices δ ρ π} (h : Raises d d') (irq : Bool) :
    Raises d (d'.raiseExter irq) := by
  unfold BusDevices.raiseExter
  split
  · exact h.trans (raises_raiseInt d' _)
  · exact h

theorem getLsbD_raisePorts {d : BusDevices δ ρ π} {irq : Bool} (h : irq = true) :
    (d.raisePorts irq).chipset.intreq.getLsbD Chipset.Intbit.ports = true := by
  unfold raisePorts
  rw [if_pos h]
  exact d.chipset.getLsbD_raiseInt_self (by decide)

theorem getLsbD_raiseExter {d : BusDevices δ ρ π} {irq : Bool} (h : irq = true) :
    (d.raiseExter irq).chipset.intreq.getLsbD Chipset.Intbit.exter = true := by
  unfold raiseExter
  rw [if_pos h]
  exact d.chipset.getLsbD_raiseInt_self (by decide)

/-! ## Where the latches are set -/

theorem raises_reassert : Raises d d.reassertLevelIrqs :=
  (((Raises.refl d).raisePorts _).raiseExter _).raisePorts _

/-- **A reassertion sets the latch of every source**, whatever was cleared before. -/
theorem levelIrqs_reassert : d.reassertLevelIrqs.LevelIrqs := by
  have hA := (Raises.refl d).raisePorts d.ciaA.irqPending
  have hB := hA.raiseExter d.ciaB.irqPending
  have hlast := (Raises.refl ((d.raisePorts d.ciaA.irqPending).raiseExter
    d.ciaB.irqPending)).raisePorts d.graphicsIrq
  have hmid := (Raises.refl (d.raisePorts d.ciaA.irqPending)).raiseExter d.ciaB.irqPending
  have hall := raises_reassert d
  refine ⟨fun hirq => ?_, fun hirq => ?_, fun hirq => ?_⟩
  · rw [hall.ciaA] at hirq
    exact hlast.intreq _ (hmid.intreq _ (getLsbD_raisePorts hirq))
  · rw [hall.ciaB] at hirq
    exact hlast.intreq _ (getLsbD_raiseExter hirq)
  · rw [hall.graphics] at hirq
    exact getLsbD_raisePorts hirq

section Engines

variable [BlockDevice δ] [PacketBackend ρ] [PciBackend π] (d : BusDevices δ ρ π)

omit [PacketBackend ρ] [PciBackend π] in
theorem raises_tickMirage : Raises d d.tickMirage := by
  unfold tickMirage
  split
  · exact .refl d
  · refine Raises.raisePorts ?_ _
    exact .of_eq rfl rfl rfl rfl

omit [PacketBackend ρ] [PciBackend π] in
theorem raises_tickHostblk : Raises d d.tickHostblk := by
  unfold tickHostblk
  split
  · exact .refl d
  · refine Raises.raisePorts ?_ _
    exact .of_eq rfl rfl rfl rfl

omit [BlockDevice δ] [PciBackend π] in
theorem raises_tickPktport : Raises d d.tickPktport := by
  unfold tickPktport
  split
  · exact .refl d
  · refine Raises.raisePorts ?_ _
    exact .of_eq rfl rfl rfl rfl

omit [BlockDevice δ] [PacketBackend ρ] in
theorem raises_tickPcibridge : Raises d d.tickPcibridge := by
  unfold tickPcibridge
  split
  · exact .refl d
  · refine Raises.raisePorts ?_ _
    exact .of_eq rfl rfl rfl rfl

theorem raises_tickEngines : Raises d d.tickEngines :=
  (((raises_tickMirage d).trans (raises_tickHostblk _)).trans (raises_tickPktport _)).trans
    (raises_tickPcibridge _)

omit [BlockDevice δ] [PacketBackend ρ] [PciBackend π] in
theorem getLsbD_tickGraphics {d : BusDevices δ ρ π} {beam : Chipset.BeamAdvance}
    (h : (d.tickGraphics beam).graphicsIrq = true) :
    (d.tickGraphics beam).chipset.intreq.getLsbD Chipset.Intbit.ports = true := by
  unfold tickGraphics at h ⊢
  split at h
  · rename_i hnone
    unfold graphicsIrq at h
    rw [hnone] at h
    cases h
  · rename_i card hcard
    simp only at h ⊢
    generalize Graffity.signalVerticalRetrace^[beam.framesWrapped] card = signalled at h ⊢
    have hraise := (Raises.refl { d with graphics := some signalled }).raisePorts
      signalled.irqPending
    rw [hraise.graphics] at h
    exact getLsbD_raisePorts h

/-- What the beam and the engines leave to the CIAs. -/
def beforeCias (d : BusDevices δ ρ π) (cpuClocks : Nat) : BusDevices δ ρ π :=
  let beam := (d.tickBeam cpuClocks).1
  let d := ((d.tickBeam cpuClocks).2.tickTod beam).tickGraphics beam
  if 0 < beam.linesStarted then d.tickEngines else d

theorem tickExact_eq (cpuClocks : Nat) :
    d.tickExact cpuClocks = ((d.beforeCias cpuClocks).tickCiaA cpuClocks).tickCiaB cpuClocks := rfl

/-- **A tick sets the latch of every source.** -/
theorem levelIrqs_tickExact (cpuClocks : Nat) : (d.tickExact cpuClocks).LevelIrqs := by
  rw [tickExact_eq]
  have hgraphics : (d.beforeCias cpuClocks).graphicsIrq = true →
      (d.beforeCias cpuClocks).chipset.intreq.getLsbD Chipset.Intbit.ports = true := by
    unfold beforeCias
    simp only
    split
    · intro h
      have hengines := raises_tickEngines (((d.tickBeam cpuClocks).2.tickTod
        (d.tickBeam cpuClocks).1).tickGraphics (d.tickBeam cpuClocks).1)
      rw [hengines.graphics] at h
      exact hengines.intreq _ (getLsbD_tickGraphics h)
    · exact getLsbD_tickGraphics
  generalize d.beforeCias cpuClocks = before at hgraphics
  -- Each CIA's own tick is the last word on its request.
  have hA : Raises { before with ciaA := (before.ciaA.tick cpuClocks cpuClocksPerEclock).2 }
      (before.tickCiaA cpuClocks) := (Raises.refl _).raisePorts _
  have hB : Raises { before.tickCiaA cpuClocks with
        ciaB := ((before.tickCiaA cpuClocks).ciaB.tick cpuClocks cpuClocksPerEclock).2 }
      ((before.tickCiaA cpuClocks).tickCiaB cpuClocks) := (Raises.refl _).raiseExter _
  refine ⟨fun hirq => ?_, fun hirq => ?_, fun hirq => ?_⟩
  · rw [hB.ciaA] at hirq
    rw [show ({ before.tickCiaA cpuClocks with ciaB := _ } : BusDevices δ ρ π).ciaA =
      (before.tickCiaA cpuClocks).ciaA from rfl, hA.ciaA] at hirq
    exact hB.intreq _ (getLsbD_raisePorts hirq)
  · rw [hB.ciaB] at hirq
    exact getLsbD_raiseExter hirq
  · rw [hB.graphics] at hirq
    have hirq' : (before.tickCiaA cpuClocks).graphicsIrq = true := hirq
    rw [hA.graphics] at hirq'
    exact hB.intreq _ (hA.intreq _ (hgraphics hirq'))

end Engines

/-! ## Steps beside the clocks -/

/-- Nothing that keeps time changed, pins apart, and no latch of a pulling source was lost. -/
structure Aside (d d' : BusDevices δ ρ π) : Prop where
  ciaA : ∃ pins, d'.ciaA = { d.ciaA with praInput := pins }
  ciaB : d'.ciaB = d.ciaB
  beam : d.chipset.SameBeam d'.chipset
  levels : d.LevelIrqs → d'.LevelIrqs

theorem Raises.aside {d : BusDevices δ ρ π} (h : Raises d d') : Aside d d' :=
  ⟨⟨d.ciaA.praInput, h.ciaA⟩, h.ciaB, h.beam, h.levels⟩

theorem Aside.refl (d : BusDevices δ ρ π) : Aside d d := (Raises.refl d).aside

/-- A step that leaves the sources and the interrupt registers alone. -/
theorem Aside.of_eq {d d' : BusDevices δ ρ π} (hA : d'.ciaA = d.ciaA) (hB : d'.ciaB = d.ciaB)
    (hg : d'.graphics = d.graphics) (hc : d'.chipset = d.chipset) : Aside d d' :=
  (Raises.of_eq hA hB hg hc).aside

section Boards

variable [BlockDevice δ] [PciBackend π]

/-- Reading the graphics card acknowledges nothing. -/
theorem raises_readRole (d : BusDevices δ ρ π) (role : BoardRole) (offset : Nat) :
    Raises d (d.readRole role offset).2 := by
  unfold readRole
  split <;> (try split) <;>
    first
    | exact .of_eq rfl rfl rfl rfl
    | exact Raises.raisePorts (by exact .of_eq rfl rfl rfl rfl) _
    | skip
  rename_i card hcard
  refine ⟨rfl, rfl, ?_, ⟨rfl, rfl, id⟩, fun _ h => h⟩
  unfold graphicsIrq
  rw [hcard]
  exact card.irqPending_read _ offset

theorem raises_readBoard (d : BusDevices δ ρ π) (idx : Nat) (address : Long) :
    Raises d (d.readBoard idx address).2 := by
  unfold readBoard
  split
  · exact .refl d
  · exact raises_readRole d _ _

/-- Writing to it may, and everything that still pulls is reasserted. -/
theorem aside_writeRole (d : BusDevices δ ρ π) (role : BoardRole) (offset : Nat) (value : Byte) :
    Aside d (d.writeRole role offset value) := by
  unfold writeRole
  split <;> (try split) <;>
    first
    | exact .of_eq rfl rfl rfl rfl
    | exact (Raises.raisePorts (by exact .of_eq rfl rfl rfl rfl) _).aside
    | skip
  rename_i board _ card hcard
  have hall := raises_reassert { d with graphics := some (card.write board offset value) }
  exact ⟨⟨d.ciaA.praInput, hall.ciaA⟩, hall.ciaB, hall.beam, fun _ => levelIrqs_reassert _⟩

theorem aside_writeBoard (d : BusDevices δ ρ π) (idx : Nat) (address : Long) (value : Byte) :
    Aside d (d.writeBoard idx address value) := by
  unfold writeBoard
  split
  · exact .refl d
  · exact aside_writeRole d _ _ _

end Boards

theorem aside_host [PciBackend π] {op : HostOp} (hop : ∀ raw, op ≠ .queueKeycode raw) :
    Aside d (d.host op) := by
  cases op with
  | queueKeycode raw => exact absurd rfl (hop raw)
  | mouseDelta dx dy => exact ⟨⟨_, rfl⟩, rfl, ⟨rfl, rfl, id⟩, fun h => ⟨h.ciaA, h.ciaB, h.graphics⟩⟩
  | mouseButton button pressed =>
    simp only [host, mouseButton]
    split
    · exact ⟨⟨_, rfl⟩, rfl, ⟨rfl, rfl, id⟩, fun h => ⟨h.ciaA, h.ciaB, h.graphics⟩⟩
    · cases button <;>
        exact ⟨⟨_, rfl⟩, rfl, ⟨rfl, rfl, id⟩, fun h => ⟨h.ciaA, h.ciaB, h.graphics⟩⟩
  | takeSerialByte => exact ⟨⟨_, rfl⟩, rfl, ⟨rfl, rfl, id⟩, fun h => ⟨h.ciaA, h.ciaB, h.graphics⟩⟩
  | pushSerialInByte byte =>
    simp only [host, Chipset.pushSerialInByte]
    split
    · rename_i buf _
      have hgrow (i : Nat) (hi : d.chipset.intreq.getLsbD i = true) :=
        Chipset.getLsbD_raiseInt { d.chipset with serialInBuf := buf } Chipset.Intbit.rbf hi
      refine (raises_chipset d ?_ hgrow).aside
      exact ⟨rfl, rfl, id⟩
    · exact ⟨⟨_, rfl⟩, rfl, ⟨rfl, rfl, id⟩, fun h => ⟨h.ciaA, h.ciaB, h.graphics⟩⟩
  | setNtsc ntsc =>
    refine ⟨⟨_, rfl⟩, rfl, ⟨rfl, rfl, fun _ => ?_⟩, fun h => ⟨h.ciaA, h.ciaB, h.graphics⟩⟩
    show 0 < if ntsc then Chipset.ntscLinesPerFrame else Chipset.palLinesPerFrame
    cases ntsc <;> decide
  | storeFastWindow off value =>
    simp only [host, storeFastWindow]
    split
    · split <;> exact .of_eq rfl rfl rfl rfl
    · exact .refl d
  | _ => exact .of_eq rfl rfl rfl rfl

/-- A new card pulls nothing. -/
theorem aside_attach (card : Attach δ ρ π) : Aside d (d.attach card) := by
  have hcard (variant : Graffity.BoardVariant) (vram : ByteSlice) :
      Aside d (d.attachGraphics (Graffity.withVariant variant vram)) := by
    refine ⟨⟨_, rfl⟩, rfl, ⟨rfl, rfl, id⟩, fun h => ⟨h.ciaA, h.ciaB, fun hirq => ?_⟩⟩
    have hnone : (d.attachGraphics (Graffity.withVariant variant vram)).graphicsIrq = false := rfl
    rw [hnone] at hirq
    cases hirq
  cases card with
  | mirage unit device =>
    simp only [attach, withMirage]
    split <;> exact .of_eq rfl rfl rfl rfl
  | hostblk unit device writeProtect diagRom =>
    simp only [attach, withHostblk]
    split <;> exact .of_eq rfl rfl rfl rfl
  | graphics vram => exact hcard .zorroII vram
  | graphicsZorroIII vram => exact hcard .zorroIII vram
  | input diagRom =>
    simp only [attach, withInput]
    split
    · exact .refl d
    · exact .of_eq rfl rfl rfl rfl
  | floppy presence => exact ⟨⟨_, rfl⟩, rfl, ⟨rfl, rfl, id⟩, fun h => ⟨h.ciaA, h.ciaB, h.graphics⟩⟩
  | _ => exact .of_eq rfl rfl rfl rfl

end BusDevices

namespace MachineBus

open BusDevices

/-! ## The custom chips -/

theorem aside_readCustomReg (d : BusDevices δ ρ π) (offset : Nat) :
    Aside d (readCustomReg d offset).2 := by
  unfold readCustomReg
  split
  · exact .refl d
  · obtain ⟨hbeam, hintreq, -⟩ := d.chipset.read_beside offset
    refine ⟨⟨_, rfl⟩, rfl, hbeam, fun h => ⟨?_, ?_, ?_⟩⟩
    · simp only [hintreq]
      exact h.ciaA
    · simp only [hintreq]
      exact h.ciaB
    · simp only [hintreq]
      exact h.graphics

theorem raises_runBlitter (d : BusDevices δ ρ π) : Raises d (runBlitter d) := by
  unfold runBlitter
  simp only
  split
  · exact Raises.trans (by exact .of_eq rfl rfl rfl rfl) (raises_raiseInt _ _)
  · exact .of_eq rfl rfl rfl rfl

/-- A blitter write can only raise `BLIT`; after any other the sources are reasserted. -/
theorem aside_writeCustomReg (d : BusDevices δ ρ π) (offset : Nat) (value : Word) :
    Aside d (writeCustomReg d offset value) := by
  unfold writeCustomReg
  split
  · simp only
    split
    · have hblit := raises_runBlitter { d with blitter := (d.blitter.write offset value).2 }
      exact ⟨⟨d.ciaA.praInput, hblit.ciaA⟩, hblit.ciaB, hblit.beam,
        fun h => hblit.levels ⟨h.ciaA, h.ciaB, h.graphics⟩⟩
    · exact .of_eq rfl rfl rfl rfl
  · have hall := raises_reassert { d with chipset := d.chipset.write offset value }
    exact ⟨⟨d.ciaA.praInput, hall.ciaA⟩, hall.ciaB, (d.chipset.sameBeam_write offset value).trans
      hall.beam, fun _ => levelIrqs_reassert _⟩

end MachineBus

/-! ## Reading a CIA -/

/-- No read of a CIA raises a source, and one of `ICR` takes them all back. -/
theorem Cia.irqPending_of_read {c : Cia} {reg : Nat} (h : (c.read reg).2.irqPending = true) :
    c.irqPending = true := by
  have htod (reg : Nat) (h : (c.readTod reg).2.irqPending = true) : c.irqPending = true := by
    unfold Cia.readTod at h
    simp only at h
    split_ifs at h <;> exact h
  unfold Cia.read at h
  split at h <;> (try exact h) <;> (try exact htod _ h)
  exact absurd h (by simp [Cia.readIcr, Cia.irqPending])

end M68kMachine
