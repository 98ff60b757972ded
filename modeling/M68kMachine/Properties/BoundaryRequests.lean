import Mathlib.Logic.Relation
import M68kMachine.Properties.EventDeadline

/-!
# Interrupt levels and boundary requests

Every operation of a bus is a number of small steps (`Steps`): what those keep holds in every
reachable state. An access moreover asks for a boundary when it moved the interrupt level (`Asks`):
where it does not compare the level itself, it only flushed, which up to the deadline moves nothing.

* `asks_access` — the walk through the accesses
* `sources_stay_latched`, `level_change_asks_for_boundary`, `deadline_is_sound_and_exact`
-/

namespace M68kMachine

namespace MachineBus

open BusDevices Transition

variable {δ ρ π : Type} [BlockDevice δ] [PacketBackend ρ] [PciBackend π] (b : MachineBus δ ρ π)
  (address : Long) {b' : MachineBus δ ρ π} {d : BusDevices δ ρ π}

/-- Small steps that leave a boundary request standing. -/
structure Steps (b b' : MachineBus δ ρ π) : Prop where
  micros : Relation.ReflTransGen Micro b b'
  keeps : b.boundaryRequest = true → b'.boundaryRequest = true

theorem Steps.refl (b : MachineBus δ ρ π) : Steps b b := ⟨.refl, fun h => h⟩

theorem Steps.trans {b b' b'' : MachineBus δ ρ π} (h : Steps b b') (h' : Steps b' b'') :
    Steps b b'' := ⟨h.micros.trans h'.micros, fun hr => h'.keeps (h.keeps hr)⟩

theorem Steps.of_micro {b : MachineBus δ ρ π} (h : Micro b b')
    (hr : b'.boundaryRequest = b.boundaryRequest) : Steps b b' :=
  ⟨.single h, fun hb => hr.trans hb⟩

theorem Steps.timely {b : MachineBus δ ρ π} (h : Steps b b') (hb : b.Timely) : b'.Timely := by
  have hmicros := h.micros
  clear h
  induction hmicros with
  | refl => exact hb
  | tail _ hstep ih => exact timely_micro ih hstep

/-- Steps that ask for a boundary when they move the level. -/
structure Asks (b b' : MachineBus δ ρ π) : Prop extends Steps b b' where
  asks : b.Timely → b'.pendingIrqLevel ≠ b.pendingIrqLevel → b'.boundaryRequest = true

theorem Asks.trans {b b' b'' : MachineBus δ ρ π} (h : Asks b b') (h' : Asks b' b'') :
    Asks b b'' := by
  refine ⟨h.toSteps.trans h'.toSteps, fun hb hlevel => ?_⟩
  by_cases hfirst : b'.pendingIrqLevel = b.pendingIrqLevel
  · exact h'.asks (h.timely hb) (by rw [hfirst]; exact hlevel)
  · exact h'.keeps (h.asks hb hfirst)

/-- Steps that leave the level where it was. -/
theorem Steps.asks {b : MachineBus δ ρ π} (h : Steps b b')
    (hlevel : b'.pendingIrqLevel = b.pendingIrqLevel) : Asks b b' :=
  ⟨h, fun _ hne => absurd hlevel hne⟩

theorem Asks.refl (b : MachineBus δ ρ π) : Asks b b := (Steps.refl b).asks rfl

/-- Steps whose effect on the level is compared afterwards. -/
theorem Steps.compared {b : MachineBus δ ρ π} (h : Steps b b') :
    Asks b (b'.requestBoundary b.pendingIrqLevel) := by
  unfold requestBoundary
  split
  · refine ⟨⟨h.micros.tail (.request true), fun _ => rfl⟩, fun _ _ => rfl⟩
  · rename_i hsame
    exact h.asks (not_not.mp hsame)

/-! ## The devices -/

theorem steps_aside {b : MachineBus δ ρ π} (h : Aside b.devices d) :
    Steps b { b with devices := d } := Steps.of_micro (.aside h) rfl

/-- A change outside the chipset. -/
theorem asks_aside {b : MachineBus δ ρ π} (h : Aside b.devices d)
    (hc : d.chipset = b.devices.chipset) : Asks b { b with devices := d } := by
  refine (steps_aside h).asks ?_
  show d.chipset.pendingLevel = b.devices.chipset.pendingLevel
  rw [hc]

/-- **Catching up moves no level.** -/
theorem asks_flush : Asks b b.flush := by
  refine ⟨.of_micro (.flush b.pendingClocks) ?_, fun hb hlevel => absurd ?_ hlevel⟩
  · unfold flush
    split <;> rfl
  · unfold flush
    split
    · rfl
    · exact (quietUntil_tickExact hb.quiet hb.pending).2

theorem steps_tick (cpuClocks : Long) : Steps b (b.tick cpuClocks) := by
  unfold tick
  simp only
  split
  · refine Steps.of_micro (.flush _) ?_
    unfold flush
    split <;> rfl
  · rename_i hbefore
    exact Steps.of_micro (.count (Nat.lt_of_not_le hbefore)) rfl

theorem pendingClocks_flush : b.flush.pendingClocks = 0 := by
  unfold flush
  split
  · assumption
  · rfl

theorem asks_readCia : Asks b (b.readCia address).2 := by
  unfold readCia
  simp only
  split
  · exact (asks_flush b).trans ((Steps.of_micro (.readCiaA _) rfl).asks rfl)
  · exact (asks_flush b).trans ((Steps.of_micro (.readCiaB _) rfl).asks rfl)

omit [BlockDevice δ] [PacketBackend ρ] [PciBackend π] in
theorem ciaWritten_writeCiaB (d : BusDevices δ ρ π) (reg : Nat) (value : Byte) :
    CiaWritten d (writeCiaB d reg value) := by
  have hwrite := Cia.beside_write d.ciaB reg value
  unfold writeCiaB
  simp only
  split
  · exact ⟨⟨rfl, rfl, rfl⟩, hwrite, rfl⟩
  · exact ⟨⟨rfl, rfl, rfl⟩, hwrite, rfl⟩

theorem steps_writeCia (value : Byte) : Steps b (b.writeCia address value) := by
  refine (asks_flush b).toSteps.trans ?_
  unfold writeCia
  simp only
  split
  · exact Steps.of_micro (.writeCia ⟨Cia.beside_write _ _ value, ⟨rfl, rfl, rfl⟩, rfl⟩
      (pendingClocks_flush b)) rfl
  · exact Steps.of_micro (.writeCia (ciaWritten_writeCiaB _ _ value) (pendingClocks_flush b)) rfl

theorem asks_readCustomWord : Asks b (b.readCustomWord address).2 := by
  refine (asks_flush b).trans ((steps_aside (aside_readCustomReg _ _)).asks ?_)
  show (readCustomReg b.flush.devices (customOffset address)).2.chipset.pendingLevel = _
  unfold readCustomReg
  split
  · rfl
  · obtain ⟨-, hintreq, hintena⟩ := b.flush.devices.chipset.read_beside (customOffset address)
    unfold pendingIrqLevel Chipset.pendingLevel
    simp only
    rw [hintreq, hintena]

theorem asks_writeCustomWord (value : Word) : Asks b (b.writeCustomWord address value) :=
  ((asks_flush b).toSteps.trans (steps_aside (aside_writeCustomReg _ _ value))).compared

/-! ## The accesses -/

theorem asks_readByte : Asks b (b.readByte address).2 := by
  have hslow : Asks b (b.readByteSlow address).2 := by
    unfold readByteSlow
    simp only
    split_ifs
    · exact .refl b
    · exact .refl b
    · exact .refl b
    · exact asks_readCia b address
    · exact asks_readCustomWord b _
    · exact .refl b
    · exact .refl b
    · split
      · exact (steps_aside (raises_readBoard _ _ _).aside).compared
      · exact .refl b
  unfold readByte
  split
  · exact .refl b
  · exact hslow

theorem asks_apertureLoad {b : MachineBus δ ρ π} {address value : Long} {width : AccessWidth}
    (h : b.apertureLoad address width = some (value, b')) : Asks b b' := by
  unfold apertureLoad at h
  split at h
  · cases h
    exact asks_aside (.of_eq rfl rfl rfl rfl) rfl
  · cases h

theorem asks_readWord : Asks b (b.readWord address).2 := by
  unfold readWord
  split
  · exact asks_readCustomWord b address
  · split
    · exact .refl b
    · split
      · rename_i h
        exact asks_apertureLoad h
      · exact (asks_readByte b address).trans (asks_readByte _ _)

theorem asks_readLong : Asks b (b.readLong address).2 := by
  unfold readLong
  split
  · exact .refl b
  · split
    · rename_i h
      exact asks_apertureLoad h
    · exact (asks_readWord b address).trans (asks_readWord _ _)

theorem steps_writeByteSlow (value : Byte) : Steps b (b.writeByteSlow address value) := by
  unfold writeByteSlow
  split_ifs
  · exact steps_aside (.of_eq rfl rfl rfl rfl)
  · exact steps_writeCia b address value
  · exact ((asks_readCustomWord b _).trans (asks_writeCustomWord _ _ _)).toSteps
  · split
    · exact steps_aside (aside_writeBoard _ _ _ value)
    · exact .refl b

theorem asks_fastStore {b : MachineBus δ ρ π} {address : Long} {bytes : List Byte}
    (h : fastStore b.devices address bytes = some d) : Asks b { b with devices := d } := by
  unfold fastStore at h
  split at h
  · cases h
  · split at h
    · cases h
      exact asks_aside (.of_eq rfl rfl rfl rfl) rfl
    · cases h

theorem asks_writeByte (value : Byte) : Asks b (b.writeByte address value) := by
  unfold writeByte
  split
  · rename_i h
    exact asks_fastStore h
  · split
    · exact asks_aside (.of_eq rfl rfl rfl rfl) rfl
    · exact (steps_writeByteSlow b address value).compared

theorem asks_apertureStore {b : MachineBus δ ρ π} {address value : Long} {width : AccessWidth}
    (h : b.apertureStore address width value = some b') : Asks b b' := by
  unfold apertureStore at h
  split at h
  · rename_i k dev _ _
    simp only at h
    generalize (dev.writeApertureSized k width value).irqPending = answer at h
    have hstored : Aside b.devices { b.devices with pcibridge := some answer.2 } :=
      .of_eq rfl rfl rfl rfl
    split at h
    · cases h
      have hraised := (Raises.refl { b.devices with pcibridge := some answer.2 }).raisePorts true
      exact ((steps_aside hstored).trans (steps_aside hraised.aside)).compared
    · cases h
      exact asks_aside hstored rfl
  · cases h

theorem asks_writeWord (value : Word) : Asks b (b.writeWord address value) := by
  unfold writeWord
  split
  · exact asks_writeCustomWord b address value
  · split
    · rename_i h
      exact asks_fastStore h
    · cases h : b.apertureStore address .w16 (value.setWidth 32) with
      | some b' => exact asks_apertureStore h
      | none => exact (asks_writeByte b _ _).trans (asks_writeByte _ _ _)

theorem asks_writeLong (value : Long) : Asks b (b.writeLong address value) := by
  unfold writeLong
  split
  · rename_i h
    exact asks_fastStore h
  · cases h : b.apertureStore address .w32 value with
    | some b' => exact asks_apertureStore h
    | none => exact (asks_writeWord b _ _).trans (asks_writeWord _ _ _)

theorem asks_access (a : Access) : Asks b (b.access a).2 := by
  cases a with
  | readByte address => exact asks_readByte b address
  | readWord address => exact asks_readWord b address
  | readLong address => exact asks_readLong b address
  | writeByte address value => exact asks_writeByte b address value
  | writeWord address value => exact asks_writeWord b address value
  | writeLong address value => exact asks_writeLong b address value

/-! ## Reachable states -/

theorem timely_stepGuest {b : MachineBus δ ρ π} (h : b.Timely) (op : GuestOp) :
    (b.stepGuest op).Timely := by
  cases op with
  | tick cpuClocks => exact (steps_tick b cpuClocks).timely h
  | access a => exact (asks_access b a).timely h

theorem timely_stepHost {b : MachineBus δ ρ π} (h : b.Timely) (op : HostOp) :
    (b.stepHost op).Timely := by
  cases op with
  | takeBoundaryRequest => exact timely_micro h (.request false)
  | queueKeycode raw => exact timely_micro h (.queueKeycode raw)
  | _ =>
    refine timely_micro h (.aside (aside_host b.devices ?_))
    intro raw heq
    cases heq

omit [BlockDevice δ] [PacketBackend ρ] [PciBackend π] in
theorem timely_new (chipRam : Buffer Byte chipRamSize) (rom : ByteSlice) :
    (MachineBus.new chipRam rom : MachineBus δ ρ π).Timely := by
  have hA : (Cia.new .a).irqPending = false := by decide
  have hB : (Cia.new .b).irqPending = false := by decide
  refine timely_recompute ⟨(by decide : 0 < 4), Nat.zero_le _,
    ⟨Cia.wf_new .a, (by decide : 0 < 20)⟩, ⟨Cia.wf_new .b, (by decide : 0 < 20)⟩,
    (by decide : 0 < Chipset.palLinesPerFrame)⟩ ⟨?_, ?_, ?_⟩ rfl
  · intro hirq
    exact absurd (hA.symm.trans hirq) Bool.false_ne_true
  · intro hirq
    exact absurd (hB.symm.trans hirq) Bool.false_ne_true
  · intro hirq
    cases hirq

theorem timely_step {b : MachineBus δ ρ π} (h : b.Timely) (op : BusOp δ ρ π) :
    (b.step op).Timely := by
  cases op with
  | guest op => exact timely_stepGuest h op
  | host op => exact timely_stepHost h op
  | attach card => exact timely_micro h (.aside (aside_attach b.devices card))

theorem Reachable.timely {b : MachineBus δ ρ π} (h : b.Reachable) : b.Timely := by
  refine Transition.Reachable.invariant (P := Timely) ?_ ?_ h
  · rintro _ ⟨chipRam, rom, rfl⟩
    exact timely_new chipRam rom
  · exact fun _ op hb => timely_step hb op

/-! ## What holds in every run -/

/-- **No level is dropped.** Along every run a CIA or a graphics card that pulls finds its latch
set. -/
theorem sources_stay_latched {b : MachineBus δ ρ π} (h : b.Reachable) (ops : List GuestOp) :
    (run stepGuest b ops).devices.LevelIrqs :=
  (run_invariant (P := Timely) (fun _ op hb => timely_stepGuest hb op) ops h.timely).quiet.levels

/-- Timer A underflows before its source is enabled, and the latch is cleared while it pulls. -/
theorem sources_stay_latched_underflow :
    (run stepGuest (MachineBus.new (fun _ => 0) (ByteSlice.zero 0) : MachineBus MemDisk Empty Empty)
      [.access (.writeByte 0xBFE401 3), .access (.writeByte 0xBFE501 0),
        .access (.writeByte 0xBFEE01 1), .tick 200, .access (.writeByte 0xBFED01 0x81),
        .access (.writeWord 0xDFF09C 0x0008)]).devices.LevelIrqs :=
  sources_stay_latched (.start ⟨_, _, rfl⟩) _

/-- **No boundary request is lost.** -/
theorem level_change_asks_for_boundary {b : MachineBus δ ρ π} (h : b.Reachable) {a : Access}
    (hlevel : (b.access a).2.pendingIrqLevel ≠ b.pendingIrqLevel) :
    (b.access a).2.boundaryRequest = true :=
  (asks_access b a).asks h.timely hlevel

/-- A machine whose CPU enabled `PORTS`. -/
def portsEnabled : MachineBus MemDisk Empty Empty :=
  run step (MachineBus.new (fun _ => 0) (ByteSlice.zero 0))
    [.guest (.access (.writeWord 0xDFF09A 0xC008))]

theorem reachable_portsEnabled : portsEnabled.Reachable :=
  (Transition.Reachable.start ⟨_, _, rfl⟩).run _

/-- It sets the latch itself. -/
theorem level_change_asks_for_boundary_intreq :
    (portsEnabled.access (.writeWord 0xDFF09C 0x8008)).2.boundaryRequest = true :=
  level_change_asks_for_boundary reachable_portsEnabled (by decide)

/-- **The deadline is sound and exact.** Before the clocks a chip gives it only counts, and at them
a source is raised. A bus that caught up or wrote to a CIA keeps its interrupt level through any
exact ticks before its deadline. -/
theorem deadline_is_sound_and_exact {p : Nat} (hpos : 0 < p) (hp : p < 0x10000) :
    (∀ c : Cia, c.Reachable →
      (∀ n, c.clocksUntilEvent p = some n →
        (∀ clocks : List Nat, clocks.sum < n → Cia.Settled c (c.ticks p clocks)) ∧
        ∀ latched : Byte, ∃ source ∈ Cia.eventSources,
          (({ c with icrData := latched }).tick n p).2.icrData.getLsbD source = true) ∧
      (c.clocksUntilEvent p = none → ∀ clocks : List Nat, Cia.Settled c (c.ticks p clocks))) ∧
    ∀ b : MachineBus δ ρ π, b.Reachable →
      (∀ clocks : List Nat, clocks.sum < b.flush.nextEventClocks →
        (b.flush.devices.ticksExact clocks).chipset.pendingLevel = b.flush.pendingIrqLevel) ∧
      ∀ (address : Long) (value : Byte) (clocks : List Nat),
        clocks.sum < (b.writeCia address value).nextEventClocks →
        ((b.writeCia address value).devices.ticksExact clocks).chipset.pendingLevel =
          (b.writeCia address value).pendingIrqLevel := by
  refine ⟨fun c hc =>
      ⟨fun n hn => ⟨fun clocks hsum => ?_, fun latched => ?_⟩, fun hnone clocks => ?_⟩,
    fun b hb => ⟨fun clocks hsum => ?_, fun address value clocks hsum => ?_⟩⟩
  · exact (Cia.ticks_of_quietFor clocks (Cia.quietFor_of_deadline hc.wf hp hn) hsum).1
  · -- The latch takes no part in the count.
    have hwf : ({ c with icrData := latched } : Cia).Wf := hc.wf.of_beside ⟨rfl, rfl, rfl⟩
    exact Cia.raised_at_deadline hwf hpos hp hn
  · exact (Cia.ticks_of_quietFor clocks (Cia.quietFor_of_no_deadline hnone (clocks.sum + 1))
      (Nat.lt_succ_self _)).1
  · exact pendingLevel_ticksExact clocks ((asks_flush b).timely hb.timely).quiet hsum
  · exact pendingLevel_ticksExact clocks ((steps_writeCia b address value).timely hb.timely).quiet
      hsum

/-- Timer A loaded with 3 and started. -/
theorem deadline_is_sound_and_exact_timer :
    let c := run Cia.apply (Cia.new .a)
      [.write Cia.Reg.talo 3, .write Cia.Reg.tahi 0, .write Cia.Reg.cra 1]
    (∀ clocks : List Nat, clocks.sum < 80 → Cia.Settled c (c.ticks cpuClocksPerEclock clocks)) ∧
      ∀ latched : Byte, ∃ source ∈ Cia.eventSources,
        (({ c with icrData := latched }).tick 80 cpuClocksPerEclock).2.icrData.getLsbD source =
          true :=
  ((deadline_is_sound_and_exact (δ := MemDisk) (ρ := Empty) (π := Empty) (by decide) (by decide)).1
    _ ((Transition.Reachable.start ⟨_, rfl⟩).run _)).1 80 (by decide)

end MachineBus

end M68kMachine
