import M68kMachine.Machine.Moves

/-!
# The device-write log over a run

Every operation keeps the entries of the log in place, and a tick or a write to the custom chips
changes RAM by recorded stores only. With the log attached, its spans cover what each later tick or
blit changed, as long as fast RAM was not placed where chip RAM ends: there one entry is made of
stores to two regions.
-/

namespace M68kMachine

open BusDevices

namespace MachineBus

variable {δ ρ π : Type}

/-! ## Stores of the CPU -/

theorem fastStore_custom {d : BusDevices δ ρ π} {address : Long} (bs : List Byte)
    (hin : inRange customBase customEnd address) (hoff : fastOffset d.ram address = none) :
    fastStore d address bs = none := by
  have hchip : inRange chipRamBase chipRamEnd address = false := by
    rw [inRange_iff] at hin
    rw [inRange_eq_false]
    simp only [customBase, customEnd, chipRamEnd, chipRamBase, chipRamSize] at hin ⊢
    omega
  simp only [fastStore, fastRegionMut, hchip, Bool.false_eq_true, if_false, hoff]

variable [PciBackend π]

theorem kept_stepHost (b : MachineBus δ ρ π) (op : HostOp) :
    Kept b.devices (b.stepHost op).devices := by
  unfold stepHost
  split
  · exact .refl _
  · exact kept_host _ _

variable [BlockDevice δ] [PacketBackend ρ]

section Lawful

variable [LawfulPacketBackend ρ] [LawfulPciBackend π] (b : MachineBus δ ρ π) (address : Long)

/-! ## Reachable states -/

theorem mapInv_step {b : MachineBus δ ρ π} (h : b.devices.MapInv) (op : BusOp δ ρ π) :
    (b.step op).devices.MapInv := by
  cases op with
  | guest op => exact (changed_stepGuest b op).kept.map h
  | host op => exact (kept_stepHost b op).map h
  | attach card => exact mapInv_attach h card

theorem Reachable.mapInv {b : MachineBus δ ρ π} (h : b.Reachable) : b.devices.MapInv := by
  refine Transition.Reachable.invariant (P := fun b => b.devices.MapInv) ?_ ?_ h
  · rintro _ ⟨chipRam, rom, rfl⟩
    exact mapInv_new chipRam rom
  · exact fun _ op hinv => mapInv_step hinv op

/-! ## Ticks and blits -/

/-- Ticks, and writes that reach the custom chips: their stores to RAM are devices' alone. -/
def IsDeviceOp (b : MachineBus δ ρ π) : GuestOp → Prop
  | .tick _ => True
  | .access (.writeByte address _) =>
    inRange customBase customEnd address ∧ fastOffset b.devices.ram address = none
  | .access (.writeWord address _) => inRange customBase customEnd address
  | .access (.writeLong address _) =>
    inRange customBase customEnd address ∧ inRange customBase customEnd (address + 2) ∧
      fastOffset b.devices.ram address = none
  | _ => False

theorem quiet_writeWord_custom {address : Long} (hin : inRange customBase customEnd address)
    (value : Word) : Quiet b.devices (b.writeWord address value).devices := by
  unfold writeWord
  rw [if_pos hin]
  exact (driven_writeCustomWord b address value).quiet

/-- **A tick or a write to the custom chips changes RAM by recorded stores only.** -/
theorem quiet_deviceOp {b : MachineBus δ ρ π} {op : GuestOp} (h : b.IsDeviceOp op) :
    Quiet b.devices (b.stepGuest op).devices := by
  cases op with
  | tick cpuClocks => exact (stirred_tick b cpuClocks).quiet
  | access a =>
    cases a with
    | writeByte address value =>
      obtain ⟨hin, hoff⟩ := h
      have hstore := fastStore_custom [value] hin hoff
      -- No other arm of the slow path answers in the custom range.
      have hslow : b.writeByteSlow address value = b.writeCustomByte address value := by
        rw [inRange_iff] at hin
        simp only [customBase, customEnd] at hin
        unfold writeByteSlow
        rw [if_neg (by rw [AutoConfig.respondsTo_iff]; omega),
          if_neg (by rw [inRange_iff]; simp only [ciaBase, ciaEnd]; omega),
          if_pos (by rw [inRange_iff]; exact hin)]
      have hchip : ¬ address.toNat < chipRamEnd := by
        rw [inRange_iff] at hin
        simp only [customBase, chipRamEnd, chipRamBase, chipRamSize] at hin ⊢
        omega
      simp only [stepGuest, access, writeByte, hstore]
      rw [if_neg hchip, devices_requestBoundary, hslow]
      exact (driven_writeCustomByte b address value).quiet
    | writeWord address value => exact quiet_writeWord_custom b h value
    | writeLong address value =>
      obtain ⟨hin, hin2, hoff⟩ := h
      simp only [stepGuest, access, writeLong, fastStore_custom (toBytes32 value) hin hoff]
      cases hs : b.apertureStore address .w32 value with
      | some b' => exact (driven_apertureStore b address hs).quiet
      | none => exact (quiet_writeWord_custom b hin _).trans (quiet_writeWord_custom _ hin2 _)
    | readByte => exact h.elim
    | readWord => exact h.elim
    | readLong => exact h.elim

/-- What the log has to say about one operation: it names every byte that changed, each span lies in
one region, and its bytes over the RAM of before give the RAM of after. -/
structure Complete (before after : GuestRam) (log : DeviceWriteLog) : Prop where
  covered : ∀ c, after.cell c ≠ before.cell c →
    ∃ span ∈ log.spans, ∃ e, after.extent span.1 span.2 = some e ∧ e.Holds c
  inOneRegion : ∀ span ∈ log.spans, (after.extent span.1 span.2).isSome
  chipRam : (replaySpans after before log.spans).chipRam = after.chipRam
  fastRam : (replaySpans after before log.spans).fastRam = after.fastRam

theorem Covers.complete {before after : GuestRam} {log : DeviceWriteLog}
    (h : Covers before after log.spans) (hmap : before.sameMap after) :
    Complete before after log where
  covered := h.covered
  inOneRegion span hspan := by
    obtain ⟨e, he⟩ := (h.placed span hspan).2
    rw [he]
    rfl
  chipRam := (h.replay hmap).1
  fastRam := (h.replay hmap).2

/-- An operation of a machine that is built: the CPU's or the board layer's. -/
def stepRunning (b : MachineBus δ ρ π) : GuestOp ⊕ HostOp → MachineBus δ ρ π
  | .inl op => b.stepGuest op
  | .inr op => b.stepHost op

theorem kept_run : ∀ (ops : List (GuestOp ⊕ HostOp)) (b : MachineBus δ ρ π),
    Kept b.devices (Transition.run stepRunning b ops).devices
  | [], _ => .refl _
  | .inl op :: ops, b => (changed_stepGuest b op).kept.trans (kept_run ops _)
  | .inr op :: ops, b => (kept_stepHost b op).trans (kept_run ops _)

omit [BlockDevice δ] [PacketBackend ρ] [PciBackend π] [LawfulPacketBackend ρ]
  [LawfulPciBackend π] in
theorem logged_setDeviceWriteLog (d : BusDevices δ ρ π) (capacity : Nat) :
    Logged (d.setDeviceWriteLog (some capacity)).ram
      (d.setDeviceWriteLog (some capacity)).ram := by
  intro log hlog _
  cases hlog
  exact ⟨by simp [DeviceWriteLog.new], fun _ hne => absurd rfl hne⟩

end Lawful

/-! ## Two reads end to end

A machine with 512 bytes of fast RAM and a disk reads a sector to the end of chip RAM and another
one to the start of fast RAM. -/

/-- A `hostblk` descriptor: read the first sector to `buffer`. -/
def readRequest (buffer : Long) : List Byte :=
  [1, 0, 0, 0] ++ toBytes32 512 ++ toBytes32 0 ++ toBytes32 0 ++ toBytes32 buffer

/-- Chip RAM with a request for either buffer, at `$1000` and `$1020`. -/
def requestRam (first second : Long) : Buffer Byte chipRamSize := fun i =>
  if i.val < 0x1020 then (readRequest first).getD (i.val - 0x1000) 0
  else (readRequest second).getD (i.val - 0x1020) 0

/-- The machine with fast RAM placed at `hi`, `lo` and `hostblk` at `$40000000`. -/
def diskMachine (hi lo : Byte) (first second : Long) : MachineBus MemDisk Empty Empty :=
  Transition.run step (MachineBus.new (requestRam first second) (ByteSlice.zero 0))
    [.attach (.fastRam (ByteSlice.zero 512)),
      .attach (.hostblk 0 ⟨1, fun _ => Vector.replicate 512 0xA5⟩ false []),
      .guest (.access (.writeByte 0xE80044 hi)), .guest (.access (.writeByte 0xE80045 lo)),
      .guest (.access (.writeByte 0xE80044 0x40)), .guest (.access (.writeByte 0xE80045 0x00))]

/-- The first request served, the second one rung in. -/
def twoReads : List (GuestOp ⊕ HostOp) :=
  [.inl (.access (.writeLong 0x40000018 0x1000)), .inl (.tick 908),
    .inl (.access (.writeLong 0x40000018 0x1020))]

/-- The state before the raster line that serves the second request. -/
def betweenReads (hi lo : Byte) (second : Long) : MachineBus MemDisk Empty Empty :=
  Transition.run stepRunning
    ((diskMachine hi lo 0x1FFE00 second).mapDevices fun d => d.setDeviceWriteLog (some 4)) twoReads

theorem reachable_diskMachine (hi lo : Byte) (first second : Long) :
    (diskMachine hi lo first second).Reachable :=
  (Transition.Reachable.start ⟨_, _, rfl⟩).run _

/-- **The device-write log is complete.** In every run from its attachment, after a tick or a write
to the custom chips the log, unless it overflowed, names every byte the operation changed, as long
as fast RAM does not go on where chip RAM ends. -/
theorem deviceWriteLog_complete [LawfulPacketBackend ρ] [LawfulPciBackend π]
    {b₀ : MachineBus δ ρ π} (hreach : b₀.Reachable) (capacity : Nat)
    (ops : List (GuestOp ⊕ HostOp)) {b : MachineBus δ ρ π} {op : GuestOp}
    (hb : b = Transition.run stepRunning
      (b₀.mapDevices fun d => d.setDeviceWriteLog (some capacity)) ops)
    (hop : b.IsDeviceOp op) (hseam : b.devices.ram.SeamFree) {log : DeviceWriteLog}
    (hlog : (b.stepGuest op).devices.ram.writeLog = some log) (hover : log.overflowed = false) :
    Complete b.devices.ram (b.stepGuest op).devices.ram log := by
  have hinv : (b₀.devices.setDeviceWriteLog (some capacity)).MapInv :=
    mapInv_attach hreach.mapInv (.deviceWriteLog (some capacity))
  have hrun := kept_run ops (b₀.mapDevices fun d => d.setDeviceWriteLog (some capacity))
  rw [← hb] at hrun
  -- The log was attached empty, so it is right from there on.
  have hentries : Logged b.devices.ram b.devices.ram :=
    hrun.logged hinv hseam (logged_setDeviceWriteLog b₀.devices capacity)
  have hquiet := quiet_deviceOp hop
  exact Covers.complete (hquiet.logged b.devices.ram hseam hentries log hlog hover) hquiet.map

/-- Fast RAM at `$10000000`: the two reads are two entries of the log. -/
theorem deviceWriteLog_complete_apart :
    ∃ log, ((betweenReads 0x10 0x00 0x10000000).stepGuest (.tick 908)).devices.ram.writeLog =
        some log ∧ log.spans = [(0x1FFE00, 0x200), (0x10000000, 0x200)] ∧
      Complete (betweenReads 0x10 0x00 0x10000000).devices.ram
        ((betweenReads 0x10 0x00 0x10000000).stepGuest (.tick 908)).devices.ram log := by
  -- Fast RAM starts far above the end of chip RAM.
  have hseam : (betweenReads 0x10 0x00 0x10000000).devices.ram.SeamFree := by
    have hw : (betweenReads 0x10 0x00 0x10000000).devices.ram.fastWindow =
        some (0x10000000, 0x01000000) := by decide
    intro mem base windowLen _ hwin _
    rw [hw] at hwin
    cases hwin
    exact .inl (by decide)
  have hspans : ((betweenReads 0x10 0x00 0x10000000).stepGuest
      (.tick 908)).devices.ram.writeLog.map (fun log => (log.overflowed, log.spans)) =
        some (false, [(0x1FFE00, 0x200), (0x10000000, 0x200)]) := by decide
  obtain ⟨log, hlog, heq⟩ := Option.map_eq_some_iff.mp hspans
  obtain ⟨hover, hs⟩ := Prod.mk.inj heq
  have hop : (betweenReads 0x10 0x00 0x10000000).IsDeviceOp (.tick 908) := trivial
  exact ⟨log, hlog, hs, deviceWriteLog_complete (reachable_diskMachine _ _ _ _) 4 twoReads rfl
    hop hseam hlog hover⟩

/-- Fast RAM at `$200000`: the two reads are merged into one entry, which lies in no region. -/
theorem deviceWriteLog_seam :
    (diskMachine 0x00 0x20 0x1FFE00 0x200000).Reachable ∧
      (betweenReads 0x00 0x20 0x200000).IsDeviceOp (.tick 908) ∧
      ∃ log, ((betweenReads 0x00 0x20 0x200000).stepGuest (.tick 908)).devices.ram.writeLog =
          some log ∧ log.overflowed = false ∧ log.spans = [(0x1FFE00, 0x400)] ∧
        ¬ Complete (betweenReads 0x00 0x20 0x200000).devices.ram
          ((betweenReads 0x00 0x20 0x200000).stepGuest (.tick 908)).devices.ram log := by
  refine ⟨reachable_diskMachine _ _ _ _, trivial, ?_⟩
  have hspans : ((betweenReads 0x00 0x20 0x200000).stepGuest
      (.tick 908)).devices.ram.writeLog.map (fun log => (log.overflowed, log.spans)) =
        some (false, [(0x1FFE00, 0x400)]) := by decide
  -- No region goes on past the seam, so the merged entry has no place.
  have hnone : ((betweenReads 0x00 0x20 0x200000).stepGuest (.tick 908)).devices.ram.extent
      0x1FFE00 0x400 = none := by decide
  obtain ⟨log, hlog, heq⟩ := Option.map_eq_some_iff.mp hspans
  obtain ⟨hover, hs⟩ := Prod.mk.inj heq
  refine ⟨log, hlog, hover, hs, ?_⟩
  rintro ⟨-, hregion, -, -⟩
  have hmem := hregion (0x1FFE00, 0x400) (by rw [hs]; exact List.mem_singleton.mpr rfl)
  rw [hnone] at hmem
  cases hmem

end MachineBus

end M68kMachine
