import M68kMachine.Properties.ReplayAccess
import M68kMachine.Properties.ReplayVerdict

/-!
# A recording

What a recording has written down at each point of the run. The records of one tick all have its
ordinal, and between two ticks only accesses to devices are recorded, each followed by a change of
the table if there is one.

* `LatchesIrq` — a CPU that remembers the interrupt level it was last shown
* `Repeatable` — an action of the CPU that a player can repeat
* `Intact` — what the recorder knows of the machine
* `Ahead`, `exists_ahead` — the records that follow a tick
-/

namespace M68kMachine

open Autoconfig AutoConfig BusDevices MachineBus

/-! ## The parties -/

/-- The interrupt level is latched until the next call, and a store is as wide as its access. -/
structure LatchesIrq {γ : Type} (cpu : GuestCpu γ) (level : γ → Byte) : Prop where
  set : ∀ c l, level (cpu.setIrq c l) = l
  same : ∀ c, cpu.setIrq c (level c) = c
  read : ∀ c a width next, cpu.action c = .read a width next → ∀ v, level (next v) = level c
  write : ∀ c a width v next, cpu.action c = .write a width v next → level next = level c
  retire : ∀ c next, cpu.action c = .retire next → level next = level c
  exit : ∀ c reason next, cpu.action c = .exit reason next → level next = level c
  exception : ∀ c reason, level (cpu.takeException c reason) = level c
  narrow : ∀ c a width v next, cpu.action c = .write a width v next → width.truncate v = v

/-- A call of the board layer that leaves RAM and its log alone. -/
def HostOp.SparesRam : HostOp → Prop
  | .storeRam _ _ | .storeFastWindow _ _ | .clearDeviceWriteSpans => False
  | _ => True

/-- The scripts and the TCP bridge leave RAM and its log alone. -/
def FixedHost.SparesRam {δ ρ π η : Type} (host : FixedHost δ ρ π η) : Prop :=
  ∀ h b, ∀ op ∈ (host.service h b).1, op.SparesRam

variable {γ δ ρ π η : Type}

/-- Nothing that was done touched RAM or its log, or how an address is decoded. -/
structure Spared (b b' : MachineBus δ ρ π) : Prop where
  ram : b'.devices.ram = b.devices.ram
  steady : Steady b.devices b'.devices

theorem Spared.refl (b : MachineBus δ ρ π) : Spared b b := ⟨rfl, .refl _⟩

theorem Spared.trans {b b' b'' : MachineBus δ ρ π} (h : Spared b b') (h' : Spared b' b'') :
    Spared b b'' := ⟨h'.ram.trans h.ram, h.steady.trans h'.steady⟩

theorem Spared.alone {b b' : MachineBus δ ρ π} (h : Spared b b') :
    Alone b.devices b'.devices := ⟨h.steady.toFitted, .of_eq h.ram h.steady.chain⟩

theorem spared_stepHost [PciBackend π] {op : HostOp} (h : op.SparesRam) (b : MachineBus δ ρ π) :
    Spared b (b.stepHost op) := by
  refine ⟨?_, steady_stepHost b op⟩
  cases op with
  | mouseButton button pressed =>
    simp only [stepHost, mapDevices, host, mouseButton]
    split <;> rfl
  | storeRam addr bytes => exact h.elim
  | storeFastWindow off value => exact h.elim
  | clearDeviceWriteSpans => exact h.elim
  | _ => rfl

theorem spared_foldl [PciBackend π] : ∀ (ops : List HostOp), (∀ op ∈ ops, op.SparesRam) →
    ∀ b : MachineBus δ ρ π, Spared b (ops.foldl stepHost b)
  | [], _, b => .refl b
  | op :: ops, h, b =>
    (spared_stepHost (h op List.mem_cons_self) b).trans
      (spared_foldl ops (fun o ho => h o (List.mem_cons_of_mem op ho)) _)

/-! ## A tick -/

section Tick

variable [BlockDevice δ] [PacketBackend ρ] [PciBackend π] {cpu : FixedCpu γ}
  {host : FixedHost δ ρ π η} {args : FixedArgs} {ticked run : FixedRun γ δ ρ π η}

/-- What the loop makes of a tick: it takes the spans, and what it does then spares RAM. -/
structure Ticked (ticked run : FixedRun γ δ ρ π η) : Prop where
  cpu : run.cpu = ticked.cpu
  spared : Spared (ticked.bus.stepHost .clearDeviceWriteSpans) run.bus
  whole : ticked.overflowed = false

omit [BlockDevice δ] [PacketBackend ρ] in
theorem Ticked.of_same {run' : FixedRun γ δ ρ π η} (h : Ticked ticked run)
    (hcpu : run'.cpu = run.cpu) (hbus : run'.bus = run.bus) : Ticked ticked run' :=
  ⟨hcpu.trans h.cpu, hbus ▸ h.spared, h.whole⟩

omit [BlockDevice δ] [PacketBackend ρ] in
theorem ticked_drainSerial (h : Ticked ticked run) : Ticked ticked run.drainSerial := by
  refine ⟨h.cpu, h.spared.trans (spared_foldl _ (fun op hop => ?_) _), h.whole⟩
  rw [List.eq_of_mem_replicate hop]
  trivial

omit [BlockDevice δ] [PacketBackend ρ] in
theorem ticked_serviceInstruction (hhost : host.SparesRam)
    (hargs : args.triggerIllegalAfterFrames = none) (h : Ticked ticked run) :
    Ticked ticked (run.serviceInstruction cpu host args) := by
  have hillegal : run.noteOverlay.triggerIllegal cpu args = run.noteOverlay := by
    unfold FixedRun.triggerIllegal FixedRun.illegalDue
    rw [hargs]
    simp
  have hnote : Ticked ticked run.noteOverlay := by
    unfold FixedRun.noteOverlay
    split
    · exact h.of_same rfl rfl
    · exact h
  have hscripts : Ticked ticked (run.serviceHostSerial cpu host args) := by
    unfold FixedRun.serviceHostSerial FixedRun.serviceScripts
    rw [hillegal]
    split
    · exact hnote
    · exact ⟨hnote.cpu, hnote.spared.trans (spared_foldl _ (hhost _ _) _), hnote.whole⟩
  unfold FixedRun.serviceInstruction
  dsimp only
  split
  · exact h.of_same rfl rfl
  · exact hscripts.of_same rfl rfl

/-- What a pass that ticked leaves, unless the process gave up. -/
def AfterTick (ticked run : FixedRun γ δ ρ π η) : Prop :=
  run.outcome = some .recordingAborted ∨ Ticked ticked run

theorem afterTick_hook (hhost : host.SparesRam) (hargs : args.triggerIllegalAfterFrames = none)
    (s : FixedRun γ δ ρ π η) :
    (s.hook cpu host args.recording).Holds (Ticked (s.tick cpu (s.nextQuantum args)))
      (AfterTick (s.tick cpu (s.nextQuantum args))) := by
  unfold FixedRun.hook
  dsimp only
  split
  · exact .inl rfl
  · rename_i hwhole
    have hwhole : (s.tick cpu (s.nextQuantum args)).overflowed = false :=
      Bool.eq_false_iff.mpr fun h => hwhole ⟨rfl, h⟩
    have hserviced : Ticked (s.tick cpu (s.nextQuantum args))
        ((({ s.tick cpu (s.nextQuantum args.recording) with
          instrThisLine := s.instrThisLine + 1 } : FixedRun γ δ ρ π η).recordSpans
            args.recording).drainSerial.serviceInstruction cpu host args.recording) := by
      refine ticked_serviceInstruction hhost hargs (ticked_drainSerial ?_)
      exact ⟨rfl, .refl _, hwhole⟩
    unfold FixedRun.afterInstruction
    split_ifs
    · exact .inr (hserviced.of_same rfl rfl)
    · exact .inr (hserviced.of_same rfl rfl)
    · exact .inr (hserviced.of_same rfl rfl)
    · exact hserviced.of_same rfl rfl
    · exact hserviced

theorem afterTick_stopped (s : FixedRun γ δ ρ π η)
    (hmask : ¬(cpu.intMask s.cpu &&& 0x0700 = 0x0700 ∨
      (args.maxFrames ≠ 0 ∧ args.maxFrames ≤ s.bus.frames))) :
    (s.stopped cpu args.recording).Holds
      (Ticked (s.tick cpu (BitVec.ofNat 32 oneLineClocks)))
      fun run => run.outcome = some .recordingAborted := by
  unfold FixedRun.stopped
  have hframes : ¬(args.recording.maxFrames ≠ 0 ∧ args.recording.maxFrames ≤ s.bus.frames) :=
    fun h => hmask (.inr h)
  rw [if_neg fun h => hmask (.inl h), if_neg hframes]
  dsimp only
  split
  · rfl
  · rename_i hwhole
    have hwhole : (s.tick cpu (BitVec.ofNat 32 oneLineClocks)).overflowed = false :=
      Bool.eq_false_iff.mpr fun h => hwhole ⟨rfl, h⟩
    exact ticked_drainSerial ⟨rfl, .refl _, hwhole⟩

end Tick

/-! ## The recorder -/

namespace Recorder

/-- What `rec'` wrote down since `rec`, about the same machine. -/
structure Wrote (rec rec' : Recorder) (evs : List Event) : Prop where
  log : rec'.log = rec.log ++ evs
  table : rec'.table = rec.table
  fingerprint : rec'.fingerprint = rec.fingerprint
  full : rec'.romIsFullWindow = rec.romIsFullWindow
  ordinal : rec'.ordinal = rec.ordinal
  interval : rec'.checkpointInterval = rec.checkpointInterval

theorem Wrote.nothing (rec : Recorder) : Wrote rec rec [] :=
  ⟨(List.append_nil _).symm, rfl, rfl, rfl, rfl, rfl⟩

theorem Wrote.trans {rec rec' rec'' : Recorder} {evs evs' : List Event}
    (h : Wrote rec rec' evs) (h' : Wrote rec' rec'' evs') : Wrote rec rec'' (evs ++ evs') :=
  ⟨by rw [h'.log, h.log, List.append_assoc], h'.table.trans h.table,
    h'.fingerprint.trans h.fingerprint, h'.full.trans h.full, h'.ordinal.trans h.ordinal,
    h'.interval.trans h.interval⟩

theorem wrote_logIplIfChanged (rec : Recorder) (level : Byte) :
    Wrote rec (rec.logIplIfChanged level)
        (if level = rec.lastIpl then [] else [.iplChange rec.ordinal level]) ∧
      (rec.logIplIfChanged level).lastIpl = level := by
  unfold logIplIfChanged
  split_ifs with h
  · exact ⟨.nothing rec, h.symm⟩
  · exact ⟨⟨rfl, rfl, rfl, rfl, rfl, rfl⟩, rfl⟩

theorem wrote_logDeviceWrites (r : GuestRam) : ∀ (spans : List (Long × Long)) (rec : Recorder),
    Wrote rec (rec.logDeviceWrites r spans) (spanEvents rec.ordinal r spans) ∧
      (rec.logDeviceWrites r spans).lastIpl = rec.lastIpl
  | [], rec => ⟨.nothing rec, rfl⟩
  | span :: spans, rec => by
    unfold logDeviceWrites spanEvents
    rw [List.foldl_cons, List.filterMap_cons]
    cases hs : GuestMemory.ramSlice r span.1 span.2 with
    | none => exact wrote_logDeviceWrites r spans rec
    | some bytes =>
      have hone : Wrote rec (rec.logDeviceWrite span.1 bytes)
          [.deviceWrite rec.ordinal span.1 bytes] := ⟨rfl, rfl, rfl, rfl, rfl, rfl⟩
      obtain ⟨hrest, hipl⟩ := wrote_logDeviceWrites r spans (rec.logDeviceWrite span.1 bytes)
      exact ⟨hone.trans hrest, hipl⟩

theorem wrote_maybeCheckpoint (rec : Recorder) (regs : Regs) :
    Wrote rec (rec.maybeCheckpoint regs)
        (if rec.checkpointInterval = 0 ∨ rec.ordinal % rec.checkpointInterval ≠ 0 then []
          else [.checkpoint rec.ordinal regs]) ∧
      (rec.maybeCheckpoint regs).lastIpl = rec.lastIpl := by
  unfold maybeCheckpoint
  split_ifs
  · exact ⟨.nothing rec, rfl⟩
  · exact ⟨⟨rfl, rfl, rfl, rfl, rfl, rfl⟩, rfl⟩

def tickSpans (r : GuestRam) : List (Long × Long) := (r.writeLog.map DeviceWriteLog.spans).getD []

/-- The records of a tick. -/
def tickRecords (rec : Recorder) (level : Byte) (r : GuestRam) (regs : Regs) : List Event :=
  (if level = rec.lastIpl then [] else [.iplChange rec.ordinal level]) ++
    spanEvents rec.ordinal r (tickSpans r) ++
    if rec.checkpointInterval = 0 ∨ rec.ordinal % rec.checkpointInterval ≠ 0 then []
    else [.checkpoint rec.ordinal regs]

theorem ordinal_tickRecords {rec : Recorder} {level : Byte} {r : GuestRam} {regs : Regs}
    {ev : Event} (h : ev ∈ rec.tickRecords level r regs) : ev.ordinal = rec.ordinal := by
  unfold tickRecords at h
  simp only [List.mem_append] at h
  rcases h with (h | h) | h
  · split_ifs at h
    · cases h
    · rw [List.mem_singleton.mp h]
      rfl
  · obtain ⟨span, -, hev⟩ := List.mem_filterMap.mp h
    obtain ⟨bytes, -, rfl⟩ := Option.map_eq_some_iff.mp hev
    rfl
  · split_ifs at h
    · cases h
    · rw [List.mem_singleton.mp h]
      rfl

theorem wrote_logTick (rec : Recorder) (level : Byte) (r : GuestRam) (regs : Regs) :
    Wrote rec (rec.logTick level r regs) (rec.tickRecords level r regs) ∧
      (rec.logTick level r regs).lastIpl = level := by
  obtain ⟨hipl, hlast⟩ := wrote_logIplIfChanged rec level
  obtain ⟨hspans, hlast'⟩ := wrote_logDeviceWrites r (tickSpans r) (rec.logIplIfChanged level)
  obtain ⟨hcheck, hlast''⟩ := wrote_maybeCheckpoint
    ((rec.logIplIfChanged level).logDeviceWrites r (tickSpans r)) regs
  have hfirst := hipl.trans hspans
  have hall := hfirst.trans hcheck
  rw [hfirst.interval, hfirst.ordinal, hipl.ordinal] at hall
  exact ⟨hall, (hlast''.trans hlast').trans hlast⟩

end Recorder

/-! ## The passes -/

namespace Recording

variable {cpu : FixedCpu γ} {s s' v : Recording γ δ ρ π η}

/-- The recording ticked after the CPU had come to `next`. -/
structure Tick [BlockDevice δ] [PacketBackend ρ] [PciBackend π] (cpu : FixedCpu γ)
    (s : Recording γ δ ρ π η) (next : γ) (ticked : FixedRun γ δ ρ π η)
    (s' : Recording γ δ ρ π η) : Prop where
  bus : ∃ clocks, ticked.bus = s.run.bus.tick clocks
  latched : ticked.cpu = cpu.setIrq next (BitVec.ofNat 8 ticked.bus.pendingIrqLevel)
  run : Ticked ticked s'.run
  recorder : s'.recorder = logTick cpu s.recorder ticked
  told : s'.told = ⟨s'.recorder.table, false, some (cpu.regs ticked.cpu)⟩

variable [BlockDevice δ] [PacketBackend ρ] [PciBackend π]

/-- A recorded read. -/
def afterRead (s : Recording γ δ ρ π η) (address : Long) (width : AccessWidth)
    (next : Long → γ) : Recording γ δ ρ π η where
  run := { s.run with
    cpu := next (width.truncate (readWidth s.run.bus address width).1)
    bus := (readWidth s.run.bus address width).2 }
  recorder :=
    if s.recorder.classify address = .io then
      s.recorder.logIoRead address width.bytes (readWidth s.run.bus address width).1
    else s.recorder
  told := { s.told with regs := none }

/-- The recorder before the machine takes a write. -/
def beforeWrite (s : Recording γ δ ρ π η) (address : Long) (width : AccessWidth) (value : Long) :
    Recorder :=
  if s.recorder.classify address = .io then
    s.recorder.logIoWrite address width.bytes (width.truncate value)
  else s.recorder

/-- A recorded write. -/
def afterWrite (s : Recording γ δ ρ π η) (address : Long) (width : AccessWidth) (value : Long)
    (next : γ) : Recording γ δ ρ π η where
  run := { s.run with cpu := next, bus := writeWidth s.run.bus address value width }
  recorder := (s.beforeWrite address width value).maybeTransition
    (writeWidth s.run.bus address value width).devices
  told := { s.told with
    moved := s.told.moved ||
      Fingerprint.of (writeWidth s.run.bus address value width).devices ≠
        (s.beforeWrite address width value).fingerprint
    regs := none }

/-- What a pass that goes on does. -/
inductive Passed (cpu : FixedCpu γ) (s : Recording γ δ ρ π η) : Recording γ δ ρ π η → Prop
  | read {a : Long} {width : AccessWidth} {next : Long → γ}
      (h : cpu.action s.run.cpu = .read a width next) : Passed cpu s (s.afterRead a width next)
  | write {a : Long} {width : AccessWidth} {value : Long} {next : γ}
      (h : cpu.action s.run.cpu = .write a width value next) :
      Passed cpu s (s.afterWrite a width value next)
  | retire {next : γ} {ticked : FixedRun γ δ ρ π η} {s' : Recording γ δ ρ π η}
      (h : cpu.action s.run.cpu = .retire next) (ht : Tick cpu s next ticked s') : Passed cpu s s'
  | stopped {next : γ} {ticked : FixedRun γ δ ρ π η} {s' : Recording γ δ ρ π η}
      (h : cpu.action s.run.cpu = .exit .stopped next)
      (hmask : cpu.intMask next &&& 0x0700 ≠ 0x0700) (ht : Tick cpu s next ticked s') :
      Passed cpu s s'
  | exit {reason : GuestExit} {next : γ} {run : FixedRun γ δ ρ π η}
      (h : cpu.action s.run.cpu = .exit reason next) (hreason : reason ≠ .stopped)
      (hbus : run.bus = s.run.bus)
      (hcpu : run.cpu =
        if reason.exceptionKind.isSome then cpu.takeException next reason else next) :
      Passed cpu s ⟨run, s.recorder, s.told⟩

/-- How a recording ends that was not given up. -/
inductive Ended (cpu : FixedCpu γ) (s : Recording γ δ ρ π η) : Recording γ δ ρ π η → Prop
  | retire {next : γ} {ticked : FixedRun γ δ ρ π η} {s' : Recording γ δ ρ π η}
      (h : cpu.action s.run.cpu = .retire next) (ht : Tick cpu s next ticked s') :
      Ended cpu s { s' with
        recorder := s'.recorder.finish s'.run.totalInstructions (cpu.regs s'.run.cpu)
          s'.run.bus.ram }
  | exit {reason : GuestExit} {next : γ} {run : FixedRun γ δ ρ π η}
      (h : cpu.action s.run.cpu = .exit reason next) (hbus : run.bus = s.run.bus) :
      Ended cpu s ⟨run, s.recorder.finish run.totalInstructions (cpu.regs run.cpu) run.bus.ram,
        s.told⟩

variable {host : FixedHost δ ρ π η} {args : FixedArgs}

omit [BlockDevice δ] [PacketBackend ρ] [PciBackend π] in
/-- The last record is written unless the process gave up. -/
theorem conclude_done {recorder : Recorder} {told : Told} {run : FixedRun γ δ ρ π η}
    (h : run.outcome ≠ some .recordingAborted) :
    conclude cpu recorder told (.done run) = .done ⟨run,
      recorder.finish run.totalInstructions (cpu.regs run.cpu) run.bus.ram, told⟩ := by
  cases hout : run.outcome with
  | none => simp only [conclude, hout]
  | some outcome =>
    cases outcome with
    | recordingAborted => exact absurd hout h
    | _ => simp only [conclude, hout]

/-- The states that a pass with a tick may leave. -/
def TickedOn (cpu : FixedCpu γ) (s : Recording γ δ ρ π η) (next : γ)
    (o : Loop.Outcome (Recording γ δ ρ π η)) : Prop :=
  o.Holds (fun s' => ∃ ticked, Tick cpu s next ticked s') fun v =>
    v.run.outcome ≠ some .recordingAborted → ∃ (ticked : FixedRun γ δ ρ π η)
      (s' : Recording γ δ ρ π η), Tick cpu s next ticked s' ∧ v = { s' with
        recorder := s'.recorder.finish s'.run.totalInstructions (cpu.regs s'.run.cpu)
          s'.run.bus.ram }

theorem tickedOn_concludeTick {clocks : Long} {next : γ} {o : Loop.Outcome (FixedRun γ δ ρ π η)}
    (h : o.Holds (Ticked (FixedRun.tick cpu { s.run with cpu := next } clocks))
      (AfterTick (FixedRun.tick cpu { s.run with cpu := next } clocks))) :
    TickedOn cpu s next
      (concludeTick cpu s.recorder (FixedRun.tick cpu { s.run with cpu := next } clocks) o) := by
  cases o with
  | again run => exact ⟨_, ⟨clocks, rfl⟩, rfl, h, rfl, rfl⟩
  | done run =>
    by_cases hout : run.outcome = some .recordingAborted
    · exact fun hne => absurd hout hne
    · have ht : Ticked (FixedRun.tick cpu { s.run with cpu := next } clocks) run :=
        h.resolve_left hout
      unfold concludeTick
      rw [conclude_done hout]
      exact fun _ => ⟨_, ⟨run, _, _⟩, ⟨⟨clocks, rfl⟩, rfl, ht, rfl, rfl⟩, rfl⟩

theorem tickedOn_hook (hhost : host.SparesRam) (hargs : args.triggerIllegalAfterFrames = none)
    (next : γ) :
    TickedOn cpu s next (hook cpu host args { s with run := { s.run with cpu := next } }) :=
  tickedOn_concludeTick (afterTick_hook hhost hargs { s.run with cpu := next })

theorem holds_exited (s : FixedRun γ δ ρ π η) {reason : GuestExit} (h : reason ≠ .stopped) :
    (s.exited cpu args.recording reason).Holds
      (fun run => run.bus = s.bus ∧ run.cpu =
        if reason.exceptionKind.isSome then cpu.takeException s.cpu reason else s.cpu)
      fun run => run.bus = s.bus := by
  unfold FixedRun.exited
  cases hkind : reason.exceptionKind with
  | some kind =>
    dsimp only
    by_cases hstorm : (s.exceptions.track kind (cpu.ppc s.cpu)).1 = true
    · rw [if_pos hstorm]
      rfl
    · rw [if_neg hstorm]
      exact ⟨rfl, rfl⟩
  | none =>
    cases reason with
    | stopped => exact absurd rfl h
    | budgetExhausted => exact ⟨rfl, rfl⟩
    | boundaryRequested => exact ⟨rfl, rfl⟩
    | _ => cases hkind

theorem holds_halted (s : FixedRun γ δ ρ π η)
    (h : cpu.intMask s.cpu &&& 0x0700 = 0x0700 ∨
      (args.maxFrames ≠ 0 ∧ args.maxFrames ≤ s.bus.frames)) :
    (s.stopped cpu args.recording).Holds (fun _ => False) fun run => run.bus = s.bus := by
  unfold FixedRun.stopped
  split_ifs with hmask hframes
  · rfl
  · rfl
  · exact (h.elim hmask hframes).elim

omit [BlockDevice δ] [PacketBackend ρ] [PciBackend π] in
/-- A pass without a tick records nothing but the end. -/
theorem conclude_cases {P Q : FixedRun γ δ ρ π η → Prop}
    {o : Loop.Outcome (FixedRun γ δ ρ π η)} (h : o.Holds P Q) :
    (conclude cpu s.recorder s.told o).Holds
      (fun s' => ∃ run, P run ∧ s' = ⟨run, s.recorder, s.told⟩)
      fun v => v.run.outcome ≠ some .recordingAborted → ∃ run, Q run ∧ v = ⟨run,
        s.recorder.finish run.totalInstructions (cpu.regs run.cpu) run.bus.ram, s.told⟩ := by
  cases o with
  | again run => exact ⟨run, h, rfl⟩
  | done run =>
    by_cases hout : run.outcome = some .recordingAborted
    · exact fun hne => absurd hout hne
    · rw [conclude_done hout]
      exact fun _ => ⟨run, h, rfl⟩

/-- **What a pass does**: it goes on, or it ends. -/
theorem pass_cases (hhost : host.SparesRam) (hargs : args.triggerIllegalAfterFrames = none)
    (s : Recording γ δ ρ π η) : (s.pass cpu host args).Holds (Passed cpu s) fun v =>
      v.run.outcome ≠ some .recordingAborted → Ended cpu s v := by
  unfold Recording.pass
  cases haction : cpu.action s.run.cpu with
  | read a width next => exact .read haction
  | write a width value next => exact .write haction
  | retire next =>
    refine (tickedOn_hook hhost hargs next).imp ?_ ?_
    · rintro s' ⟨ticked, ht⟩
      exact .retire haction ht
    · intro v hv hout
      obtain ⟨ticked, s', ht, rfl⟩ := hv hout
      exact .retire haction ht
  | exit reason next =>
    by_cases hreason : reason = .stopped
    · subst hreason
      by_cases hhalt : cpu.intMask next &&& 0x0700 = 0x0700 ∨
          (args.maxFrames ≠ 0 ∧ args.maxFrames ≤ s.run.bus.frames)
      · have hstop : exited cpu args { s with run := { s.run with cpu := next } } .stopped =
            conclude cpu s.recorder s.told
              (FixedRun.stopped cpu args.recording { s.run with cpu := next }) := if_pos hhalt
        simp only
        rw [hstop]
        refine (conclude_cases (holds_halted { s.run with cpu := next } hhalt)).imp ?_ ?_
        · rintro s' ⟨run, ⟨⟩, -⟩
        · intro v hv hout
          obtain ⟨run, hbus, rfl⟩ := hv hout
          exact .exit haction hbus
      · have hstop : exited cpu args { s with run := { s.run with cpu := next } } .stopped =
            concludeTick cpu s.recorder
              (FixedRun.tick cpu { s.run with cpu := next } (BitVec.ofNat 32 oneLineClocks))
              (FixedRun.stopped cpu args.recording { s.run with cpu := next }) := if_neg hhalt
        have hafter := afterTick_stopped { s.run with cpu := next } hhalt
        simp only
        rw [hstop]
        cases ho : FixedRun.stopped cpu args.recording { s.run with cpu := next } with
        | again run =>
          rw [ho] at hafter
          exact .stopped haction (fun hmask => hhalt (.inl hmask)) ⟨⟨_, rfl⟩, rfl, hafter, rfl, rfl⟩
        | done run =>
          rw [ho] at hafter
          exact fun hout => absurd hafter hout
    · have hexit : exited cpu args { s with run := { s.run with cpu := next } } reason =
          conclude cpu s.recorder s.told
            (FixedRun.exited cpu args.recording { s.run with cpu := next } reason) := by
        cases reason with
        | stopped => exact absurd rfl hreason
        | _ => rfl
      simp only
      rw [hexit]
      refine (conclude_cases (holds_exited { s.run with cpu := next } hreason)).imp ?_ ?_
      · rintro s' ⟨run, ⟨hbus, hcpu⟩, rfl⟩
        exact .exit haction hreason hbus hcpu
      · intro v hv hout
        obtain ⟨run, hbus, rfl⟩ := hv hout
        exact .exit haction hbus

end Recording

/-! ## What the recorder knows -/

/-- The recorder has classified this machine. -/
structure Recorder.Knows (rec : Recorder) (d : BusDevices δ ρ π) : Prop where
  table : rec.table = buildPageTable d (d.rom.size = romWindowSize) d.fastRamWindow
  fingerprint : rec.fingerprint = Fingerprint.of d
  full : rec.romIsFullWindow = decide (d.rom.size = romWindowSize)

section Knows

variable {rec rec' : Recorder} {d d' : BusDevices δ ρ π}

theorem Recorder.knows_create (d : BusDevices δ ρ π) (interval : Nat) :
    (Recorder.create d interval).Knows d := ⟨rfl, rfl, rfl⟩

theorem Recorder.Knows.steady (h : rec.Knows d) (hs : Steady d d') : rec.Knows d' where
  table := by
    rw [h.table, buildPageTable_congr hs.fingerprint, hs.rom, fastRamWindow_of_sameMap hs.map]
  fingerprint := h.fingerprint.trans hs.fingerprint.symm
  full := by rw [h.full, hs.rom]

theorem Recorder.Knows.wrote (h : rec.Knows d) {evs : List Event} (hw : rec.Wrote rec' evs) :
    rec'.Knows d :=
  ⟨hw.table.trans h.table, hw.fingerprint.trans h.fingerprint, hw.full.trans h.full⟩

/-- The record of a change, if there is one. -/
theorem Recorder.maybeTransition_cases (rec : Recorder) (d : BusDevices δ ρ π) :
    (Fingerprint.of d = rec.fingerprint ∧ rec.maybeTransition d = rec) ∨
      (Fingerprint.of d ≠ rec.fingerprint ∧
        (rec.maybeTransition d).log = rec.log ++
          [.classificationTransition rec.ordinal (rec.maybeTransition d).table] ∧
        (rec.maybeTransition d).table =
          buildPageTable d rec.romIsFullWindow d.fastRamWindow ∧
        (rec.maybeTransition d).fingerprint = Fingerprint.of d ∧
        (rec.maybeTransition d).romIsFullWindow = rec.romIsFullWindow ∧
        (rec.maybeTransition d).ordinal = rec.ordinal ∧
        (rec.maybeTransition d).lastIpl = rec.lastIpl) := by
  unfold Recorder.maybeTransition
  split_ifs with h
  · exact .inl ⟨h, rfl⟩
  · exact .inr ⟨h, rfl, rfl, rfl, rfl, rfl, rfl⟩

theorem Recorder.Knows.maybeTransition (h : rec.Knows d) (hrom : d'.rom = d.rom) :
    (rec.maybeTransition d').Knows d' := by
  rcases rec.maybeTransition_cases d' with ⟨hsame, heq⟩ | ⟨-, -, htable, hfinger, hfull, -, -⟩
  · rw [heq]
    have hfinger : Fingerprint.of d' = Fingerprint.of d := hsame.trans h.fingerprint
    refine ⟨?_, hsame.symm, by rw [h.full, hrom]⟩
    have hwindow : d'.fastRamWindow = d.fastRamWindow := congrArg Fingerprint.fastWindow hfinger
    rw [h.table, buildPageTable_congr hfinger, hrom, hwindow]
  · refine ⟨?_, hfinger, ?_⟩
    · rw [htable, h.full, hrom]
    · rw [hfull, h.full, hrom]

end Knows

namespace Recording

/-- What the recorder and the CPU have of the machine between two passes. -/
structure Intact (cpu : FixedCpu γ) (level : γ → Byte) (s : Recording γ δ ρ π η) : Prop where
  chain : OnChain s.run.bus.devices
  log : s.run.bus.devices.ram.writeLog.isSome
  knows : s.recorder.Knows s.run.bus.devices
  level : s.recorder.lastIpl = level s.run.cpu
  told : s.told.moved = false → s.told.table = s.recorder.table
  idle : s.told.regs.isSome → s.told.moved = false

variable [BlockDevice δ] [PacketBackend ρ] [PciBackend π] [LawfulPacketBackend ρ]
  [LawfulPciBackend π] {cpu : FixedCpu γ} {level : γ → Byte} {s s' : Recording γ δ ρ π η}
  {v : Recording γ δ ρ π η}

/-- A tick changes nothing about how an address is decoded. -/
theorem Tick.steady {next : γ} {ticked : FixedRun γ δ ρ π η} (h : Tick cpu s next ticked s') :
    Steady s.run.bus.devices ticked.bus.devices ∧
      Steady s.run.bus.devices s'.run.bus.devices := by
  obtain ⟨clocks, hbus⟩ := h.bus
  have htick : Steady s.run.bus.devices ticked.bus.devices := by
    rw [hbus]
    exact (stirred_tick s.run.bus clocks).steady
  exact ⟨htick, (htick.trans (steady_stepHost _ _)).trans h.run.spared.steady⟩

theorem Tick.intact {next : γ} {ticked : FixedRun γ δ ρ π η} (h : Tick cpu s next ticked s')
    (hcpu : LatchesIrq cpu.toGuestCpu level) (hs : Intact cpu level s) : Intact cpu level s' where
  chain := hs.chain.steady h.steady.2
  log := by
    rw [h.steady.2.log]
    exact hs.log
  knows := by
    have hnow : s.recorder.advanceOrdinal.Knows s'.run.bus.devices :=
      ⟨(hs.knows.steady h.steady.2).table, (hs.knows.steady h.steady.2).fingerprint,
        (hs.knows.steady h.steady.2).full⟩
    rw [h.recorder]
    exact hnow.wrote (Recorder.wrote_logTick _ _ _ _).1
  level := by
    rw [h.recorder, h.run.cpu, h.latched, hcpu.set]
    exact (Recorder.wrote_logTick _ _ _ _).2
  told _ := by rw [h.told]
  idle _ := by rw [h.told]

/-- **Every pass keeps it.** -/
theorem Intact.passed (h : Intact cpu level s) (hcpu : LatchesIrq cpu.toGuestCpu level)
    (hp : Passed cpu s s') : Intact cpu level s' := by
  cases hp with
  | @read a width next haction =>
    have hsteady := (steady_readWidth s.run.bus a width).1
    have hrec : (s.afterRead a width next).recorder.Knows s.run.bus.devices ∧
        (s.afterRead a width next).recorder.lastIpl = s.recorder.lastIpl ∧
        (s.afterRead a width next).recorder.table = s.recorder.table := by
      unfold afterRead
      dsimp only
      split_ifs
      · exact ⟨⟨h.knows.table, h.knows.fingerprint, h.knows.full⟩, rfl, rfl⟩
      · exact ⟨h.knows, rfl, rfl⟩
    obtain ⟨hknows, hipl, htable⟩ := hrec
    refine ⟨h.chain.steady hsteady, ?_, hknows.steady hsteady, ?_, fun hm => ?_, nofun⟩
    · exact hsteady.log.trans h.log
    · rw [hipl, h.level]
      exact (hcpu.read _ _ _ _ haction _).symm
    · rw [htable]
      exact h.told hm
  | @write a width value next haction =>
    obtain ⟨hchain, -, hwritten⟩ := writeWidth_keeps h.chain a value width
    have hrec : (s.beforeWrite a width value).Knows s.run.bus.devices ∧
        (s.beforeWrite a width value).lastIpl = s.recorder.lastIpl ∧
        (s.beforeWrite a width value).table = s.recorder.table := by
      unfold beforeWrite
      split_ifs
      · exact ⟨⟨h.knows.table, h.knows.fingerprint, h.knows.full⟩, rfl, rfl⟩
      · exact ⟨h.knows, rfl, rfl⟩
    obtain ⟨hknows, hipl, htable⟩ := hrec
    refine ⟨hchain, ?_, hknows.maybeTransition hwritten.rom, ?_, fun hm => ?_, nofun⟩
    · exact hwritten.log.trans h.log
    · have hlevel : level next = level s.run.cpu := hcpu.write _ _ _ _ _ haction
      rcases (s.beforeWrite a width value).maybeTransition_cases
        (writeWidth s.run.bus a value width).devices with ⟨-, heq⟩ | ⟨-, -, -, -, -, -, hlast⟩
      · exact (congrArg Recorder.lastIpl heq).trans (hipl.trans (h.level.trans hlevel.symm))
      · exact hlast.trans (hipl.trans (h.level.trans hlevel.symm))
    · obtain ⟨hmoved, hsame⟩ := Bool.or_eq_false_iff.mp hm
      have hsame := of_decide_eq_false hsame
      rw [ne_eq, not_not] at hsame
      rcases (s.beforeWrite a width value).maybeTransition_cases
        (writeWidth s.run.bus a value width).devices with ⟨-, heq⟩ | ⟨hne, -⟩
      · exact (h.told hmoved).trans (htable.symm.trans (congrArg Recorder.table heq.symm))
      · exact absurd hsame hne
  | retire haction ht => exact ht.intact hcpu h
  | stopped haction hmask ht => exact ht.intact hcpu h
  | @exit reason next run haction hreason hbus hcpu' =>
    refine ⟨hbus ▸ h.chain, hbus ▸ h.log, hbus ▸ h.knows, ?_, h.told, h.idle⟩
    rw [h.level, ← hcpu.exit _ _ _ haction]
    simp only
    rw [hcpu']
    split
    · exact (hcpu.exception _ _).symm
    · rfl

/-! ## What comes next in the log -/

/-- The player types the page as the recorder does, and no change of the table is due first. -/
def Shared (s : Recording γ δ ρ π η) (a : Long) : Prop :=
  s.told.table (pageOf a) = s.recorder.table (pageOf a) ∧
    (s.recorder.classify a = .io → s.told.moved = false)

omit [BlockDevice δ] [PacketBackend ρ] [PciBackend π] [LawfulPacketBackend ρ]
  [LawfulPciBackend π] in
instance (s : Recording γ δ ρ π η) (a : Long) : Decidable (s.Shared a) := by
  unfold Shared
  infer_instance

/-- What the CPU does next is what a player can repeat. -/
def Repeatable (cpu : FixedCpu γ) (s : Recording γ δ ρ π η) : Prop :=
  FastClear s.run.bus.devices.ram ∧
    match cpu.action s.run.cpu with
    | .read a width _ => s.Shared a ∧ ReadOk s.recorder.table s.run.bus.devices a width.bytes
    | .write a width _ _ => s.Shared a ∧ WriteOk s.recorder.table s.run.bus.devices a width.bytes
    | _ => True

/-- The next record is of an access to devices or of a later tick, or the run is over and the
machine is as the last tick left it. -/
inductive Ahead (cpu : FixedCpu γ) (s v : Recording γ δ ρ π η) : List Event → Prop
  | later {ev : Event} {evs : List Event} (h : ev.dueAt s.recorder.ordinal = false) :
      Ahead cpu s v (ev :: evs)
  | ended (hregs : s.told.regs = some (cpu.regs v.run.cpu)) (hbus : v.run.bus = s.run.bus) :
      Ahead cpu s v [.finish s.recorder.ordinal v.run.totalInstructions (cpu.regs v.run.cpu)
        (ramDigests v.run.bus.ram).1 (ramDigests v.run.bus.ram).2]

omit [BlockDevice δ] [PacketBackend ρ] [PciBackend π] [LawfulPacketBackend ρ]
  [LawfulPciBackend π] in
theorem ahead_of_ordinal {s : Recording γ δ ρ π η} {evs : List Event} (hne : evs ≠ [])
    (h : ∀ ev ∈ evs, ev.ordinal = s.recorder.ordinal + 1) : Ahead cpu s v evs := by
  cases evs with
  | nil => exact absurd rfl hne
  | cons ev evs =>
    refine .later ?_
    have hev := h ev List.mem_cons_self
    simp [Event.dueAt, hev]

omit [LawfulPacketBackend ρ] [LawfulPciBackend π] in
theorem Tick.log {next : γ} {ticked : FixedRun γ δ ρ π η} (h : Tick cpu s next ticked s') :
    s'.recorder.log = s.recorder.log ++ s.recorder.advanceOrdinal.tickRecords
        (BitVec.ofNat 8 ticked.bus.pendingIrqLevel) ticked.bus.ram (cpu.regs ticked.cpu) ∧
      s'.recorder.ordinal = s.recorder.ordinal + 1 ∧ s'.recorder.table = s.recorder.table := by
  have hw := (Recorder.wrote_logTick s.recorder.advanceOrdinal
    (BitVec.ofNat 8 ticked.bus.pendingIrqLevel) ticked.bus.ram (cpu.regs ticked.cpu)).1
  rw [h.recorder]
  exact ⟨hw.log, hw.ordinal, hw.table⟩

omit [LawfulPacketBackend ρ] [LawfulPciBackend π] in
/-- What was recorded at a tick is followed by later records only. -/
theorem Tick.ahead {next : γ} {ticked : FixedRun γ δ ρ π η} (h : Tick cpu s next ticked s')
    {rest : List Event} (hahead : Ahead cpu s' v rest) :
    Ahead cpu s v (s.recorder.advanceOrdinal.tickRecords
      (BitVec.ofNat 8 ticked.bus.pendingIrqLevel) ticked.bus.ram (cpu.regs ticked.cpu) ++
        rest) := by
  cases hrecs : s.recorder.advanceOrdinal.tickRecords
      (BitVec.ofNat 8 ticked.bus.pendingIrqLevel) ticked.bus.ram (cpu.regs ticked.cpu) with
  | cons ev evs =>
    have hev : ev.ordinal = s.recorder.ordinal + 1 :=
      Recorder.ordinal_tickRecords (by rw [hrecs]; exact List.mem_cons_self)
    refine .later ?_
    simp [Event.dueAt, hev]
  | nil =>
    rw [List.nil_append]
    cases hahead with
    | later hlater =>
      refine .later ?_
      rw [h.log.2.1] at hlater
      simp only [Event.dueAt, Bool.and_eq_false_iff, decide_eq_false_iff_not] at hlater ⊢
      exact hlater.imp (fun hle => by omega) id
    | ended hregs hbus =>
      refine ahead_of_ordinal (List.cons_ne_nil _ _) fun ev hev => ?_
      rw [List.mem_singleton.mp hev]
      exact h.log.2.1

omit [LawfulPacketBackend ρ] [LawfulPciBackend π] in
/-- A write of memory is not recorded, and no change of the table follows it. -/
theorem Intact.memoryWrite (h : Intact cpu level s) (hclear : FastClear s.run.bus.devices.ram)
    {a : Long} {width : AccessWidth} (value : Long) (next : γ)
    (hok : WriteOk s.recorder.table s.run.bus.devices a width.bytes)
    (hio : s.recorder.classify a ≠ .io) :
    (s.afterWrite a width value next).recorder = s.recorder ∧
      (s.afterWrite a width value next).told = { s.told with regs := none } := by
  have hsteady := steady_writeWidth (h.chain.classifiable hclear) h.knows.table hok hio value
  have hbefore : s.beforeWrite a width value = s.recorder := if_neg hio
  have hsame : Fingerprint.of (writeWidth s.run.bus a value width).devices =
      s.recorder.fingerprint := hsteady.fingerprint.trans h.knows.fingerprint.symm
  unfold afterWrite
  rw [hbefore]
  refine ⟨if_pos hsame, ?_⟩
  simp [hsame]

variable {host : FixedHost δ ρ π η} {args : FixedArgs}

/-- **The rest of the log.** The records of the rest of a run follow those there are. -/
theorem exists_ahead (hcpu : LatchesIrq cpu.toGuestCpu level) (hhost : host.SparesRam)
    (hargs : args.triggerIllegalAfterFrames = none) {n : Nat} {s u : Recording γ δ ρ π η}
    (hrun : Loop.Iterates (pass cpu host args) n s u) (hend : u.pass cpu host args = .done v)
    (hout : v.run.outcome ≠ some .recordingAborted)
    (hends : v.told.regs = some (cpu.regs v.run.cpu))
    (hguard : ∀ m w, Loop.Iterates (pass cpu host args) m s w → Repeatable cpu w)
    (hs : Intact cpu level s) : ∃ rest, v.recorder.log = s.recorder.log ++ rest ∧
      (s.told.moved = false → Ahead cpu s v rest) := by
  induction hrun with
  | zero s =>
    have hended : Ended cpu s v := by
      have hcases : (s.pass cpu host args).Holds (Passed cpu s) _ := pass_cases hhost hargs s
      rw [hend] at hcases
      exact hcases hout
    cases hended with
    | @retire next ticked s' haction ht =>
      refine ⟨s.recorder.advanceOrdinal.tickRecords (BitVec.ofNat 8 ticked.bus.pendingIrqLevel)
          ticked.bus.ram (cpu.regs ticked.cpu) ++ [.finish s'.recorder.ordinal
            s'.run.totalInstructions (cpu.regs s'.run.cpu) (ramDigests s'.run.bus.ram).1
            (ramDigests s'.run.bus.ram).2], ?_, fun _ => ?_⟩
      · simp only [Recorder.finish, Recorder.write]
        rw [ht.log.1, List.append_assoc]
      · exact ht.ahead (.ended hends rfl)
    | @exit reason next run haction hbus => exact ⟨_, rfl, fun _ => .ended hends hbus⟩
  | @succ n s t u hst hrun ih =>
    have hpassed : Passed cpu s t := by
      have hcases : (s.pass cpu host args).Holds (Passed cpu s) _ := pass_cases hhost hargs s
      rwa [hst] at hcases
    obtain ⟨hclear, hok⟩ := hguard 0 s (.zero s)
    obtain ⟨rest, hlog, hahead⟩ := ih hend (fun m w hw => hguard (m + 1) w (.succ hst hw))
      (hs.passed hcpu hpassed)
    cases hpassed with
    | @read a width next haction =>
      by_cases hio : s.recorder.classify a = .io
      · have hrec : (s.afterRead a width next).recorder =
            s.recorder.logIoRead a width.bytes (readWidth s.run.bus a width).1 := if_pos hio
        refine ⟨.ioRead s.recorder.ordinal a width.bytes (readWidth s.run.bus a width).1 :: rest,
          ?_, fun _ => .later (by simp [Event.dueAt, Event.isIo])⟩
        rw [hlog, hrec, Recorder.logIoRead, Recorder.write, List.append_assoc]
        rfl
      · have hrec : (s.afterRead a width next).recorder = s.recorder := if_neg hio
        rw [hrec] at hlog
        refine ⟨rest, hlog, fun hm => ?_⟩
        cases hahead hm with
        | later hlater => exact .later (hrec ▸ hlater)
        | ended hregs hbus => cases hregs
    | @write a width value next haction =>
      rw [haction] at hok
      by_cases hio : s.recorder.classify a = .io
      · -- the access is recorded before a change of the table
        have hbefore : (s.beforeWrite a width value).log = s.recorder.log ++
            [.ioWrite s.recorder.ordinal a width.bytes (width.truncate value)] := by
          unfold beforeWrite
          rw [if_pos hio]
          rfl
        have hafter : ∃ evs, (s.afterWrite a width value next).recorder.log =
            (s.beforeWrite a width value).log ++ evs := by
          rcases (s.beforeWrite a width value).maybeTransition_cases
            (writeWidth s.run.bus a value width).devices with ⟨-, heq⟩ | ⟨-, hlog, -⟩
          · exact ⟨[], (congrArg Recorder.log heq).trans (List.append_nil _).symm⟩
          · exact ⟨_, hlog⟩
        obtain ⟨evs, hevs⟩ := hafter
        refine ⟨.ioWrite s.recorder.ordinal a width.bytes (width.truncate value) :: (evs ++ rest),
          ?_, fun _ => .later (by simp [Event.dueAt, Event.isIo])⟩
        rw [hlog, hevs, hbefore, List.append_assoc, List.append_assoc]
        rfl
      · obtain ⟨hrec, htold⟩ := hs.memoryWrite hclear value next hok.2 hio
        rw [hrec] at hlog
        refine ⟨rest, hlog, fun hm => ?_⟩
        cases hahead (by rw [htold]; exact hm) with
        | later hlater => exact .later (hrec ▸ hlater)
        | ended hregs hbus =>
          rw [htold] at hregs
          cases hregs
    | @retire next ticked t haction ht =>
      refine ⟨_, ?_, fun _ => ht.ahead (hahead (by rw [ht.told]))⟩
      rw [hlog, ht.log.1, List.append_assoc]
    | @stopped next ticked t haction hmask ht =>
      refine ⟨_, ?_, fun _ => ht.ahead (hahead (by rw [ht.told]))⟩
      rw [hlog, ht.log.1, List.append_assoc]
    | @exit reason next run haction hreason hbus hcpu' =>
      refine ⟨rest, hlog, fun hm => ?_⟩
      cases hahead hm with
      | later hlater => exact .later hlater
      | ended hregs hbus' => exact .ended hregs (hbus'.trans hbus)

end Recording

end M68kMachine
