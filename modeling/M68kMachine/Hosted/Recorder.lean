import M68kMachine.Hosted.DirectMap
import M68kMachine.Hosted.FixedRun

/-!
# Recording a run

The recorder of `replay.rs`, and the places of `bus.rs` and of `run_guest_fixed` that call it. It
writes down what a player cannot find out by itself: what the guest read from devices, the interrupt
levels, the bytes that devices stored, and the tables after a change. Writing to the file does not
fail.

* `ReplayHeader` — what a log says about the machine it was recorded on
* `Recorder` — the log so far, and one function for each kind of record
* `Recording.pass` — one pass of the loop with a recorder attached
* `Told` — what was last written down for a player, kept for the statements
-/

namespace M68kMachine

variable {δ ρ π : Type}

/-! ## The header -/

structure ReplayHeader where
  instructionsPerLine : Long
  romHash : Quad
  chipRamSize : Long
  /-- The window of fast RAM, zero before it is placed. -/
  fastRamSize : Long
  initialTable : PageTable

def ByteSlice.toList (b : ByteSlice) : List Byte := List.ofFn b.bytes

namespace ReplayHeader

def of (d : BusDevices δ ρ π) (instructionsPerLine : Long) : ReplayHeader where
  instructionsPerLine := instructionsPerLine
  romHash := fnv1a64 d.rom.toList
  chipRamSize := BitVec.ofNat 32 M68kMachine.chipRamSize
  fastRamSize := d.fastRamWindow.elim 0 Prod.snd
  initialTable := buildPageTable d (d.rom.size = romWindowSize) d.fastRamWindow

/-- A machine may replay the log: the checks of `--replay`. -/
def accepts (h : ReplayHeader) (d : BusDevices δ ρ π) : Bool :=
  h.romHash = fnv1a64 d.rom.toList && h.chipRamSize = BitVec.ofNat 32 M68kMachine.chipRamSize &&
    h.fastRamSize = d.fastRamWindow.elim 0 Prod.snd

end ReplayHeader

/-! ## The recorder -/

structure Recorder where
  /-- The records, oldest first. -/
  log : List Event
  table : PageTable
  fingerprint : Fingerprint
  romIsFullWindow : Bool
  ordinal : Nat
  lastIpl : Byte
  checkpointInterval : Nat
  ioReadEvents : Nat
  ioWriteEvents : Nat
  iplEvents : Nat
  deviceWriteEvents : Nat
  transitionEvents : Nat
  checkpointEvents : Nat

namespace Recorder

def create (d : BusDevices δ ρ π) (checkpointInterval : Nat) : Recorder where
  log := []
  table := buildPageTable d (d.rom.size = romWindowSize) d.fastRamWindow
  fingerprint := .of d
  romIsFullWindow := d.rom.size = romWindowSize
  ordinal := 0
  lastIpl := 0
  checkpointInterval := checkpointInterval
  ioReadEvents := 0
  ioWriteEvents := 0
  iplEvents := 0
  deviceWriteEvents := 0
  transitionEvents := 0
  checkpointEvents := 0

def classify (rec : Recorder) (addr : Long) : PageType := rec.table (pageOf addr)

def advanceOrdinal (rec : Recorder) : Recorder := { rec with ordinal := rec.ordinal + 1 }

def write (rec : Recorder) (ev : Event) : Recorder := { rec with log := rec.log ++ [ev] }

def logIoRead (rec : Recorder) (addr : Long) (width : Nat) (value : Long) : Recorder :=
  { rec with ioReadEvents := rec.ioReadEvents + 1 }.write (.ioRead rec.ordinal addr width value)

def logIoWrite (rec : Recorder) (addr : Long) (width : Nat) (value : Long) : Recorder :=
  { rec with ioWriteEvents := rec.ioWriteEvents + 1 }.write (.ioWrite rec.ordinal addr width value)

/-- Only a level that differs from the last one is logged. -/
def logIplIfChanged (rec : Recorder) (level : Byte) : Recorder :=
  if level = rec.lastIpl then rec
  else
    { rec with lastIpl := level, iplEvents := rec.iplEvents + 1 }.write
      (.iplChange rec.ordinal level)

def logDeviceWrite (rec : Recorder) (addr : Long) (bytes : List Byte) : Recorder :=
  { rec with deviceWriteEvents := rec.deviceWriteEvents + 1 }.write
    (.deviceWrite rec.ordinal addr bytes)

/-- The spans of the device-write log, with the bytes they hold by now. -/
def logDeviceWrites (rec : Recorder) (r : GuestRam) (spans : List (Long × Long)) : Recorder :=
  spans.foldl (fun rec span =>
    match GuestMemory.ramSlice r span.1 span.2 with
    | some bytes => rec.logDeviceWrite span.1 bytes
    | none => rec) rec

/-- Rebuild the table when the machine is not the one it was built for. -/
def maybeTransition (rec : Recorder) (d : BusDevices δ ρ π) : Recorder :=
  if Fingerprint.of d = rec.fingerprint then rec
  else
    let table := buildPageTable d rec.romIsFullWindow d.fastRamWindow
    { rec with
      fingerprint := .of d
      table
      transitionEvents := rec.transitionEvents + 1 }.write
        (.classificationTransition rec.ordinal table)

def maybeCheckpoint (rec : Recorder) (regs : Regs) : Recorder :=
  if rec.checkpointInterval = 0 ∨ rec.ordinal % rec.checkpointInterval ≠ 0 then rec
  else
    { rec with checkpointEvents := rec.checkpointEvents + 1 }.write
      (.checkpoint rec.ordinal regs)

def finish (rec : Recorder) (totalInstructions : Nat) (regs : Regs) (r : GuestRam) : Recorder :=
  rec.write (.finish rec.ordinal totalInstructions regs (ramDigests r).1 (ramDigests r).2)

/-- The records of an ordinal, after its tick. -/
def logTick (rec : Recorder) (level : Byte) (r : GuestRam) (regs : Regs) : Recorder :=
  ((rec.logIplIfChanged level).logDeviceWrites r
    ((r.writeLog.map DeviceWriteLog.spans).getD [])).maybeCheckpoint regs

end Recorder

/-! ## The run -/

/-- What the log says of the machine since the last tick. -/
structure Told where
  /-- The table then. -/
  table : PageTable
  /-- A change of the table was logged since. -/
  moved : Bool
  /-- The registers after that tick, as long as the CPU did not access the bus. -/
  regs : Option Regs

def FixedArgs.recording (args : FixedArgs) : FixedArgs := { args with record := true }

structure Recording (γ δ ρ π η : Type) where
  run : FixedRun γ δ ρ π η
  recorder : Recorder
  told : Told

namespace Recording

variable {γ η : Type}

def start (cpu : FixedCpu γ) (state : γ) (bus : MachineBus δ ρ π) (host : η)
    (checkpointInterval : Nat) : Recording γ δ ρ π η where
  run := .start cpu state bus host
  recorder := .create bus.devices checkpointInterval
  told := ⟨(Recorder.create bus.devices checkpointInterval).table, false, none⟩

/-- The recorder's last record, once the run is over and the device-write log held. -/
def conclude (cpu : FixedCpu γ) (recorder : Recorder) (told : Told) :
    Loop.Outcome (FixedRun γ δ ρ π η) → Loop.Outcome (Recording γ δ ρ π η)
  | .again run => .again ⟨run, recorder, told⟩
  | .done run =>
    let recorder := match run.outcome with
      | some .recordingAborted => recorder
      | _ => recorder.finish run.totalInstructions (cpu.regs run.cpu) run.bus.ram
    .done ⟨run, recorder, told⟩

/-- The recorder after a tick that led to `ticked`. -/
def logTick (cpu : FixedCpu γ) (recorder : Recorder) (ticked : FixedRun γ δ ρ π η) : Recorder :=
  recorder.advanceOrdinal.logTick (BitVec.ofNat 8 ticked.bus.pendingIrqLevel) ticked.bus.ram
    (cpu.regs ticked.cpu)

/-- A tick is over: `run` is what the loop makes of `ticked`. -/
def concludeTick (cpu : FixedCpu γ) (recorder : Recorder) (ticked : FixedRun γ δ ρ π η)
    (run : Loop.Outcome (FixedRun γ δ ρ π η)) : Loop.Outcome (Recording γ δ ρ π η) :=
  let recorder := logTick cpu recorder ticked
  conclude cpu recorder ⟨recorder.table, false, some (cpu.regs ticked.cpu)⟩ run

variable [BlockDevice δ] [PacketBackend ρ] [PciBackend π]

/-- The per-instruction hook. -/
def hook (cpu : FixedCpu γ) (host : FixedHost δ ρ π η) (args : FixedArgs)
    (s : Recording γ δ ρ π η) : Loop.Outcome (Recording γ δ ρ π η) :=
  concludeTick cpu s.recorder (s.run.tick cpu (s.run.nextQuantum args))
    (s.run.hook cpu host args.recording)

/-- The CPU is stopped: nothing is recorded when the run ends there. -/
def stopped (cpu : FixedCpu γ) (args : FixedArgs) (s : Recording γ δ ρ π η) :
    Loop.Outcome (Recording γ δ ρ π η) :=
  if cpu.intMask s.run.cpu &&& 0x0700 = 0x0700 ∨
      (args.maxFrames ≠ 0 ∧ args.maxFrames ≤ s.run.bus.frames) then
    conclude cpu s.recorder s.told (s.run.stopped cpu args.recording)
  else
    concludeTick cpu s.recorder (s.run.tick cpu (BitVec.ofNat 32 oneLineClocks))
      (s.run.stopped cpu args.recording)

def exited (cpu : FixedCpu γ) (args : FixedArgs) (s : Recording γ δ ρ π η) (reason : GuestExit) :
    Loop.Outcome (Recording γ δ ρ π η) :=
  match reason with
  | .stopped => s.stopped cpu args
  | reason => conclude cpu s.recorder s.told (s.run.exited cpu args.recording reason)

def pass (cpu : FixedCpu γ) (host : FixedHost δ ρ π η) (args : FixedArgs)
    (s : Recording γ δ ρ π η) : Loop.Outcome (Recording γ δ ρ π η) :=
  match cpu.action s.run.cpu with
  | .read address width next =>
    let r := readWidth s.run.bus address width
    .again
      { run := { s.run with cpu := next (width.truncate r.1), bus := r.2 }
        recorder :=
          if s.recorder.classify address = .io then s.recorder.logIoRead address width.bytes r.1
          else s.recorder
        told := { s.told with regs := none } }
  | .write address width value next =>
    let bus := writeWidth s.run.bus address value width
    -- The access is logged before the machine takes it, a change of the table after.
    let recorder :=
      if s.recorder.classify address = .io then
        s.recorder.logIoWrite address width.bytes (width.truncate value)
      else s.recorder
    .again
      { run := { s.run with cpu := next, bus }
        recorder := recorder.maybeTransition bus.devices
        told :=
          { s.told with
            moved := s.told.moved || Fingerprint.of bus.devices ≠ recorder.fingerprint
            regs := none } }
  | .retire next => { s with run := { s.run with cpu := next } }.hook cpu host args
  | .exit reason next => { s with run := { s.run with cpu := next } }.exited cpu args reason

end Recording

end M68kMachine
