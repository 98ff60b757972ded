import M68kMachine.Hosted.ReplayRun

/-!
# The fixed mode

`run_guest_fixed` of `run.rs`, over any CPU and any host. One pass of the loop is one action of the
CPU. What is only printed, drawn or recorded is left out; of the recorder stays what it does to the
bus and to the loop.

* `LoopWindow` — the detector of tight loops
* `FixedHost` — what the scripts and the TCP bridge do once a frame
* `FixedRun.hook`, `FixedRun.exited` — a retired instruction, and a batch that ended
* `FixedRun.pass` — one pass
-/

namespace M68kMachine

/-- The clocks of one raster line. -/
abbrev oneLineClocks : Nat := Chipset.palColourClocksPerLine * cpuClocksPerColourClock

abbrev tightLoopThreshold : Nat := 20000000

abbrev loopWindowSpanBytes : Nat := 64

abbrev exceptionStormThreshold : Nat := 1000

/-! ## Wedges -/

/-- The range of the PCs since the last reset, and how many there were. -/
structure LoopWindow where
  lo : Long
  hi : Long
  streak : Nat
  deriving DecidableEq

namespace LoopWindow

def new (pc : Long) : LoopWindow := ⟨pc, pc, 1⟩

/-- Whether `pc` fits, and the window after it. -/
def extend (w : LoopWindow) (pc : Long) : Bool × LoopWindow :=
  let lo := if pc < w.lo then pc else w.lo
  let hi := if w.hi < pc then pc else w.hi
  if (hi - lo).toNat ≤ loopWindowSpanBytes then (true, ⟨lo, hi, w.streak + 1⟩)
  else (false, new pc)

end LoopWindow

/-- The exceptions whose storms are detected. -/
inductive ExceptionKind
  | aline
  | fline
  | trap
  | bkpt
  | illegal
  deriving DecidableEq

def GuestExit.exceptionKind : GuestExit → Option ExceptionKind
  | alineTrap _ => some .aline
  | flineTrap _ => some .fline
  | trapInstruction _ => some .trap
  | breakpoint _ => some .bkpt
  | illegalInstruction _ => some .illegal
  | budgetExhausted | boundaryRequested | stopped => none

/-- The last exception and how often it was taken in a row. -/
structure ExceptionStreak where
  last : Option (ExceptionKind × Long)
  streak : Nat

/-- Whether this is a storm, and the streak after it. -/
def ExceptionStreak.track (e : ExceptionStreak) (kind : ExceptionKind) (pc : Long) :
    Bool × ExceptionStreak :=
  let streak := if e.last = some (kind, pc) then e.streak + 1 else 1
  (exceptionStormThreshold ≤ streak, ⟨some (kind, pc), streak⟩)

/-! ## The run -/

/-- A CPU whose last instruction has an address. -/
structure FixedCpu (γ : Type) extends GuestCpu γ where
  ppc : γ → Long

/-- What the serial script, the input script and the TCP bridge do to the bus in a frame. -/
structure FixedHost (δ ρ π η : Type) where
  service : η → MachineBus δ ρ π → List HostOp × η

structure FixedArgs where
  instructionsPerLine : Long
  maxInstructions : Nat
  maxFrames : Nat
  triggerIllegalAfterFrames : Option Nat
  /-- `--record` was given. -/
  record : Bool

/-- The instructions of a line, at least one. -/
def FixedArgs.perLine (args : FixedArgs) : Nat := max args.instructionsPerLine.toNat 1

inductive FixedOutcome
  | cleanHalt
  | limitReached (which : String)
  | tightLoop (window : LoopWindow)
  | exceptionStorm (kind : ExceptionKind) (pc : Long) (streak : Nat)
  /-- The process exits: the device-write log overflowed. -/
  | recordingAborted
  deriving DecidableEq

structure FixedRun (γ δ ρ π η : Type) where
  cpu : γ
  bus : MachineBus δ ρ π
  host : η
  totalInstructions : Nat
  instrThisLine : Nat
  loopWindow : LoopWindow
  exceptions : ExceptionStreak
  overlayClearedFrame : Option Nat
  lastServicedFrame : Option Nat
  illegalTriggered : Bool
  outcome : Option FixedOutcome

namespace FixedRun

variable {γ δ ρ π η : Type}

def start (cpu : FixedCpu γ) (state : γ) (bus : MachineBus δ ρ π) (host : η) :
    FixedRun γ δ ρ π η where
  cpu := state
  bus := bus
  host := host
  totalInstructions := 0
  instrThisLine := 0
  loopWindow := .new (cpu.regs state).pc
  exceptions := ⟨none, 0⟩
  overlayClearedFrame := none
  lastServicedFrame := none
  illegalTriggered := false
  outcome := none

def finish (s : FixedRun γ δ ρ π η) (outcome : FixedOutcome) :
    Loop.Outcome (FixedRun γ δ ρ π η) :=
  .done { s with outcome := some outcome }

variable [BlockDevice δ] [PacketBackend ρ] [PciBackend π]

/-- Advance the devices, and show the CPU the interrupt level. -/
def tick (cpu : FixedCpu γ) (s : FixedRun γ δ ρ π η) (clocks : Long) : FixedRun γ δ ρ π η :=
  let bus := s.bus.tick clocks
  { s with bus, cpu := cpu.setIrq s.cpu (BitVec.ofNat 8 bus.pendingIrqLevel) }

/-- The device-write log lost a span since it was cleared. -/
def overflowed (s : FixedRun γ δ ρ π η) : Bool :=
  (s.bus.devices.ram.writeLog.map DeviceWriteLog.overflowed).getD false

/-- A recording takes the spans of the device-write log. -/
def recordSpans (args : FixedArgs) (s : FixedRun γ δ ρ π η) : FixedRun γ δ ρ π η :=
  if args.record then { s with bus := s.bus.stepHost .clearDeviceWriteSpans } else s

/-- The bytes the guest sent are taken until there is none. -/
def drainSerial (s : FixedRun γ δ ρ π η) : FixedRun γ δ ρ π η :=
  let bytes := List.replicate s.bus.devices.chipset.serialBuf.len HostOp.takeSerialByte
  { s with bus := bytes.foldl MachineBus.stepHost s.bus }

/-- Note the frame in which the overlay is first seen clear. -/
def noteOverlay (s : FixedRun γ δ ρ π η) : FixedRun γ δ ρ π η :=
  if ¬s.bus.devices.overlay ∧ s.overlayClearedFrame = none then
    { s with overlayClearedFrame := some s.bus.frames }
  else s

/-- `--trigger-illegal-after-frames` is due, and was not yet. -/
def illegalDue (args : FixedArgs) (s : FixedRun γ δ ρ π η) : Bool :=
  match args.triggerIllegalAfterFrames, s.overlayClearedFrame with
  | some target, some cleared =>
    !s.illegalTriggered && min (cleared + target) Chipset.u64Max ≤ s.bus.frames
  | _, _ => false

def triggerIllegal (cpu : FixedCpu γ) (args : FixedArgs) (s : FixedRun γ δ ρ π η) :
    FixedRun γ δ ρ π η :=
  if s.illegalDue args then
    { s with cpu := cpu.takeException s.cpu (.illegalInstruction 0), illegalTriggered := true }
  else s

/-- The scripts and the TCP bridge, unless they had their turn in this frame. -/
def serviceScripts (host : FixedHost δ ρ π η) (s : FixedRun γ δ ρ π η) : FixedRun γ δ ρ π η :=
  if s.lastServicedFrame = some s.bus.frames then s
  else
    let (ops, after) := host.service s.host s.bus
    { s with
      bus := ops.foldl MachineBus.stepHost s.bus
      host := after
      lastServicedFrame := some s.bus.frames }

def serviceHostSerial (cpu : FixedCpu γ) (host : FixedHost δ ρ π η) (args : FixedArgs)
    (s : FixedRun γ δ ρ π η) : FixedRun γ δ ρ π η :=
  (s.noteOverlay.triggerIllegal cpu args).serviceScripts host

/-- The part of the line that the next instruction gets. -/
def nextQuantum (args : FixedArgs) (s : FixedRun γ δ ρ π η) : Long :=
  let i := s.instrThisLine + 1
  let cumulativeBefore := oneLineClocks * (i - 1) / args.perLine
  let cumulativeAfter := oneLineClocks * i / args.perLine
  BitVec.ofNat 32 (cumulativeAfter - cumulativeBefore)

/-- What follows the bookkeeping: the wedge, the limits and the end of the line. -/
def afterInstruction (args : FixedArgs) (frames : Nat) (s : FixedRun γ δ ρ π η) :
    Loop.Outcome (FixedRun γ δ ρ π η) :=
  if tightLoopThreshold ≤ s.loopWindow.streak then s.finish (.tightLoop s.loopWindow)
  else if args.maxInstructions ≠ 0 ∧ args.maxInstructions ≤ s.totalInstructions then
    s.finish (.limitReached "max-instructions")
  else if args.maxFrames ≠ 0 ∧ args.maxFrames ≤ frames then
    s.finish (.limitReached "max-frames")
  else if args.perLine ≤ s.instrThisLine then .again { s with instrThisLine := 0 }
  else .again s

/-- What the hook does after the tick and its recording. -/
def serviceInstruction (cpu : FixedCpu γ) (host : FixedHost δ ρ π η) (args : FixedArgs)
    (s : FixedRun γ δ ρ π η) : FixedRun γ δ ρ π η :=
  let s := if s.lastServicedFrame = some s.bus.frames then s else s.serviceHostSerial cpu host args
  { s with
    totalInstructions := s.totalInstructions + 1
    loopWindow := (s.loopWindow.extend (cpu.ppc s.cpu)).2 }

/-- The per-instruction hook, and what follows the batch when the hook ends it. -/
def hook (cpu : FixedCpu γ) (host : FixedHost δ ρ π η) (args : FixedArgs)
    (s : FixedRun γ δ ρ π η) : Loop.Outcome (FixedRun γ δ ρ π η) :=
  let s := { s.tick cpu (s.nextQuantum args) with instrThisLine := s.instrThisLine + 1 }
  if args.record ∧ s.overflowed then (s.recordSpans args).finish .recordingAborted
  else
    let s := (s.recordSpans args).drainSerial
    (s.serviceInstruction cpu host args).afterInstruction args s.bus.frames

/-- The CPU is stopped: with every interrupt masked the run ends, otherwise a line passes. -/
def stopped (cpu : FixedCpu γ) (args : FixedArgs) (s : FixedRun γ δ ρ π η) :
    Loop.Outcome (FixedRun γ δ ρ π η) :=
  if cpu.intMask s.cpu &&& 0x0700 = 0x0700 then s.finish .cleanHalt
  else if args.maxFrames ≠ 0 ∧ args.maxFrames ≤ s.bus.frames then
    s.finish (.limitReached "max-frames")
  else
    let s := s.tick cpu (BitVec.ofNat 32 oneLineClocks)
    if args.record ∧ s.overflowed then (s.recordSpans args).finish .recordingAborted
    else .again (s.recordSpans args).drainSerial

/-- A batch ended without the hook asking for it. -/
def exited (cpu : FixedCpu γ) (args : FixedArgs) (s : FixedRun γ δ ρ π η) (reason : GuestExit) :
    Loop.Outcome (FixedRun γ δ ρ π η) :=
  match reason.exceptionKind with
  | some kind =>
    let pc := cpu.ppc s.cpu
    let (storm, exceptions) := s.exceptions.track kind pc
    let s := { s with exceptions }
    if storm then s.finish (.exceptionStorm kind pc exceptions.streak)
    else .again { s with cpu := cpu.takeException s.cpu reason }
  | none =>
    match reason with
    | .stopped => s.stopped cpu args
    -- the quota of the line is not met yet
    | _ => .again s

def pass (cpu : FixedCpu γ) (host : FixedHost δ ρ π η) (args : FixedArgs)
    (s : FixedRun γ δ ρ π η) : Loop.Outcome (FixedRun γ δ ρ π η) :=
  match cpu.action s.cpu with
  | .read address width next =>
    let r := readWidth s.bus address width
    .again { s with cpu := next (width.truncate r.1), bus := r.2 }
  | .write address width value next =>
    .again { s with cpu := next, bus := writeWidth s.bus address value width }
  | .retire next => { s with cpu := next }.hook cpu host args
  | .exit reason next => { s with cpu := next }.exited cpu args reason

end FixedRun

end M68kMachine
