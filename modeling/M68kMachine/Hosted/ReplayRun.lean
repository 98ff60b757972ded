import M68kMachine.Hosted.Replay
import M68kMachine.Library.Loop

/-!
# Replaying a log

`run_guest_replay` of `run.rs`, over any deterministic CPU: what it does next is a function of its
state, and a read continues with the value it is given. One pass of the loop is one action of the
CPU.

* `GuestCpu` — the CPU
* `ReplayRun.pass` — one pass
* `ReplayRun.trace` — what was compared with which event, kept for the statements
-/

namespace M68kMachine

/-! ## The CPU -/

/-- Why a bounded run of the CPU returned. -/
inductive GuestExit
  | budgetExhausted
  | boundaryRequested
  | stopped
  | alineTrap (opcode : Word)
  | flineTrap (opcode : Word)
  | trapInstruction (trapNum : Byte)
  | breakpoint (bpNum : Byte)
  | illegalInstruction (opcode : Word)

/-- What a CPU does next. -/
inductive CpuAction (γ : Type)
  | read (address : Long) (width : AccessWidth) (next : Long → γ)
  | write (address : Long) (width : AccessWidth) (value : Long) (next : γ)
  | retire (next : γ)
  | exit (reason : GuestExit) (next : γ)

structure GuestCpu (γ : Type) where
  action : γ → CpuAction γ
  regs : γ → Regs
  intMask : γ → Long
  setIrq : γ → Byte → γ
  /-- Take the exception behind an exit; its accesses are the next actions. -/
  takeException : γ → GuestExit → γ

/-- The low bits that an access of this width returns. -/
def AccessWidth.truncate (width : AccessWidth) (value : Long) : Long :=
  match width with
  | .w8 => value &&& 0xFF
  | .w16 => value &&& 0xFFFF
  | .w32 => value

/-- The name of the first register that differs. -/
def firstRegDiff (expected actual : Regs) : String :=
  match (List.finRange 8).find? fun i => expected.d[i] ≠ actual.d[i] with
  | some i => "D" ++ toString i.val
  | none =>
    match (List.finRange 8).find? fun i => expected.a[i] ≠ actual.a[i] with
    | some i => "A" ++ toString i.val
    | none =>
      if expected.pc ≠ actual.pc then "PC" else if expected.sr ≠ actual.sr then "SR" else "none"

/-! ## What is observed -/

/-- An access of the CPU to an `Io` page, at the ordinal of the player. -/
inductive IoAccess
  | read (ordinal : Nat) (address : Long) (width : AccessWidth) (value : Long)
  | write (ordinal : Nat) (address : Long) (width : AccessWidth) (value : Long)

/-- A comparison of the run with the log. -/
inductive Observation
  /-- An I/O access, and the event that was next in the log. -/
  | access (a : IoAccess) (event : Option Event)
  /-- An event drained, the registers then, and RAM's digests when it was taken. -/
  | drained (event : Event) (regs : Regs) (digests : Quad × Quad)

/-- The event an observation is about. -/
def Observation.event : Observation → Option Event
  | access _ event => event
  | drained event _ _ => some event

/-- The run did what the event says. -/
def Observation.Matches : Observation → Prop
  | access (.read ordinal address width value) event =>
    ∃ logged, event = some (.ioRead ordinal address width.bytes logged) ∧
      value = width.truncate logged
  | access (.write ordinal address width value) event =>
    event = some (.ioWrite ordinal address width.bytes value)
  | drained (.checkpoint _ expected) regs _ => regs = expected
  | drained (.finish _ _ expected chip fast) regs digests =>
    regs = expected ∧ digests = (chip, fast)
  | drained _ _ _ => True

/-- What an event does to RAM. -/
def Event.applyTo (r : GuestRam) : Event → GuestRam
  | .deviceWrite _ addr bytes => Player.applyDeviceWrite r addr bytes
  | _ => r

/-- The events a drain takes at this ordinal, each with the RAM it finds. -/
def drainedEvents (ordinal : Nat) (r : GuestRam) : List Event → List (Event × GuestRam)
  | [] => []
  | ev :: evs =>
    -- A record of an I/O access ends the drain, even one whose ordinal has passed.
    if ordinal < ev.ordinal ∨ ev.isIo then []
    else (ev, r) :: drainedEvents ordinal (ev.applyTo r) evs

/-! ## The run -/

inductive ReplayOutcome
  | wedged (why : Divergence)
  | replayClean (ordinals ioReads ioWrites iplEvents deviceWrites transitions checkpoints : Nat)

structure ReplayRun (γ δ ρ π : Type) where
  cpu : γ
  player : Player
  bus : MachineBus δ ρ π
  endInfo : Option (Nat × Nat × Regs)
  /-- The PC that divergences are reported with; nothing sets it in a replay. -/
  lastPc : Long
  outcome : Option ReplayOutcome
  trace : List Observation

namespace ReplayRun

variable {γ δ ρ π : Type}

def start (cpu : γ) (bus : MachineBus δ ρ π) (table : PageTable) (log : List Event)
    (lastPc : Long) : ReplayRun γ δ ρ π where
  cpu := cpu
  player := .atStart table log
  bus := bus
  endInfo := none
  lastPc := lastPc
  outcome := none
  trace := []

def recordDivergence (s : ReplayRun γ δ ρ π) (d : Divergence) : ReplayRun γ δ ρ π :=
  { s with player := s.player.recordDivergence d }

/-- Note an access, when it was to an `Io` page. -/
def observe (s : ReplayRun γ δ ρ π) (address : Long) (a : IoAccess) : List Observation :=
  if s.player.classify address = .io then s.trace ++ [.access a s.player.log.head?] else s.trace

/-- The next ordinal: what is drained there, and the interrupt level it sets. -/
def drain (cpu : GuestCpu γ) (s : ReplayRun γ δ ρ π) : DrainedEffects × ReplayRun γ δ ρ π :=
  let player := s.player.advanceOrdinal
  let (drained, ram, effects) := player.drainSideEffects s.bus.ram
  -- The interrupt level reaches the CPU before its registers are compared.
  let state := effects.ipl.elim s.cpu (cpu.setIrq s.cpu)
  let taken := (drainedEvents player.ordinal s.bus.ram player.log).map fun (ev, r) =>
    Observation.drained ev (cpu.regs state) (ramDigests r)
  (effects,
    { s with cpu := state, player := drained, bus := s.bus.setRam ram, trace := s.trace ++ taken })

def compareCheckpoint (cpu : GuestCpu γ) (s : ReplayRun γ δ ρ π) :
    Option (Nat × Regs) → ReplayRun γ δ ρ π
  | some (ordinal, expected) =>
    if expected ≠ cpu.regs s.cpu then
      s.recordDivergence (.checkpointMismatch ordinal expected (cpu.regs s.cpu)
        (firstRegDiff expected (cpu.regs s.cpu)))
    else s
  | none => s

/-- The final registers are compared; the verdict is whether anything diverged. -/
def cleanHalt (cpu : GuestCpu γ) (s : ReplayRun γ δ ρ π) : ReplayRun γ δ ρ π :=
  let s := match s.endInfo with
    | some (_, _, expected) =>
      if expected ≠ cpu.regs s.cpu then
        s.recordDivergence (.finalStateMismatch expected (cpu.regs s.cpu)
          (firstRegDiff expected (cpu.regs s.cpu)))
      else s
    | none => s
  { s with outcome := some (match s.player.divergence with
    | some d => .wedged d
    | none => .replayClean s.player.ordinal s.player.ioReadEventsConsumed
        s.player.ioWriteEventsConsumed s.player.iplEventsApplied s.player.deviceWritesApplied
        s.player.transitionsApplied s.player.checkpointsCompared) }

/-- After a drain: an `End` record ends the run, and so does a divergence. -/
def afterDrain (cpu : GuestCpu γ) (effects : DrainedEffects) (s : ReplayRun γ δ ρ π) :
    Loop.Outcome (ReplayRun γ δ ρ π) :=
  match effects.finish with
  | some info => .done ({ s with endInfo := some info }.cleanHalt cpu)
  | none =>
    match s.player.divergence with
    | some d => .done { s with outcome := some (.wedged d) }
    | none => .again s

/-- The per-instruction hook. -/
def hook (cpu : GuestCpu γ) (s : ReplayRun γ δ ρ π) : Loop.Outcome (ReplayRun γ δ ρ π) :=
  let (effects, s) := s.drain cpu
  (s.compareCheckpoint cpu effects.checkpoint).afterDrain cpu effects

/-- The CPU is stopped: with every interrupt masked the run ends, otherwise time passes. -/
def stopped (cpu : GuestCpu γ) (s : ReplayRun γ δ ρ π) : Loop.Outcome (ReplayRun γ δ ρ π) :=
  if cpu.intMask s.cpu &&& 0x0700 = 0x0700 then .done (s.cleanHalt cpu)
  else
    let (effects, s) := s.drain cpu
    s.afterDrain cpu effects

variable [BlockDevice δ] [PacketBackend ρ] [PciBackend π]

def pass (cpu : GuestCpu γ) (s : ReplayRun γ δ ρ π) : Loop.Outcome (ReplayRun γ δ ρ π) :=
  match cpu.action s.cpu with
  | .read address width next =>
    let (value, player, bus) := replayRead s.player s.bus address width s.lastPc
    let value := width.truncate value
    -- The CPU gets the logged value cut to the width it asked for.
    .again { s with
      cpu := next value, player, bus,
      trace := s.observe address (.read s.player.ordinal address width value) }
  | .write address width value next =>
    let (player, bus) := replayWrite s.player s.bus address width value s.lastPc
    .again { s with
      cpu := next, player, bus,
      trace := s.observe address (.write s.player.ordinal address width value) }
  | .retire next => { s with cpu := next }.hook cpu
  | .exit .budgetExhausted next | .exit .boundaryRequested next => .again { s with cpu := next }
  | .exit .stopped next => { s with cpu := next }.stopped cpu
  | .exit reason next => .again { s with cpu := cpu.takeException next reason }

end ReplayRun

end M68kMachine
