import M68kMachine.Hosted.PageTable
import M68kMachine.Machine.Runs

/-!
# The replay log and its player

`replay.rs` and the replaying half of `bus.rs`: the events of a log, the player that consumes them
in order, and the accesses of the CPU while a player is attached.

* `Player.drainSideEffects` — what is applied after an instruction
* `Player.expectIoRead`, `Player.expectIoWrite` — one access against the next event
* `replayRead`, `replayWrite` — an access by the type of its page
-/

namespace M68kMachine

/-! ## Events -/

/-- The registers a checkpoint compares. -/
structure Regs where
  d : Vector Long 8
  a : Vector Long 8
  pc : Long
  sr : Word
  deriving DecidableEq

inductive Event
  | ioRead (ordinal : Nat) (addr : Long) (width : Nat) (value : Long)
  | ioWrite (ordinal : Nat) (addr : Long) (width : Nat) (value : Long)
  | iplChange (ordinal : Nat) (level : Byte)
  | deviceWrite (ordinal : Nat) (addr : Long) (bytes : List Byte)
  | classificationTransition (ordinal : Nat) (table : PageTable)
  | checkpoint (ordinal : Nat) (regs : Regs)
  | finish (ordinal totalInstructions : Nat) (regs : Regs) (chipRamDigest fastRamDigest : Quad)

def Event.ordinal : Event → Nat
  | ioRead ordinal _ _ _ | ioWrite ordinal _ _ _ | iplChange ordinal _ | deviceWrite ordinal _ _
  | classificationTransition ordinal _ | checkpoint ordinal _ | finish ordinal _ _ _ _ => ordinal

def Event.isIo : Event → Bool
  | ioRead .. | ioWrite .. => true
  | _ => false

/-- FNV-1a. -/
def fnv1a64 (bytes : List Byte) : Quad :=
  bytes.foldl (fun hash b => (hash ^^^ b.setWidth 64) * 0x100000001b3) 0xcbf29ce484222325

/-- The digests of chip RAM and of the whole window of fast RAM, zero where there is none. -/
def ramDigests (r : GuestRam) : Quad × Quad :=
  let chip := ((GuestMemory.ramSlice r 0 (BitVec.ofNat 32 chipRamSize)).map fnv1a64).getD 0
  let fast := match r.fastWindow with
    | some (base, len) => ((GuestMemory.ramSlice r base len).map fnv1a64).getD 0
    | none => 0
  (chip, fast)

inductive RamDigestRegion
  | chip
  | fast
  deriving DecidableEq

/-- Why a replay diverged. -/
inductive Divergence
  | ioReadMismatch (expectedOrdinal actualOrdinal : Nat) (expectedAddr actualAddr : Long)
      (expectedWidth actualWidth : Nat) (pc : Long)
  | ioWriteMismatch (expectedOrdinal actualOrdinal : Nat) (expectedAddr actualAddr : Long)
      (expectedWidth actualWidth : Nat) (expectedValue actualValue : Long) (pc : Long)
  | unexpectedEof (ordinal : Nat) (addr pc : Long)
  | expectedIoEvent (ordinal : Nat) (addr pc : Long)
  | checkpointMismatch (ordinal : Nat) (expected actual : Regs) (firstDiff : String)
  | finalStateMismatch (expected actual : Regs) (firstDiff : String)
  | ramAccessOutOfBounds (ordinal : Nat) (addr : Long) (width : Nat) (pc : Long)
  | ramDigestMismatch (region : RamDigestRegion) (expected actual : Quad)
  deriving DecidableEq

/-! ## The player -/

structure Player where
  log : List Event
  table : PageTable
  ordinal : Nat
  divergence : Option Divergence
  ioReadEventsConsumed : Nat
  ioWriteEventsConsumed : Nat
  iplEventsApplied : Nat
  deviceWritesApplied : Nat
  transitionsApplied : Nat
  checkpointsCompared : Nat

structure DrainedEffects where
  deviceWritesApplied : Nat
  transitionsApplied : Nat
  ipl : Option Byte
  checkpoint : Option (Nat × Regs)
  finish : Option (Nat × Nat × Regs)

def DrainedEffects.none : DrainedEffects := ⟨0, 0, Option.none, Option.none, Option.none⟩

namespace Player

/-- A player at the start of a log. -/
def atStart (table : PageTable) (log : List Event) : Player where
  log := log
  table := table
  ordinal := 0
  divergence := Option.none
  ioReadEventsConsumed := 0
  ioWriteEventsConsumed := 0
  iplEventsApplied := 0
  deviceWritesApplied := 0
  transitionsApplied := 0
  checkpointsCompared := 0

/-- Only the first divergence is kept. -/
def recordDivergence (p : Player) (d : Divergence) : Player :=
  { p with divergence := p.divergence <|> some d }

def classify (p : Player) (addr : Long) : PageType := p.table (pageOf addr)

def advanceOrdinal (p : Player) : Player := { p with ordinal := p.ordinal + 1 }

/-- Compare the digests of an `End` record, chip RAM first. -/
def compareDigests (p : Player) (r : GuestRam) (expectedChip expectedFast : Quad) : Player :=
  let (actualChip, actualFast) := ramDigests r
  if expectedChip ≠ actualChip then
    p.recordDivergence (.ramDigestMismatch .chip expectedChip actualChip)
  else if expectedFast ≠ actualFast then
    p.recordDivergence (.ramDigestMismatch .fast expectedFast actualFast)
  else p

/-- Store the bytes of a `DeviceWrite`, when they lie in RAM. -/
def applyDeviceWrite (r : GuestRam) (addr : Long) (bytes : List Byte) : GuestRam :=
  match GuestMemory.ramSliceMut r addr (BitVec.ofNat 32 bytes.length) with
  | some (_, put) => put bytes
  | Option.none => r

/-- The loop of `drain_side_effects`, up to a later ordinal or an I/O event. -/
def drainFrom (p : Player) (r : GuestRam) (out : DrainedEffects) :
    List Event → Player × GuestRam × DrainedEffects
  | [] => ({ p with log := [] }, r, out)
  | ev :: evs =>
    if p.ordinal < ev.ordinal then ({ p with log := ev :: evs }, r, out)
    else match ev with
    | .deviceWrite _ addr bytes =>
      { p with deviceWritesApplied := p.deviceWritesApplied + 1 }.drainFrom
        (applyDeviceWrite r addr bytes)
        { out with deviceWritesApplied := out.deviceWritesApplied + 1 } evs
    | .classificationTransition _ table =>
      { p with table, transitionsApplied := p.transitionsApplied + 1 }.drainFrom r
        { out with transitionsApplied := out.transitionsApplied + 1 } evs
    | .iplChange _ level =>
      { p with iplEventsApplied := p.iplEventsApplied + 1 }.drainFrom r
        { out with ipl := some level } evs
    | .checkpoint ordinal regs =>
      { p with checkpointsCompared := p.checkpointsCompared + 1 }.drainFrom r
        { out with checkpoint := some (ordinal, regs) } evs
    | .finish ordinal total regs chip fast =>
      (p.compareDigests r chip fast).drainFrom r
        { out with finish := some (ordinal, total, regs) } evs
    | .ioRead .. | .ioWrite .. => ({ p with log := ev :: evs }, r, out)

/-- Apply what the log has up to the current ordinal. -/
def drainSideEffects (p : Player) (r : GuestRam) : Player × GuestRam × DrainedEffects :=
  p.drainFrom r .none p.log

/-- Consume the next event as a read of `width` bytes at `addr`; zero after a divergence. -/
def expectIoRead (p : Player) (addr : Long) (width : Nat) (pc : Long) : Long × Player :=
  match p.log with
  | [] => (0, p.recordDivergence (.unexpectedEof p.ordinal addr pc))
  | .ioRead ordinal eaddr ewidth value :: evs =>
    let p := { p with log := evs, ioReadEventsConsumed := p.ioReadEventsConsumed + 1 }
    if ordinal = p.ordinal ∧ eaddr = addr ∧ ewidth = width then (value, p)
    else
      (0, p.recordDivergence
        (.ioReadMismatch ordinal p.ordinal eaddr addr ewidth width pc))
  | other :: _ => (0, p.recordDivergence (.expectedIoEvent other.ordinal addr pc))

/-- Consume the next event as a write. -/
def expectIoWrite (p : Player) (addr : Long) (width : Nat) (value pc : Long) : Player :=
  match p.log with
  | [] => p.recordDivergence (.unexpectedEof p.ordinal addr pc)
  | .ioWrite ordinal eaddr ewidth evalue :: evs =>
    let p := { p with log := evs, ioWriteEventsConsumed := p.ioWriteEventsConsumed + 1 }
    if ordinal = p.ordinal ∧ eaddr = addr ∧ ewidth = width ∧ evalue = value then p
    else
      p.recordDivergence
        (.ioWriteMismatch ordinal p.ordinal eaddr addr ewidth width evalue value pc)
  | other :: _ => p.recordDivergence (.expectedIoEvent other.ordinal addr pc)

/-- The bytes at `addr` as one number. -/
def readRam (p : Player) (r : GuestRam) (addr : Long) (width : Nat) (pc : Long) :
    Long × Player :=
  match GuestMemory.ramSlice r addr (BitVec.ofNat 32 width) with
  | some bytes => (bytes.foldl (fun value b => (value <<< 8) ||| b.setWidth 32) 0, p)
  | Option.none => (0, p.recordDivergence (.ramAccessOutOfBounds p.ordinal addr width pc))

/-- The last `width` bytes of `value`, most significant first. -/
def beBytes (width : Nat) (value : Long) : List Byte :=
  [(value >>> 24).setWidth 8, (value >>> 16).setWidth 8, (value >>> 8).setWidth 8,
    value.setWidth 8].drop (4 - width)

def writeRam (p : Player) (r : GuestRam) (addr : Long) (width : Nat) (value pc : Long) :
    GuestRam × Player :=
  match GuestMemory.ramSliceMut r addr (BitVec.ofNat 32 width) with
  | some (_, put) => (put (beBytes width value), p)
  | Option.none => (r, p.recordDivergence (.ramAccessOutOfBounds p.ordinal addr width pc))

end Player

/-! ## Accesses while a player is attached -/

variable {δ ρ π : Type}

def MachineBus.ram (b : MachineBus δ ρ π) : GuestRam := b.devices.ram

def MachineBus.setRam (b : MachineBus δ ρ π) (r : GuestRam) : MachineBus δ ρ π :=
  b.mapDevices fun d => { d with ram := r }

/-- Chip RAM and the AUTOCONFIG window take writes even where their page is `Io`. -/
def replayWriteMustApply (address : Long) : Bool :=
  MachineBus.inRange chipRamBase chipRamEnd address ||
    MachineBus.inRange Autoconfig.autoconfigBase Autoconfig.autoconfigEnd address

variable [BlockDevice δ] [PacketBackend ρ] [PciBackend π]

def readWidth (b : MachineBus δ ρ π) (address : Long) : AccessWidth → Long × MachineBus δ ρ π
  | .w8 => b.access (.readByte address)
  | .w16 => b.access (.readWord address)
  | .w32 => b.access (.readLong address)

def writeWidth (b : MachineBus δ ρ π) (address : Long) (value : Long) :
    AccessWidth → MachineBus δ ρ π
  | .w8 => b.writeByte address (value.setWidth 8)
  | .w16 => b.writeWord address (value.setWidth 16)
  | .w32 => b.writeLong address value

def openBusValue : AccessWidth → Long
  | .w8 => 0xFF
  | .w16 => 0xFFFF
  | .w32 => 0xFFFFFFFF

def replayRead (p : Player) (b : MachineBus δ ρ π) (address : Long) (width : AccessWidth)
    (pc : Long) : Long × Player × MachineBus δ ρ π :=
  match p.classify address with
  | .rom => ((readWidth b address width).1, p, (readWidth b address width).2)
  | .openBus => (openBusValue width, p, b)
  | .ram =>
    let (value, p) := p.readRam b.ram address width.bytes pc
    (value, p, b)
  | .io =>
    let (value, p) := p.expectIoRead address width.bytes pc
    (value, p, b)

def replayWrite (p : Player) (b : MachineBus δ ρ π) (address : Long) (width : AccessWidth)
    (value pc : Long) : Player × MachineBus δ ρ π :=
  match p.classify address with
  | .rom | .openBus => (p, b)
  | .ram =>
    let (r, p) := p.writeRam b.ram address width.bytes value pc
    (p, b.setRam r)
  | .io =>
    (p.expectIoWrite address width.bytes value pc,
      if replayWriteMustApply address then writeWidth b address value width else b)

end M68kMachine
