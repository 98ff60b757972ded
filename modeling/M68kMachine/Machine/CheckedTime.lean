import M68kMachine.Library.Checked
import M68kMachine.Machine.Runs

/-!
# The clock, with overflow checks on

The functions that advance time, written with arithmetic that stops at an overflow, each beside the
function it checks. What saturates or wraps in the source does so here too, and a cast keeps the low
bits.

* `Cia.tickChecked`, `Cia.clocksUntilEventChecked`
* `BusDevices.tickExactChecked`, `MachineBus.flushChecked`, `MachineBus.tickChecked`
* `MachineBus.runChecked` — a whole run, given up where time overflows
-/

namespace M68kMachine

/-- What a `u32` and a `u64` hold lies below these. -/
abbrev u32Limit : Nat := 0x100000000
abbrev u64Limit : Nat := 0x10000000000000000

namespace Cia

def stepTimerChecked (count latch : Word) : Option (Bool × Word) :=
  if count = 0 then some (true, latch)
  else do
    let left ← Checked.sub count.toNat 1
    some (false, BitVec.ofNat 16 left)

def tickTimerAChecked (c : Cia) : Option (Bool × Cia) :=
  if c.timerACounts then do
    let (underflow, count) ← stepTimerChecked c.timerA c.latchA
    let c := { c with timerA := count }
    some (underflow, if underflow then c.underflowA else c)
  else some (false, c)

def tickTimerBChecked (c : Cia) (taUnderflow : Bool) : Option Cia :=
  if c.timerBCounts taUnderflow then do
    let (underflow, count) ← stepTimerChecked c.timerB c.latchB
    let c := { c with timerB := count }
    some (if underflow then c.underflowB else c)
  else some c

/-- The head and the length of the queue are moved by one. -/
def nextKeycodeChecked (c : Cia) : Option (Option Byte × Cia) :=
  if c.keyboardQueue.len = 0 then some (none, c)
  else do
    let _ ← Checked.add u32Limit c.keyboardQueue.head 1
    let _ ← Checked.sub c.keyboardQueue.len 1
    some c.nextKeycode

def landKeycodeChecked (c : Cia) : Option Cia := do
  match ← c.nextKeycodeChecked with
  | (some raw, c) => some ({ c with sdr := encodeKeyboardByte raw, kbdLoaded := true }.raise Icr.sp)
  | (none, c) => some c

def tickKeyboardChecked (c : Cia) : Option Cia :=
  if c.cra &&& craSpmode ≠ 0 then some c
  else
    let delay :=
      if c.kbdDelay = 0 ∧ c.kbdLoaded = false ∧ 0 < c.keyboardQueue.len then keyboardHandshakeTicks
      else c.kbdDelay
    if 0 < delay then do
      let left ← Checked.sub delay 1
      let c := { c with kbdDelay := left }
      if left = 0 then c.landKeycodeChecked else some c
    else some { c with kbdDelay := delay }

def tickOneEclockChecked (c : Cia) : Option Cia := do
  let (taUnderflow, c) ← c.tickTimerAChecked
  let c ← c.tickTimerBChecked taUnderflow
  if c.id = .a then c.tickKeyboardChecked else some c

def tickEclockChecked (c : Cia) (ticks : Nat) : Option Cia :=
  if c.isIdle then some c else Checked.iterate tickOneEclockChecked ticks c

/-- The sum is a `u32`. -/
def tickChecked (c : Cia) (cpuClocks cpuClocksPerEclock : Nat) : Option (Bool × Cia) := do
  let total ← Checked.add u32Limit c.carry cpuClocks
  let eclocks ← Checked.div total cpuClocksPerEclock
  let carry ← Checked.rem total cpuClocksPerEclock
  let c := { c with carry := carry }
  let c ← if 0 < eclocks then c.tickEclockChecked eclocks else some c
  some (c.irqPending, c)

/-- A running timer with `count` ticks left is due in `count + 1`. -/
def dueChecked (running : Bool) (count : Word) : Option (Option Nat) :=
  if running then do
    let due ← Checked.add u32Limit count.toNat 1
    some (some due)
  else some none

/-- The product is a `u64`; the carry is taken off with saturation. -/
def clocksUntilEventChecked (c : Cia) (cpuClocksPerEclock : Nat) : Option (Option Nat) := do
  let timerA ← dueChecked c.timerACounts c.timerA
  let timerB ← dueChecked (c.crb &&& crbStart ≠ 0 ∧ c.crbInmode = 0) c.timerB
  match nearest [timerA, timerB, c.keyboardEvent] with
  | none => some none
  | some eclocks => do
    let total ← Checked.mul u64Limit eclocks cpuClocksPerEclock
    some (some ((total - c.carry) % u32Limit))

end Cia

namespace Chipset

/-- The sums are `u64`s, and the beam's own counter saturates. -/
def tickChecked (c : Chipset) (cpuClocks cpuClocksPerColourClock : Nat) :
    Option (BeamAdvance × Chipset) := do
  let ccpc := max cpuClocksPerColourClock 1
  let total ← Checked.add u64Limit c.carry cpuClocks
  let colourClocks ← Checked.div total ccpc
  let carry ← Checked.rem total ccpc
  let linesBefore ← Checked.div c.totalColourClocks palColourClocksPerLine
  let after : Chipset :=
    { c with
      carry := carry
      totalColourClocks := min (c.totalColourClocks + colourClocks) u64Max }
  let linesAfter ← Checked.div after.totalColourClocks palColourClocksPerLine
  let linesStarted ← Checked.sub linesAfter linesBefore
  let framesBefore ← Checked.div linesBefore c.linesPerFrame
  let framesAfter ← Checked.div linesAfter c.linesPerFrame
  let framesWrapped ← Checked.sub framesAfter framesBefore
  let beam : BeamAdvance := ⟨linesStarted % u32Limit, framesWrapped % u32Limit⟩
  some (beam, if 0 < beam.framesWrapped then after.wrapFrames beam.framesWrapped else after)

def clocksUntilLineBoundaryChecked (c : Chipset) (cpuClocksPerColourClock : Nat) : Option Nat := do
  let needed ← Checked.sub palColourClocksPerLine c.hpos
  let product ← Checked.mul u64Limit needed cpuClocksPerColourClock
  let left ← Checked.sub product c.carry
  some (left % u32Limit)

end Chipset

variable {δ ρ π : Type}

namespace BusDevices

variable [BlockDevice δ] [PacketBackend ρ] [PciBackend π]

/-- `tick_exact`: the beam, the counters it drives, the engines and the two CIAs. -/
def tickExactChecked (d : BusDevices δ ρ π) (cpuClocks : Nat) : Option (BusDevices δ ρ π) := do
  let (beam, chipset) ← d.chipset.tickChecked cpuClocks cpuClocksPerColourClock
  let d := { d with chipset := chipset }
  let d := (d.tickTod beam).tickGraphics beam
  let d := if 0 < beam.linesStarted then d.tickEngines else d
  let (irq, ciaA) ← d.ciaA.tickChecked cpuClocks cpuClocksPerEclock
  let d := { d with ciaA := ciaA }.raisePorts irq
  let (irq, ciaB) ← d.ciaB.tickChecked cpuClocks cpuClocksPerEclock
  some ({ d with ciaB := ciaB }.raiseExter irq)

end BusDevices

namespace MachineBus

def deadlineChecked (d : BusDevices δ ρ π) : Option Nat := do
  let line ← d.chipset.clocksUntilLineBoundaryChecked cpuClocksPerColourClock
  let ciaA ← d.ciaA.clocksUntilEventChecked cpuClocksPerEclock
  let ciaB ← d.ciaB.clocksUntilEventChecked cpuClocksPerEclock
  let orA := ciaA.elim line (min line)
  some (max (ciaB.elim orA (min orA)) 1)

def recomputeNextEventChecked (b : MachineBus δ ρ π) : Option (MachineBus δ ρ π) := do
  let next ← deadlineChecked b.devices
  some { b with nextEventClocks := next }

variable [BlockDevice δ] [PacketBackend ρ] [PciBackend π]

def flushChecked (b : MachineBus δ ρ π) : Option (MachineBus δ ρ π) :=
  if b.pendingClocks = 0 then some b
  else do
    let d ← b.devices.tickExactChecked b.pendingClocks
    { b with devices := d, pendingClocks := 0 }.recomputeNextEventChecked

def tickChecked (b : MachineBus δ ρ π) (cpuClocks : Long) : Option (MachineBus δ ρ π) :=
  let b := { b with pendingClocks := min (b.pendingClocks + cpuClocks.toNat) u32Max }
  if b.nextEventClocks ≤ b.pendingClocks then b.flushChecked else some b

/-- Anything but a tick flushes at most what has accumulated, and computes a deadline. -/
def stepChecked (b : MachineBus δ ρ π) : BusOp δ ρ π → Option (MachineBus δ ρ π)
  | .guest (.tick cpuClocks) => b.tickChecked cpuClocks
  | op => do
    let _ ← b.flushChecked
    let _ ← deadlineChecked (b.step op).devices
    some (b.step op)

/-- A run, given up at the first step whose time overflows. -/
def runChecked (b : MachineBus δ ρ π) (ops : List (BusOp δ ρ π)) : Option (MachineBus δ ρ π) :=
  ops.foldlM stepChecked b

end MachineBus

end M68kMachine
