import M68kMachine.Core.Registers
import M68kMachine.Library.RingBuffer

/-!
# The two 8520 CIAs

The timers, the time-of-day clock, the interrupt control register and the keyboard serial port of
`cia.rs`, and the floppy status pins between the two chips. Timers and keyboard advance on the
E-clock (`tick`), the time of day on what the bus wires to it (`todTick`).

`clocksUntilEvent` is how far ahead the next underflow or handshake step lies; the bus uses it to
put off ticking.
-/

namespace M68kMachine

namespace Cia

/-! ### Register indices (`mod reg`) -/

namespace Reg

@[match_pattern] abbrev pra : Nat := 0x0
@[match_pattern] abbrev prb : Nat := 0x1
@[match_pattern] abbrev ddra : Nat := 0x2
@[match_pattern] abbrev ddrb : Nat := 0x3
@[match_pattern] abbrev talo : Nat := 0x4
@[match_pattern] abbrev tahi : Nat := 0x5
@[match_pattern] abbrev tblo : Nat := 0x6
@[match_pattern] abbrev tbhi : Nat := 0x7
@[match_pattern] abbrev todlo : Nat := 0x8
@[match_pattern] abbrev todmid : Nat := 0x9
@[match_pattern] abbrev todhi : Nat := 0xA
@[match_pattern] abbrev sdr : Nat := 0xC
@[match_pattern] abbrev icr : Nat := 0xD
@[match_pattern] abbrev cra : Nat := 0xE
@[match_pattern] abbrev crb : Nat := 0xF

end Reg

/-! ### `ICR` bits (`mod icr`) -/

namespace Icr

abbrev ta : Nat := 0
abbrev tb : Nat := 1
abbrev alrm : Nat := 2
abbrev sp : Nat := 3
abbrev ir : Nat := 7
abbrev setclr : Nat := 7

end Icr

abbrev craStart : Byte := 0x01
abbrev craRunmode : Byte := 0x08
abbrev craLoad : Byte := 0x10
abbrev craInmode : Byte := 0x20
abbrev craSpmode : Byte := 0x40
abbrev crbStart : Byte := 0x01
abbrev crbRunmode : Byte := 0x08
abbrev crbLoad : Byte := 0x10
abbrev crbInmodeMask : Byte := 0x60
abbrev crbInmodeShift : Nat := 5
abbrev crbAlarm : Byte := 0x80
abbrev eClockHz : Nat := 709379
abbrev keyboardHandshakeTicks : Nat := eClockHz / 1000
abbrev keyboardQueueLen : Nat := 16

/-- Which of the two chips an instance is. -/
inductive CiaId
  | a
  | b
  deriving DecidableEq

end Cia

open Cia

/-- One 8520. -/
structure Cia where
  id : CiaId
  pra : Byte
  prb : Byte
  ddra : Byte
  ddrb : Byte
  /-- External pin levels of the bits `ddra` configures as inputs. -/
  praInput : Byte
  prbInput : Byte
  timerA : Word
  timerB : Word
  latchA : Word
  latchB : Word
  cra : Byte
  crb : Byte
  tod : Long
  todAlarm : Long
  todLatched : Option Long
  todStopped : Bool
  /-- Edge detector of the alarm comparator. -/
  todMatching : Bool
  icrMask : Byte
  icrData : Byte
  sdr : Byte
  keyboardQueue : RingBuffer Byte keyboardQueueLen
  /-- E-clocks until the next code lands in `sdr`, 0 when none is on its way. -/
  kbdDelay : Nat
  kbdLoaded : Bool
  /-- CPU clocks that do not make up an E-clock yet. -/
  carry : Nat

namespace Cia

def new (id : CiaId) : Cia where
  id := id
  pra := if id = .a then 0x01 else 0x00
  prb := 0
  ddra := 0
  ddrb := 0
  praInput := 0xFF
  prbInput := 0xFF
  timerA := 0xFFFF
  timerB := 0xFFFF
  latchA := 0xFFFF
  latchB := 0xFFFF
  cra := 0
  crb := 0
  tod := 0
  todAlarm := 0
  todLatched := none
  todStopped := false
  todMatching := true
  icrMask := 0
  icrData := 0
  sdr := 0
  keyboardQueue := RingBuffer.new (by decide)
  kbdDelay := 0
  kbdLoaded := false
  carry := 0

/-- The ROM overlay line, `PRA` bit 0 of CIA-A. -/
def ovlAsserted (c : Cia) : Bool := c.id = .a && c.pra &&& 0x01 ≠ 0

/-- Raise an `ICR` source. -/
def raise (c : Cia) (i : Nat) : Cia := { c with icrData := c.icrData ||| ((1 : Byte) <<< i) }

def irqPending (c : Cia) : Bool := c.icrData &&& c.icrMask ≠ 0

/-! ## The keyboard queue -/

/-- A full queue drops the code. -/
def queueKeycode (c : Cia) (raw : Byte) : Cia :=
  { c with keyboardQueue := (c.keyboardQueue.push raw).2 }

def nextKeycode (c : Cia) : Option Byte × Cia :=
  (c.keyboardQueue.pop.1, { c with keyboardQueue := c.keyboardQueue.pop.2 })

/-- The code as the keyboard transmits it: rotated left, then inverted. -/
def encodeKeyboardByte (raw : Byte) : Byte := ~~~(raw.rotateLeft 1)

/-! ## The time-of-day clock -/

/-- `ALRM` is latched on the transition into equality only. -/
def checkTodAlarm (c : Cia) : Cia :=
  let equal : Bool := c.tod = c.todAlarm
  { (if equal && !c.todMatching then c.raise Icr.alrm else c) with todMatching := equal }

def todTick (c : Cia) : Cia :=
  if c.todStopped then c
  else checkTodAlarm { c with tod := (c.tod + 1) &&& 0x00FFFFFF }

/-- Reading `TODHI` latches the whole counter; reading `TODLO` releases it. -/
def readTod (c : Cia) (reg : Nat) : Byte × Cia :=
  let c := if reg = Reg.todhi ∧ c.todLatched = none then { c with todLatched := some c.tod } else c
  let value := c.todLatched.getD c.tod
  let byte : Byte :=
    match reg with
    | Reg.todlo => value.setWidth 8
    | Reg.todmid => (value >>> 8).setWidth 8
    | Reg.todhi => (value >>> 16).setWidth 8
    | _ => 0
  (byte, if reg = Reg.todlo then { c with todLatched := none } else c)

/-- Replace one byte of a 24-bit time. -/
def setTodByte (time : Long) (reg : Nat) (value : Byte) : Long :=
  match reg with
  | Reg.todlo => (time &&& 0xFFFF00) ||| value.setWidth 32
  | Reg.todmid => (time &&& 0xFF00FF) ||| (value.setWidth 32 <<< 8)
  | Reg.todhi => (time &&& 0x00FFFF) ||| (value.setWidth 32 <<< 16)
  | _ => time

/-- `CRB` bit 7 sends the byte to the alarm. The high byte stops the counter, the low one starts
it. -/
def writeTod (c : Cia) (reg : Nat) (value : Byte) : Cia :=
  checkTodAlarm
    (if c.crb &&& crbAlarm ≠ 0 then { c with todAlarm := setTodByte c.todAlarm reg value }
    else
      { c with
        tod := setTodByte c.tod reg value
        todStopped :=
          match reg with
          | Reg.todhi => true
          | Reg.todlo => false
          | _ => c.todStopped })

/-! ## The register file -/

def readIcr (c : Cia) : Byte × Cia :=
  (if c.icrData &&& c.icrMask ≠ 0 then c.icrData ||| ((1 : Byte) <<< Icr.ir) else c.icrData,
    { c with icrData := 0 })

def read (c : Cia) (reg : Nat) : Byte × Cia :=
  match reg % 16 with
  | Reg.pra => ((c.pra &&& c.ddra) ||| (c.praInput &&& ~~~c.ddra), c)
  | Reg.prb => ((c.prb &&& c.ddrb) ||| (c.prbInput &&& ~~~c.ddrb), c)
  | Reg.ddra => (c.ddra, c)
  | Reg.ddrb => (c.ddrb, c)
  | Reg.talo => (c.timerA.setWidth 8, c)
  | Reg.tahi => ((c.timerA >>> 8).setWidth 8, c)
  | Reg.tblo => (c.timerB.setWidth 8, c)
  | Reg.tbhi => ((c.timerB >>> 8).setWidth 8, c)
  -- the interrupt handler reads `SDR` first, which lets the next code in
  | Reg.sdr => (c.sdr, { c with kbdLoaded := false })
  | Reg.icr => c.readIcr
  | Reg.cra => (c.cra, c)
  | Reg.crb => (c.crb, c)
  | Reg.todlo => c.readTod Reg.todlo
  | Reg.todmid => c.readTod Reg.todmid
  | Reg.todhi => c.readTod Reg.todhi
  | _ => (0xFF, c)

def setLo (latch : Word) (value : Byte) : Word := (latch &&& 0xFF00) ||| value.setWidth 16

def setHi (latch : Word) (value : Byte) : Word :=
  (latch &&& 0x00FF) ||| (value.setWidth 16 <<< 8)

/-- A write to timer-high reloads a stopped counter, and starts it in one-shot mode. -/
def writeTahi (c : Cia) (value : Byte) : Cia :=
  let c := { c with latchA := setHi c.latchA value }
  if c.cra &&& craRunmode ≠ 0 then { c with timerA := c.latchA, cra := c.cra ||| craStart }
  else if c.cra &&& craStart = 0 then { c with timerA := c.latchA }
  else c

def writeTbhi (c : Cia) (value : Byte) : Cia :=
  let c := { c with latchB := setHi c.latchB value }
  if c.crb &&& crbRunmode ≠ 0 then { c with timerB := c.latchB, crb := c.crb ||| crbStart }
  else if c.crb &&& crbStart = 0 then { c with timerB := c.latchB }
  else c

def writeIcr (c : Cia) (value : Byte) : Cia :=
  let bits := value &&& 0x1F
  { c with
    icrMask :=
      if value &&& ((1 : Byte) <<< Icr.setclr) ≠ 0 then c.icrMask ||| bits
      else c.icrMask &&& ~~~bits }

/-- `LOAD` is a strobe: it reloads the counter and is never stored. -/
def writeCra (c : Cia) (value : Byte) : Cia :=
  { c with
    cra := value &&& ~~~craLoad
    timerA := if value &&& craLoad ≠ 0 then c.latchA else c.timerA }

def writeCrb (c : Cia) (value : Byte) : Cia :=
  { c with
    crb := value &&& ~~~crbLoad
    timerB := if value &&& crbLoad ≠ 0 then c.latchB else c.timerB }

def write (c : Cia) (reg : Nat) (value : Byte) : Cia :=
  match reg % 16 with
  | Reg.pra => { c with pra := value }
  | Reg.prb => { c with prb := value }
  | Reg.ddra => { c with ddra := value }
  | Reg.ddrb => { c with ddrb := value }
  | Reg.talo => { c with latchA := setLo c.latchA value }
  | Reg.tahi => c.writeTahi value
  | Reg.tblo => { c with latchB := setLo c.latchB value }
  | Reg.tbhi => c.writeTbhi value
  | Reg.sdr => { c with sdr := value }
  | Reg.icr => c.writeIcr value
  | Reg.cra => c.writeCra value
  | Reg.crb => c.writeCrb value
  | Reg.todlo => c.writeTod Reg.todlo value
  | Reg.todmid => c.writeTod Reg.todmid value
  | Reg.todhi => c.writeTod Reg.todhi value
  | _ => c

/-! ## The E-clock -/

/-- Decrement a counter; at zero it reloads and reports the underflow. -/
def stepTimer (count latch : Word) : Bool × Word :=
  if count = 0 then (true, latch) else (false, count - 1)

/-- Timer A counts the E-clock unless `INMODE` puts it on the `CNT` pin, which nothing drives. -/
def timerACounts (c : Cia) : Bool := c.cra &&& craStart ≠ 0 && c.cra &&& craInmode = 0

/-- `CRB`'s two input-mode bits. -/
def crbInmode (c : Cia) : Byte := (c.crb &&& crbInmodeMask) >>> crbInmodeShift

def timerBCounts (c : Cia) (taUnderflow : Bool) : Bool :=
  c.crb &&& crbStart ≠ 0 &&
    (if c.crbInmode = 0 then true else if c.crbInmode = 1 then false else taUnderflow)

/-- An underflow raises the source and, in one-shot mode, clears `START`. -/
def underflowA (c : Cia) : Cia :=
  let c := c.raise Icr.ta
  if c.cra &&& craRunmode ≠ 0 then { c with cra := c.cra &&& ~~~craStart } else c

def underflowB (c : Cia) : Cia :=
  let c := c.raise Icr.tb
  if c.crb &&& crbRunmode ≠ 0 then { c with crb := c.crb &&& ~~~crbStart } else c

def tickTimerA (c : Cia) : Bool × Cia :=
  if c.timerACounts then
    let (underflow, count) := stepTimer c.timerA c.latchA
    let c := { c with timerA := count }
    (underflow, if underflow then c.underflowA else c)
  else (false, c)

def tickTimerB (c : Cia) (taUnderflow : Bool) : Cia :=
  if c.timerBCounts taUnderflow then
    let (underflow, count) := stepTimer c.timerB c.latchB
    let c := { c with timerB := count }
    if underflow then c.underflowB else c
  else c

/-- The byte on its way in lands in `SDR`. -/
def landKeycode (c : Cia) : Cia :=
  match c.nextKeycode with
  | (some raw, c) => { c with sdr := encodeKeyboardByte raw, kbdLoaded := true }.raise Icr.sp
  | (none, c) => c

/-- A queued code waits for the previous one to be read and for the handshake delay. -/
def tickKeyboard (c : Cia) : Cia :=
  if c.cra &&& craSpmode ≠ 0 then c
  else
    let delay :=
      if c.kbdDelay = 0 ∧ c.kbdLoaded = false ∧ 0 < c.keyboardQueue.len then keyboardHandshakeTicks
      else c.kbdDelay
    let c := { c with kbdDelay := delay - 1 }
    if delay = 1 then c.landKeycode else c

def tickOneEclock (c : Cia) : Cia :=
  let (taUnderflow, c) := c.tickTimerA
  let c := c.tickTimerB taUnderflow
  if c.id = .a then c.tickKeyboard else c

/-- Neither timer started, nothing queued and nothing on its way. -/
def isIdle (c : Cia) : Bool :=
  c.cra &&& craStart = 0 && c.crb &&& crbStart = 0 && c.keyboardQueue.len = 0 && c.kbdDelay = 0

def tickEclock (c : Cia) (ticks : Nat) : Cia := if c.isIdle then c else tickOneEclock^[ticks] c

/-- Advance by `cpuClocks` CPU cycles, a `u32` sum; whether an interrupt is requested afterwards. -/
def tick (c : Cia) (cpuClocks cpuClocksPerEclock : Nat) : Bool × Cia :=
  let total := (c.carry + cpuClocks) % 0x100000000
  let eclocks := total / cpuClocksPerEclock
  let c := { c with carry := total % cpuClocksPerEclock }
  let c := if 0 < eclocks then c.tickEclock eclocks else c
  (c.irqPending, c)

/-! ## The next event -/

/-- E-clocks until a timer or the keyboard next does something, `none` while it stands. -/
def timerAEvent (c : Cia) : Option Nat := if c.timerACounts then some (c.timerA.toNat + 1) else none

/-- A timer B that counts underflows cannot fire before timer A does, and is left out. -/
def timerBEvent (c : Cia) : Option Nat :=
  if c.crb &&& crbStart ≠ 0 ∧ c.crbInmode = 0 then some (c.timerB.toNat + 1) else none

def keyboardEvent (c : Cia) : Option Nat :=
  if c.id = .a ∧ c.cra &&& craSpmode = 0 then
    if 0 < c.kbdDelay then some c.kbdDelay
    else if c.kbdLoaded = false ∧ 0 < c.keyboardQueue.len then some keyboardHandshakeTicks
    else none
  else none

/-- The nearest of the events that are under way. -/
def nearest (events : List (Option Nat)) : Option Nat := (events.filterMap fun event => event).min?

/-- CPU clocks until something here could next change on its own, as a `u32`. -/
def clocksUntilEvent (c : Cia) (cpuClocksPerEclock : Nat) : Option Nat :=
  (nearest [c.timerAEvent, c.timerBEvent, c.keyboardEvent]).map fun eclocks =>
    (eclocks * cpuClocksPerEclock - c.carry) % 0x100000000

end Cia

/-! ## Floppy drive status -/

namespace Floppy

abbrev ciabDskstep : Byte := 0x01
abbrev ciabDskdirec : Byte := 0x02
abbrev ciabDsksel0 : Byte := 0x08
abbrev ciabDskmotor : Byte := 0x80
abbrev ciaaDskchange : Byte := 0x04
abbrev ciaaDskprot : Byte := 0x08
abbrev ciaaDsktrack0 : Byte := 0x10
abbrev ciaaDskrdy : Byte := 0x20
abbrev floppyPraMask : Byte := ciaaDskchange ||| ciaaDskprot ||| ciaaDsktrack0 ||| ciaaDskrdy
abbrev maxCylinder : Nat := 79

inductive FloppyPresence
  | none
  | empty
  deriving DecidableEq

def FloppyPresence.driveId : FloppyPresence → Long
  | none => 0x00000000
  | empty => 0xFFFFFFFF

end Floppy

open Floppy

/-- The one drive bay: it reads CIA-B's `PRB` and drives four bits of CIA-A's `PRA`. -/
structure FloppyDrive where
  presence : FloppyPresence
  motorOn : Bool
  selected : Bool
  cylinder : Nat
  idMode : Bool
  idBit : Nat
  idHoldFirstEdge : Bool
  deriving DecidableEq

namespace FloppyDrive

def new (presence : FloppyPresence) : FloppyDrive where
  presence := presence
  motorOn := false
  selected := false
  cylinder := 0
  idMode := false
  idBit := 0
  idHoldFirstEdge := false

/-- The motor relay is clocked by the falling edge of the select line. -/
def selectEdge (f : FloppyDrive) (motorNext : Bool) : FloppyDrive :=
  let f :=
    if motorNext then { f with idMode := false, idBit := 0 }
    else if f.motorOn then { f with idMode := true, idBit := 0, idHoldFirstEdge := true }
    else f
  { f with motorOn := motorNext }

/-- A deselect clocks the drive's ID out, the one that carried the motor command excepted. -/
def deselectEdge (f : FloppyDrive) : FloppyDrive :=
  if f.idHoldFirstEdge then { f with idHoldFirstEdge := false }
  else { f with idBit := min (f.idBit + 1) 32 }

def stepHead (f : FloppyDrive) (inward : Bool) : FloppyDrive :=
  { f with cylinder := if inward then min (f.cylinder + 1) maxCylinder else f.cylinder - 1 }

/-- Follow the edges between two values of CIA-B's `PRB`. -/
def onPrbWrite (f : FloppyDrive) (prev val : Byte) : FloppyDrive :=
  if f.presence = .none then f
  else
    let wasSelected : Bool := prev &&& ciabDsksel0 = 0
    let selected : Bool := val &&& ciabDsksel0 = 0
    let f := { f with selected := selected }
    let f :=
      if !wasSelected && selected then
        f.selectEdge (prev &&& ciabDskmotor = 0 || val &&& ciabDskmotor = 0)
      else if wasSelected && !selected && f.idMode && !f.motorOn then f.deselectEdge
      else f
    if selected && prev &&& ciabDskstep ≠ 0 && val &&& ciabDskstep = 0 then
      f.stepHead (val &&& ciabDskdirec = 0)
    else f

/-- The bit of the 32-bit ID at `index`, most significant first; zero past its end. -/
def shiftIdBit (driveId : Long) (index : Nat) : Bool := index < 32 && driveId.getLsbD (31 - index)

/-- `PRA` bits 2 to 5, active low. -/
def praStatusBits (f : FloppyDrive) : Byte :=
  if f.presence = .none ∨ f.selected = false then floppyPraMask
  else
    let rdyAsserted := f.idMode && !f.motorOn && shiftIdBit f.presence.driveId f.idBit
    ciaaDskprot ||| (if f.cylinder ≠ 0 then ciaaDsktrack0 else 0) |||
      (if rdyAsserted then 0 else ciaaDskrdy)

end FloppyDrive

end M68kMachine
