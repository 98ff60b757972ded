import M68kMachine.Core.Autoconfig
import M68kMachine.Library.RingBuffer

/-!
# The native `input` card

The register file and event queue of `input.rs`. The host pushes key, button, character and pointer
events; the driver reads the oldest at `EVENT_TYPE` … `EVENT_Y` and retires it with `EVENT_ADVANCE`.
Consecutive motions are merged, and a motion is evicted before a discrete event is dropped.

The `push_*` functions return whether the event was taken, together with the card.
-/

namespace M68kMachine

open Autoconfig

namespace Input

abbrev manufacturer : Word := 0x07DB
abbrev product : Byte := 3
abbrev windowBytes : Long := 0x01000000
abbrev romBase : Nat := 0x1000
abbrev queueCapacity : Nat := 16
abbrev protocolVersion : Long := 1
abbrev maxRawKeycode : Byte := 0x7F

/-! ### Buttons, event types and register offsets (`mod button`, `mod ev`, `mod reg`) -/

namespace Button

abbrev left : Byte := 0
abbrev right : Byte := 1
abbrev middle : Byte := 2

end Button

abbrev maxButton : Byte := Button.middle

namespace Ev

abbrev none : Byte := 0
abbrev keyDown : Byte := 1
abbrev keyUp : Byte := 2
abbrev pointerMotion : Byte := 3
abbrev buttonDown : Byte := 4
abbrev buttonUp : Byte := 5
abbrev charDown : Byte := 6
abbrev charUp : Byte := 7

end Ev

namespace Reg

abbrev eventType : Nat := 0x00
abbrev eventCode : Nat := 0x04
abbrev eventQualifier : Nat := 0x08
abbrev eventX : Nat := 0x0C
abbrev eventY : Nat := 0x10
abbrev eventAdvance : Nat := 0x14
abbrev eventCount : Nat := 0x18
abbrev eventOverflow : Nat := 0x1C
abbrev intStatus : Nat := 0x20
abbrev intEnable : Nat := 0x24
abbrev capacity : Nat := 0x28
abbrev version : Nat := 0x2C

end Reg

structure QueuedEvent where
  ty : Byte
  code : Byte
  qualifier : Word
  x : Long
  y : Long
  deriving DecidableEq, Inhabited

/-- Whether an event is a pointer motion; every other event is discrete. -/
def QueuedEvent.isMotion (e : QueuedEvent) : Bool := e.ty == Ev.pointerMotion

/-! ### The event queue -/

abbrev EventQueue := RingBuffer QueuedEvent queueCapacity

namespace EventQueue

/-- Logical index of the newest entry, when it is a motion. -/
def tailMotionIndex (q : EventQueue) : Option Nat :=
  if q.len = 0 then none
  else if (q.slot (q.len - 1)).isMotion then some (q.len - 1) else none

/-- Logical index of the oldest queued motion. -/
def motionIndex (q : EventQueue) : Option Nat :=
  (List.range q.len).find? fun i => (q.slot i).isMotion

end EventQueue

/-- `latin1_from_char`: the Latin-1 code of a character, if it has one. -/
def latin1FromChar (ch : Char) : Option Byte :=
  if ch.toNat ≤ 0xFF then some (BitVec.ofNat 8 ch.toNat) else none

end Input

open Input

/-- `input`'s register file and event queue. `diagRom` is the constant `DIAG_ROM`. -/
structure NativeInput where
  queue : EventQueue
  overflow : Long
  intStatus : Byte
  intEnable : Byte
  diagRom : List Byte

namespace NativeInput

def new (diagRom : List Byte) : NativeInput where
  queue := RingBuffer.new (by decide)
  overflow := 0
  intStatus := 0
  intEnable := 0
  diagRom := diagRom

def boardSpec : BoardSpec where
  boardType := ertZorroIII ||| ertfDiagvalid
  product := product
  flags := erffZorroIII ||| erffExtended
  manufacturer := manufacturer
  serial := 0
  initDiagVec := BitVec.ofNat 16 romBase
  sizeBytes := windowBytes

def irqPending (c : NativeInput) : Bool := c.intEnable != 0 && c.intStatus != 0

def latch (c : NativeInput) : NativeInput := { c with intStatus := 1 }

/-! ## The host side -/

/-- Append a discrete event, evicting the oldest motion, else refusing and counting the loss. -/
def pushDiscrete (c : NativeInput) (event : QueuedEvent) : Bool × NativeInput :=
  match c.queue.push event with
  | (true, queue) => (true, { c with queue := queue }.latch)
  | (false, _) =>
    match EventQueue.motionIndex c.queue with
    | some idx => (true, { c with queue := ((c.queue.remove idx).push event).2 }.latch)
    | none => (false, { c with overflow := c.overflow + 1 }.latch)

def pushKey (c : NativeInput) (keycode : Byte) (down : Bool) (qualifier : Word) :
    Bool × NativeInput :=
  if maxRawKeycode < keycode then (false, c)
  else c.pushDiscrete ⟨if down then Ev.keyDown else Ev.keyUp, keycode, qualifier, 0, 0⟩

def pushButton (c : NativeInput) (button : Byte) (down : Bool) (qualifier : Word) :
    Bool × NativeInput :=
  if maxButton < button then (false, c)
  else c.pushDiscrete ⟨if down then Ev.buttonDown else Ev.buttonUp, button, qualifier, 0, 0⟩

def pushChar (c : NativeInput) (ch : Char) (down : Bool) : Bool × NativeInput :=
  match latin1FromChar ch with
  | none => (false, c)
  | some byte => c.pushDiscrete ⟨if down then Ev.charDown else Ev.charUp, byte, 0, 0, 0⟩

/-- Whether an `i32` fits the `WORD` the driver reports a position in. -/
def fitsWord (v : Long) : Bool := -32768 ≤ v.toInt && v.toInt ≤ 32767

/-- Merge a motion into a motion tail, or append it; a full queue drops it uncounted. -/
def pushPointerMotion (c : NativeInput) (x y : Long) (qualifier : Word) : Bool × NativeInput :=
  if !fitsWord x || !fitsWord y then (false, c)
  else
    let event : QueuedEvent := ⟨Ev.pointerMotion, 0, qualifier, x, y⟩
    match EventQueue.tailMotionIndex c.queue with
    | some idx => (true, { c with queue := c.queue.overwrite idx event }.latch)
    | none =>
      match c.queue.push event with
      | (true, queue) => (true, { c with queue := queue }.latch)
      | (false, _) => (false, c)

/-! ## The register file -/

def read (c : NativeInput) (o : Nat) : Byte :=
  let head := c.queue.peek
  if inSlot o Reg.eventType then lowByte o Reg.eventType ((head.map (·.ty)).getD Ev.none)
  else if inSlot o Reg.eventCode then lowByte o Reg.eventCode ((head.map (·.code)).getD 0)
  else if inSlot o Reg.eventQualifier then
    byteOf (((head.map QueuedEvent.qualifier).getD 0).setWidth 32) (o - Reg.eventQualifier)
  else if inSlot o Reg.eventX then byteOf ((head.map (·.x)).getD 0) (o - Reg.eventX)
  else if inSlot o Reg.eventY then byteOf ((head.map (·.y)).getD 0) (o - Reg.eventY)
  else if inSlot o Reg.eventCount then
    byteOf (BitVec.ofNat 32 c.queue.len) (o - Reg.eventCount)
  else if inSlot o Reg.eventOverflow then byteOf c.overflow (o - Reg.eventOverflow)
  else if inSlot o Reg.intStatus then lowByte o Reg.intStatus c.intStatus
  else if inSlot o Reg.intEnable then lowByte o Reg.intEnable c.intEnable
  else if inSlot o Reg.capacity then
    byteOf (BitVec.ofNat 32 queueCapacity) (o - Reg.capacity)
  else if inSlot o Reg.version then byteOf protocolVersion (o - Reg.version)
  else diagRomByte c.diagRom romBase o

def write (c : NativeInput) (o : Nat) (value : Byte) : NativeInput :=
  if inSlot o Reg.eventAdvance then
    if o - Reg.eventAdvance = 3 then { c with queue := c.queue.pop.2 } else c
  else if inSlot o Reg.intStatus then
    -- an acknowledge is ignored while events remain unread
    if o - Reg.intStatus = 3 ∧ value &&& 1 ≠ 0 ∧ c.queue.len = 0 then { c with intStatus := 0 }
    else c
  else if inSlot o Reg.intEnable then
    if o - Reg.intEnable = 3 then { c with intEnable := value } else c
  else c

end NativeInput

end M68kMachine
