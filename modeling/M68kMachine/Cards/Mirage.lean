import M68kMachine.Core.Autoconfig
import M68kMachine.Core.Block

/-!
# MIRAGE's block plane

The register file and transfer engine of `mirage.rs`: programmed I/O through a 512-byte FIFO. A step
that touches the device waits in a `*Pending` or `WriteCommitting` state with `BUSY` set until
`tick` lands it; the data port is live in the two `*Ready` states, with `DRQ` set.

The unit of a transfer is snapshotted in `activeUnit` when the command is accepted.
-/

namespace M68kMachine

open Autoconfig

namespace Mirage

abbrev manufacturer : Word := 0x07DB
abbrev product : Byte := 0
abbrev windowBytes : Long := 0x00010000
abbrev unitCount : Nat := 8
abbrev ticksPerSector : Nat := 1

/-! ### Register offsets, commands, status and interrupt bits -/

namespace Reg

abbrev unitSelect : Nat := 0x00
abbrev lba : Nat := 0x04
abbrev count : Nat := 0x08
abbrev cmdStatus : Nat := 0x0C
abbrev data : Nat := 0x10
abbrev intEnable : Nat := 0x18
abbrev intStatus : Nat := 0x1C

end Reg

namespace Cmd

abbrev read : Byte := 1
abbrev write : Byte := 2
abbrev flush : Byte := 3

end Cmd

namespace Status

abbrev busy : Byte := 0x01
abbrev drq : Byte := 0x02
abbrev err : Byte := 0x04

end Status

namespace Int

abbrev xferComplete : Byte := 0x01
abbrev mgmtComplete : Byte := 0x02
abbrev mediaChange : Byte := 0x04

end Int

/-- Where a block-plane operation is in its `BUSY`/`DRQ` handshake. -/
inductive State
  | idle
  | readPending
  | readReady
  | writePending
  | writeReady
  | writeCommitting
  | flushPending
  deriving DecidableEq

end Mirage

open Mirage

/-- MIRAGE's block plane over units of type `δ`. -/
structure Mirage (δ : Type) where
  units : Fin unitCount → Option δ
  changeCounts : Fin unitCount → Long
  unitSelect : Byte
  lba : Long
  count : Long
  status : Byte
  intEnable : Byte
  intStatus : Byte
  state : State
  /-- The unit the transfer in flight targets, snapshotted when its command was accepted. -/
  activeUnit : Fin unitCount
  currentLba : Long
  sectorsLeft : Nat
  ticksLeft : Nat
  sectorBuf : Sector
  bufPos : Nat

namespace Mirage

variable {δ : Type}

def new : Mirage δ where
  units := fun _ => none
  changeCounts := fun _ => 0
  unitSelect := 0
  lba := 0
  count := 0
  status := 0
  intEnable := 0
  intStatus := 0
  state := .idle
  activeUnit := 0
  currentLba := 0
  sectorsLeft := 0
  ticksLeft := 0
  sectorBuf := zeroSector
  bufPos := 0

def boardSpec : BoardSpec where
  boardType := ertZorroII ||| 0x01
  product := product
  flags := 0
  manufacturer := manufacturer
  serial := 0
  initDiagVec := 0
  sizeBytes := windowBytes

/-- The slot a unit number names, when it is one of the eight. -/
def unitSlot (unit : Nat) : Option (Fin unitCount) :=
  if h : unit < unitCount then some ⟨unit, h⟩ else none

def setUnit (m : Mirage δ) (u : Fin unitCount) (device : δ) : Mirage δ :=
  { m with units := fun i => if i = u then some device else m.units i }

/-- Attach a disk; an out-of-range unit is ignored. -/
def attachUnit (m : Mirage δ) (unit : Byte) (device : δ) : Mirage δ :=
  match unitSlot unit.toNat with
  | some u => m.setUnit u device
  | none => m

/-- Bump a unit's change counter and raise the media-change source. -/
def notifyMediaChange (m : Mirage δ) (unit : Nat) : Mirage δ :=
  match unitSlot unit with
  | some u =>
    { m with
      changeCounts := fun i => if i = u then m.changeCounts u + 1 else m.changeCounts i
      intStatus := m.intStatus ||| Int.mediaChange }
  | none => m

def changeCount (m : Mirage δ) (unit : Nat) : Long :=
  ((unitSlot unit).map m.changeCounts).getD 0

def irqPending (m : Mirage δ) : Bool := m.intStatus &&& m.intEnable != 0

/-- The unit `UNIT_SELECT` names. -/
def selectedUnit (m : Mirage δ) : Option (Fin unitCount) := unitSlot m.unitSelect.toNat

/-! ## Commands -/

/-- A command or a device operation failed: report `ERR` and still raise the completion. -/
def fail (m : Mirage δ) : Mirage δ :=
  { m with
    state := .idle
    status := Status.err
    sectorsLeft := 0
    intStatus := m.intStatus ||| Int.xferComplete }

/-- The checks `begin_read` and `begin_write` share: a nonzero count that ends on the unit. -/
def spanFits [BlockDevice δ] (m : Mirage δ) (device : δ) : Bool :=
  m.count != 0 && m.lba.toNat + m.count.toNat ≤ (BlockDevice.sectorCount device).toNat

def beginRead [BlockDevice δ] (m : Mirage δ) (unit : Fin unitCount) (device : δ) : Mirage δ :=
  if !m.spanFits device then m.fail
  else
    { m with
      activeUnit := unit
      currentLba := m.lba
      sectorsLeft := m.count.toNat
      state := .readPending
      status := Status.busy
      ticksLeft := ticksPerSector }

def beginWrite [BlockDevice δ] (m : Mirage δ) (unit : Fin unitCount) (device : δ) : Mirage δ :=
  if !m.spanFits device then m.fail
  else
    { m with
      activeUnit := unit
      currentLba := m.lba
      sectorsLeft := m.count.toNat
      bufPos := 0
      state := .writePending
      status := Status.busy
      ticksLeft := ticksPerSector }

def beginFlush (m : Mirage δ) (unit : Fin unitCount) : Mirage δ :=
  { m with
    activeUnit := unit
    state := .flushPending
    status := Status.busy
    ticksLeft := ticksPerSector }

/-- A command written while a transfer is in flight is ignored. -/
def doCommand [BlockDevice δ] (m : Mirage δ) (rawCmd : Byte) : Mirage δ :=
  if m.state ≠ .idle then m
  else
    match m.selectedUnit with
    | none => m.fail
    | some unit =>
      match m.units unit with
      | none => m.fail
      | some device =>
        if rawCmd = Cmd.read then m.beginRead unit device
        else if rawCmd = Cmd.write then m.beginWrite unit device
        else if rawCmd = Cmd.flush then m.beginFlush unit
        else m.fail

/-! ## Deferred completion -/

def completeReadFetch [BlockDevice δ] (m : Mirage δ) : Mirage δ :=
  match m.units m.activeUnit with
  | none => m.fail
  | some device =>
    match BlockDevice.readSector device (m.currentLba.setWidth 64) m.sectorBuf with
    | (true, sector, device) =>
      { m.setUnit m.activeUnit device with
        sectorBuf := sector
        bufPos := 0
        state := .readReady
        status := Status.drq
        intStatus := m.intStatus ||| Int.xferComplete }
    | (false, sector, device) => { m.setUnit m.activeUnit device with sectorBuf := sector }.fail

def completeWritePrepare (m : Mirage δ) : Mirage δ :=
  { m with bufPos := 0, state := .writeReady, status := Status.drq }

def completeWriteCommit [BlockDevice δ] (m : Mirage δ) : Mirage δ :=
  match m.units m.activeUnit with
  | none => m.fail
  | some device =>
    match BlockDevice.writeSector device (m.currentLba.setWidth 64) m.sectorBuf with
    | (true, device) =>
      let m := { m.setUnit m.activeUnit device with
        sectorsLeft := m.sectorsLeft - 1
        intStatus := m.intStatus ||| Int.xferComplete }
      if m.sectorsLeft = 0 then { m with state := .idle, status := 0 }
      else
        { m with
          currentLba := m.currentLba + 1
          bufPos := 0
          state := .writeReady
          status := Status.drq }
    | (false, device) => (m.setUnit m.activeUnit device).fail

def completeFlush (m : Mirage δ) : Mirage δ :=
  { m with state := .idle, status := 0, intStatus := m.intStatus ||| Int.xferComplete }

/-- What a delay that has run out completes. -/
def complete [BlockDevice δ] (m : Mirage δ) : Mirage δ :=
  match m.state with
  | .readPending => m.completeReadFetch
  | .writePending => m.completeWritePrepare
  | .writeCommitting => m.completeWriteCommit
  | .flushPending => m.completeFlush
  | _ => m

/-- Advance the deferred-completion state machine by one step. -/
def tick [BlockDevice δ] (m : Mirage δ) : Mirage δ :=
  if m.ticksLeft = 0 then m
  else
    let m := { m with ticksLeft := m.ticksLeft - 1 }
    if m.ticksLeft = 0 then m.complete else m

/-! ## The DATA FIFO -/

def dataRead (m : Mirage δ) : Byte × Mirage δ :=
  if m.state ≠ .readReady then (0, m)
  else
    let byte := m.sectorBuf.toList.getD m.bufPos 0
    let m := { m with bufPos := m.bufPos + 1 }
    if sectorBytes ≤ m.bufPos then
      let m := { m with sectorsLeft := m.sectorsLeft - 1 }
      if m.sectorsLeft = 0 then (byte, { m with state := .idle, status := 0 })
      else
        (byte,
          { m with
            currentLba := m.currentLba + 1
            state := .readPending
            status := Status.busy
            ticksLeft := ticksPerSector })
    else (byte, m)

def dataWrite (m : Mirage δ) (value : Byte) : Mirage δ :=
  if m.state ≠ .writeReady then m
  else
    let m := { m with
      sectorBuf := m.sectorBuf.setIfInBounds m.bufPos value
      bufPos := m.bufPos + 1 }
    if sectorBytes ≤ m.bufPos then
      { m with state := .writeCommitting, status := Status.busy, ticksLeft := ticksPerSector }
    else m

/-! ## The register file -/

def read (m : Mirage δ) (o : Nat) : Byte × Mirage δ :=
  if inSlot o Reg.unitSelect then (lowByte o Reg.unitSelect m.unitSelect, m)
  else if inSlot o Reg.lba then (byteOf m.lba (o - Reg.lba), m)
  else if inSlot o Reg.count then (byteOf m.count (o - Reg.count), m)
  else if inSlot o Reg.cmdStatus then (lowByte o Reg.cmdStatus m.status, m)
  else if inSlot o Reg.data then m.dataRead
  else if inSlot o Reg.intEnable then (lowByte o Reg.intEnable m.intEnable, m)
  else if inSlot o Reg.intStatus then (lowByte o Reg.intStatus m.intStatus, m)
  else (0, m)

def write [BlockDevice δ] (m : Mirage δ) (o : Nat) (value : Byte) : Mirage δ :=
  if inSlot o Reg.unitSelect then
    if o - Reg.unitSelect = 3 then { m with unitSelect := value } else m
  else if inSlot o Reg.lba then { m with lba := setByteOf m.lba (o - Reg.lba) value }
  else if inSlot o Reg.count then { m with count := setByteOf m.count (o - Reg.count) value }
  else if inSlot o Reg.cmdStatus then
    if o - Reg.cmdStatus = 3 then m.doCommand value else m
  else if inSlot o Reg.data then m.dataWrite value
  else if inSlot o Reg.intEnable then
    if o - Reg.intEnable = 3 then { m with intEnable := value } else m
  else if inSlot o Reg.intStatus then
    -- write one to clear
    if o - Reg.intStatus = 3 then { m with intStatus := m.intStatus &&& ~~~value } else m
  else m

end Mirage

end M68kMachine
