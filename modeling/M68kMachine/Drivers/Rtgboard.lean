import M68kMachine.Cards.Rtgboard

/-!
# rtgboard.card

`rtgboard_card.c`: the Picasso96 driver of the display board, its two vectors that program a mode.
It stages what it was asked for beside what it reads back from the board.

* `findCard` — where the board's registers and memory are, and how much of it can be reached
* `rtgSetGc` — stage a mode's geometry at the offset the board shows
* `rtgSetPanning` — stage the geometry the board shows at a bitmap's offset

Each of the two returns what it tells the serial log, which is the only way a refusal shows.
-/

namespace M68kMachine

namespace RtgCard

/-- The fields of Picasso96's `BoardInfo` these vectors use. -/
structure BoardInfo where
  memoryBase : Long
  memorySize : Long
  xOffset : Word
  yOffset : Word
  deriving DecidableEq

/-- The fields of Picasso96's `ModeInfo` that `SetGC` reads. -/
structure ModeInfo where
  width : Word
  height : Word
  deriving DecidableEq

/-- The line a vector writes to the serial log. -/
inductive Narration
  | applied
  | rejected
  | noModeApplied
  | nullMemory
  | beforeVram
  | outsideVram
  | pastVram
  deriving DecidableEq

open Rtgboard

def regRead32 (r : RtgBoard) (off : Nat) : Long := r.readLong off

def regWrite32 (r : RtgBoard) (off : Nat) (val : Long) : RtgBoard := r.writeLong off val

/-- Byte registers live at the low byte of their slot. -/
def regRead8 (r : RtgBoard) (off : Nat) : Byte := r.read (off + 3)

def regWrite8 (r : RtgBoard) (off : Nat) (val : Byte) : RtgBoard := r.write (off + 3) val

def rowBytes565 (width : Word) : Word := width * 2

/-- The `BoardInfo` of the board AUTOCONFIG placed at `boardAddr`. -/
def findCard (boardAddr : Long) (r : RtgBoard) : BoardInfo :=
  let vramBytes := regRead32 r Reg.vramBytes
  let maxReachable : Long := windowBytes - 0x100000
  { memoryBase := boardAddr + 0x100000
    memorySize := if maxReachable.toNat < vramBytes.toNat then maxReachable else vramBytes
    xOffset := 0
    yOffset := 0 }

/-- Stage a mode, commit it, log the outcome and clear the status, at the last offset staged. -/
def commitMode (r : RtgBoard) (width height : Long) (format : Byte) (stride : Long)
    (fbOffset : RtgBoard → Long) : RtgBoard × Narration :=
  let r := regWrite32 r Reg.setWidth width
  let r := regWrite32 r Reg.setHeight height
  let r := regWrite8 r Reg.setFormat format
  let r := regWrite32 r Reg.setStride stride
  let r := regWrite32 r Reg.setFbOffset (fbOffset r)
  let r := regWrite8 r Reg.commit 1
  let status := regRead8 r Reg.status
  (regWrite8 r Reg.status 0xFF,
    if status &&& Status.applied ≠ 0 then .applied else .rejected)

/-- `RtgSetGC`. A missing or empty mode is passed over in silence. -/
def rtgSetGc (r : RtgBoard) (mi : Option ModeInfo) : RtgBoard × Option Narration :=
  match mi with
  | none => (r, none)
  | some mi =>
    if mi.width = 0 ∨ mi.height = 0 then (r, none)
    else
      let stride := rowBytes565 mi.width
      let (r, said) := commitMode r (mi.width.setWidth 32) (mi.height.setWidth 32) Format.rgb565
        (stride.setWidth 32) fun r => regRead32 r Reg.curFbOffset
      (r, some said)

/-- `RtgSetPanning`, on the board. -/
def panTo (bi : BoardInfo) (r : RtgBoard) (memory : Long) : RtgBoard × Narration :=
  let curFormat := regRead8 r Reg.curFormat
  if curFormat = Format.invalid then (r, .noModeApplied)
  else if memory = 0 then (r, .nullMemory)
  else if memory.toNat < bi.memoryBase.toNat then (r, .beforeVram)
  else
    let offset := memory - bi.memoryBase
    if bi.memorySize.toNat ≤ offset.toNat then (r, .outsideVram)
    else
      let curWidth := regRead32 r Reg.curWidth
      let curHeight := regRead32 r Reg.curHeight
      let curStride := regRead32 r Reg.curStride
      let frameBytes := curHeight * curStride
      if (bi.memorySize - offset).toNat < frameBytes.toNat then (r, .pastVram)
      else commitMode r curWidth curHeight curFormat curStride fun _ => offset

/-- `RtgSetPanning`. Picasso96 finds the offsets in the `BoardInfo` whatever the board says. -/
def rtgSetPanning (bi : BoardInfo) (r : RtgBoard) (memory : Long) (xOffset yOffset : Word) :
    BoardInfo × RtgBoard × Narration :=
  ({ bi with xOffset := xOffset, yOffset := yOffset }, panTo bi r memory)

end RtgCard

end M68kMachine
