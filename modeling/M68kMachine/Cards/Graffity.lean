import M68kMachine.Cards.Cirrus

/-!
# The Graffity graphics card

The Zorro packaging of the Cirrus core (`graffity.rs`): two boards, VRAM and registers, on
Zorro II; one board with both apertures on Zorro III.
-/

namespace M68kMachine

open Autoconfig

namespace Graffity

abbrev manufacturer : Word := 2092
abbrev productVram : Byte := 34
abbrev productRegs : Byte := 33
abbrev productZ3 : Byte := 33
abbrev regsWindowBytes : Nat := 0x00020000
abbrev z3WindowBytes : Nat := 0x01000000
abbrev z3SwitchBase : Nat := 0x00400000
abbrev z3SwitchSize : Nat := 0x00010000
abbrev z3RegsBase : Nat := 0x00800000
abbrev z3RegsSize : Nat := 0x00010000
abbrev z3VramBase : Nat := 0x00C00000
abbrev maxGraffityBoards : Nat := 2

inductive BoardVariant
  | zorroII
  | zorroIII
  deriving DecidableEq

/-- `ZORRO_II_SIZES`: the window sizes and their codes. -/
abbrev zorroIISizes : List (Nat × Byte) :=
  [(0x00010000, 1), (0x00020000, 2), (0x00040000, 3), (0x00080000, 4), (0x00100000, 5),
    (0x00200000, 6), (0x00400000, 7), (0x00800000, 0)]

/-- The code of the smallest window that holds `bytes`, 8 MB for anything bigger. -/
def zorroIISizeCode (bytes : Nat) : Byte :=
  ((zorroIISizes.find? fun size => bytes ≤ size.1).map Prod.snd).getD 0

def zorroIISizeBytes (code : Byte) : Nat :=
  ((zorroIISizes.find? fun size => size.2 = code).map Prod.fst).getD 0x00800000

def zorroIISpec (product : Byte) (bytes windowBytes : Nat) : BoardSpec where
  boardType := ertZorroII ||| zorroIISizeCode bytes
  product := product
  flags := 0
  manufacturer := manufacturer
  serial := 0
  initDiagVec := 0
  sizeBytes := BitVec.ofNat 32 windowBytes

def vramSpec (vramLen : Nat) : BoardSpec :=
  zorroIISpec productVram vramLen (zorroIISizeBytes (zorroIISizeCode vramLen))

def regsSpec : BoardSpec := zorroIISpec productRegs regsWindowBytes regsWindowBytes

def zorroIIIBoardSpec : BoardSpec where
  boardType := ertZorroIII
  product := productZ3
  flags := erffZorroIII ||| erffExtended
  manufacturer := manufacturer
  serial := 0
  initDiagVec := 0
  sizeBytes := BitVec.ofNat 32 z3WindowBytes

end Graffity

open Graffity

structure Graffity where
  chip : Cirrus542x
  variant : BoardVariant

namespace Graffity

def withVariant (variant : BoardVariant) (vram : ByteSlice) : Graffity where
  chip := Cirrus542x.new .gd5428 vram
  variant := variant

/-- The card's boards, in the order it offers them. Lengths are cast to `u32`. -/
def boardSpecs (g : Graffity) : List BoardSpec :=
  match g.variant with
  | .zorroII => [vramSpec (g.chip.vram.size % 0x100000000), regsSpec]
  | .zorroIII => [zorroIIIBoardSpec]

def signalVerticalRetrace (g : Graffity) : Graffity :=
  { g with chip := g.chip.signalVerticalRetrace }

def irqPending (g : Graffity) : Bool := g.chip.irqPending

/-- A port access, the chip's state after it put back into the card. -/
def regRead (g : Graffity) (offset : Nat) : Byte × Graffity :=
  ((g.chip.regRead offset).1, { g with chip := (g.chip.regRead offset).2 })

def regWrite (g : Graffity) (offset : Nat) (value : Byte) : Graffity :=
  { g with chip := g.chip.regWrite offset value }

def vramWrite (g : Graffity) (offset : Nat) (value : Byte) : Graffity :=
  { g with chip := g.chip.vramWrite offset value }

/-- The VRAM offset of an offset into the Zorro III board's VRAM aperture. -/
def zorroIIIVramOffset (g : Graffity) (offset : Nat) : Option Nat :=
  if z3VramBase ≤ offset ∧ offset - z3VramBase < g.chip.vram.size % 0x100000000 then
    some (offset - z3VramBase)
  else none

/-- Whether an offset falls in an aperture of the Zorro III board. -/
def inAperture (offset base size : Nat) : Bool := base ≤ offset && offset < base + size

def zorroIIIRead (g : Graffity) (offset : Nat) : Byte × Graffity :=
  match g.zorroIIIVramOffset offset with
  | some vramOff => (g.chip.vramRead vramOff, g)
  | none =>
    if inAperture offset z3RegsBase z3RegsSize then g.regRead (offset - z3RegsBase)
    else (openBusByte, g)

def zorroIIIWrite (g : Graffity) (offset : Nat) (value : Byte) : Graffity :=
  if inAperture offset z3SwitchBase z3SwitchSize then g
  else
    match g.zorroIIIVramOffset offset with
    | some vramOff => g.vramWrite vramOff value
    | none =>
      if inAperture offset z3RegsBase z3RegsSize then g.regWrite (offset - z3RegsBase) value
      else g

/-- A read at an offset into one of the card's boards. -/
def read (g : Graffity) (board offset : Nat) : Byte × Graffity :=
  match g.variant, board with
  | .zorroII, 0 => (g.chip.vramRead offset, g)
  | .zorroII, 1 => g.regRead offset
  | .zorroIII, 0 => g.zorroIIIRead offset
  | _, _ => (openBusByte, g)

def write (g : Graffity) (board offset : Nat) (value : Byte) : Graffity :=
  match g.variant, board with
  | .zorroII, 0 => g.vramWrite offset value
  | .zorroII, 1 => g.regWrite offset value
  | .zorroIII, 0 => g.zorroIIIWrite offset value
  | _, _ => g

theorem irqPending_regRead (g : Graffity) (offset : Nat) :
    (g.regRead offset).2.irqPending = g.irqPending := g.chip.irqPending_regRead offset

/-- **No read of the card moves its interrupt line.** -/
theorem irqPending_read (g : Graffity) (board offset : Nat) :
    (g.read board offset).2.irqPending = g.irqPending := by
  unfold read
  split
  · rfl
  · exact g.irqPending_regRead offset
  · unfold zorroIIIRead
    split
    · rfl
    · split
      · exact g.irqPending_regRead _
      · rfl
  · rfl

end Graffity

end M68kMachine
