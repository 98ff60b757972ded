import M68kMachine.Cards.Fastram
import M68kMachine.Cards.Graffity
import M68kMachine.Cards.Hostblk
import M68kMachine.Cards.Input
import M68kMachine.Cards.Mirage
import M68kMachine.Cards.Pcibridge
import M68kMachine.Cards.Pktport
import M68kMachine.Cards.Rtgboard
import M68kMachine.Core.Blitter
import M68kMachine.Core.Chipset
import M68kMachine.Core.Cia

/-!
# The devices on the bus

Everything `MachineBus` owns apart from its lazy clock: the exact tick, the level-triggered
interrupt sources, the board arms of an access, the builders that attach cards.

* `BusDevices` — the devices and the chain places of their boards
* `tickExact` — the beam, the time-of-day counters, the cards and the CIAs, in the code's order
* `readBoard`, `writeBoard` — the board arms of `read_byte` and `write_byte`
-/

namespace M68kMachine

open Chipset (BeamAdvance)

abbrev romWindowSize : Nat := 0x80000
abbrev romBase : Nat := 0x00F80000
abbrev romEnd : Nat := romBase + romWindowSize
abbrev extRomBase : Nat := 0x00E00000
abbrev extRomWindowSize : Nat := 0x80000
abbrev cpuClocksPerColourClock : Nat := 4
abbrev cpuClocksPerEclock : Nat := cpuClocksPerColourClock * 5
abbrev ciaAPraFir0 : Byte := 0x40

/-- `read_mirrored`: an image shorter than its window repeats across it. -/
def readMirrored (image : ByteSlice) (base : Nat) (address : Long) : Byte :=
  (image.get? ((address.toNat - base) % image.size)).getD openBusByte

/-- Block stores are `δ`, the packet backend `ρ`, the PCI backend `π`. -/
structure BusDevices (δ ρ π : Type) where
  ram : GuestRam
  rom : ByteSlice
  extRom : ByteSlice
  chipset : Chipset
  ciaA : Cia
  ciaB : Cia
  blitter : Blitter
  floppy : FloppyDrive
  autoconfig : AutoConfig
  graphics : Option Graffity
  /-- The chain index of each of the graphics card's boards. -/
  graphicsBoards : List (Option Nat)
  mirage : Option (Mirage δ)
  mirageBoard : Option Nat
  hostblk : Option (Hostblk δ)
  hostblkBoard : Option Nat
  input : Option NativeInput
  inputBoard : Option Nat
  pktport : Option (Pktport ρ)
  pktportBoard : Option Nat
  rtg : Option RtgBoard
  rtgBoard : Option Nat
  pcibridge : Option (PciBridge π)
  pcibridgeBoard : Option Nat
  pcibridgeWindow : Option (Long × Long)
  overlay : Bool

namespace BusDevices

variable {δ ρ π : Type}

def new (chipRam : Buffer Byte chipRamSize) (rom : ByteSlice) : BusDevices δ ρ π where
  ram := GuestRam.new chipRam
  rom := rom
  extRom := ByteSlice.zero 0
  chipset := Chipset.new
  ciaA := Cia.new .a
  ciaB := Cia.new .b
  blitter := Blitter.new
  floppy := FloppyDrive.new .none
  autoconfig := AutoConfig.new
  graphics := none
  graphicsBoards := [none, none]
  mirage := none
  mirageBoard := none
  hostblk := none
  hostblkBoard := none
  input := none
  inputBoard := none
  pktport := none
  pktportBoard := none
  rtg := none
  rtgBoard := none
  pcibridge := none
  pcibridgeBoard := none
  pcibridgeWindow := none
  overlay := true

/-- The placed window of a board, as `refresh_windows` caches it. -/
def windowOf (a : AutoConfig) (board : Option Nat) : Option (Long × Long) :=
  (board.bind a.placement).map fun p => (p.base, p.sizeBytes)

def refreshWindows (d : BusDevices δ ρ π) : BusDevices δ ρ π :=
  { d with
    ram := { d.ram with fastWindow := windowOf d.autoconfig d.ram.fastRamBoard }
    pcibridgeWindow := windowOf d.autoconfig d.pcibridgeBoard }

/-! ## Interrupt sources -/

def raiseInt (d : BusDevices δ ρ π) (i : Nat) : BusDevices δ ρ π :=
  { d with chipset := d.chipset.raiseInt i }

/-- `if dev.irq_pending() { raise_int(PORTS) }`. -/
def raisePorts (d : BusDevices δ ρ π) (irq : Bool) : BusDevices δ ρ π :=
  if irq then d.raiseInt Chipset.Intbit.ports else d

def raiseExter (d : BusDevices δ ρ π) (irq : Bool) : BusDevices δ ρ π :=
  if irq then d.raiseInt Chipset.Intbit.exter else d

def graphicsIrq (d : BusDevices δ ρ π) : Bool := d.graphics.any (·.irqPending)

def reassertLevelIrqs (d : BusDevices δ ρ π) : BusDevices δ ρ π :=
  ((d.raisePorts d.ciaA.irqPending).raiseExter d.ciaB.irqPending).raisePorts d.graphicsIrq

/-! ## The exact tick -/

def tickBeam (d : BusDevices δ ρ π) (cpuClocks : Nat) : BeamAdvance × BusDevices δ ρ π :=
  let (beam, chipset) := d.chipset.tick cpuClocks cpuClocksPerColourClock
  (beam, { d with chipset := chipset })

/-- CIA-A counts frames, CIA-B counts lines. -/
def tickTod (d : BusDevices δ ρ π) (beam : BeamAdvance) : BusDevices δ ρ π :=
  { d with
    ciaA := Cia.todTick^[beam.framesWrapped] d.ciaA
    ciaB := Cia.todTick^[beam.linesStarted] d.ciaB }

def tickGraphics (d : BusDevices δ ρ π) (beam : BeamAdvance) : BusDevices δ ρ π :=
  match d.graphics with
  | none => d
  | some card =>
    let card := Graffity.signalVerticalRetrace^[beam.framesWrapped] card
    { d with graphics := some card }.raisePorts card.irqPending

section Engines

variable [BlockDevice δ] [PacketBackend ρ] [PciBackend π]

def tickMirage (d : BusDevices δ ρ π) : BusDevices δ ρ π :=
  match d.mirage with
  | none => d
  | some m => { d with mirage := some m.tick }.raisePorts m.tick.irqPending

def tickHostblk (d : BusDevices δ ρ π) : BusDevices δ ρ π :=
  match d.hostblk with
  | none => d
  | some h =>
    let (h, ram) := h.tick d.ram
    { d with hostblk := some h, ram := ram }.raisePorts h.irqPending

def tickPktport (d : BusDevices δ ρ π) : BusDevices δ ρ π :=
  match d.pktport with
  | none => d
  | some p =>
    let (p, ram) := p.tick d.ram
    { d with pktport := some p, ram := ram }.raisePorts p.irqPending

def tickPcibridge (d : BusDevices δ ρ π) : BusDevices δ ρ π :=
  match d.pcibridge with
  | none => d
  | some dev =>
    let (dev, ram) := dev.tick d.ram
    -- The level is asked for after the tick, which may have changed it.
    let (irq, dev) := dev.irqPending
    { d with pcibridge := some dev, ram := ram }.raisePorts irq

/-- The deferred-completion engines, one step each. -/
def tickEngines (d : BusDevices δ ρ π) : BusDevices δ ρ π :=
  d.tickMirage.tickHostblk.tickPktport.tickPcibridge

def tickCiaA (d : BusDevices δ ρ π) (cpuClocks : Nat) : BusDevices δ ρ π :=
  let (irq, ciaA) := d.ciaA.tick cpuClocks cpuClocksPerEclock
  { d with ciaA := ciaA }.raisePorts irq

def tickCiaB (d : BusDevices δ ρ π) (cpuClocks : Nat) : BusDevices δ ρ π :=
  let (irq, ciaB) := d.ciaB.tick cpuClocks cpuClocksPerEclock
  { d with ciaB := ciaB }.raiseExter irq

/-- `tick_exact`. The engines run once when a raster line was crossed, however many were. -/
def tickExact (d : BusDevices δ ρ π) (cpuClocks : Nat) : BusDevices δ ρ π :=
  let (beam, d) := d.tickBeam cpuClocks
  -- The graphics card sees the frames before the engines run.
  let d := (d.tickTod beam).tickGraphics beam
  ((if 0 < beam.linesStarted then d.tickEngines else d).tickCiaA cpuClocks).tickCiaB cpuClocks

end Engines

/-! ## The board arms of an access -/

/-- The card a chain index belongs to. -/
inductive BoardRole
  | mirage
  | fastRam
  | hostblk
  | input
  | pktport
  | rtg
  | pcibridge
  | graphics (board : Nat)
  | unclaimed
  deriving DecidableEq

/-- The comparisons of `read_byte_board` and `write_byte_slow`, in their order. -/
def boardRole (d : BusDevices δ ρ π) (idx : Nat) : BoardRole :=
  if some idx = d.mirageBoard then .mirage
  else if some idx = d.ram.fastRamBoard then .fastRam
  else if some idx = d.hostblkBoard then .hostblk
  else if some idx = d.inputBoard then .input
  else if some idx = d.pktportBoard then .pktport
  else if some idx = d.rtgBoard then .rtg
  else if some idx = d.pcibridgeBoard then .pcibridge
  else
    match d.graphicsBoards.findIdx? fun chainIdx => chainIdx = some idx with
    | some board => .graphics board
    | none => .unclaimed

section Boards

variable [BlockDevice δ] [PciBackend π]

/-- Read a byte of a board, and ask MIRAGE and the input card for their interrupt. -/
def readRole (d : BusDevices δ ρ π) (role : BoardRole) (offset : Nat) : Byte × BusDevices δ ρ π :=
  match role with
  | .mirage =>
    match d.mirage with
    | some m =>
      ((m.read offset).1,
        { d with mirage := some (m.read offset).2 }.raisePorts (m.read offset).2.irqPending)
    | none => (openBusByte, d)
  -- Offsets past what is attached read as an open bus.
  | .fastRam => (((d.ram.fastRam.bind fun mem => mem.get? offset).getD openBusByte), d)
  | .hostblk => ((d.hostblk.map fun h => h.read offset).getD openBusByte, d)
  | .input =>
    match d.input with
    | some dev => (dev.read offset, d.raisePorts dev.irqPending)
    | none => (openBusByte, d)
  | .pktport => ((d.pktport.map fun dev => dev.read offset).getD openBusByte, d)
  | .rtg => ((d.rtg.map fun dev => dev.read offset).getD openBusByte, d)
  | .pcibridge =>
    match d.pcibridge with
    | some dev => ((dev.read offset).1, { d with pcibridge := some (dev.read offset).2 })
    | none => (openBusByte, d)
  | .graphics board =>
    match d.graphics with
    | some card =>
      ((card.read board offset).1, { d with graphics := some (card.read board offset).2 })
    | none => (openBusByte, d)
  | .unclaimed => (openBusByte, d)

def writeRole (d : BusDevices δ ρ π) (role : BoardRole) (offset : Nat) (value : Byte) :
    BusDevices δ ρ π :=
  match role with
  | .mirage =>
    match d.mirage with
    | some m =>
      { d with mirage := some (m.write offset value) }.raisePorts (m.write offset value).irqPending
    | none => d
  | .fastRam =>
    match d.ram.fastRam with
    | some mem => { d with ram := { d.ram with fastRam := some (mem.set offset value) } }
    | none => d
  | .hostblk =>
    match d.hostblk with
    | some h =>
      { d with hostblk := some (h.write offset value) }.raisePorts (h.write offset value).irqPending
    | none => d
  | .input =>
    match d.input with
    | some dev =>
      { d with input := some (dev.write offset value) }.raisePorts
        (dev.write offset value).irqPending
    | none => d
  | .pktport =>
    match d.pktport with
    | some dev =>
      { d with pktport := some (dev.write offset value) }.raisePorts
        (dev.write offset value).irqPending
    | none => d
  | .rtg => { d with rtg := d.rtg.map fun dev => dev.write offset value }
  | .pcibridge =>
    match d.pcibridge with
    | some dev =>
      let (irq, dev) := (dev.write offset value).irqPending
      { d with pcibridge := some dev }.raisePorts irq
    | none => d
  | .graphics board =>
    -- The card's interrupt is level-triggered.
    match d.graphics with
    | some card => { d with graphics := some (card.write board offset value) }.reassertLevelIrqs
    | none => d
  | .unclaimed => d

/-- `read_byte_board`. -/
def readBoard (d : BusDevices δ ρ π) (idx : Nat) (address : Long) : Byte × BusDevices δ ρ π :=
  match d.autoconfig.placement idx with
  | none => (openBusByte, d)
  | some p => d.readRole (d.boardRole idx) (address.toNat - p.base.toNat)

/-- The board arms of `write_byte_slow`. -/
def writeBoard (d : BusDevices δ ρ π) (idx : Nat) (address : Long) (value : Byte) :
    BusDevices δ ρ π :=
  match d.autoconfig.placement idx with
  | none => d
  | some p => d.writeRole (d.boardRole idx) (address.toNat - p.base.toNat) value

end Boards

/-! ## Attaching cards -/

def withMirage (d : BusDevices δ ρ π) (unit : Byte) (device : δ) : BusDevices δ ρ π :=
  let d :=
    -- The board is added with the first unit.
    match d.mirage with
    | some _ => d
    | none =>
      let (board, autoconfig) := d.autoconfig.addBoard Mirage.boardSpec
      { d with mirageBoard := board, autoconfig := autoconfig, mirage := some Mirage.new }
  { d with mirage := d.mirage.map fun m => m.attachUnit unit device }

def withHostblk (d : BusDevices δ ρ π) (unit : Byte) (device : δ) (writeProtect : Bool)
    (diagRom : List Byte) : BusDevices δ ρ π :=
  let d :=
    match d.hostblk with
    | some _ => d
    | none =>
      let (board, autoconfig) := d.autoconfig.addBoard Hostblk.boardSpec
      { d with
        hostblkBoard := board
        autoconfig := autoconfig
        hostblk := some (Hostblk.new diagRom) }
  { d with hostblk := d.hostblk.map fun h => h.attachUnit unit device writeProtect }

/-- Offer the boards of a card to the chain one after the other. -/
def addBoards (a : AutoConfig) : List Autoconfig.BoardSpec → List (Option Nat) × AutoConfig
  | [] => ([], a)
  | spec :: specs =>
    let (idx, a) := a.addBoard spec
    let (rest, a) := addBoards a specs
    -- A board the chain has no place for has no index.
    (idx :: rest, a)

def attachGraphics (d : BusDevices δ ρ π) (card : Graffity) : BusDevices δ ρ π :=
  let (chain, autoconfig) := addBoards d.autoconfig card.boardSpecs
  { d with
    autoconfig := autoconfig
    graphicsBoards := chain ++ List.replicate (Graffity.maxGraffityBoards - chain.length) none
    graphics := some card }

def withFastRam (d : BusDevices δ ρ π) (mem : ByteSlice) : BusDevices δ ρ π :=
  let (board, autoconfig) :=
    d.autoconfig.addBoard (Fastram.autoconfigBoardSpec (mem.size % 0x100000000))
  { d with
    ram := { d.ram with fastRamBoard := board, fastRam := some mem }
    autoconfig := autoconfig }.refreshWindows

def withInput (d : BusDevices δ ρ π) (diagRom : List Byte) : BusDevices δ ρ π :=
  match d.input with
  | some _ => d
  | none =>
    let (board, autoconfig) := d.autoconfig.addBoard NativeInput.boardSpec
    { d with
      inputBoard := board
      autoconfig := autoconfig
      input := some (NativeInput.new diagRom) }

def withPktport (d : BusDevices δ ρ π) (backend : ρ) (diagRom : List Byte) : BusDevices δ ρ π :=
  let (board, autoconfig) := d.autoconfig.addBoard Pktport.boardSpec
  { d with
    pktportBoard := board
    autoconfig := autoconfig
    pktport := some (Pktport.new backend diagRom) }

def withRtgboard (d : BusDevices δ ρ π) (vram : ByteSlice)
    (catalog : List Rtgboard.ModeDescriptor) : BusDevices δ ρ π :=
  let (board, autoconfig) := d.autoconfig.addBoard RtgBoard.boardSpec
  { d with rtgBoard := board, autoconfig := autoconfig, rtg := some (RtgBoard.new vram catalog) }

def withPcibridge (d : BusDevices δ ρ π) (backend : π) : BusDevices δ ρ π :=
  let (board, autoconfig) := d.autoconfig.addBoard PciBridge.boardSpec
  { d with
    pcibridgeBoard := board
    autoconfig := autoconfig
    pcibridge := some (PciBridge.new backend) }.refreshWindows

def withExtRom (d : BusDevices δ ρ π) (extRom : ByteSlice) : BusDevices δ ρ π :=
  { d with extRom := extRom }

/-- The floppy's status bits on CIA-A's input pins. -/
def syncFloppyStatus (d : BusDevices δ ρ π) : BusDevices δ ρ π :=
  { d with
    ciaA := { d.ciaA with
      praInput := (d.ciaA.praInput &&& ~~~Floppy.floppyPraMask) ||| d.floppy.praStatusBits } }

def withFloppy (d : BusDevices δ ρ π) (presence : Floppy.FloppyPresence) : BusDevices δ ρ π :=
  { d with floppy := FloppyDrive.new presence }.syncFloppyStatus

/-! ## The mouse -/

def mouseDelta (d : BusDevices δ ρ π) (dx dy : Byte) : BusDevices δ ρ π :=
  { d with chipset := d.chipset.mouseDelta dx dy }

/-- The left button is a CIA-A pin, the other two are `POTGOR` bits. -/
def mouseButton (d : BusDevices δ ρ π) (button : Chipset.MouseButton) (pressed : Bool) :
    BusDevices δ ρ π :=
  if button = .left then
    { d with
      ciaA := { d.ciaA with
        praInput :=
          if pressed then d.ciaA.praInput &&& ~~~ciaAPraFir0
          else d.ciaA.praInput ||| ciaAPraFir0 } }
  else { d with chipset := d.chipset.mouseButton button pressed }

end BusDevices

end M68kMachine
