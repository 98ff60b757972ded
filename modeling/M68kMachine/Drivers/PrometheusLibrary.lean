import M68kMachine.Cards.Pcibridge

/-!
# prometheus.library

`prometheus_library.c`: the PCI bus library of the guest. At init it walks bus 0, sizes the BARs and
gives each a place in the aperture; afterwards it offers drivers configuration space, in the byte
order of the Prometheus SDK, and the shared interrupt lines.

* `cfgCycle` — one configuration cycle through the `CFG_*` registers
* `assignBar`, `assignBars`, `recordFunction`, `enumerateBus0` — the walk
* `prmReadConfigLong` and its five siblings — the accessors
* `prmAddIntServer`, `prmRemIntServer` — the line masks

Left out: the tag lists, `PRM_BoardOwner`, the DMA and address functions, and the narration, but for
the one a rejected cycle gives.
-/

namespace M68kMachine

namespace Prometheus

open Pcibridge

/-! ### Constants -/

abbrev opRead : Byte := 0
abbrev opWrite : Byte := 1

abbrev pciMemBase : Long := 0x20000000
abbrev pciMemBytes : Long := 0x800000
abbrev maxBoards : Nat := 32

namespace PciCfg

abbrev vendorDevice : Word := 0x00
abbrev command : Word := 0x04
abbrev revision : Word := 0x08
abbrev subClass : Word := 0x0A
abbrev class' : Word := 0x0B
abbrev headerType : Word := 0x0E
abbrev bar0 : Word := 0x10
abbrev intPin : Word := 0x3D

end PciCfg

abbrev pciCmdMemory : Word := 0x0002
abbrev pciCmdMaster : Word := 0x0004
abbrev pciHeaderMultifunction : Byte := 0x80
abbrev pciBarIoSpace : Long := 0x1
abbrev pciBarTypeMask : Long := 0x3
abbrev pciBarType64Bit : Long := 0x2

/-! ### The registers of the bridge -/

section

variable {π : Type} [PciBackend π]

/-- A longword register, four byte accesses on the bus. -/
def readLong (d : PciBridge π) (o : Nat) : Long × PciBridge π :=
  let (b0, d) := d.read o
  let (b1, d) := d.read (o + 1)
  let (b2, d) := d.read (o + 2)
  let (b3, d) := d.read (o + 3)
  (be32 b0 b1 b2 b3, d)

def writeLong (d : PciBridge π) (o : Nat) (value : Long) : PciBridge π :=
  (((d.write o (byteOf value 0)).write (o + 1) (byteOf value 1)).write (o + 2)
    (byteOf value 2)).write (o + 3) (byteOf value 3)

/-- What a cycle gives the caller, and whether the library had to narrate a rejection. -/
structure Cycle (π : Type) where
  value : Long
  rejected : Bool
  bridge : PciBridge π

/-- `cfg_cycle`, between its `Disable()` and `Enable()`. -/
def cfgCycle (d : PciBridge π) (bus dev fn : Byte) (offset : Word) (width op : Byte)
    (wdata : Long) : Cycle π :=
  let addr : Long := (bus.setWidth 32 <<< 20) ||| (dev.setWidth 32 <<< 15) |||
    (fn.setWidth 32 <<< 12) ||| (offset.setWidth 32 &&& 0x0FFF)
  let d := if op = opWrite then writeLong d Reg.cfgData wdata else d
  let d := writeLong d Reg.cfgAddr addr
  let d := d.write (Reg.cfgWidth + 3) width
  let d := d.write (Reg.cfgOp + 3) op
  let (status, d) := d.read (Reg.cfgStatus + 3)
  let rejected := status &&& Status.rejected ≠ 0
  let (value, d) :=
    if rejected then (0xFFFFFFFF, d)
    else if op = opRead then readLong d Reg.cfgData
    else (0xFFFFFFFF, d)
  { value := value
    rejected := rejected
    bridge := d.write (Reg.cfgStatus + 3) 0xFF }

end

/-! ### The walk -/

/-- A recorded function. -/
structure PciFunction where
  bus : Byte
  dev : Byte
  fn : Byte
  intPin : Byte
  vendor : Word
  device : Word
  revision : Byte
  class' : Byte
  subClass : Byte
  /-- Where each BAR was placed; zero for one that was not. -/
  barPci : Fin 6 → Long
  barSize : Fin 6 → Long

/-- Where the walk stands. -/
structure Scan (π : Type) where
  bridge : PciBridge π
  boards : List PciFunction
  nextFree : Long

section

variable {π : Type} [PciBackend π]

/-- A function while its BARs are assigned. -/
structure Assign (π : Type) where
  bridge : PciBridge π
  f : PciFunction
  nextFree : Long

namespace Assign

/-- A cycle to the function, without its value. -/
def write (a : Assign π) (offset : Word) (width : Byte) (value : Long) : Assign π :=
  { a with
    bridge := (cfgCycle a.bridge a.f.bus a.f.dev a.f.fn offset width opWrite value).bridge }

def read (a : Assign π) (offset : Word) (width : Byte) : Long × Assign π :=
  let c := cfgCycle a.bridge a.f.bus a.f.dev a.f.fn offset width opRead 0
  (c.value, { a with bridge := c.bridge })

def place (a : Assign π) (i : Fin 6) (aligned size : Long) : Assign π :=
  { a with
    f := { a.f with
      barPci := Function.update a.f.barPci i aligned
      barSize := Function.update a.f.barSize i size }
    nextFree := aligned + size }

end Assign

def barOffset (i : Fin 6) : Word := PciCfg.bar0 + BitVec.ofNat 16 (i.val * 4)

/-- One BAR, and how many the loop goes on by. -/
def assignBar (a : Assign π) (i : Fin 6) : Assign π × Nat :=
  let off := barOffset i
  let (orig, a) := a.read off 4
  if orig &&& pciBarIoSpace ≠ 0 then (a, 1)
  else if (orig >>> 1) &&& pciBarTypeMask = pciBarType64Bit then (a, 2)
  else
    let a := a.write off 4 0xFFFFFFFF
    let (probed, a) := a.read off 4
    let a := a.write off 4 orig
    let mask := probed &&& ~~~0xF
    if mask = 0 then (a, 1)
    else
      let size := ~~~mask + 1
      let aligned := (a.nextFree + (size - 1)) &&& ~~~(size - 1)
      if (pciMemBase + pciMemBytes).toNat < (aligned + size).toNat ∨
          (aligned + size).toNat < aligned.toNat then (a, 1)
      else ((a.place i aligned size).write off 4 aligned, 1)

/-- The BARs from index `i` on, with as many rounds left. -/
def assignFrom : Nat → Nat → Assign π → Assign π
  | 0, _, a => a
  | rounds + 1, i, a =>
    if h : i < 6 then
      let (a, n) := assignBar a ⟨i, h⟩
      assignFrom rounds (i + n) a
    else a

def assignBars (a : Assign π) : Assign π :=
  let (cmd, a) := a.read PciCfg.command 2
  let a := a.write PciCfg.command 2 ((cmd.setWidth 16 &&& ~~~pciCmdMemory).setWidth 32)
  let a := assignFrom 6 0 a
  a.write PciCfg.command 2 ((pciCmdMemory ||| pciCmdMaster).setWidth 32)

/-- One live function, or `none` at the board cap. -/
def recordFunction (s : Scan π) (bus dev fn : Byte) : Option (Scan π) :=
  if maxBoards ≤ s.boards.length then none
  else
    let read := fun (d : PciBridge π) (offset : Word) (width : Byte) =>
      let c := cfgCycle d bus dev fn offset width opRead 0
      (c.value, c.bridge)
    let (vendev, d) := read s.bridge PciCfg.vendorDevice 4
    let (revision, d) := read d PciCfg.revision 1
    let (cls, d) := read d PciCfg.class' 1
    let (subClass, d) := read d PciCfg.subClass 1
    let (intPin, d) := read d PciCfg.intPin 1
    let f : PciFunction :=
      { bus := bus
        dev := dev
        fn := fn
        intPin := intPin.setWidth 8
        vendor := (vendev &&& 0xFFFF).setWidth 16
        device := ((vendev >>> 16) &&& 0xFFFF).setWidth 16
        revision := revision.setWidth 8
        class' := cls.setWidth 8
        subClass := subClass.setWidth 8
        barPci := fun _ => 0
        barSize := fun _ => 0 }
    let a := assignBars ⟨d, f, s.nextFree⟩
    some ⟨a.bridge, s.boards ++ [a.f], a.nextFree⟩

/-- The vendor register of a function, whole. -/
def readVendor (s : Scan π) (bus dev fn : Byte) : Long × Scan π :=
  let c := cfgCycle s.bridge bus dev fn PciCfg.vendorDevice 4 opRead 0
  (c.value, { s with bridge := c.bridge })

/-- An absent function is all ones. -/
def absent (vendev : Long) : Bool := (vendev &&& 0xFFFF).setWidth 16 = (0xFFFF : Word)

/-- The functions `fns` of a device, and whether the walk goes on. -/
def scanFunctions (dev : Byte) : List Byte → Scan π → Scan π × Bool
  | [], s => (s, true)
  | fn :: fns, s =>
    let (vendev, s) := readVendor s 0 dev fn
    if absent vendev then scanFunctions dev fns s
    else
      match recordFunction s 0 dev fn with
      | none => (s, false)
      | some s => scanFunctions dev fns s

def scanDevice (s : Scan π) (dev : Byte) : Scan π × Bool :=
  let (vendev, s) := readVendor s 0 dev 0
  if absent vendev then (s, true)
  else
    match recordFunction s 0 dev 0 with
    | none => (s, false)
    | some s =>
      let c := cfgCycle s.bridge 0 dev 0 PciCfg.headerType 1 opRead 0
      let s := { s with bridge := c.bridge }
      if c.value.setWidth 8 &&& pciHeaderMultifunction = 0 then (s, true)
      else scanFunctions dev [1, 2, 3, 4, 5, 6, 7] s

def scanDevices : List Byte → Scan π → Scan π
  | [], s => s
  | dev :: devs, s =>
    let (s, goOn) := scanDevice s dev
    if goOn then scanDevices devs s else s

/-- `enumerate_bus0`. -/
def enumerateBus0 (d : PciBridge π) : Scan π :=
  scanDevices ((List.range 32).map (BitVec.ofNat 8)) ⟨d, [], pciMemBase⟩

end

/-! ### The accessors -/

section

variable {π : Type} [PciBackend π] (d : PciBridge π)

/-- The ones a return value has room for. -/
def onesOf (width : Byte) : Long := if width = 1 then 0xFF else if width = 2 then 0xFFFF else
  0xFFFFFFFF

/-- A read cycle to a board, cut to the width of the return value; all ones for no board. -/
def readConfig (board : Option PciFunction) (offset : Byte) (width : Byte) : Cycle π :=
  match board with
  | none => ⟨onesOf width, false, d⟩
  | some f =>
    let c := cfgCycle d f.bus f.dev f.fn (offset.setWidth 16) width opRead 0
    { c with value := c.value &&& onesOf width }

def writeConfig (board : Option PciFunction) (offset : Byte) (width : Byte) (value : Long) :
    Cycle π :=
  match board with
  | none => ⟨0, false, d⟩
  | some f => cfgCycle d f.bus f.dev f.fn (offset.setWidth 16) width opWrite value

def prmReadConfigLong (board : Option PciFunction) (offset : Byte) : Cycle π :=
  readConfig d board (offset &&& ~~~3) 4

def prmReadConfigWord (board : Option PciFunction) (offset : Byte) : Cycle π :=
  readConfig d board ((offset &&& ~~~1) ^^^ 2) 2

def prmReadConfigByte (board : Option PciFunction) (offset : Byte) : Cycle π :=
  readConfig d board (offset ^^^ 3) 1

def prmWriteConfigLong (board : Option PciFunction) (data : Long) (offset : Byte) : Cycle π :=
  writeConfig d board (offset &&& ~~~3) 4 data

def prmWriteConfigWord (board : Option PciFunction) (data : Word) (offset : Byte) : Cycle π :=
  writeConfig d board ((offset &&& ~~~1) ^^^ 2) 2 (data.setWidth 32)

def prmWriteConfigByte (board : Option PciFunction) (data : Byte) (offset : Byte) : Cycle π :=
  writeConfig d board (offset ^^^ 3) 1 (data.setWidth 32)

end

/-! ### Interrupts -/

/-- exec's interrupt servers, each the address of its `struct Interrupt`, zero for none. -/
class ServerChain (χ : Type) where
  addIntServer : χ → Long → χ
  remIntServer : χ → Long → χ
  Linked : χ → Long → Prop

/-- Adding a server links it, and neither call takes another one out. -/
class LawfulServerChain (χ : Type) [ServerChain χ] : Prop where
  linked_add_self : ∀ (chain : χ) (intr : Long),
    ServerChain.Linked (ServerChain.addIntServer chain intr) intr
  linked_add : ∀ (chain : χ) (intr intr' : Long), ServerChain.Linked chain intr' →
    ServerChain.Linked (ServerChain.addIntServer chain intr) intr'
  linked_rem : ∀ (chain : χ) (intr intr' : Long), intr' ≠ intr → ServerChain.Linked chain intr' →
    ServerChain.Linked (ServerChain.remIntServer chain intr) intr'

/-- The line counts of the library and the `PORTS` chain of exec. -/
structure Servers (π χ : Type) where
  bridge : PciBridge π
  intxRefCount : Fin 4 → Long
  ports : χ

section

variable {π χ : Type} [PciBackend π] [ServerChain χ]

/-- The line of an interrupt pin: `INTA` to `INTD` are pins 1 to 4. -/
def intxLine (pin : Byte) : Option (Fin 4) :=
  if h : 1 ≤ pin.toNat ∧ pin.toNat ≤ 4 then some ⟨pin.toNat - 1, by omega⟩ else none

/-- The enable register, read, changed and written back. -/
def updateEnable (d : PciBridge π) (f : Long → Long) : PciBridge π :=
  let (enable, d) := readLong d Reg.intxEnable
  writeLong d Reg.intxEnable (f enable)

def prmAddIntServer (s : Servers π χ) (board : Option PciFunction) (intr : Long) :
    Bool × Servers π χ :=
  match board with
  | none => (false, s)
  | some f =>
    if intr = 0 then (false, s)
    else
      let s := { s with ports := ServerChain.addIntServer s.ports intr }
      match intxLine f.intPin with
      | none => (true, s)
      | some line =>
        (true, { s with
          intxRefCount := Function.update s.intxRefCount line (s.intxRefCount line + 1)
          bridge := updateEnable s.bridge fun enable => enable ||| ((1 : Long) <<< line.val) })

/-- A line is disabled with its last server. -/
def releaseLine (s : Servers π χ) (line : Fin 4) : Servers π χ :=
  if s.intxRefCount line = 0 then s
  else
    let count := s.intxRefCount line - 1
    let s := { s with intxRefCount := Function.update s.intxRefCount line count }
    if count = 0 then
      { s with
        bridge := updateEnable s.bridge fun enable => enable &&& ~~~((1 : Long) <<< line.val) }
    else s

def prmRemIntServer (s : Servers π χ) (board : Option PciFunction) (intr : Long) : Servers π χ :=
  if intr = 0 then s
  else
    let s := { s with ports := ServerChain.remIntServer s.ports intr }
    match board with
    | none => s
    | some f =>
      match intxLine f.intPin with
      | none => s
      | some line => releaseLine s line

/-- The library once `LibInit` is done: the counts of a cleared base, and the aperture banked. -/
def libInit (d : PciBridge π) (ports : χ) : Servers π χ where
  bridge := writeLong (enumerateBus0 d).bridge Reg.apertureBase pciMemBase
  intxRefCount := fun _ => 0
  ports := ports

end

end Prometheus

end M68kMachine
