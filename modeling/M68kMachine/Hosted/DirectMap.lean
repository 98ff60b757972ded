import M68kMachine.Hosted.PageTable
import M68kMachine.Library.Reservation
import M68kMachine.Machine.Runs

/-!
# The direct map

`directmap.rs` of `machine-hosted`, and the way `bus.rs` puts it in front of the machine. Chip RAM
and fast RAM are shared-memory objects, of which a second view is mapped into a reservation of the
whole guest address space. A table of page types says where an access may go there; every other goes
to the machine.

* `buildPageTable` — the classification, fixed ranges first and placed boards after them
* `DirectMap` — the reservation, the table and the fingerprint they were built for
* `load`, `store` — a byte of the reservation; `none` is a fault
* `DirectBus` — the adapter with the map in place
-/

namespace M68kMachine

open Autoconfig

/-! ## The bus as the classifier sees it -/

namespace BusDevices

variable {δ ρ π : Type}

/-- `fast_ram_window`: the placed window, clamped to the buffer behind it. -/
def fastRamWindow (d : BusDevices δ ρ π) : Option (Long × Long) :=
  match d.ram.fastWindow, d.ram.fastRam with
  | some (base, windowLen), some mem =>
    let memLen : Long := BitVec.ofNat 32 mem.size
    some (base, if memLen.toNat < windowLen.toNat then memLen else windowLen)
  | _, _ => none

end BusDevices

/-- What a page table was built for. -/
structure Fingerprint where
  overlay : Bool
  placements : List (Option (Long × Long))
  fastWindow : Option (Long × Long)
  deriving DecidableEq

def Fingerprint.of {δ ρ π : Type} (d : BusDevices δ ρ π) : Fingerprint where
  overlay := d.overlay
  placements := (List.range maxBoards).map fun i =>
    (d.autoconfig.placement i).map fun p => (p.base, p.sizeBytes)
  fastWindow := d.fastRamWindow

/-! ## Page types -/

namespace PageTable

/-- The number of the page that holds an address. -/
def number (addr : Nat) : Nat := addr / 65536

/-- Retype the pages `first … last - 1`, those beyond the table apart. -/
def fill (pages : PageTable) (first last : Nat) (t : PageType) : PageTable := fun p =>
  if first ≤ p.val ∧ p.val < last then t else pages p

/-- As `fill`, but a page of RAM stays. -/
def fillBeside (pages : PageTable) (first last : Nat) (t : PageType) : PageTable := fun p =>
  if first ≤ p.val ∧ p.val < last ∧ pages p ≠ .ram then t else pages p

/-- `saturating_add` on guest addresses. -/
def saturating (a b : Nat) : Nat := min (a + b) 0xFFFFFFFF

/-- The fixed ranges of the machine's map, the later of two that overlap winning. -/
def fixed (overlay romIsFullWindow : Bool) : PageTable :=
  let pages : PageTable := fun _ => .openBus
  let pages := pages.fill (number chipRamBase) (number chipRamEnd) .ram
  -- While the overlay is mapped, reads of the low pages are redirected.
  let pages :=
    if overlay then pages.fill (number chipRamBase) (number overlayEnd) .io else pages
  let pages := pages.fill (number ciaBase) (number ciaEnd) .io
  let pages := pages.fill (number customBase) (number customBase + 1) .io
  let pages := pages.fill (number autoconfigBase) (number autoconfigEnd) .io
  let pages := pages.fill (number extRomBase) (number (extRomBase + extRomWindowSize)) .io
  pages.fill (number romBase) (number romEnd) (if romIsFullWindow then .rom else .io)

/-- The pages of fast RAM's board: `mapped` bytes of RAM, and the rest of its window. -/
def placeFastRam (pages : PageTable) (cfg : Configured) (mapped : Nat) : PageTable :=
  let ramEnd := saturating cfg.base.toNat mapped
  let declEnd := saturating cfg.base.toNat cfg.sizeBytes.toNat
  (pages.fill (number cfg.base.toNat) (number ramEnd) .ram).fillBeside (number ramEnd)
    (number (declEnd - 1) + 1) .io

/-- The pages of any other board. -/
def placeBoard (pages : PageTable) (cfg : Configured) : PageTable :=
  let last := saturating cfg.base.toNat cfg.sizeBytes.toNat
  pages.fill (number cfg.base.toNat) (number (max (last - 1) cfg.base.toNat) + 1) .io

end PageTable

section Build

variable {δ ρ π : Type}

/-- One round of the loop over the chain. -/
def placePages (d : BusDevices δ ρ π) (fastRamMapped : Option (Long × Long)) (pages : PageTable)
    (i : Nat) : PageTable :=
  match d.autoconfig.placement i with
  | none => pages
  | some cfg =>
    if d.fastRamWindow.any fun window => window.1 = cfg.base then
      -- What is RAM here is what the caller has mapped, not what the window declares.
      let mapped := (fastRamMapped.filter fun m => m.1 = cfg.base).elim 0 fun m => m.2.toNat
      pages.placeFastRam cfg mapped
    else pages.placeBoard cfg

def buildPageTable (d : BusDevices δ ρ π) (romIsFullWindow : Bool)
    (fastRamMapped : Option (Long × Long)) : PageTable :=
  (List.range maxBoards).foldl (placePages d fastRamMapped)
    (PageTable.fixed d.overlay romIsFullWindow)

end Build

/-! ## The reservation -/

/-- What can be mapped into the reservation. -/
inductive MapObject
  /-- The shared-memory object behind chip RAM. -/
  | chipRam
  /-- The shared-memory object behind fast RAM. -/
  | fastRam
  /-- The copy of the ROM image, read-only. -/
  | romCopy (bytes : Buffer Byte romWindowSize)
  /-- `PROT_NONE`. -/
  | protNone

structure DirectMap where
  reservation : Reservation MapObject
  pages : PageTable
  /-- Whether fast RAM is behind a file descriptor that can be mapped. -/
  fastFd : Bool
  /-- What of fast RAM is mapped into the reservation. -/
  fastAlias : Option (Long × Long)
  romIsFullWindow : Bool
  fingerprint : Fingerprint

namespace DirectMap

/-- `alias`: map an object at a guest address. -/
def aliased (r : Reservation MapObject) (object : MapObject) (base len : Nat) :
    Reservation MapObject :=
  if len = 0 then r else r.mmap base len object

def unalias (r : Reservation MapObject) (base len : Nat) : Reservation MapObject :=
  if len = 0 then r else r.mmap base len .protNone

/-- The ROM image in fresh zero pages, as far as the window reaches. -/
def romCopy (rom : ByteSlice) : Buffer Byte romWindowSize := fun i => (rom.get? i.val).getD 0

def mapRom (r : Reservation MapObject) (rom : ByteSlice) : Reservation MapObject :=
  r.mmap romBase romWindowSize (.romCopy (romCopy rom))

section Sync

variable {δ ρ π : Type}

def rebuild (dm : DirectMap) (d : BusDevices δ ρ π) : DirectMap :=
  { dm with pages := buildPageTable d dm.romIsFullWindow dm.fastAlias }

/-- `DirectMap::new`, its system calls succeeding. -/
def new (fastFd : Bool) (d : BusDevices δ ρ π) : DirectMap :=
  let dm : DirectMap :=
    { reservation := mapRom (aliased [] .chipRam chipRamBase chipRamSize) d.rom
      pages := fun _ => .openBus
      fastFd := fastFd
      fastAlias := none
      romIsFullWindow := d.rom.size = romWindowSize
      fingerprint := ⟨false, List.replicate maxBoards none, none⟩ }
  { dm.rebuild d with fingerprint := Fingerprint.of d }

/-- Move fast RAM's alias to where its window is now, if the system call succeeds. -/
def moveAlias (dm : DirectMap) (window : Option (Long × Long)) (mmapOk : Bool) : DirectMap :=
  let dm :=
    match dm.fastAlias with
    | some (base, len) =>
      { dm with
        reservation := unalias dm.reservation base.toNat len.toNat
        fastAlias := none }
    | none => dm
  match dm.fastFd, window with
  | true, some (base, len) =>
    -- Only whole pages can be mapped.
    let mappedLen := len - len % 65536
    if 0 < mappedLen.toNat ∧ mmapOk then
      { dm with
        reservation := aliased dm.reservation .fastRam base.toNat mappedLen.toNat
        fastAlias := some (base, mappedLen) }
    else dm
  | _, _ => dm

/-- `sync`: rebuild when what the table was built for has changed. -/
def sync (dm : DirectMap) (d : BusDevices δ ρ π) (mmapOk : Bool) : DirectMap :=
  let fp := Fingerprint.of d
  if fp = dm.fingerprint then dm
  else
    let dm := if fp.fastWindow ≠ dm.fingerprint.fastWindow then dm.moveAlias fp.fastWindow mmapOk
      else dm
    { dm.rebuild d with fingerprint := fp }

end Sync

/-! ## Accesses -/

/-- A byte of the reservation; `none` is a fault. -/
def load (dm : DirectMap) (ram : GuestRam) (addr : Nat) : Option Byte :=
  match dm.reservation.lookup addr with
  | some (.chipRam, off) => ram.chipRam.get? off
  | some (.fastRam, off) => ram.fastRam.bind fun mem => mem.get? off
  | some (.romCopy bytes, off) => bytes.get? off
  | some (.protNone, _) => none
  | none => none

/-- Store a byte into what is mapped there; `none` is a fault. -/
def store (dm : DirectMap) (ram : GuestRam) (addr : Nat) (value : Byte) : Option GuestRam :=
  match dm.reservation.lookup addr with
  | some (.chipRam, off) =>
    if off < chipRamSize then some { ram with chipRam := ram.chipRam.set off value } else none
  | some (.fastRam, off) =>
    ram.fastRam.bind fun mem =>
      if off < mem.size then some { ram with fastRam := some (mem.set off value) } else none
  -- The copy of the ROM is mapped without `PROT_WRITE`.
  | some (.romCopy _, _) => none
  | some (.protNone, _) => none
  | none => none

def loadBytes (dm : DirectMap) (ram : GuestRam) (addr width : Nat) : Option (List Byte) :=
  (List.range width).mapM fun i => dm.load ram (addr + i)

def storeBytes (dm : DirectMap) (ram : GuestRam) (addr : Nat) : List Byte → Option GuestRam
  | [] => some ram
  | byte :: bytes => (dm.store ram addr byte).bind fun ram => dm.storeBytes ram (addr + 1) bytes

def pageType (dm : DirectMap) (addr : Long) : PageType := dm.pages (pageOf addr)

/-- The types of the pages of the first and the last byte; `none` when the access wraps. -/
def accessPages (dm : DirectMap) (addr : Long) (width : Nat) : Option (PageType × PageType) :=
  (checkedAdd addr (BitVec.ofNat 32 (width - 1))).map fun last =>
    (dm.pageType addr, dm.pageType last)

/-- Whether a read may go to the reservation. -/
def ramOk (t : PageType) : Bool := t = .ram || t = .rom

/-- Outcome of a direct read: a value, an open-bus value, or nothing handled. -/
inductive ReadOutcome (α : Type)
  | ram (value : α)
  | openBus (value : α)
  | fallthrough

/-- Outcome of a direct write; a store leaves RAM changed. -/
inductive WriteOutcome
  | ram (ram : GuestRam)
  | openBus
  | fallthrough

/-- `read_impl!`: the bytes composed by `compose`; `none` is a fault. -/
def readWidth {α : Type} (dm : DirectMap) (ram : GuestRam) (addr : Long) (width : Nat)
    (compose : List Byte → α) (openBus : α) : Option (ReadOutcome α) :=
  match dm.accessPages addr width with
  | none => some .fallthrough
  | some (t0, t1) =>
    if ramOk t0 && ramOk t1 then
      (dm.loadBytes ram addr.toNat width).map fun bytes => .ram (compose bytes)
    else if t0 = .openBus ∧ t1 = .openBus then some (.openBus openBus)
    else some .fallthrough

def readByte (dm : DirectMap) (ram : GuestRam) (addr : Long) : Option (ReadOutcome Byte) :=
  dm.readWidth ram addr 1 (fun bytes => bytes.getD 0 0) 0xFF

def readWord (dm : DirectMap) (ram : GuestRam) (addr : Long) : Option (ReadOutcome Word) :=
  dm.readWidth ram addr 2 (fun bytes => be16 (bytes.getD 0 0) (bytes.getD 1 0)) 0xFFFF

def readLong (dm : DirectMap) (ram : GuestRam) (addr : Long) : Option (ReadOutcome Long) :=
  dm.readWidth ram addr 4
    (fun bytes => be32 (bytes.getD 0 0) (bytes.getD 1 0) (bytes.getD 2 0) (bytes.getD 3 0))
    0xFFFFFFFF

/-- `write_impl!`: the bytes stored from `addr` on; `none` is a fault. -/
def writeWidth (dm : DirectMap) (ram : GuestRam) (addr : Long) (bytes : List Byte) :
    Option WriteOutcome :=
  match dm.accessPages addr bytes.length with
  | none => some .fallthrough
  | some (t0, t1) =>
    if t0 = .ram ∧ t1 = .ram then (dm.storeBytes ram addr.toNat bytes).map .ram
    else if t0 = .openBus ∧ t1 = .openBus then some .openBus
    else some .fallthrough

def writeByte (dm : DirectMap) (ram : GuestRam) (addr : Long) (value : Byte) :
    Option WriteOutcome := dm.writeWidth ram addr [value]

def writeWord (dm : DirectMap) (ram : GuestRam) (addr : Long) (value : Word) :
    Option WriteOutcome := dm.writeWidth ram addr (MachineBus.toBytes16 value)

def writeLong (dm : DirectMap) (ram : GuestRam) (addr : Long) (value : Long) :
    Option WriteOutcome := dm.writeWidth ram addr (toBytes32 value)

end DirectMap

/-! ## The adapter -/

/-- `Bus` of `bus.rs` with the direct map in place and nothing that intercepts accesses. -/
structure DirectBus (δ ρ π : Type) where
  bus : MachineBus δ ρ π
  map : DirectMap

namespace DirectBus

variable {δ ρ π : Type} [BlockDevice δ] [PacketBackend ρ] [PciBackend π]

/-- A read: the reservation first, and the machine where that does not handle it. -/
def read {α : Type} (s : DirectBus δ ρ π) (direct : Option (DirectMap.ReadOutcome α))
    (slow : MachineBus δ ρ π → α × MachineBus δ ρ π) : Option (α × DirectBus δ ρ π) :=
  match direct with
  | none => none
  | some (.ram value) => some (value, s)
  | some (.openBus value) => some (value, s)
  | some .fallthrough => some ((slow s.bus).1, { s with bus := (slow s.bus).2 })

/-- A write; one that went to the machine is followed by a `sync`. -/
def write (s : DirectBus δ ρ π) (direct : Option DirectMap.WriteOutcome)
    (slow : MachineBus δ ρ π → MachineBus δ ρ π) (mmapOk : Bool) : Option (DirectBus δ ρ π) :=
  match direct with
  | none => none
  | some (.ram ram) => some { s with bus := s.bus.mapDevices fun d => { d with ram := ram } }
  | some .openBus => some s
  | some .fallthrough =>
    some { bus := slow s.bus, map := s.map.sync (slow s.bus).devices mmapOk }

/-- An access of the CPU and the value it reads, zero for a write; `none` is a fault. -/
def access (s : DirectBus δ ρ π) (mmapOk : Bool) : Access → Option (Long × DirectBus δ ρ π)
  | .readByte a =>
    (s.read (s.map.readByte s.bus.devices.ram a) (·.readByte a)).map fun r =>
      (r.1.setWidth 32, r.2)
  | .readWord a =>
    (s.read (s.map.readWord s.bus.devices.ram a) (·.readWord a)).map fun r =>
      (r.1.setWidth 32, r.2)
  | .readLong a => s.read (s.map.readLong s.bus.devices.ram a) (·.readLong a)
  | .writeByte a value =>
    (s.write (s.map.writeByte s.bus.devices.ram a value) (·.writeByte a value) mmapOk).map
      fun s => (0, s)
  | .writeWord a value =>
    (s.write (s.map.writeWord s.bus.devices.ram a value) (·.writeWord a value) mmapOk).map
      fun s => (0, s)
  | .writeLong a value =>
    (s.write (s.map.writeLong s.bus.devices.ram a value) (·.writeLong a value) mmapOk).map
      fun s => (0, s)

end DirectBus

/-! ## Runs -/

/-- What happens to a machine while its guest runs. -/
inductive LiveOp
  | access (a : Access)
  | tick (cpuClocks : Long)
  | host (op : HostOp)

namespace MachineBus

variable {δ ρ π : Type} [BlockDevice δ] [PacketBackend ρ] [PciBackend π]

/-- The value is what an access reads, zero for anything else. -/
def live (b : MachineBus δ ρ π) : LiveOp → Long × MachineBus δ ρ π
  | .access a => b.access a
  | .tick cpuClocks => (0, b.tick cpuClocks)
  | .host op => (0, b.stepHost op)

def liveRun (b : MachineBus δ ρ π) : List LiveOp → List Long × MachineBus δ ρ π
  | [] => ([], b)
  | op :: ops =>
    let (value, b) := b.live op
    let (values, b) := b.liveRun ops
    (value :: values, b)

end MachineBus

namespace DirectBus

variable {δ ρ π : Type} [BlockDevice δ] [PacketBackend ρ] [PciBackend π]

/-- The map is built once the machine is wired. -/
def new (fastFd : Bool) (b : MachineBus δ ρ π) : DirectBus δ ρ π :=
  { bus := b, map := DirectMap.new fastFd b.devices }

def live (s : DirectBus δ ρ π) (mmapOk : Bool) : LiveOp → Option (Long × DirectBus δ ρ π)
  | .access a => s.access mmapOk a
  | .tick cpuClocks => some (0, { s with bus := s.bus.tick cpuClocks })
  | .host op => some (0, { s with bus := s.bus.stepHost op })

/-- A run, with the answers of the system calls; `none` is a fault on the way. -/
def liveRun (s : DirectBus δ ρ π) : List (LiveOp × Bool) → Option (List Long × DirectBus δ ρ π)
  | [] => some ([], s)
  | (op, mmapOk) :: ops => do
    let (value, s) ← s.live mmapOk op
    let (values, s) ← s.liveRun ops
    some (value :: values, s)

end DirectBus

end M68kMachine
