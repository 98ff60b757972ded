import M68kMachine.Drivers.PrometheusLibrary
import M68kMachine.Library.BumpAllocator

/-!
# What the walk can meet

The functions of bus 0 as configuration cycles see them: `COMMAND`, six BAR registers of any form,
and the rest of the header. A BAR register latches what is written to it, the bits below its size
read back as its form wires them, and `COMMAND` enables the decoding.

* `BarForm`, `Layout` — the forms of the six registers
* `Header`, `Header.window` — a function, and what it decodes
* `Population` — the backend they make
-/

namespace M68kMachine

namespace Prometheus

open BumpAllocator (Window)
open Pci (Bdf allOnes)

/-- A memory BAR of 32 bits has 16 bytes to 2 GiB, `16 * 2 ^ log` of them. -/
inductive BarForm
  | absent
  | io (log : Fin 30)
  | mem32 (log : Fin 28) (prefetch : Bool)
  | mem64 (log : Fin 60) (prefetch : Bool)
  /-- The high half of the 64-bit BAR before it. -/
  | upper
deriving DecidableEq

namespace BarForm

/-- The bits of an address that a BAR decodes. -/
def writable : BarForm → Long
  | absent => 0
  | io log => BitVec.allOnes 32 <<< (log.val + 2)
  | mem32 log _ => BitVec.allOnes 32 <<< (log.val + 4)
  | mem64 log _ => BitVec.allOnes 32 <<< (log.val + 4)
  | upper => BitVec.allOnes 32

/-- The type bits. -/
def wired : BarForm → Long
  | absent => 0
  | io _ => 1
  | mem32 _ prefetch => if prefetch then 0x8 else 0
  | mem64 _ prefetch => if prefetch then 0xC else 0x4
  | upper => 0

def wide : BarForm → Bool
  | mem64 _ _ => true
  | _ => false

end BarForm

/-- The forms of the six registers. A high half stands behind a 64-bit BAR and nowhere else. -/
structure Layout where
  form : Fin 6 → BarForm
  first (i : Fin 6) (h : i.val = 0) : form i ≠ .upper
  upper (i j : Fin 6) (h : j.val = i.val + 1) : form j = .upper ↔ (form i).wide = true

/-- A function, as far as the walk reads and writes it. -/
structure Header where
  command : Word
  layout : Layout
  bars : Fin 6 → Long
  /-- The rest, by offset and width. -/
  other : Word → AccessWidth → Long

namespace Header

/-- What a BAR register reads as. -/
def register (h : Header) (i : Fin 6) : Long :=
  (h.bars i &&& (h.layout.form i).writable) ||| (h.layout.form i).wired

/-- The BAR register an access names. -/
def barAt (offset : Word) (width : AccessWidth) : Option (Fin 6) :=
  if width = .w32 then (List.finRange 6).find? fun i => barOffset i = offset else none

def read (h : Header) (offset : Word) (width : AccessWidth) : Long :=
  if offset = PciCfg.command ∧ width = .w16 then h.command.setWidth 32
  else
    match barAt offset width with
    | some i => h.register i
    | none => h.other offset width

/-- A write to a BAR register. -/
def latch (h : Header) (i : Fin 6) (value : Long) : Header :=
  { h with bars := Function.update h.bars i value }

def write (h : Header) (offset : Word) (width : AccessWidth) (value : Long) : Header :=
  if offset = PciCfg.command ∧ width = .w16 then { h with command := value.setWidth 16 }
  else
    match barAt offset width with
    | some i => h.latch i value
    | none => h

/-- The address bits of a memory BAR register. -/
def address (h : Header) (i : Fin 6) : Nat := (h.register i &&& ~~~0xF).toNat

/-- The register behind the low half of a 64-bit BAR. -/
def upperHalf (h : Header) (i : Fin 6) : Nat :=
  if hi : i.val + 1 < 6 then (h.register ⟨i.val + 1, hi⟩).toNat else 0

/-- The memory addresses a BAR decodes. -/
def window (h : Header) (i : Fin 6) : Option Window :=
  if h.command &&& pciCmdMemory = 0 then none
  else
    match h.layout.form i with
    | .mem32 log _ => some ⟨h.address i, 2 ^ (log.val + 4)⟩
    | .mem64 log _ =>
      let size := 2 ^ (log.val + 4)
      some ⟨(h.upperHalf i * 2 ^ 32 + h.address i) / size * size, size⟩
    | _ => none

end Header

/-- The functions of the bus. -/
structure Population where
  functionAt : Bdf → Option Header

namespace Population

def set (p : Population) (bdf : Bdf) (h : Header) : Population :=
  ⟨Function.update p.functionAt bdf (some h)⟩

/-- A population answers configuration cycles, and nothing else is asked of it here. -/
instance : PciBackend Population where
  configRead p bdf offset width :=
    match p.functionAt bdf with
    | some h => (h.read offset width, p)
    | none => (allOnes width, p)
  configWrite p bdf offset width value :=
    match p.functionAt bdf with
    | some h => p.set bdf (h.write offset width value)
    | none => p
  memRead p _ width := (allOnes width, p)
  memWrite p _ _ _ := p
  intxLevels p := (0, p)
  tick p mem := (p, mem)

end Population

namespace PciFunction

def bdf (f : PciFunction) : Bdf := ⟨f.bus, f.dev, f.fn⟩

/-- What the library recorded for a BAR. -/
def window (f : PciFunction) (i : Fin 6) : Window := ⟨(f.barPci i).toNat, (f.barSize i).toNat⟩

end PciFunction

end Prometheus

end M68kMachine
