import M68kMachine.Core.Autoconfig
import M68kMachine.Core.GuestRam

/-!
# The `pktport` DosPacket transport card

The register file and the one-request engine of `pktport.rs`. A doorbell latches the address of a
descriptor; the next `tick` lets the filesystem execute it and stores the results.
-/

namespace M68kMachine

open Autoconfig

/-- The filesystem service behind the card, whatever guest memory it is handed. -/
class PacketBackend (ρ : Type) where
  execute {μ : Type} [GuestMemory μ] : ρ → Long → List Long → μ → (Long × Long) × ρ × μ

/-- What the borrow a backend is handed lets it do to memory. -/
class LawfulPacketBackend (ρ : Type) [PacketBackend ρ] : Prop where
  touched {μ : Type} [GuestMemory μ] (b : ρ) (action : Long) (args : List Long) (mem : μ) :
    GuestMemory.Touched mem (PacketBackend.execute b action args mem).2.2

/-- A machine without the card has no backend. -/
instance : PacketBackend Empty where
  execute b := nomatch b

instance : LawfulPacketBackend Empty where
  touched b := nomatch b

namespace Pktport

abbrev manufacturer : Word := 0x07DB
abbrev product : Byte := 5
abbrev windowBytes : Long := 0x00010000
abbrev romBase : Nat := 0x1000
abbrev protocolVersion : Long := 1
abbrev requestCapacity : Long := 1
abbrev volumeCount : Long := 1
abbrev descLen : Long := 0x40
abbrev res1Offset : Long := 0x20
abbrev res2Offset : Long := 0x24
abbrev statusOffset : Long := 0x28

/-! ### Register offsets (`mod reg`) -/

namespace Reg

abbrev version : Nat := 0x00
abbrev capacity : Nat := 0x04
abbrev reqPtr : Nat := 0x08
abbrev doorbell : Nat := 0x0C
abbrev intStatus : Nat := 0x10
abbrev intEnable : Nat := 0x14
abbrev volCount : Nat := 0x18

end Reg

end Pktport

open Pktport

/-- `pktport`'s registers and the backend it is lent. `diagRom` is the constant `DIAG_ROM`. -/
structure Pktport (ρ : Type) where
  backend : ρ
  reqPtr : Long
  pending : Option Long
  doorbellOverflow : Long
  droppedDescriptors : Long
  intStatus : Byte
  intEnable : Byte
  diagRom : List Byte

namespace Pktport

variable {ρ μ : Type}

def new (backend : ρ) (diagRom : List Byte) : Pktport ρ where
  backend := backend
  reqPtr := 0
  pending := none
  doorbellOverflow := 0
  droppedDescriptors := 0
  intStatus := 0
  intEnable := 0
  diagRom := diagRom

def boardSpec : BoardSpec where
  boardType := ertZorroII ||| ertfDiagvalid ||| 0x01
  product := product
  flags := 0
  manufacturer := manufacturer
  serial := 0
  initDiagVec := BitVec.ofNat 16 romBase
  sizeBytes := windowBytes

def busy (p : Pktport ρ) : Bool := p.pending.isSome

def irqPending (p : Pktport ρ) : Bool := p.intEnable &&& 1 ≠ 0 && p.intStatus ≠ 0

/-- A doorbell while a request is latched is dropped and counted. -/
def submit (p : Pktport ρ) : Pktport ρ :=
  if p.pending.isSome then { p with doorbellOverflow := p.doorbellOverflow + 1 }
  else { p with pending := some p.reqPtr }

/-! ## The engine -/

/-- The action and arguments of the descriptor at `ptr`, if it is aligned and reachable. -/
def readDescriptor [GuestMemory μ] (ptr : Long) (mem : μ) : Option (Long × List Long) :=
  if ptr.toNat % 4 ≠ 0 then none
  else
    (GuestMemory.ramSlice mem ptr descLen).map fun d =>
      let at32 (i : Nat) : Long :=
        be32 (d.getD i 0) (d.getD (i + 1) 0) (d.getD (i + 2) 0) (d.getD (i + 3) 0)
      (at32 0, (List.range 7).map fun i => at32 (4 + i * 4))

/-- A word of the descriptor stored back, where it is still RAM. -/
def writeResult [GuestMemory μ] (mem : μ) (addr value : Long) : μ :=
  (GuestMemory.store mem addr (toBytes32 value)).getD mem

def writeResults [GuestMemory μ] (mem : μ) (ptr res1 res2 : Long) : μ :=
  writeResult (writeResult (writeResult mem (ptr + res1Offset) res1) (ptr + res2Offset) res2)
    (ptr + statusOffset) 1

/-- Execute the latched request. A descriptor that cannot be read is dropped and counted. -/
def tick [PacketBackend ρ] [GuestMemory μ] (p : Pktport ρ) (mem : μ) : Pktport ρ × μ :=
  match p.pending with
  | none => (p, mem)
  | some ptr =>
    let p := { p with pending := none }
    match readDescriptor ptr mem with
    | none => ({ p with droppedDescriptors := p.droppedDescriptors + 1 }, mem)
    | some (action, args) =>
      let ((res1, res2), backend, mem) := PacketBackend.execute p.backend action args mem
      ({ p with backend := backend, intStatus := 1 }, writeResults mem ptr res1 res2)

/-! ## The register file -/

def read (p : Pktport ρ) (o : Nat) : Byte :=
  if inSlot o Reg.version then byteOf protocolVersion (o - Reg.version)
  else if inSlot o Reg.capacity then byteOf requestCapacity (o - Reg.capacity)
  else if inSlot o Reg.intStatus then lowByte o Reg.intStatus p.intStatus
  else if inSlot o Reg.intEnable then lowByte o Reg.intEnable p.intEnable
  else if inSlot o Reg.volCount then byteOf volumeCount (o - Reg.volCount)
  else diagRomByte p.diagRom romBase o

def write (p : Pktport ρ) (o : Nat) (value : Byte) : Pktport ρ :=
  if inSlot o Reg.reqPtr then { p with reqPtr := setByteOf p.reqPtr (o - Reg.reqPtr) value }
  else if inSlot o Reg.doorbell then if o - Reg.doorbell = 3 then p.submit else p
  else if inSlot o Reg.intStatus then
    -- write-1-to-clear, held back while a request is latched
    if o - Reg.intStatus = 3 ∧ value &&& 1 ≠ 0 ∧ p.busy = false then { p with intStatus := 0 }
    else p
  else if inSlot o Reg.intEnable then
    if o - Reg.intEnable = 3 then { p with intEnable := value } else p
  else p

/-! ## What a tick does to memory -/

theorem touched_writeResult [GuestMemory μ] (mem : μ) (addr value : Long) :
    GuestMemory.Touched mem (writeResult mem addr value) := by
  unfold writeResult
  cases h : GuestMemory.store mem addr (toBytes32 value) with
  | none => exact .refl mem
  | some mem' =>
    obtain ⟨old, put, hput, rfl⟩ := GuestMemory.exists_put_of_store h
    exact .put _ (.refl mem) hput

theorem touched_tick [PacketBackend ρ] [LawfulPacketBackend ρ] [GuestMemory μ] (p : Pktport ρ)
    (mem : μ) : GuestMemory.Touched mem (p.tick mem).2 := by
  unfold tick
  split
  · exact .refl mem
  · rename_i ptr _
    split
    · exact .refl mem
    · exact (LawfulPacketBackend.touched p.backend _ _ mem).trans
        (((touched_writeResult _ _ _).trans (touched_writeResult _ _ _)).trans
          (touched_writeResult _ _ _))

end Pktport

end M68kMachine
