import Mathlib.Logic.Relation
import M68kMachine.Drivers.Virtionet
import M68kMachine.Library.WrapRing

/-!
# Runs of virtionet.device

Three parties take turns: tasks that call `Open`, `Close`, `BeginIO` and `AbortIO`, the interrupt
handler, and the device behind the rings. Calls are cut at their `Disable()` sections, the handler
wherever the device can get in between; the device acts at any time.

* `VirtioDevice` — what a device is to the driver
* `Sys`, `Step` — the three parties and what each may do next
* `RingDevice` — a device that completes each posted descriptor at most once, in any order
* `onRing`, `outstanding`, `answered` — where descriptors and requests are
-/

namespace M68kMachine

namespace VNet

open GuestMemory

/-! ## The system -/

inductive QueueId
  | rx
  | tx
  deriving DecidableEq

/-- A device: its ISR status, which is cleared by reading it, and what it may do by itself. -/
class VirtioDevice (δ μ : Type) where
  readIsr : δ → Byte × δ
  Acts : δ × μ → δ × μ → Prop

abbrev isrQueue : Byte := 1

/-- Where the interrupt handler is; `idx` is the `used.idx` its loop works up to. -/
inductive IsrPc
  | idle
  | rxEnter
  | rx (idx : Word)
  | txEnter
  | tx (idx : Word)

/-- The parties, and logs that no code reads: requests given to `BeginIO`, reads queued while the
unit was closed, reads an `Open` dropped, and frames published. -/
structure Sys (δ μ : Type) where
  drv : Driver μ
  dev : δ
  pc : IsrPc
  calls : List Call
  given : List Nat
  strays : List Nat
  lost : List Nat
  published : List Sent

/-- `CMD_READ` and `CMD_WRITE`. -/
def IOSana2Req.transfers (io : IOSana2Req) : Bool := io.command = .read || io.command = .write

def Call.io : Call → IOSana2Req
  | enqueue io | alloc io | fill io _ | abort io => io
  | publish sent _ _ => sent.io

/-- The slot a call is filling. -/
def Call.slot? : Call → Option Nat
  | fill _ slot | publish _ slot _ => some slot
  | _ => none

def VNetBase.queue (b : VNetBase) : QueueId → VNetQueue
  | .rx => b.rxq
  | .tx => b.txq

namespace Sys

variable {δ μ : Type}

def queued (s : Sys δ μ) : List Nat := s.drv.base.unit0.pendingReads.map IOSana2Req.node

/-- The writes whose slots await completion. -/
def inFlight (s : Sys δ μ) : List Nat :=
  (List.range s.drv.base.txq.qsize.toNat).filterMap fun k =>
    (s.drv.base.txq.pending k).map IOSana2Req.node

/-- The requests the driver holds. -/
def outstanding (s : Sys δ μ) : List Nat :=
  s.queued ++ s.inFlight ++ s.calls.map fun c => c.io.node

/-- The reads and writes that were replied, once for each reply. -/
def answered (s : Sys δ μ) : List Nat :=
  (s.drv.replies.filter IOSana2Req.transfers).map IOSana2Req.node

/-- The slots being filled. -/
def filling (s : Sys δ μ) : List Nat := s.calls.filterMap Call.slot?

/-! ### What a step does -/

section Steps

variable [GuestMemory μ]

def opened (s : Sys δ μ) (io : IOSana2Req) (unitnum : Long) (hooks : Bool) : Sys δ μ :=
  let r := vNetOpen s.drv io unitnum hooks
  { s with
    drv := r.1
    lost := s.lost ++ if r.2.error = 0 then s.queued else [] }

def closed (s : Sys δ μ) (io : IOSana2Req) : Sys δ μ := { s with drv := vNetClose s.drv io }

def begun (s : Sys δ μ) (io : IOSana2Req) : Sys δ μ :=
  let r := beginIo s.drv io
  { s with
    drv := r.1
    calls := s.calls ++ r.2.toList
    given := s.given ++ if io.transfers then [io.node] else [] }

def aborted (s : Sys δ μ) (io : IOSana2Req) : Sys δ μ :=
  let r := vNetAbortIo s.drv io
  { s with
    drv := r.2.1
    calls := s.calls ++ r.2.2.toList }

/-- The next section of the call `c`, between the calls `pre` and `post`. -/
def resumed (s : Sys δ μ) (pre : List Call) (c : Call) (post : List Call) (copied : Bool)
    (payload : List Byte) : Sys δ μ :=
  let r := c.resume s.drv copied payload
  { s with
    drv := r.1
    calls := pre ++ r.2.toList ++ post
    strays := s.strays ++
      match c with
      | .enqueue io => if s.drv.base.unit0.opencnt = 0 then [io.node] else []
      | _ => []
    published := s.published ++
      match c with
      | .publish sent _ _ => [sent]
      | _ => [] }

def atPc (s : Sys δ μ) (pc : IsrPc) : Sys δ μ := { s with pc := pc }

def withDriver (s : Sys δ μ) (d : Driver μ) : Sys δ μ := { s with drv := d }

end Steps

end Sys

/-! ### The rings as they stand in memory -/

section Views

variable {μ : Type} [GuestMemory μ]

def availIdx (mem : μ) (r : VRing) : Word := rdLe16 mem (r.avail + Vring.availIdx)

def availSlot (mem : μ) (r : VRing) (k : Nat) : Word :=
  rdLe16 mem (r.avail + Vring.availRing + BitVec.ofNat 32 k * 2)

def usedIdx (mem : μ) (r : VRing) : Word := rdLe16 mem (r.used + Vring.usedIdx)

def usedSlot (mem : μ) (r : VRing) (k : Nat) : Long × Long :=
  let elem := r.used + Vring.usedRing + BitVec.ofNat 32 k * Vring.usedElemSize
  (rdLe32 mem elem, rdLe32 mem (elem + 4))

/-- The descriptors made available and not yet fetched by the device. -/
def posted (mem : μ) (r : VRing) (lastAvail : Word) : List Word :=
  WrapRing.contents (availSlot mem r) r.qsize.toNat lastAvail (availIdx mem r)

/-- The used elements not yet seen by the driver. -/
def unseen (mem : μ) (r : VRing) (seen : Word) : List (Long × Long) :=
  WrapRing.contents (usedSlot mem r) r.qsize.toNat seen (usedIdx mem r)

end Views

/-! ### Steps -/

variable {δ μ : Type} [GuestMemory μ] [VirtioDevice δ μ]

/-- **One step of the system.** Tasks run outside the interrupt handler and give no request
twice. -/
inductive Step : Sys δ μ → Sys δ μ → Prop
  | openDevice {s : Sys δ μ} (io : IOSana2Req) (unitnum : Long) (hooks : Bool) :
      s.pc = .idle → Step s (s.opened io unitnum hooks)
  | closeDevice {s : Sys δ μ} (io : IOSana2Req) : s.pc = .idle → Step s (s.closed io)
  | beginIo {s : Sys δ μ} (io : IOSana2Req) :
      s.pc = .idle → io.node ∉ s.outstanding → Step s (s.begun io)
  | abortIo {s : Sys δ μ} (io : IOSana2Req) : s.pc = .idle → Step s (s.aborted io)
  | resume {s : Sys δ μ} {pre post : List Call} {c : Call} (copied : Bool) (payload : List Byte) :
      s.pc = .idle → s.calls = pre ++ c :: post → payload.length = c.io.dataLength.toNat →
      Step s (s.resumed pre c post copied payload)
  | interrupt {s : Sys δ μ} : s.pc = .idle → s.drv.base.ready = true →
      Step s
        { s with
          dev := (VirtioDevice.readIsr μ s.dev).2
          pc := if (VirtioDevice.readIsr μ s.dev).1 &&& isrQueue ≠ 0 then .rxEnter else .idle }
  | rxEnter {s : Sys δ μ} : s.pc = .rxEnter →
      Step s (s.atPc (.rx (usedIdx s.drv.mem s.drv.base.rxq.toVRing)))
  | rxRound {s : Sys δ μ} {idx : Word} (copied : Bool) :
      s.pc = .rx idx → s.drv.base.rxq.usedIdxSeen ≠ idx →
      Step s (s.withDriver (rxUsed s.drv copied))
  | rxDone {s : Sys δ μ} {idx : Word} :
      s.pc = .rx idx → s.drv.base.rxq.usedIdxSeen = idx → Step s (s.atPc .txEnter)
  | txEnter {s : Sys δ μ} : s.pc = .txEnter →
      Step s (s.atPc (.tx (usedIdx s.drv.mem s.drv.base.txq.toVRing)))
  | txRound {s : Sys δ μ} {idx : Word} :
      s.pc = .tx idx → s.drv.base.txq.usedIdxSeen ≠ idx → Step s (s.withDriver (txUsed s.drv))
  | txDone {s : Sys δ μ} {idx : Word} :
      s.pc = .tx idx → s.drv.base.txq.usedIdxSeen = idx → Step s (s.atPc .idle)
  | device {s : Sys δ μ} {dev : δ} {mem : μ} :
      VirtioDevice.Acts (s.dev, s.drv.mem) (dev, mem) →
      Step s { s with dev := dev, drv := s.drv.setMem mem }

/-- The states a run from `s` arrives at. -/
def Reaches (s t : Sys δ μ) : Prop := Relation.ReflTransGen Step s t

/-- Before the first step. -/
def Sys.start (drv : Driver μ) (dev : δ) : Sys δ μ :=
  { drv := drv
    dev := dev
    pc := .idle
    calls := []
    given := []
    strays := []
    lost := []
    published := [] }

/-! ## A device that completes each posting at most once -/

/-- A queue as the device has it, with the descriptors it has fetched and not completed. -/
structure DevQueue where
  ring : VRing
  lastAvailIdx : Word
  usedIdx : Word
  taken : List Word

structure RingDevice where
  queue : QueueId → DevQueue
  isr : Bool

def RingDevice.setQueue (v : RingDevice) (i : QueueId) (q : DevQueue) : RingDevice :=
  { v with queue := fun j => if j = i then q else v.queue j }

namespace VRing

def availCell (r : VRing) (k : Nat) : Region := ⟨r.avail.toNat + 4 + 2 * k, 2⟩

def usedCell (r : VRing) (k : Nat) : Region := ⟨r.used.toNat + 4 + 8 * k, 8⟩

def usedIdxCell (r : VRing) : Region := ⟨r.used.toNat + 2, 2⟩

def bufRegion (r : VRing) (k : Nat) : Region := ⟨(r.bufPtrs k).toNat, rxbufSize⟩

end VRing

/-- A used element stored: memory changes in its slot, in `used.idx` and in a receive buffer. -/
structure Completes (i : QueueId) (q : DevQueue) (id : Word) (len : Long) (mem mem' : μ) :
    Prop where
  elem : usedSlot mem' q.ring (WrapRing.pos q.ring.qsize.toNat q.usedIdx) = (id.setWidth 32, len)
  idx : VNet.usedIdx mem' q.ring = q.usedIdx + 1
  frame : Frame
    (q.ring.usedCell (WrapRing.pos q.ring.qsize.toNat q.usedIdx) :: q.ring.usedIdxCell ::
      if i = .rx then [q.ring.bufRegion id.toNat] else [])
    mem mem'

/-- It fetches descriptors in the order of the avail ring, and completes any it has fetched. -/
inductive RingDevice.Acts : RingDevice × μ → RingDevice × μ → Prop
  | fetch {v : RingDevice} {mem : μ} (i : QueueId) :
      (v.queue i).lastAvailIdx ≠ availIdx mem (v.queue i).ring →
      Acts (v, mem)
        (v.setQueue i
          { v.queue i with
            lastAvailIdx := (v.queue i).lastAvailIdx + 1
            taken := (v.queue i).taken ++
              [availSlot mem (v.queue i).ring
                (WrapRing.pos (v.queue i).ring.qsize.toNat (v.queue i).lastAvailIdx)] },
          mem)
  | complete {v : RingDevice} {mem mem' : μ} {i : QueueId} {id : Word} (len : Long) :
      id ∈ (v.queue i).taken → Completes i (v.queue i) id len mem mem' →
      Acts (v, mem)
        ({ v.setQueue i
            { v.queue i with
              usedIdx := (v.queue i).usedIdx + 1
              taken := (v.queue i).taken.erase id } with
          isr := true },
          mem')

instance : VirtioDevice RingDevice μ where
  readIsr v := (if v.isr then isrQueue else 0, { v with isr := false })
  Acts := RingDevice.Acts

/-- The device after `DevInit`, with the rings it was programmed with. -/
def RingDevice.programmed (b : VNetBase) : RingDevice where
  queue i := ⟨(b.queue i).toVRing, 0, 0, []⟩
  isr := false

/-! ### Where the descriptors are -/

/-- The descriptors of a queue that are on the ring: available, fetched, or used and not seen. -/
def Sys.onRing (s : Sys RingDevice μ) (i : QueueId) : List Nat :=
  (posted s.drv.mem (s.dev.queue i).ring (s.dev.queue i).lastAvailIdx).map BitVec.toNat ++
    (s.dev.queue i).taken.map BitVec.toNat ++
    (unseen s.drv.mem (s.drv.base.queue i).toVRing (s.drv.base.queue i).usedIdxSeen).map
      fun e => e.1.toNat

/-- Every write is completed, the interrupt served, and no call under way. -/
structure Sys.Served (s : Sys RingDevice μ) : Prop where
  fetched : posted s.drv.mem (s.dev.queue .tx).ring (s.dev.queue .tx).lastAvailIdx = []
  completed : (s.dev.queue .tx).taken = []
  deasserted : s.dev.isr = false
  returned : s.pc = .idle
  calls : s.calls = []

end VNet

end M68kMachine
