import M68kMachine.Cards.VirtioNet
import M68kMachine.Drivers.VirtionetRuns

/-!
# The life of virtionet.device

From `DevInit` to `Expunge`: the start with all its failure exits, the open count, and the memory
shared with the device. What passes between the driver, exec and the device is logged.

* `Event` — the log: device status, queues enabled, memory taken and given back
* `vNetDevInit`, `vNetExpungeInternal` — the start and the end
* `Life.step` — any order of calls

Left out: the interrupt server, and `find_virtio_caps`, whose result is given to the start.
-/

namespace M68kMachine

namespace VNet

open GuestMemory

/-! ### Constants -/

namespace Status

abbrev acknowledge : Byte := 0x01
abbrev driver : Byte := 0x02
abbrev driverOk : Byte := 0x04
abbrev featuresOk : Byte := 0x08
abbrev failed : Byte := 0x80

end Status

abbrev netFMacBit : Nat := 5
abbrev fVersion1Bit : Nat := 0

/-! ### The log -/

/-- What `Prm_AllocDMABuffer` returned, and its size. -/
structure Block where
  addr : Long
  size : Long
  deriving DecidableEq

inductive Event
  /-- `device_status` written. -/
  | setStatus (value : Byte)
  /-- `queue_enable` written. -/
  | enable (i : QueueId)
  | alloc (b : Block)
  | free (b : Block)
  /-- The last pointer to a block went with the base that exec frees. -/
  | lost (b : Block)
  deriving DecidableEq

def Event.allocated : Event → Option Block
  | .alloc b => some b
  | _ => none

/-! ### Queue memory -/

/-- `min(queue_size, VNET_QUEUE_CAP)`. -/
def queueSize (devsize : Word) : Word := if devsize < queueCap then devsize else queueCap

def Dma.desc (dma : Dma) (qsize : Word) : Block :=
  ⟨dma.descRaw, qsize.setWidth 32 * BitVec.ofNat 32 Vring.descSize + (Vring.descAlign - 1)⟩

def Dma.avail (dma : Dma) (qsize : Word) : Block :=
  ⟨dma.availRaw, 4 + qsize.setWidth 32 * 2 + (Vring.availAlign - 1)⟩

def Dma.used (dma : Dma) (qsize : Word) : Block :=
  ⟨dma.usedRaw, 4 + qsize.setWidth 32 * Vring.usedElemSize + (Vring.usedAlign - 1)⟩

/-- The blocks that are not `NULL`. -/
def present (blocks : List Block) : List Block := blocks.filter fun b => b.addr ≠ 0

def Dma.rings (dma : Dma) (qsize : Word) : List Block :=
  present [dma.desc qsize, dma.avail qsize, dma.used qsize]

/-- Whether `setup_queue` succeeds. -/
def ringsReady (devsize : Word) (dma : Dma) : Bool :=
  queueSize devsize ≠ 0 && dma.descRaw ≠ 0 && dma.availRaw ≠ 0 && dma.usedRaw ≠ 0

/-- Whether every buffer of a queue was allocated. -/
def bufsReady (devsize : Word) (dma : Dma) : Bool :=
  (List.range (queueSize devsize).toNat).all fun i => dma.buf i ≠ 0

/-- `setup_queue`, as the log has it. -/
def setupQueueLog (i : QueueId) (devsize : Word) (dma : Dma) : List Event :=
  if queueSize devsize = 0 then []
  else
    (dma.rings (queueSize devsize)).map .alloc ++
      if ringsReady devsize dma then [.enable i] else []

/-- `init_tx_slots` and `post_rx_buffers`: they end with the first buffer that is `NULL`. -/
def bufLog (devsize : Word) (dma : Dma) : List Event :=
  ((List.range (queueSize devsize).toNat).takeWhile fun i => dma.buf i ≠ 0).map fun i =>
    .alloc ⟨dma.buf i, BitVec.ofNat 32 rxbufSize⟩

/-- `free_queue_dma`. -/
def freeQueueDma (qsize : Word) (dma : Dma) : List Event :=
  (present ((List.range qsize.toNat).map fun i => ⟨dma.buf i, BitVec.ofNat 32 rxbufSize⟩) ++
    dma.rings qsize).map .free

/-! ## DevInit -/

/-- What the start finds. -/
structure Probe where
  prometheus : Bool
  utility : Bool
  board : Bool
  memaddr0 : Long
  /-- what `find_virtio_caps` returns -/
  caps : Bool
  /-- the device status after the reset, read by read -/
  resetStatus : Nat → Byte
  featDev0 : Long
  featDev1 : Long
  statusReadback : Byte
  rxSize : Word
  txSize : Word
  rxDma : Dma
  txDma : Dma
  factoryMac : List Byte
  addIntServer : Bool

/-- The reads of the loop that waits for a reset, at most `polls` of them after the first `n`. -/
def pollReset (status : Nat → Byte) : Nat → Nat → Nat
  | 0, n => n
  | polls + 1, n => if status n = 0 then n + 1 else pollReset status polls (n + 1)

/-- The driver once it is started. -/
structure Loaded (μ : Type) where
  drv : Driver μ
  rxDma : Dma
  txDma : Dma
  /-- `lib_OpenCnt` -/
  openCnt : Word
  /-- `LIBF_DELEXP` -/
  delExp : Bool

/-- `fail_close_libs`: nothing is freed, and exec frees the base. -/
def failCloseLibs {α : Type} (log : List Event) : List Event × Option α :=
  (log ++ (log.filterMap Event.allocated).map .lost, none)

/-- The start up to the queues: the log, and whether it gets that far. -/
def negotiate (p : Probe) : List Event × Bool :=
  if !p.prometheus then ([], false)
  else if !p.utility then ([], false)
  else if !p.board then ([], false)
  else if p.memaddr0 = 0 then ([], false)
  else if !p.caps then ([], false)
  else
    let log := [.setStatus 0]
    if p.resetStatus (pollReset p.resetStatus 100000 0) ≠ 0 then (log, false)
    else
      let log := log ++
        [.setStatus Status.acknowledge, .setStatus (Status.acknowledge ||| Status.driver)]
      -- `fail_reset`
      if !p.featDev1.getLsbD fVersion1Bit then (log ++ [.setStatus 0], false)
      else if !p.featDev0.getLsbD netFMacBit then (log ++ [.setStatus 0], false)
      else
        let log := log ++
          [.setStatus (Status.acknowledge ||| Status.driver ||| Status.featuresOk)]
        if p.statusReadback &&& Status.featuresOk = 0 then
          (log ++ [.setStatus Status.failed], false)
        else (log, true)

/-- From `setup_queue` of the receive queue to the last buffer posted. -/
def queueLog (p : Probe) : List Event :=
  setupQueueLog .rx p.rxSize p.rxDma ++
    if !ringsReady p.rxSize p.rxDma then []
    else
      setupQueueLog .tx p.txSize p.txDma ++
        if !ringsReady p.txSize p.txDma then []
        else
          bufLog p.txSize p.txDma ++
            if !bufsReady p.txSize p.txDma then [] else bufLog p.rxSize p.rxDma

section

variable {μ : Type} [GuestMemory μ]

def vNetDevInit (p : Probe) (mem : μ) : List Event × Option (Loaded μ) :=
  let (log, negotiated) := negotiate p
  if !negotiated then failCloseLibs log
  else
    let log := log ++ queueLog p
    match devInit p.rxSize p.txSize p.rxDma p.txDma p.factoryMac mem with
    | none => failCloseLibs (log ++ [.setStatus Status.failed])
    | some drv =>
      if !p.addIntServer then failCloseLibs (log ++ [.setStatus Status.failed])
      else
        (log ++ [.setStatus
            (Status.acknowledge ||| Status.driver ||| Status.featuresOk ||| Status.driverOk)],
          some ⟨drv, p.rxDma, p.txDma, 0, false⟩)

/-! ## Open, Close and Expunge of the library -/

def vNetExpungeInternal (b : Loaded μ) : List Event × Option (Loaded μ) :=
  if b.openCnt ≠ 0 then ([], some { b with delExp := true })
  else
    (if b.drv.base.ready then
        freeQueueDma b.drv.base.rxq.qsize b.rxDma ++ freeQueueDma b.drv.base.txq.qsize b.txDma
      else [],
      none)

/-- `VNetOpen`. A refused open leaves the open count as it was. -/
def openLibrary (b : Loaded μ) (io : IOSana2Req) (unitnum : Long) (hooks : Bool) : Loaded μ :=
  let r := vNetOpen b.drv io unitnum hooks
  if r.2.error = 0 then { b with drv := r.1, openCnt := b.openCnt + 1, delExp := false }
  else { b with drv := r.1 }

def closeLibrary (b : Loaded μ) (io : IOSana2Req) : List Event × Option (Loaded μ) :=
  let b := { b with drv := vNetClose b.drv io, openCnt := b.openCnt - 1 }
  if b.openCnt = 0 ∧ b.delExp = true then vNetExpungeInternal b else ([], some b)

/-! ## Runs -/

inductive LifeOp (μ : Type)
  /-- The module is loaded; `mem` is the memory as it is then. -/
  | devInit (p : Probe) (mem : μ)
  | openDevice (io : IOSana2Req) (unitnum : Long) (hooks : Bool)
  | beginIo (io : IOSana2Req)
  /-- A `BeginIO` or `AbortIO` goes on. -/
  | resume (c : Call) (copied : Bool) (payload : List Byte)
  | abortIo (io : IOSana2Req)
  /-- A round of the interrupt handler. -/
  | rxUsed (copied : Bool)
  | txUsed
  /-- Somebody else changes the memory. -/
  | memory (mem : μ)
  | closeDevice (io : IOSana2Req)
  | expunge

/-- The device, when it is loaded, and the log. -/
structure Life (μ : Type) where
  base : Option (Loaded μ)
  log : List Event

namespace Life

def start : Life μ := ⟨none, []⟩

/-- What one call logs and leaves. -/
def act (base : Option (Loaded μ)) (op : LifeOp μ) : List Event × Option (Loaded μ) :=
  match base with
  | none =>
    match op with
    | .devInit p mem => vNetDevInit p mem
    | _ => ([], none)
  | some b =>
    match op with
    -- exec has the device in its list and does not load it again
    | .devInit _ _ => ([], some b)
    | .openDevice io unitnum hooks => ([], some (openLibrary b io unitnum hooks))
    | .beginIo io => ([], some { b with drv := (VNet.beginIo b.drv io).1 })
    | .resume c copied payload => ([], some { b with drv := (c.resume b.drv copied payload).1 })
    | .abortIo io => ([], some { b with drv := (vNetAbortIo b.drv io).2.1 })
    | .rxUsed copied => ([], some { b with drv := VNet.rxUsed b.drv copied })
    | .txUsed => ([], some { b with drv := VNet.txUsed b.drv })
    | .memory mem => ([], some { b with drv := b.drv.setMem mem })
    | .closeDevice io => closeLibrary b io
    | .expunge => vNetExpungeInternal b

def step (s : Life μ) (op : LifeOp μ) : Life μ :=
  let r := act s.base op
  ⟨r.2, s.log ++ r.1⟩

end Life

end

end VNet

end M68kMachine
