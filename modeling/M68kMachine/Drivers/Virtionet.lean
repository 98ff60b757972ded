import M68kMachine.Core.GuestMemory

/-!
# virtionet.device

`virtionet_device.c`: the SANA-II network driver of the guest. It shares two virtqueues with the
network function through guest RAM: eight receive buffers that are recycled, and eight transmit
slots with a free list. Requests come in through `BeginIO` and are answered with `ReplyMsg`; the
interrupt handler collects what the device has used.

* `vqSetDesc`, `vqPushAvail`, `setupQueue`, `devInit` — the rings
* `rxUsed`, `txUsed` — one round of the interrupt handler's two loops
* `beginIo`, `Call` — `BeginIO`, cut where a `Disable()` section begins or ends
* `vNetAbortIo`, `vNetOpen`, `vNetClose`

Left out: `Expunge` and the open count, which only it reads, the notify write, and the narration. A
physical address is a CPU address on this machine.
-/

namespace M68kMachine

namespace VNet

open GuestMemory

/-! ### Constants -/

abbrev queueCap : Word := 8
abbrev frameMax : Nat := 1526
abbrev hdrSize : Nat := 12
abbrev rxbufSize : Nat := 1540
abbrev ethHdrLen : Nat := 14
abbrev ethMinFrame : Nat := 60

namespace Vring

abbrev descSize : Nat := 16
abbrev descFWrite : Word := 2
abbrev availIdx : Long := 2
abbrev availRing : Long := 4
abbrev usedIdx : Long := 2
abbrev usedRing : Long := 4
abbrev usedElemSize : Long := 8
abbrev descAlign : Long := 16
abbrev availAlign : Long := 2
abbrev usedAlign : Long := 4

end Vring

/-! `io_Error` -/

namespace IoErr

abbrev openFail : Byte := -1
abbrev aborted : Byte := -2
abbrev noCmd : Byte := -3
abbrev unitBusy : Byte := -6
abbrev noResources : Byte := 1
abbrev badArgument : Byte := 3
abbrev badState : Byte := 4
abbrev mtuExceeded : Byte := 6
abbrev notSupported : Byte := 8
abbrev outOfService : Byte := 10

end IoErr

/-! `ios2_WireError` -/

namespace WireErr

abbrev notConfigured : Long := 1
abbrev unitOffline : Long := 3
abbrev buffError : Long := 6
abbrev badMulticast : Long := 10
abbrev isConfigured : Long := 15
abbrev nullPointer : Long := 16

end WireErr

/-! ### Requests and the device base -/

/-- `io_Command`, one constructor for each arm of `VNetBeginIO`. -/
inductive Command
  | read
  | write
  | flush
  | deviceQuery
  | getStationAddress
  | configInterface
  | online
  | offline
  | broadcast
  /-- the four `S2_ADD`/`DELMULTICASTADDRESS[ES]` -/
  | multicastAddress
  | getGlobalStats
  /-- type and special statistics, events, tracked types, orphans, multicast -/
  | unsupported
  | other
  deriving DecidableEq

/-- The buffer-management hooks alone read `ios2_Data`; what they copied is an argument there. -/
structure IOSana2Req where
  /-- the address of the request block -/
  node : Nat
  command : Command
  /-- `IOF_QUICK` -/
  quick : Bool
  /-- `io_Unit` is not `NULL` -/
  hasUnit : Bool
  error : Byte
  wireError : Long
  packetType : Long
  srcAddr : List Byte
  dstAddr : List Byte
  dataLength : Long
  /-- the bytes at `ios2_StatData`, `none` for `NULL` -/
  statData : Option (List Byte)
  deriving DecidableEq

/-- The part of `struct VNetQueue` that `DevInit` sets up once. -/
structure VRing where
  qsize : Word
  desc : Long
  avail : Long
  used : Long
  bufPtrs : Nat → Long

structure VNetQueue extends VRing where
  availIdxShadow : Word
  usedIdxSeen : Word
  pending : Nat → Option IOSana2Req
  slotFree : Nat → Bool

structure VNetUnit where
  opencnt : Word
  configured : Bool
  online : Bool
  factoryMac : List Byte
  currentMac : List Byte
  pendingReads : List IOSana2Req
  packetsReceived : Long
  packetsSent : Long
  rxDropped : Long

structure VNetBase where
  rxq : VNetQueue
  txq : VNetQueue
  unit0 : VNetUnit
  ready : Bool

/-- The driver, the memory it shares with the device, and the messages it has replied. -/
structure Driver (μ : Type) where
  base : VNetBase
  mem : μ
  replies : List IOSana2Req

/-! ### Memory accesses -/

section Memory

variable {μ : Type} [GuestMemory μ]

def rdU8 (mem : μ) (addr : Long) : Byte := ((ramSlice mem addr 1).map fun bs => bs.getD 0 0).getD 0

def rdLe16 (mem : μ) (addr : Long) : Word := ((ramSlice mem addr 2).map fun bs => le16 bs 0).getD 0

def rdLe32 (mem : μ) (addr : Long) : Long := ((ramSlice mem addr 4).map fun bs => le32 bs 0).getD 0

/-- The bytes `bs` stored from `addr` on; outside RAM they are lost. -/
def wrBytes (mem : μ) (addr : Long) (bs : List Byte) : μ := (store mem addr bs).getD mem

def wrLe16 (mem : μ) (addr : Long) (v : Word) : μ := wrBytes mem addr (toLE16 v)

/-! ## Virtqueue helpers -/

/-- The four fields of a descriptor, in the order they are stored. -/
def descBytes (phys len : Long) (flags : Word) : List Byte :=
  toLE32 phys ++ toLE32 0 ++ toLE32 len ++ toLE16 flags ++ toLE16 0

def vqSetDesc (q : VNetQueue) (mem : μ) (idx : Word) (phys len : Long) (flags : Word) : μ :=
  wrBytes mem (q.desc + idx.setWidth 32 * BitVec.ofNat 32 Vring.descSize) (descBytes phys len flags)

def vqPushAvail (q : VNetQueue) (mem : μ) (descIdx : Word) : VNetQueue × μ :=
  let pos := q.availIdxShadow % q.qsize
  -- The entry is stored before the index that publishes it.
  let mem := wrLe16 mem (q.avail + Vring.availRing + pos.setWidth 32 * 2) descIdx
  let idx := q.availIdxShadow + 1
  ({ q with availIdxShadow := idx }, wrLe16 mem (q.avail + Vring.availIdx) idx)

/-- `(raw + (align - 1)) & ~(align - 1)`. -/
def alignUp (raw align : Long) : Long := (raw + (align - 1)) &&& ~~~(align - 1)

/-- What `Prm_AllocDMABuffer` returned for one queue; zero is `NULL`. -/
structure Dma where
  descRaw : Long
  availRaw : Long
  usedRaw : Long
  buf : Nat → Long

def zeros (n : Nat) : List Byte := List.replicate n 0

/-- The flags, the index and the `n` bytes of entries of a ring, all zero. -/
def zeroRing (mem : μ) (addr : Long) (n : Nat) : μ :=
  wrBytes (wrLe16 (wrLe16 mem addr 0) (addr + 2) 0) (addr + 4) (zeros n)

/-- `setup_queue`: the size, the three zeroed structures, both indices at zero. -/
def setupQueue (devsize : Word) (dma : Dma) (mem : μ) : Option (VNetQueue × μ) :=
  let qsize := if devsize < queueCap then devsize else queueCap
  if qsize = 0 then none
  -- A buffer that could not be allocated ends the start of the driver.
  else if dma.descRaw = 0 ∨ dma.availRaw = 0 ∨ dma.usedRaw = 0 then none
  else
    let q : VNetQueue :=
      { qsize := qsize
        desc := alignUp dma.descRaw Vring.descAlign
        avail := alignUp dma.availRaw Vring.availAlign
        used := alignUp dma.usedRaw Vring.usedAlign
        bufPtrs := fun _ => 0
        availIdxShadow := 0
        usedIdxSeen := 0
        pending := fun _ => none
        slotFree := fun _ => false }
    let mem := wrBytes mem q.desc (zeros (qsize.toNat * 16))
    let mem := zeroRing mem q.avail (qsize.toNat * 2)
    some (q, zeroRing mem q.used (qsize.toNat * 8))

def initTxSlots (q : VNetQueue) (dma : Dma) : Option VNetQueue :=
  if ∀ i < q.qsize.toNat, dma.buf i ≠ 0 then
    some
      { q with
        bufPtrs := dma.buf
        slotFree := fun _ => true
        pending := fun _ => none }
  else none

/-- One buffer handed to the device. -/
def postRxBuffer (s : VNetQueue × μ) (i : Nat) : VNetQueue × μ :=
  let idx := BitVec.ofNat 16 i
  vqPushAvail s.1
    (vqSetDesc s.1 s.2 idx (s.1.bufPtrs i) (BitVec.ofNat 32 rxbufSize) Vring.descFWrite) idx

def postRxBuffers (q : VNetQueue) (dma : Dma) (mem : μ) : Option (VNetQueue × μ) :=
  if ∀ i < q.qsize.toNat, dma.buf i ≠ 0 then
    some ((List.range q.qsize.toNat).foldl postRxBuffer ({ q with bufPtrs := dma.buf }, mem))
  else none

/-- `DevInit` from the queues on, the features being negotiated. -/
def devInit (rxSize txSize : Word) (rx tx : Dma) (factoryMac : List Byte) (mem : μ) :
    Option (Driver μ) := do
  let (rxq, mem) ← setupQueue rxSize rx mem
  let (txq, mem) ← setupQueue txSize tx mem
  let txq ← initTxSlots txq tx
  let (rxq, mem) ← postRxBuffers rxq rx mem
  some
    { base :=
        { rxq := rxq
          txq := txq
          unit0 :=
            { opencnt := 0
              configured := false
              online := false
              factoryMac := factoryMac
              currentMac := []
              pendingReads := []
              packetsReceived := 0
              packetsSent := 0
              rxDropped := 0 }
          ready := true }
      mem := mem
      replies := [] }

/-! ## The transmit slot pool -/

def vnetTxslotAlloc (q : VNetQueue) : Option (Nat × VNetQueue) :=
  ((List.range q.qsize.toNat).find? q.slotFree).map fun slot =>
    (slot, { q with slotFree := fun i => if i = slot then false else q.slotFree i })

def vnetTxslotFree (q : VNetQueue) (slot : Nat) : VNetQueue :=
  { q with
    slotFree := fun i => if i = slot then true else q.slotFree i
    pending := fun i => if i = slot then none else q.pending i }

/-- The six bytes of an Ethernet address at the front of an array. -/
def mac6 (addr : List Byte) : List Byte :=
  [addr.getD 0 0, addr.getD 1 0, addr.getD 2 0, addr.getD 3 0, addr.getD 4 0, addr.getD 5 0]

def fillSana2Addr (addr : List Byte) : List Byte := mac6 addr ++ zeros 10

/-! ## Changes to the state -/

namespace Driver

def replyMsg (d : Driver μ) (io : IOSana2Req) : Driver μ :=
  { d with replies := d.replies ++ [io] }

def setUnit (d : Driver μ) (u : VNetUnit) : Driver μ :=
  { d with base := { d.base with unit0 := u } }

def setRx (d : Driver μ) (q : VNetQueue) : Driver μ := { d with base := { d.base with rxq := q } }

def setTx (d : Driver μ) (q : VNetQueue) : Driver μ := { d with base := { d.base with txq := q } }

def setMem (d : Driver μ) (mem : μ) : Driver μ := { d with mem := mem }

end Driver

/-! ## The interrupt handler -/

/-- The frame of a used buffer, given to the first read that takes its type. -/
def deliver (d : Driver μ) (buf len : Long) (copied : Bool) : Driver μ :=
  let u := { d.base.unit0 with packetsReceived := d.base.unit0.packetsReceived + 1 }
  -- What does not hold a frame is dropped, as a frame is that nobody reads.
  if hdrSize + ethHdrLen < len.toNat then
    let frame := buf + BitVec.ofNat 32 hdrSize
    let byteAt (i : Nat) := rdU8 d.mem (frame + BitVec.ofNat 32 i)
    let ethertype : Long := (byteAt 12).setWidth 32 <<< 8 ||| (byteAt 13).setWidth 32
    match u.pendingReads with
    | head :: rest =>
      -- Only the first read is looked at: one behind it that would take the frame waits.
      if head.packetType = 0 ∨ head.packetType = ethertype then
        let payloadLen := len - BitVec.ofNat 32 (hdrSize + ethHdrLen)
        let copyLen := if head.dataLength < payloadLen then head.dataLength else payloadLen
        let io :=
          { head with
            dstAddr := fillSana2Addr ((List.range 6).map byteAt)
            srcAddr := fillSana2Addr ((List.range 6).map fun i => byteAt (6 + i))
            packetType := ethertype }
        let io :=
          if copied then { io with dataLength := copyLen, error := 0 }
          else { io with error := IoErr.noResources, wireError := WireErr.buffError }
        (d.setUnit { u with pendingReads := rest }).replyMsg io
      else d.setUnit { u with rxDropped := u.rxDropped + 1 }
    | [] => d.setUnit { u with rxDropped := u.rxDropped + 1 }
  else d.setUnit { u with rxDropped := u.rxDropped + 1 }

/-- The used element at the position of `used_idx_seen`. -/
def usedElem (q : VNetQueue) (mem : μ) : Long × Long :=
  let elem := q.used + Vring.usedRing + (q.usedIdxSeen % q.qsize).setWidth 32 * Vring.usedElemSize
  (rdLe32 mem elem, rdLe32 mem (elem + 4))

def VNetQueue.seen (q : VNetQueue) : VNetQueue := { q with usedIdxSeen := q.usedIdxSeen + 1 }

/-- One round of `vnet_process_rx_used`: deliver the frame and post the buffer again. -/
def rxUsed (d : Driver μ) (copied : Bool) : Driver μ :=
  let q := d.base.rxq
  let (descId, len) := usedElem q d.mem
  -- An identifier past the ring is skipped.
  if q.qsize.setWidth 32 ≤ descId then d.setRx q.seen
  else
    let phys := q.bufPtrs descId.toNat
    let d := deliver d phys len copied
    -- The buffer goes back to the device, whatever became of the frame.
    let idx := descId.setWidth 16
    let mem := vqSetDesc q d.mem idx phys (BitVec.ofNat 32 rxbufSize) Vring.descFWrite
    let (q, mem) := vqPushAvail q mem idx
    (d.setRx q.seen).setMem mem

/-- One round of `vnet_process_tx_used`: answer the write and free its slot. -/
def txUsed (d : Driver μ) : Driver μ :=
  let q := d.base.txq
  let (descId, _) := usedElem q d.mem
  if q.qsize.setWidth 32 ≤ descId then d.setTx q.seen
  else
    let slot := descId.toNat
    let d :=
      match q.pending slot with
      | some io =>
        (d.setUnit { d.base.unit0 with packetsSent := d.base.unit0.packetsSent + 1 }).replyMsg
          { io with error := 0 }
      | none => d
    d.setTx (vnetTxslotFree q slot).seen

/-! ## BeginIO -/

/-- `TermIO`. -/
def termIo (d : Driver μ) (io : IOSana2Req) : Driver μ := if io.quick then d else d.replyMsg io

/-- What a `CMD_WRITE` asked to be sent, and the station address it was sent from. -/
structure Sent where
  io : IOSana2Req
  mac : List Byte
  payload : List Byte

/-- A `BeginIO` or `AbortIO` that may have been preempted, by what it does next. -/
inductive Call
  /-- `cmd_read` before its `Disable()` -/
  | enqueue (io : IOSana2Req)
  /-- `cmd_write` before `vnet_txslot_alloc` -/
  | alloc (io : IOSana2Req)
  /-- `cmd_write` filling the buffer of a slot -/
  | fill (io : IOSana2Req) (slot : Nat)
  /-- `cmd_write` before its last `Disable()`, the buffer filled with `framelen` bytes -/
  | publish (sent : Sent) (slot : Nat) (framelen : Long)
  /-- `VNetAbortIO` after its `Enable()`, the request removed -/
  | abort (io : IOSana2Req)

/-- Why a read or a write is refused at once, if it is. -/
def refused (u : VNetUnit) : Option (Byte × Long) :=
  if !u.configured then some (IoErr.badState, WireErr.notConfigured)
  else if !u.online then some (IoErr.badState, WireErr.unitOffline)
  else none

def cmdRead (d : Driver μ) (io : IOSana2Req) : Driver μ × Option Call :=
  let io := { io with quick := false }
  match refused d.base.unit0 with
  | some (error, wireError) => (termIo d { io with error := error, wireError := wireError }, none)
  | none => (d, some (.enqueue io))

def cmdWrite (d : Driver μ) (io : IOSana2Req) : Driver μ × Option Call :=
  let io := { io with quick := false }
  match refused d.base.unit0 with
  | some (error, wireError) => (termIo d { io with error := error, wireError := wireError }, none)
  | none =>
    -- The refusal names no wire error.
    if BitVec.ofNat 32 (frameMax - ethHdrLen) < io.dataLength then
      (termIo d { io with error := IoErr.mtuExceeded }, none)
    else (d, some (.alloc io))

/-- Every queued read answered `IOERR_ABORTED`. -/
def abortReads (d : Driver μ) : Driver μ :=
  let reads := d.base.unit0.pendingReads
  { d.setUnit { d.base.unit0 with pendingReads := [] } with
    replies := d.replies ++ reads.map fun io => { io with error := IoErr.aborted } }

/-- `sizeof(struct Sana2DeviceQuery)`. -/
abbrev deviceQuerySize : Long := 30

/-- The MTU of `S2_DEVICEQUERY`. -/
abbrev mtu : Nat := frameMax - ethHdrLen

/-- `full`, as the bytes of its fields. -/
def deviceQueryBytes (supplied : Long) : List Byte :=
  toBytes32 deviceQuerySize ++ toBytes32 supplied ++ toBytes32 0 ++ toBytes32 0 ++ [0, 48] ++
    toBytes32 (BitVec.ofNat 32 mtu) ++ toBytes32 1000000000 ++ toBytes32 1

def cmdDevicequery (io : IOSana2Req) : IOSana2Req :=
  match io.statData with
  | none => { io with error := IoErr.badArgument }
  | some bs =>
    let available := be32 (bs.getD 0 0) (bs.getD 1 0) (bs.getD 2 0) (bs.getD 3 0)
    let supplied := if deviceQuerySize < available then deviceQuerySize else available
    { io with
      statData := some ((deviceQueryBytes supplied).take supplied.toNat ++ bs.drop supplied.toNat)
      error := 0
      dataLength := supplied }

def cmdGetstationaddress (u : VNetUnit) (io : IOSana2Req) : IOSana2Req :=
  { io with
    srcAddr := fillSana2Addr u.currentMac
    dstAddr := fillSana2Addr u.factoryMac
    error := 0 }

def cmdConfiginterface (u : VNetUnit) (io : IOSana2Req) : VNetUnit × IOSana2Req :=
  if u.configured then
    (u, { io with error := IoErr.badState, wireError := WireErr.isConfigured })
  else
    ({ u with currentMac := mac6 io.srcAddr, configured := true },
      { io with error := 0, srcAddr := fillSana2Addr io.srcAddr })

def cmdOnline (u : VNetUnit) (io : IOSana2Req) : VNetUnit × IOSana2Req :=
  if !u.configured then
    (u, { io with error := IoErr.badState, wireError := WireErr.notConfigured })
  else ({ u with online := true }, { io with error := 0 })

def cmdOffline (u : VNetUnit) (io : IOSana2Req) : VNetUnit × IOSana2Req :=
  ({ u with online := false }, { io with error := 0 })

def cmdGetglobalstats (u : VNetUnit) (io : IOSana2Req) : IOSana2Req :=
  match io.statData with
  | none => { io with error := IoErr.badArgument, wireError := WireErr.nullPointer }
  | some bs =>
    let stats :=
      toBytes32 u.packetsReceived ++ toBytes32 u.packetsSent ++ zeros 12 ++
        toBytes32 u.rxDropped ++ zeros 12
    { io with statData := some (stats ++ bs.drop stats.length), error := 0 }

/-- `VNetBeginIO` up to its first `Disable()`, for a request that is not refused. -/
def beginIo (d : Driver μ) (io : IOSana2Req) : Driver μ × Option Call :=
  let io := { io with error := 0, wireError := 0 }
  let u := d.base.unit0
  if !d.base.ready then (termIo d { io with error := IoErr.openFail }, none)
  else
    match io.command with
    | .read => cmdRead d io
    | .write => cmdWrite d io
    | .flush => (termIo (abortReads d) { io with error := 0 }, none)
    | .deviceQuery => (termIo d (cmdDevicequery io), none)
    | .getStationAddress => (termIo d (cmdGetstationaddress u io), none)
    | .configInterface =>
      (termIo (d.setUnit (cmdConfiginterface u io).1) (cmdConfiginterface u io).2, none)
    | .online => (termIo (d.setUnit (cmdOnline u io).1) (cmdOnline u io).2, none)
    | .offline => (termIo (d.setUnit (cmdOffline u io).1) (cmdOffline u io).2, none)
    | .broadcast => (termIo d { io with error := 0 }, none)
    | .multicastAddress =>
      (termIo d { io with error := IoErr.notSupported, wireError := WireErr.badMulticast }, none)
    | .getGlobalStats => (termIo d (cmdGetglobalstats u io), none)
    | .unsupported => (termIo d { io with error := IoErr.notSupported }, none)
    | .other => (termIo d { io with error := IoErr.noCmd }, none)

/-- Header, addresses and type: what `cmd_write` stores in front of the payload. -/
def frameHead (io : IOSana2Req) (mac : List Byte) : List Byte :=
  zeros hdrSize ++ mac6 io.dstAddr ++ mac6 mac ++
    [(io.packetType >>> 8).setWidth 8, io.packetType.setWidth 8]

/-- The buffer of a slot filled, up to `framelen` bytes; an empty payload is not copied. -/
def fillSlot (d : Driver μ) (io : IOSana2Req) (slot : Nat) (copied : Bool) (payload : List Byte) :
    Driver μ × Option Call :=
  let buf := d.base.txq.bufPtrs slot
  let mac := d.base.unit0.currentMac
  -- The slot goes back before the refusal is answered.
  if io.dataLength ≠ 0 ∧ copied = false then
    let d := d.setMem (wrBytes d.mem buf (frameHead io mac ++ payload))
    (termIo (d.setTx (vnetTxslotFree d.base.txq slot))
      { io with error := IoErr.noResources, wireError := WireErr.buffError }, none)
  else
    let payload := if io.dataLength = 0 then [] else payload
    let framelen := hdrSize + ethHdrLen + io.dataLength.toNat
    -- Runts are padded with zeros.
    let pad := ethMinFrame + hdrSize - framelen
    (d.setMem (wrBytes d.mem buf (frameHead io mac ++ payload ++ zeros pad)),
      some (.publish ⟨io, mac, payload⟩ slot (BitVec.ofNat 32 (framelen + pad))))

/-- The last section of `cmd_write`. -/
def publishSlot (d : Driver μ) (io : IOSana2Req) (slot : Nat) (framelen : Long) : Driver μ :=
  let q := d.base.txq
  let q := { q with pending := fun i => if i = slot then some io else q.pending i }
  let mem := vqSetDesc q d.mem (BitVec.ofNat 16 slot) (q.bufPtrs slot) framelen 0
  let (q, mem) := vqPushAvail q mem (BitVec.ofNat 16 slot)
  (d.setTx q).setMem mem

/-- The next section of a call. -/
def Call.resume (c : Call) (d : Driver μ) (copied : Bool) (payload : List Byte) :
    Driver μ × Option Call :=
  match c with
  | .enqueue io =>
    (d.setUnit { d.base.unit0 with pendingReads := d.base.unit0.pendingReads ++ [io] }, none)
  | .alloc io =>
    match vnetTxslotAlloc d.base.txq with
    | some (slot, q) => (d.setTx q, some (.fill io slot))
    -- No slot is free.
    | none =>
      (termIo d { io with error := IoErr.outOfService, wireError := WireErr.buffError }, none)
  | .fill io slot => fillSlot d io slot copied payload
  | .publish sent slot framelen => (publishSlot d sent.io slot framelen, none)
  | .abort io => (d.replyMsg { io with error := IoErr.aborted }, none)

/-! ## AbortIO, Open and Close -/

/-- `VNetAbortIO`: the result, and the call left to run when the request was found. -/
def vNetAbortIo (d : Driver μ) (io : IOSana2Req) : Byte × Driver μ × Option Call :=
  if io.command ≠ .read then (IoErr.noCmd, d, none)
  else
    match d.base.unit0.pendingReads.find? fun n => n.node == io.node with
    | none => (IoErr.noCmd, d, none)
    | some found =>
      let reads := d.base.unit0.pendingReads.eraseP fun n => n.node == io.node
      (0, d.setUnit { d.base.unit0 with pendingReads := reads }, some (.abort found))

/-- `VNetOpen`; `hooks` says whether the tag list supplies both copy functions. -/
def vNetOpen (d : Driver μ) (io : IOSana2Req) (unitnum : Long) (hooks : Bool) :
    Driver μ × IOSana2Req :=
  let u := d.base.unit0
  if !d.base.ready then (d, { io with error := IoErr.openFail })
  else if unitnum ≠ 0 then (d, { io with error := IoErr.openFail })
  else if u.opencnt ≠ 0 then (d, { io with error := IoErr.unitBusy })
  else if !hooks then (d, { io with error := IoErr.openFail })
  else
    (d.setUnit
      { u with
        pendingReads := []
        opencnt := 1
        configured := false
        online := false
        packetsReceived := 0
        packetsSent := 0
        rxDropped := 0
        currentMac := mac6 u.factoryMac },
      { io with hasUnit := true, error := 0 })

def vNetClose (d : Driver μ) (io : IOSana2Req) : Driver μ :=
  if io.hasUnit then
    abortReads (d.setUnit { d.base.unit0 with online := false, opencnt := 0 })
  else d

end Memory

end VNet

end M68kMachine
