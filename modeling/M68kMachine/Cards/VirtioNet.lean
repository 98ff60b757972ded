import M68kMachine.Core.GuestMemory
import M68kMachine.Library.Loop

/-!
# The virtio network device

`VirtioNetStub` of `pci.rs`: the register file behind BAR0 and the two split virtqueues it serves
from `tick`. A hostile ring sets `DEVICE_NEEDS_RESET`.

* `barRead`, `barWrite` — BAR0, byte lane by byte lane
* `copyChainOut`, `completeUsed` — reading a transmit chain, publishing a used element
* `txBody`, `rxBody` — one round of the loop in `process_tx` and `process_rx`
* `tick` — both engines

The loops re-read `avail.idx` each round, so a guest whose rings overlap can keep them going:
`processTx` and `processRx` take a bound on the rounds and answer `none` at it. The configuration
space in front of BAR0 is left out.
-/

namespace M68kMachine

namespace VirtioNet

/-! ### Descriptor flags, status bits and register offsets -/

namespace DescFlags

abbrev next : Word := 1
abbrev write : Word := 2
abbrev indirect : Word := 4

end DescFlags

namespace StatusBits

abbrev driverOk : Byte := 4
abbrev featuresOk : Byte := 8
abbrev deviceNeedsReset : Byte := 64

end StatusBits

namespace CommonOff

abbrev deviceFeatureSelect : Nat := 0x00
abbrev deviceFeature : Nat := 0x04
abbrev driverFeatureSelect : Nat := 0x08
abbrev driverFeature : Nat := 0x0C
abbrev msixConfig : Nat := 0x10
abbrev numQueues : Nat := 0x12
abbrev deviceStatus : Nat := 0x14
abbrev configGeneration : Nat := 0x15
abbrev queueSelect : Nat := 0x16
abbrev queueSize : Nat := 0x18
abbrev queueMsixVector : Nat := 0x1A
abbrev queueEnable : Nat := 0x1C
abbrev queueNotifyOff : Nat := 0x1E
abbrev queueDesc : Nat := 0x20
abbrev queueDriver : Nat := 0x28
abbrev queueDevice : Nat := 0x30

end CommonOff

abbrev numQueues : Nat := 2
abbrev queueRx : Fin numQueues := ⟨0, by decide⟩
abbrev queueTx : Fin numQueues := ⟨1, by decide⟩
abbrev queueSizeMax : Word := 256
abbrev noVector : Word := 0xFFFF
abbrev fVersion1 : Quad := 0x100000000
abbrev fMac : Quad := 0x20
abbrev offeredFeatures : Quad := fVersion1 ||| fMac
abbrev mac : List Byte := [0x02, 0x6d, 0x36, 0x4b, 0x00, 0x01]
abbrev virtioNetHdrLen : Nat := 12
abbrev maxEthPayload : Nat := 1514
abbrev maxFrameTotal : Nat := virtioNetHdrLen + maxEthPayload
abbrev commonCfgBarLen : Nat := 0x1000
abbrev notifyCfgBarEnd : Nat := 0x2000
abbrev isrCfgBarOffset : Nat := 0x2000
abbrev isrCfgBarEnd : Nat := 0x3000
abbrev deviceCfgBarOffset : Nat := 0x3000

/-- Where transmitted frames go and received ones come from, in the first bytes of the lent
buffer. -/
class NetBackend (ν : Type) where
  transmit : ν → List Byte → ν
  pollReceive : ν → Buffer Byte maxEthPayload → Option Nat × Buffer Byte maxEthPayload × ν

structure VirtQueueState where
  size : Word
  enabled : Bool
  descAddr : Quad
  driverAddr : Quad
  deviceAddr : Quad
  lastAvailIdx : Word
  usedIdx : Word
  deriving DecidableEq

def VirtQueueState.reset (maxSize : Word) : VirtQueueState where
  size := maxSize
  enabled := false
  descAddr := 0
  driverAddr := 0
  deviceAddr := 0
  lastAvailIdx := 0
  usedIdx := 0

def VirtQueueState.setLastAvailIdx (q : VirtQueueState) (idx : Word) : VirtQueueState :=
  { q with lastAvailIdx := idx }

def VirtQueueState.setUsedIdx (q : VirtQueueState) (idx : Word) : VirtQueueState :=
  { q with usedIdx := idx }

/-- One entry of the descriptor table. -/
structure Desc where
  addr : Quad
  len : Long
  flags : Word
  next : Word
  deriving DecidableEq

end VirtioNet

open VirtioNet

/-- The device: negotiated state, the two queues, the staging buffers and the counters. -/
structure VirtioNetStub (ν : Type) where
  backend : ν
  deviceFeatureSelect : Long
  driverFeatureSelect : Long
  ackedFeatures : Quad
  deviceStatus : Byte
  queueSelect : Word
  queues : Fin numQueues → VirtQueueState
  isrStatus : Byte
  scratch : Buffer Byte maxFrameTotal
  rxFrameBuf : Buffer Byte maxEthPayload
  txFrames : Long
  txDropped : Long
  rxFrames : Long
  rxDropped : Long

namespace VirtioNetStub

variable {ν μ : Type}

def new (backend : ν) : VirtioNetStub ν where
  backend := backend
  deviceFeatureSelect := 0
  driverFeatureSelect := 0
  ackedFeatures := 0
  deviceStatus := 0
  queueSelect := 0
  queues := fun _ => .reset queueSizeMax
  isrStatus := 0
  scratch := fun _ => 0
  rxFrameBuf := fun _ => 0
  txFrames := 0
  txDropped := 0
  rxFrames := 0
  rxDropped := 0

def needsReset (v : VirtioNetStub ν) : Bool :=
  v.deviceStatus &&& StatusBits.deviceNeedsReset != 0

def failClosed (v : VirtioNetStub ν) : VirtioNetStub ν :=
  { v with deviceStatus := v.deviceStatus ||| StatusBits.deviceNeedsReset }

/-- Everything negotiable back to its default; counters and staging buffers stay. -/
def reset (v : VirtioNetStub ν) : VirtioNetStub ν :=
  { v with
    deviceFeatureSelect := 0
    driverFeatureSelect := 0
    ackedFeatures := 0
    deviceStatus := 0
    queueSelect := 0
    queues := fun _ => .reset queueSizeMax
    isrStatus := 0 }

/-- The size clamped to `1..=QUEUE_SIZE_MAX`, where it is used. -/
def effectiveQueueSize (v : VirtioNetStub ν) (i : Fin numQueues) : Word :=
  if (v.queues i).size < 1 then 1
  else if queueSizeMax < (v.queues i).size then queueSizeMax
  else (v.queues i).size

def selectedQueue (v : VirtioNetStub ν) : Option (Fin numQueues) :=
  if h : v.queueSelect.toNat < numQueues then some ⟨v.queueSelect.toNat, h⟩ else none

def setQueue (v : VirtioNetStub ν) (i : Fin numQueues) (q : VirtQueueState) : VirtioNetStub ν :=
  { v with queues := fun j => if j = i then q else v.queues j }

/-! ## The register file behind BAR0 -/

def laneU16 (value : Word) (lane : Nat) : Byte := laneLE value lane
def mergeU16 (value : Word) (lane : Nat) (byte : Byte) : Word := mergeLE value lane byte
def laneU32Of (value : Long) (lane : Nat) : Byte := laneLE value lane
def mergeU32Of (value : Long) (lane : Nat) (byte : Byte) : Long := mergeLE value lane byte
def laneU64 (value : Quad) (lane : Nat) : Byte := laneLE value lane
def mergeU64 (value : Quad) (lane : Nat) (byte : Byte) : Quad := mergeLE value lane byte

def deviceFeatureWindow (v : VirtioNetStub ν) : Long :=
  if v.deviceFeatureSelect = 0 then offeredFeatures.setWidth 32
  else if v.deviceFeatureSelect = 1 then (offeredFeatures >>> 32).setWidth 32
  else 0

def driverFeatureWindow (v : VirtioNetStub ν) : Long :=
  if v.driverFeatureSelect = 0 then v.ackedFeatures.setWidth 32
  else if v.driverFeatureSelect = 1 then (v.ackedFeatures >>> 32).setWidth 32
  else 0

/-- Merge a byte into the selected half of the acked features, masked by what is offered. -/
def mergeDriverFeatureByte (v : VirtioNetStub ν) (lane : Nat) (byte : Byte) : VirtioNetStub ν :=
  if v.deviceStatus &&& StatusBits.featuresOk ≠ 0 then v
  else if 1 < v.driverFeatureSelect.toNat then v
  else
    let shift := 32 * v.driverFeatureSelect.toNat
    let window : Long := (v.ackedFeatures >>> shift).setWidth 32
    let merged := mergeU32Of window lane byte
    let mask : Quad := 0xFFFFFFFF#64 <<< shift
    { v with
      ackedFeatures :=
        (v.ackedFeatures &&& ~~~mask) |||
          ((merged.setWidth 64 <<< shift) &&& offeredFeatures &&& mask) }

/-- The status a nonzero write requests, with `FEATURES_OK` stripped when it is refused. -/
def acceptedFeaturesOk (v : VirtioNetStub ν) (value : Byte) : Byte :=
  if value &&& StatusBits.featuresOk ≠ 0 ∧ v.deviceStatus &&& StatusBits.featuresOk = 0 ∧
      v.ackedFeatures &&& fVersion1 = 0 then
    value &&& ~~~StatusBits.featuresOk
  else value

/-- `DRIVER_OK` without `FEATURES_OK` is refused: the device fails closed instead. -/
def refuseDriverOk (status : Byte) : Byte :=
  if status &&& StatusBits.driverOk ≠ 0 ∧ status &&& StatusBits.featuresOk = 0 then
    (status &&& ~~~StatusBits.driverOk) ||| StatusBits.deviceNeedsReset
  else status

def writeDeviceStatus (v : VirtioNetStub ν) (value : Byte) : VirtioNetStub ν :=
  if value = 0 then v.reset
  else { v with deviceStatus := refuseDriverOk (v.acceptedFeaturesOk value) }

def commonReadByte (v : VirtioNetStub ν) (rel : Nat) : Byte :=
  let ofSelected (f : Fin numQueues → Quad) : Quad := (v.selectedQueue.map f).getD 0
  -- The cases are the lanes of the registers, in order of their offsets.
  if rel ≤ 3 then laneU32Of v.deviceFeatureSelect (rel - CommonOff.deviceFeatureSelect)
  else if rel ≤ 7 then laneU32Of v.deviceFeatureWindow (rel - CommonOff.deviceFeature)
  else if rel ≤ 11 then laneU32Of v.driverFeatureSelect (rel - CommonOff.driverFeatureSelect)
  else if rel ≤ 15 then laneU32Of v.driverFeatureWindow (rel - CommonOff.driverFeature)
  else if rel ≤ 17 then laneU16 noVector (rel - CommonOff.msixConfig)
  else if rel ≤ 19 then laneU16 (BitVec.ofNat 16 numQueues) (rel - CommonOff.numQueues)
  else if rel = CommonOff.deviceStatus then v.deviceStatus
  else if rel = CommonOff.configGeneration then 0
  else if rel ≤ 23 then laneU16 v.queueSelect (rel - CommonOff.queueSelect)
  else if rel ≤ 25 then
    laneU16 ((v.selectedQueue.map v.effectiveQueueSize).getD 0) (rel - CommonOff.queueSize)
  else if rel ≤ 27 then laneU16 noVector (rel - CommonOff.queueMsixVector)
  else if rel ≤ 29 then
    laneU16 ((bit (v.selectedQueue.any fun i => (v.queues i).enabled)).setWidth 16)
      (rel - CommonOff.queueEnable)
  else if rel ≤ 31 then
    laneU16 ((v.selectedQueue.map fun i => BitVec.ofNat 16 i.val).getD 0)
      (rel - CommonOff.queueNotifyOff)
  else if rel ≤ 39 then
    laneU64 (ofSelected fun i => (v.queues i).descAddr) (rel - CommonOff.queueDesc)
  else if rel ≤ 47 then
    laneU64 (ofSelected fun i => (v.queues i).driverAddr) (rel - CommonOff.queueDriver)
  else if rel ≤ 55 then
    laneU64 (ofSelected fun i => (v.queues i).deviceAddr) (rel - CommonOff.queueDevice)
  else 0

/-- Change the selected queue while it is not enabled; otherwise the write is discarded. -/
def configureQueue (v : VirtioNetStub ν) (f : VirtQueueState → VirtQueueState) :
    VirtioNetStub ν :=
  match v.selectedQueue with
  | some i => if (v.queues i).enabled then v else v.setQueue i (f (v.queues i))
  | none => v

/-- `QUEUE_ENABLE`: only the transition to enabled exists, and it starts both indices at 0. -/
def enableQueue (v : VirtioNetStub ν) (byte : Byte) : VirtioNetStub ν :=
  if byte &&& 1 ≠ 0 then
    v.configureQueue fun q => { q with enabled := true, lastAvailIdx := 0, usedIdx := 0 }
  else v

def commonWriteByte (v : VirtioNetStub ν) (rel : Nat) (byte : Byte) : VirtioNetStub ν :=
  if rel ≤ 3 then
    { v with
      deviceFeatureSelect :=
        mergeU32Of v.deviceFeatureSelect (rel - CommonOff.deviceFeatureSelect) byte }
  else if rel ≤ 7 then v
  else if rel ≤ 11 then
    { v with
      driverFeatureSelect :=
        mergeU32Of v.driverFeatureSelect (rel - CommonOff.driverFeatureSelect) byte }
  else if rel ≤ 15 then v.mergeDriverFeatureByte (rel - CommonOff.driverFeature) byte
  else if rel ≤ 19 then v
  else if rel = CommonOff.deviceStatus then v.writeDeviceStatus byte
  else if rel = CommonOff.configGeneration then v
  else if rel ≤ 23 then
    { v with queueSelect := mergeU16 v.queueSelect (rel - CommonOff.queueSelect) byte }
  else if rel ≤ 25 then
    v.configureQueue fun q =>
      { q with size := mergeU16 q.size (rel - CommonOff.queueSize) byte }
  else if rel ≤ 27 then v
  else if rel ≤ 29 then
    -- The high byte of `queue_enable` is not looked at.
    if rel = CommonOff.queueEnable then v.enableQueue byte else v
  else if rel ≤ 31 then v
  else if rel ≤ 39 then
    v.configureQueue fun q =>
      { q with descAddr := mergeU64 q.descAddr (rel - CommonOff.queueDesc) byte }
  else if rel ≤ 47 then
    v.configureQueue fun q =>
      { q with driverAddr := mergeU64 q.driverAddr (rel - CommonOff.queueDriver) byte }
  else if rel ≤ 55 then
    v.configureQueue fun q =>
      { q with deviceAddr := mergeU64 q.deviceAddr (rel - CommonOff.queueDevice) byte }
  else v

/-- `value |= byte << (8 * lane)` over the lanes of an access. -/
def composeLanes (width : AccessWidth) (byteAt : Nat → Byte) : Long :=
  (List.range width.bytes).foldl
    (fun value lane => value ||| ((byteAt lane).setWidth 32 <<< (8 * lane))) 0

def commonCfgRead (v : VirtioNetStub ν) (rel : Nat) (width : AccessWidth) : Long :=
  composeLanes width fun lane => v.commonReadByte (rel + lane)

def commonCfgWrite (v : VirtioNetStub ν) (rel : Nat) (width : AccessWidth) (value : Long) :
    VirtioNetStub ν :=
  (List.range width.bytes).foldl
    (fun v lane => v.commonWriteByte (rel + lane) ((value >>> (8 * lane)).setWidth 8)) v

/-- `bar0_read`: the ISR byte is cleared by reading it. -/
def bar0Read (v : VirtioNetStub ν) (offset : Quad) (width : AccessWidth) :
    Long × VirtioNetStub ν :=
  let rel := (offset.setWidth 32 : Long).toNat
  if rel < commonCfgBarLen then (v.commonCfgRead rel width, v)
  -- The notify window reads as zero.
  else if rel < notifyCfgBarEnd then (0, v)
  else if rel < isrCfgBarEnd then
    if rel = isrCfgBarOffset then (v.isrStatus.setWidth 32, { v with isrStatus := 0 })
    else (0, v)
  else (composeLanes width fun lane => mac.getD (rel - deviceCfgBarOffset + lane) 0, v)

def bar0Write (v : VirtioNetStub ν) (offset : Quad) (width : AccessWidth) (value : Long) :
    VirtioNetStub ν :=
  let rel := (offset.setWidth 32 : Long).toNat
  if rel < commonCfgBarLen then v.commonCfgWrite rel width value else v

def barRead (v : VirtioNetStub ν) (bar : Nat) (offset : Quad) (width : AccessWidth) :
    Long × VirtioNetStub ν :=
  if bar = 0 then v.bar0Read offset width else (0xFFFFFFFF, v)

def barWrite (v : VirtioNetStub ν) (bar : Nat) (offset : Quad) (width : AccessWidth)
    (value : Long) : VirtioNetStub ν :=
  if bar = 0 then v.bar0Write offset width value else v

def intxLevel (v : VirtioNetStub ν) : Bool := v.isrStatus &&& 1 != 0

/-! ## Ring access -/

def raiseUsedIrq (v : VirtioNetStub ν) : VirtioNetStub ν :=
  { v with isrStatus := v.isrStatus ||| 1 }

def availRingSlotAddr (driverAddr : Quad) (pos : Word) : Option Quad := do
  let ring ← checkedAdd driverAddr 4
  checkedAdd ring (← checkedMul 2 (pos.setWidth 64))

def usedRingElemAddr (deviceAddr : Quad) (pos : Word) : Option Quad := do
  let ring ← checkedAdd deviceAddr 4
  checkedAdd ring (← checkedMul 8 (pos.setWidth 64))

section Memory

variable [GuestMemory μ]

def gmReadU16 (mem : μ) (addr : Quad) : Option Word := do
  let a ← toU32 addr
  let s ← GuestMemory.ramSlice mem a 2
  some (le16 s 0)

def gmWriteU16 (mem : μ) (addr : Quad) (value : Word) : Option μ := do
  GuestMemory.store mem (← toU32 addr) (toLE16 value)

def gmWriteU32 (mem : μ) (addr : Quad) (value : Long) : Option μ := do
  GuestMemory.store mem (← toU32 addr) (toLE32 value)

/-- `read_desc`: an index past the table is refused, never wrapped. -/
def readDesc (mem : μ) (descAddr : Quad) (size idx : Word) : Option Desc :=
  if size ≤ idx then none
  else do
    let entryAddr ← checkedAdd descAddr (← checkedMul 16 (idx.setWidth 64))
    let s ← GuestMemory.ramSlice mem (← toU32 entryAddr) 16
    some { addr := le64 s 0, len := le32 s 8, flags := le16 s 12, next := le16 s 14 }

/-- The element, then `used.idx`, then the device's own index, and whether every store was
granted. -/
def completeUsed (v : VirtioNetStub ν) (mem : μ) (i : Fin numQueues) (descId : Word)
    (len : Long) : Bool × VirtioNetStub ν × μ :=
  let q := v.queues i
  match usedRingElemAddr q.deviceAddr (q.usedIdx % v.effectiveQueueSize i) with
  | none => (false, v, mem)
  | some elemAddr =>
    -- What has been stored stays when a later store is refused.
    match gmWriteU32 mem elemAddr (descId.setWidth 32) with
    | none => (false, v, mem)
    | some mem₁ =>
      match gmWriteU32 mem₁ (elemAddr + 4) len with
      | none => (false, v, mem₁)
      | some mem₂ =>
        match gmWriteU16 mem₂ (q.deviceAddr + 2) (q.usedIdx + 1) with
        | none => (false, v, mem₂)
        | some mem₃ =>
          (true, (v.setQueue i (q.setUsedIdx (q.usedIdx + 1))).raiseUsedIrq, mem₃)

/-- `last_avail_idx = last_avail.wrapping_add(1)`. -/
def advanceAvail (v : VirtioNetStub ν) (i : Fin numQueues) (lastAvail : Word) :
    VirtioNetStub ν :=
  v.setQueue i ((v.queues i).setLastAvailIdx (lastAvail + 1))

/-- At most `bound` links of `copy_chain_out`: the staged bytes, and their number at the end. -/
def copyChain (mem : μ) (descAddr : Quad) (size : Word) :
    (bound : Nat) → Buffer Byte maxFrameTotal → (total : Nat) → (idx : Word) →
      Buffer Byte maxFrameTotal × Option Nat
  | 0, scratch, _, _ => (scratch, none)
  | bound + 1, scratch, total, idx =>
    match readDesc mem descAddr size idx with
    | none => (scratch, none)
    | some d =>
      -- A chain to transmit is one of readable, direct descriptors.
      if d.flags &&& (DescFlags.write ||| DescFlags.indirect) ≠ 0 then (scratch, none)
      else
        match toU32 d.addr with
        | none => (scratch, none)
        | some a =>
          if h : total + d.len.toNat ≤ maxFrameTotal then
            match GuestMemory.ramSlice mem a d.len with
            | none => (scratch, none)
            | some src =>
              let scratch := scratch.put ⟨total, d.len.toNat, h⟩ src
              if d.flags &&& DescFlags.next = 0 then (scratch, some (total + d.len.toNat))
              else copyChain mem descAddr size bound scratch (total + d.len.toNat) d.next
          -- The link would overflow the staging buffer.
          else (scratch, none)

def copyChainOut (v : VirtioNetStub ν) (mem : μ) (descAddr : Quad) (size head : Word) :
    VirtioNetStub ν × Option Nat :=
  let (scratch, len) := copyChain mem descAddr size size.toNat v.scratch 0 head
  ({ v with scratch := scratch }, len)

/-- The bytes `first..last` of the staging buffer. -/
def staged (scratch : Buffer Byte maxFrameTotal) (first last : Nat) : List Byte :=
  if h : first + (last - first) ≤ maxFrameTotal then scratch.slice ⟨first, last - first, h⟩
  else []

/-! ## The two engines -/

variable [NetBackend ν]

/-- Hand the staged frame, header stripped, to the backend. -/
def sendTx (v : VirtioNetStub ν) (len : Nat) : VirtioNetStub ν :=
  { v with
    backend := NetBackend.transmit v.backend (staged v.scratch virtioNetHdrLen len)
    txFrames := v.txFrames + 1 }

def dropTx (v : VirtioNetStub ν) : VirtioNetStub ν := { v with txDropped := v.txDropped + 1 }

/-- One available chain: sent, or dropped without a whole header, and published either way. -/
def txConsume (v : VirtioNetStub ν) (mem : μ) (descAddr : Quad) (size descHead : Word) :
    Bool × VirtioNetStub ν × μ :=
  match v.copyChainOut mem descAddr size descHead with
  | (v, some len) =>
    if virtioNetHdrLen ≤ len then
      (v.sendTx len).completeUsed mem queueTx descHead (BitVec.ofNat 32 len)
    else v.dropTx.completeUsed mem queueTx descHead 0
  | (v, none) => v.dropTx.completeUsed mem queueTx descHead 0

/-- One round of `process_tx`. -/
def txBody : VirtioNetStub ν × μ → Loop.Outcome (VirtioNetStub ν × μ)
  | (v, mem) =>
    let q := v.queues queueTx
    let size := v.effectiveQueueSize queueTx
    match gmReadU16 mem (q.driverAddr + 2) with
    | none => .done (v.failClosed, mem)
    | some availIdx =>
      -- Nothing more is available.
      if availIdx = q.lastAvailIdx then .done (v, mem)
      else
        match (availRingSlotAddr q.driverAddr (q.lastAvailIdx % size)).bind (gmReadU16 mem) with
        | none => .done (v.failClosed, mem)
        | some descHead =>
          match v.txConsume mem q.descAddr size descHead with
          | (true, v, mem) => .again (v.advanceAvail queueTx q.lastAvailIdx, mem)
          | (false, v, mem) => .done (v.failClosed, mem)

def processTx (fuel : Nat) (s : VirtioNetStub ν × μ) : Option (VirtioNetStub ν × μ) :=
  if s.1.needsReset || !(s.1.queues queueTx).enabled then some s else Loop.run txBody fuel s

/-- The 12-byte header in front of a received frame: `num_buffers = 1`. -/
def rxHeader : List Byte := [0, 0, 0, 0, 0, 0, 0, 0, 0, 0, 1, 0]

/-- The descriptor takes `total` bytes, and so does the staging buffer. -/
def RxFits (d : Desc) (total : Nat) : Prop :=
  d.flags &&& DescFlags.write ≠ 0 ∧ d.flags &&& DescFlags.indirect = 0 ∧
    total ≤ d.len.toNat ∧ total ≤ maxFrameTotal

instance (d : Desc) (total : Nat) : Decidable (RxFits d total) := by
  unfold RxFits; infer_instance

/-- Header and frame in the staging buffer. -/
def stageRx (v : VirtioNetStub ν) (frameLen : Nat)
    (h : virtioNetHdrLen + frameLen ≤ maxFrameTotal) : VirtioNetStub ν :=
  have hframe : 0 + frameLen ≤ maxEthPayload := by
    rw [Nat.zero_add]
    exact Nat.le_of_add_le_add_left h
  { v with
    scratch :=
      (v.scratch.put ⟨0, virtioNetHdrLen, by decide⟩ rxHeader).put ⟨virtioNetHdrLen, frameLen, h⟩
        (v.rxFrameBuf.slice ⟨0, frameLen, hframe⟩) }

/-- A polled frame of `frameLen` bytes: staged, stored into the buffer and published. -/
def rxDeliver (v : VirtioNetStub ν) (mem : μ) (descHead : Word) (d : Desc) (frameLen : Nat) :
    Bool × VirtioNetStub ν × μ :=
  let total := virtioNetHdrLen + frameLen
  if h : RxFits d total then
    let v := v.stageRx frameLen h.2.2.2
    match (toU32 d.addr).bind fun a => GuestMemory.store mem a (staged v.scratch 0 total) with
    | none => (false, v, mem)
    | some mem => completeUsed v mem queueRx descHead (BitVec.ofNat 32 total)
  else (false, { v with rxDropped := v.rxDropped + 1 }, mem)

/-- The device after a poll of its backend. -/
def polled (v : VirtioNetStub ν) (backend : ν) (buf : Buffer Byte maxEthPayload) :
    VirtioNetStub ν :=
  { v with backend := backend, rxFrameBuf := buf }

def countRx (v : VirtioNetStub ν) : VirtioNetStub ν := { v with rxFrames := v.rxFrames + 1 }

/-- One round of `process_rx`: the backend is polled only once a buffer is available. -/
def rxBody : VirtioNetStub ν × μ → Loop.Outcome (VirtioNetStub ν × μ)
  | (v, mem) =>
    let q := v.queues queueRx
    let size := v.effectiveQueueSize queueRx
    match gmReadU16 mem (q.driverAddr + 2) with
    | none => .done (v.failClosed, mem)
    | some availIdx =>
      if availIdx = q.lastAvailIdx then .done (v, mem)
      else
        match NetBackend.pollReceive v.backend v.rxFrameBuf with
        | (none, buf, backend) => .done (v.polled backend buf, mem)
        | (some frameLen, buf, backend) =>
          -- From here on the frame is lost if its descriptor cannot be used.
          let v := v.polled backend buf
          match (availRingSlotAddr q.driverAddr (q.lastAvailIdx % size)).bind
            (gmReadU16 mem) with
          | none => .done (v.failClosed, mem)
          | some descHead =>
            match readDesc mem q.descAddr size descHead with
            | none => .done (v.failClosed, mem)
            | some d =>
              match v.rxDeliver mem descHead d frameLen with
              | (true, v, mem) =>
                .again (v.countRx.advanceAvail queueRx q.lastAvailIdx, mem)
              | (false, v, mem) => .done (v.failClosed, mem)

def processRx (fuel : Nat) (s : VirtioNetStub ν × μ) : Option (VirtioNetStub ν × μ) :=
  if s.1.needsReset || !(s.1.queues queueRx).enabled then some s else Loop.run rxBody fuel s

/-- `tick`, with at most `fuel` rounds for each engine. -/
def tick (fuel : Nat) (s : VirtioNetStub ν × μ) : Option (VirtioNetStub ν × μ) :=
  (processTx fuel s).bind (processRx fuel)

end Memory

end VirtioNetStub

end M68kMachine
