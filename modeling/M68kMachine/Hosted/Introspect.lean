import M68kMachine.Library.Stopping
import M68kMachine.Machine.Bus

/-!
# Introspection

`introspect.rs`: what Exec's own structures in guest memory say about the guest. Reads through the
bus are counted; adding an offset to a pointer stops the report where the sum leaves 32 bits.

* `address`, `longAt` — a field of a structure
* `walkList` — the loop over the nodes of a list, for tasks, memory and libraries
* `inspect` — the report

Left out: the lists that other diagnostics walk, and the text of the report.
-/

namespace M68kMachine

namespace Introspect

open Stopping

/-! ### Offsets -/

namespace ExecBase

abbrev libNodeLnType : Long := 8
abbrev libVersion : Long := 20
abbrev libRevision : Long := 22
abbrev softVer : Long := 34
abbrev chkBase : Long := 38
abbrev maxLocMem : Long := 62
abbrev chkSum : Long := 82
abbrev thisTask : Long := 276
abbrev attnFlags : Long := 296
abbrev resModules : Long := 300
abbrev memList : Long := 322
abbrev libList : Long := 378
abbrev taskReady : Long := 406
abbrev taskWait : Long := 420
abbrev lastAlert : Long := 514

end ExecBase

namespace IntuitionBase

abbrev activeScreen : Long := 56
abbrev mouseY : Long := 68
abbrev mouseX : Long := 70

end IntuitionBase

namespace Node

abbrev lnSucc : Long := 0
abbrev lnType : Long := 8
abbrev lnPri : Long := 9
abbrev lnName : Long := 10
abbrev size : Long := 14

end Node

abbrev lhHead : Long := 0

namespace MemHeader

abbrev mhAttributes : Long := Node.size
abbrev mhLower : Long := Node.size + 6
abbrev mhUpper : Long := mhLower + 4
abbrev mhFree : Long := mhUpper + 4

end MemHeader

namespace Task

abbrev tcState : Long := Node.size + 1
abbrev tcSigWait : Long := Node.size + 8

end Task

namespace Resident

abbrev rtMatchWord : Long := 0
abbrev rtVersion : Long := 11
abbrev rtType : Long := 12
abbrev rtPri : Long := 13
abbrev rtName : Long := 14
abbrev rtIdString : Long := 18
abbrev matchWord : Word := 0x4AFC

end Resident

abbrev ntTask : Byte := 1
abbrev ntLibrary : Byte := 9
abbrev ntProcess : Byte := 13

abbrev maxWalkEntries : Nat := 512
abbrev maxStringLen : Nat := 96

/-! ### The report -/

structure ResidentEntry where
  address : Long
  name : List Byte
  idString : List Byte
  version : Byte
  priority : Byte
  nodeType : Byte
  deriving DecidableEq

structure MemListEntry where
  address : Long
  name : List Byte
  attributes : Word
  lower : Long
  upper : Long
  free : Long
  deriving DecidableEq

structure TaskEntry where
  address : Long
  name : List Byte
  priority : Byte
  state : Byte
  sigWait : Long
  deriving DecidableEq

structure Report where
  execBase : Option Long
  libVersion : Word
  libRevision : Word
  softVer : Word
  maxLocMem : Long
  attnFlags : Word
  chkBaseOk : Bool
  chkSumOk : Bool
  residentModules : List ResidentEntry
  lastAlert : List Long
  taskReady : List TaskEntry
  taskWait : List TaskEntry
  thisTask : Option TaskEntry
  memList : List MemListEntry
  intuitionBase : Option Long
  mouseX : Option Word
  mouseY : Option Word
  activeScreen : Option Long
  deriving DecidableEq

/-- Without an `ExecBase` that can be believed. -/
def Report.absent : Report where
  execBase := none
  libVersion := 0
  libRevision := 0
  softVer := 0
  maxLocMem := 0
  attnFlags := 0
  chkBaseOk := false
  chkSumOk := false
  residentModules := []
  lastAlert := [0, 0, 0, 0]
  taskReady := []
  taskWait := []
  thisTask := none
  memList := []
  intuitionBase := none
  mouseX := none
  mouseY := none
  activeScreen := none

/-! ## Reads -/

/-- The bus, and how many reads it has answered. -/
structure Watched (δ ρ π : Type) where
  bus : MachineBus δ ρ π
  reads : Nat

abbrev Inspect (δ ρ π : Type) := StateT (Watched δ ρ π) Option

variable {δ ρ π : Type} [BlockDevice δ] [PacketBackend ρ] [PciBackend π]

def readByte (a : Long) : Inspect δ ρ π Byte := fun w =>
  let (value, bus) := w.bus.readByte a
  some (value, ⟨bus, w.reads + 1⟩)

def readWord (a : Long) : Inspect δ ρ π Word := fun w =>
  let (value, bus) := w.bus.readWord a
  some (value, ⟨bus, w.reads + 1⟩)

def readLong (a : Long) : Inspect δ ρ π Long := fun w =>
  let (value, bus) := w.bus.readLong a
  some (value, ⟨bus, w.reads + 1⟩)

omit [BlockDevice δ] [PacketBackend ρ] [PciBackend π] in
/-- `base + offset`. -/
def address (base offset : Long) : Inspect δ ρ π Long := fun w =>
  (checkedAdd base offset).map fun a => (a, w)

def byteAt (base offset : Long) : Inspect δ ρ π Byte := address base offset >>= readByte

def wordAt (base offset : Long) : Inspect δ ρ π Word := address base offset >>= readWord

def longAt (base offset : Long) : Inspect δ ρ π Long := address base offset >>= readLong

/-! ### Names -/

/-- A character of a name. The address wraps. -/
def cstrRound (c : Long × List Byte) : Inspect δ ρ π (Bool × (Long × List Byte)) := do
  let byte ← readByte c.1
  if byte = 0 then pure (false, c) else pure (true, (c.1 + 1, c.2 ++ [byte]))

def readCstr (a : Long) : Inspect δ ρ π (List Byte) :=
  if a = 0 then pure []
  else do
    let c ← rounds cstrRound maxStringLen (a, [])
    pure c.2

def readNodeName (node : Long) : Inspect δ ρ π (List Byte × Byte) := do
  let namePtr ← longAt node Node.lnName
  let name ← readCstr namePtr
  let pri ← byteAt node Node.lnPri
  pure (name, pri)

/-! ### Lists -/

section

variable {β : Type}

/-- What a node adds to the result, and whether to go on. The list's own tail ends it. -/
def listRound (visit : Long → Inspect δ ρ π (List β × Bool)) (c : Long × List β) :
    Inspect δ ρ π (Bool × (Long × List β)) := do
  let succ ← longAt c.1 Node.lnSucc
  if succ = 0 then pure (false, c)
  else do
    let found ← visit c.1
    pure (found.2, (succ, c.2 ++ found.1))

/-- The loop that every walk over a `struct List` makes. -/
def walkList (visit : Long → Inspect δ ρ π (List β × Bool)) (listAddr : Long) :
    Inspect δ ρ π (List β) := do
  let head ← longAt listAddr lhHead
  let c ← rounds (listRound visit) maxWalkEntries (head, [])
  pure c.2

end

/-- The fields of a task behind its type. -/
def taskEntry (task : Long) : Inspect δ ρ π TaskEntry := do
  let name ← readNodeName task
  let state ← byteAt task Task.tcState
  let sigWait ← longAt task Task.tcSigWait
  pure ⟨task, name.1, name.2, state, sigWait⟩

def visitTask (node : Long) : Inspect δ ρ π (List TaskEntry × Bool) := do
  let nodeType ← byteAt node Node.lnType
  if nodeType = ntTask ∨ nodeType = ntProcess then do
    let entry ← taskEntry node
    pure ([entry], true)
  else pure ([], true)

def walkTaskList (listAddr : Long) : Inspect δ ρ π (List TaskEntry) := walkList visitTask listAddr

def visitMem (node : Long) : Inspect δ ρ π (List MemListEntry × Bool) := do
  let name ← readNodeName node
  let attributes ← wordAt node MemHeader.mhAttributes
  let lower ← longAt node MemHeader.mhLower
  let upper ← longAt node MemHeader.mhUpper
  let free ← longAt node MemHeader.mhFree
  pure ([⟨node, name.1, attributes, lower, upper, free⟩], true)

def walkMemList (listAddr : Long) : Inspect δ ρ π (List MemListEntry) := walkList visitMem listAddr

/-- The walk ends with the library it looks for. -/
def visitLibrary (name : List Byte) (node : Long) : Inspect δ ρ π (List Long × Bool) := do
  let nodeType ← byteAt node Node.lnType
  if nodeType = ntLibrary then do
    let libName ← readNodeName node
    if libName.1 = name then pure ([node], false) else pure ([], true)
  else pure ([], true)

def findLibraryBase (listAddr : Long) (name : List Byte) : Inspect δ ρ π (Option Long) := do
  let found ← walkList (visitLibrary name) listAddr
  pure found.head?

/-- `ThisTask`, which is no list. -/
def readTask (task : Long) : Inspect δ ρ π (Option TaskEntry) :=
  if task = 0 then pure none
  else do
    let nodeType ← byteAt task Node.lnType
    if nodeType ≠ ntTask then pure none
    else do
      let entry ← taskEntry task
      pure (some entry)

/-! ### Resident modules -/

def residentEntry (entry : Long) : Inspect δ ρ π ResidentEntry := do
  let namePtr ← longAt entry Resident.rtName
  let idPtr ← longAt entry Resident.rtIdString
  let name ← readCstr namePtr
  let idString ← readCstr idPtr
  let version ← byteAt entry Resident.rtVersion
  let priority ← byteAt entry Resident.rtPri
  let nodeType ← byteAt entry Resident.rtType
  pure ⟨entry, name, idString, version, priority, nodeType⟩

/-- An element of the array; one that is `NULL` or no `Resident` ends it. -/
def residentRound (arrayAddr : Long) (c : Nat × List ResidentEntry) :
    Inspect δ ρ π (Bool × (Nat × List ResidentEntry)) := do
  let entry ← longAt arrayAddr (BitVec.ofNat 32 (c.1 * 4))
  if entry = 0 then pure (false, c)
  else do
    let matchWord ← wordAt entry Resident.rtMatchWord
    if matchWord ≠ Resident.matchWord then pure (false, c)
    else do
      let resident ← residentEntry entry
      pure (true, (c.1 + 1, c.2 ++ [resident]))

def walkResidentModules (arrayAddr : Long) : Inspect δ ρ π (List ResidentEntry) :=
  if arrayAddr = 0 then pure []
  else do
    let c ← rounds (residentRound arrayAddr) maxWalkEntries (0, [])
    pure c.2

/-! ### ExecBase -/

/-- `while addr < end`, given up after so many words. -/
def sumWords (last : Long) : Nat → Long → Word → Inspect δ ρ π Word
  | 0, _, _ => fun _ => none
  | words + 1, addr, sum =>
    if addr < last then do
      let word ← readWord addr
      let addr ← address addr 2
      sumWords last words addr (sum + word)
    else pure sum

def chkSumConsistent (execBase : Long) : Inspect δ ρ π Bool := do
  let chkSum ← address execBase ExecBase.chkSum
  let last ← address chkSum 2
  let sum ← sumWords last 43 execBase 0
  pure (sum = 0xFFFF)

/-- The pointer at address 4, where it can be believed. -/
def findExecBase : Inspect δ ρ π (Option Long) := do
  let ptr ← readLong 4
  let w ← get
  if ptr ≠ 0 ∧ ptr.toNat % 4 = 0 ∧
      (GuestMemory.ramSlice w.bus.devices.ram ptr (ExecBase.libNodeLnType + 1)).isSome then do
    let nodeType ← byteAt ptr ExecBase.libNodeLnType
    pure (if nodeType = ntLibrary then some ptr else none)
  else pure none

/-- A longword of `LastAlert` behind the first. -/
def alertAt (base offset : Long) : Inspect δ ρ π Long := do
  let lastAlert ← address base ExecBase.lastAlert
  longAt lastAlert offset

/-- What is read before anything is followed. -/
structure Pointers where
  chkBaseOk : Bool
  resModules : Long
  lastAlert : List Long
  thisTask : Long

def readPointers (base : Long) : Inspect δ ρ π Pointers := do
  let chkBase ← longAt base ExecBase.chkBase
  let resModules ← longAt base ExecBase.resModules
  let alert₀ ← longAt base ExecBase.lastAlert
  let alert₁ ← alertAt base 4
  let alert₂ ← alertAt base 8
  let alert₃ ← alertAt base 12
  let thisTask ← longAt base ExecBase.thisTask
  pure ⟨chkBase = ~~~base, resModules, [alert₀, alert₁, alert₂, alert₃], thisTask⟩

/-- `MouseX`, `MouseY` and `ActiveScreen`. -/
def readIntuition : Option Long → Inspect δ ρ π (Option (Word × Word × Long))
  | none => pure none
  | some base => do
    let mouseX ← wordAt base IntuitionBase.mouseX
    let mouseY ← wordAt base IntuitionBase.mouseY
    let activeScreen ← longAt base IntuitionBase.activeScreen
    pure (some (mouseX, mouseY, activeScreen))

/-- The versions, the memory size, the processor and the checksum. -/
structure Header where
  libVersion : Word
  libRevision : Word
  softVer : Word
  maxLocMem : Long
  attnFlags : Word
  chkSumOk : Bool

def readHeader (base : Long) : Inspect δ ρ π Header := do
  let libVersion ← wordAt base ExecBase.libVersion
  let libRevision ← wordAt base ExecBase.libRevision
  let softVer ← wordAt base ExecBase.softVer
  let maxLocMem ← longAt base ExecBase.maxLocMem
  let attnFlags ← wordAt base ExecBase.attnFlags
  let chkSumOk ← chkSumConsistent base
  pure ⟨libVersion, libRevision, softVer, maxLocMem, attnFlags, chkSumOk⟩

def intuitionName : List Byte :=
  [0x69, 0x6E, 0x74, 0x75, 0x69, 0x74, 0x69, 0x6F, 0x6E, 0x2E, 0x6C, 0x69, 0x62, 0x72, 0x61, 0x72,
    0x79]

/-- The report on an `ExecBase`. -/
def inspectBase (base : Long) : Inspect δ ρ π Report := do
  let pointers ← readPointers base
  let libList ← address base ExecBase.libList
  let intuitionBase ← findLibraryBase libList intuitionName
  let intuition ← readIntuition intuitionBase
  let header ← readHeader base
  let residentModules ← walkResidentModules pointers.resModules
  let readyList ← address base ExecBase.taskReady
  let taskReady ← walkTaskList readyList
  let waitList ← address base ExecBase.taskWait
  let taskWait ← walkTaskList waitList
  let thisTask ← readTask pointers.thisTask
  let memListAddr ← address base ExecBase.memList
  let memList ← walkMemList memListAddr
  pure
    { execBase := some base
      libVersion := header.libVersion
      libRevision := header.libRevision
      softVer := header.softVer
      maxLocMem := header.maxLocMem
      attnFlags := header.attnFlags
      chkBaseOk := pointers.chkBaseOk
      chkSumOk := header.chkSumOk
      residentModules := residentModules
      lastAlert := pointers.lastAlert
      taskReady := taskReady
      taskWait := taskWait
      thisTask := thisTask
      memList := memList
      intuitionBase := intuitionBase
      mouseX := intuition.map fun i => i.1
      mouseY := intuition.map fun i => i.2.1
      activeScreen := intuition.map fun i => i.2.2 }

def inspect : Inspect δ ρ π Report := do
  let execBase ← findExecBase
  match execBase with
  | none => pure .absent
  | some base => inspectBase base

end Introspect

end M68kMachine
