import M68kMachine.Cards.Pktport
import M68kMachine.Hosted.Ffs
import M68kMachine.Library.Checked

/-!
# The volume behind `pktport`

`pktvol.rs`: one table of handles for locks and open files over a mounted filesystem. An action
first works out what a handle is to name (`…Target`) and then issues it, so what a handle names can
be said without the table.
-/

namespace M68kMachine

/-! ### Actions (`mod action`) -/

namespace Action

abbrev locateObject : Long := 8
abbrev freeLock : Long := 15
abbrev copyDir : Long := 19
abbrev parent : Long := 29
abbrev sameLock : Long := 40
abbrev inhibit : Long := 31
abbrev format : Long := 1020
abbrev examineObject : Long := 23
abbrev examineNext : Long := 24
abbrev info : Long := 26
abbrev diskInfo : Long := 25
abbrev findInput : Long := 1005
abbrev findOutput : Long := 1006
abbrev findUpdate : Long := 1004
abbrev end' : Long := 1007
abbrev read : Long := 82
abbrev write : Long := 87
abbrev seek : Long := 1008
abbrev setFileSize : Long := 1022
abbrev createDir : Long := 22
abbrev deleteObject : Long := 16
abbrev renameObject : Long := 17
abbrev setProtect : Long := 21
abbrev setComment : Long := 28
abbrev setDate : Long := 34
abbrev isFilesystem : Long := 1027
abbrev flush : Long := 27

end Action

abbrev dosTrue : Long := 0xFFFFFFFF
abbrev dosFalse : Long := 0
abbrev readWriteError : Long := 0xFFFFFFFF
abbrev fibSize : Long := 260
abbrev infoDataSize : Long := 36
abbrev idWriteProtected : Long := 80
abbrev idValidated : Long := 82
abbrev stRoot : Long := 1

/-- `RES1` and `RES2`. -/
abbrev Res := Long × Long

/-! ## Guest memory helpers (§7) -/

section GuestHelpers

variable {μ : Type} [GuestMemory μ]

/-- The string a BPTR names, clipped to the bytes that are there. -/
def readBstr (mem : μ) (bptr : Long) : Option (List Byte) :=
  let addr := bptr * 4
  match GuestMemory.ramSlice mem addr 1 with
  | none => none
  | some head =>
    let len := (head.getD 0 0).toNat
    match GuestMemory.ramSlice mem (addr + 1) (BitVec.ofNat 32 len) with
    | some s => some s
    -- Not all of it is RAM: the bytes up to the first that is not.
    | none =>
      some ((((List.range len).map fun i =>
        GuestMemory.ramSlice mem (addr + 1 + BitVec.ofNat 32 i) 1).takeWhile Option.isSome).map
          fun b => (b.getD []).getD 0 0)

/-- `read_bstr` where an empty name is refused as an unreadable one is. -/
def readName (mem : μ) (bptr : Long) : Option (List Byte) :=
  match readBstr mem bptr with
  | some n => if n.isEmpty then none else some n
  | none => none

/-- A BCPL string in a field of `cap + 1` bytes. -/
def bstrField (cap : Nat) (bytes : List Byte) : List Byte :=
  let n := min bytes.length cap
  BitVec.ofNat 8 n :: (bytes.take n ++ List.replicate (cap - n) 0)

/-- `fill_fib`: the 260 bytes of a `FileInfoBlock`. -/
def fillFib (diskKey dirEntryType : Long) (name : List Byte) (protection size numBlocks : Long)
    (date : DateStamp) (comment : List Byte) (owner : Long) : List Byte :=
  toBytes32 diskKey ++ toBytes32 dirEntryType ++ bstrField 107 name ++ toBytes32 protection ++
    toBytes32 dirEntryType ++ toBytes32 size ++ toBytes32 numBlocks ++ toBytes32 date.days ++
    toBytes32 date.mins ++ toBytes32 date.ticks ++ bstrField 79 comment ++ toBytes32 owner ++
    List.replicate 32 0

/-- `fill_info_data`: the 36 bytes of an `InfoData`. -/
def fillInfoData (numBlocks numBlocksUsed bytesPerBlock diskType : Long) (writable : Bool) :
    List Byte :=
  List.replicate 8 0 ++ toBytes32 (if writable then idValidated else idWriteProtected) ++
    toBytes32 numBlocks ++ toBytes32 numBlocksUsed ++ toBytes32 bytesPerBlock ++
    toBytes32 diskType ++ List.replicate 4 0 ++ toBytes32 dosTrue

/-- A structure stored at a BPTR; `ERROR_BAD_NUMBER` where that is not RAM. -/
def storeStruct (mem : μ) (bptr : Long) (bytes : List Byte) : Res × μ :=
  match GuestMemory.store mem (bptr * 4) bytes with
  | some mem => ((dosTrue, 0), mem)
  | none => ((dosFalse, Err.badNumber), mem)

end GuestHelpers

/-! ## Handles (§4) -/

structure OpenFile where
  parentLba : Nat
  name : List Byte
  headerLba : Nat
  position : Nat
  write : Bool
  deriving DecidableEq

/-- Lock 0, the root, is never stored. -/
inductive Handle
  | lock (lba : Nat)
  | file (f : OpenFile)
  deriving DecidableEq

/-- `PktVolume`. Whether `fs` is the `Mutator` or the `Volume` of `backing` is `writable`. -/
structure PktVolume (φ : Type) where
  fs : φ
  handles : Long → Option Handle
  nextHandle : Long
  writable : Bool
  lenBlocks : Nat
  reserved : Nat
  inhibited : Bool

namespace PktVolume

variable {φ μ : Type}

/-- What `PktVolume::open` leaves of a mounted volume. -/
def opened (fs : φ) (writable : Bool) (lenBlocks reserved : Nat) : PktVolume φ where
  fs := fs
  handles := fun _ => none
  nextHandle := 1
  writable := writable
  lenBlocks := lenBlocks
  reserved := reserved
  inhibited := false

/-- `saturating_add(1)`. -/
def nextId (id : Long) : Long := if id = 0xFFFFFFFF then id else id + 1

def setHandle (p : PktVolume φ) (id : Long) (h : Option Handle) : PktVolume φ :=
  { p with handles := fun i => if i = id then h else p.handles i }

def allocHandle (p : PktVolume φ) (h : Handle) : Long × PktVolume φ :=
  (p.nextHandle, { p.setHandle p.nextHandle (some h) with nextHandle := nextId p.nextHandle })

/-- The file a handle names. -/
def fileAt (p : PktVolume φ) (handle : Long) : Option OpenFile :=
  match p.handles handle with
  | some (.file f) => some f
  | _ => none

/-- A lock handle's block; `none` for lock 0 too. -/
def lockAt (p : PktVolume φ) (handle : Long) : Option Nat :=
  match p.handles handle with
  | some (.lock lba) => some lba
  | _ => none

/-- The position of an open file set. -/
def seekTo (p : PktVolume φ) (handle : Long) (f : OpenFile) (position : Nat) : PktVolume φ :=
  p.setHandle handle (some (.file { f with position := position }))

variable [Ffs φ]

def resolveLock (p : PktVolume φ) (handle : Long) : Option Nat :=
  if handle = 0 then some (Ffs.rootLba p.fs) else p.lockAt handle

def dupLock (p : PktVolume φ) (lba : Nat) : Long × PktVolume φ :=
  if lba = Ffs.rootLba p.fs then (0, p) else p.allocHandle (.lock lba)

/-! ## Paths -/

/-- The nonempty components of a path. -/
def components (path : List Byte) : List (List Byte) :=
  (path.splitOn 0x2F).filter fun c => !c.isEmpty

/-- The directory the components lead to. -/
def walk (fs : φ) (here : Nat) : List (List Byte) → Except Long Nat × φ
  | [] => (.ok here, fs)
  | comp :: rest =>
    match Ffs.lookup fs here comp with
    | (.ok (some e), fs) =>
      if e.kind.isDirectory then walk fs e.lba rest else (.error Err.objectWrongType, fs)
    | (.ok none, fs) => (.error Err.dirNotFound, fs)
    | (.error e, fs) => (.error (mapReadError e), fs)

def splitParent (fs : φ) (dirLba : Nat) (path : List Byte) :
    Except Long (Nat × List Byte) × φ :=
  match (components path).getLast? with
  -- A path of separators only has no leaf.
  | none => (.error Err.invalidComponentName, fs)
  | some leaf =>
    match walk fs dirLba (components path).dropLast with
    | (.ok here, fs) => (.ok (here, leaf), fs)
    | (.error code, fs) => (.error code, fs)

/-- A packet's lock argument, name argument and path, resolved to a directory and a leaf. -/
def openForFind [GuestMemory μ] (p : PktVolume φ) (lock name : Long) (mem : μ) :
    Except Long (Nat × List Byte) × φ :=
  match p.resolveLock lock with
  | none => (.error Err.objectNotFound, p.fs)
  | some dirLba =>
    match readName mem name with
    | none => (.error Err.invalidComponentName, p.fs)
    | some n => splitParent p.fs dirLba n

/-- `count_blocks`. -/
def countBlocks (fs : φ) (lba : Nat) (isDir : Bool) : Long × φ :=
  if isDir then (1, fs)
  else
    match Ffs.fileChain fs lba with
    | (.ok chain, fs) =>
      (BitVec.ofNat 32 (chain.blocks.length + chain.extensions.length + 1), fs)
    | (.error _, fs) => (0, fs)

/-! ## Locks -/

/-- A lock on what was found, or the refusal. -/
def issueLock (p : PktVolume φ) : Except Long Nat × φ → Res × PktVolume φ
  | (.ok lba, fs) => let r := { p with fs := fs }.dupLock lba; ((r.1, 0), r.2)
  | (.error code, fs) => ((dosFalse, code), { p with fs := fs })

def locateTarget [GuestMemory μ] (p : PktVolume φ) (args : List Long) (mem : μ) :
    Except Long Nat × φ :=
  match p.resolveLock (args.getD 0 0) with
  | none => (.error Err.objectNotFound, p.fs)
  | some dirLba =>
    match readBstr mem (args.getD 1 0) with
    | none => (.error Err.invalidComponentName, p.fs)
    | some name =>
      if name.isEmpty then (.ok dirLba, p.fs)
      else
        match Ffs.lookupPath p.fs dirLba name with
        | (.ok (some entry), fs) => (.ok entry.lba, fs)
        | (.ok none, fs) => (.error Err.objectNotFound, fs)
        | (.error e, fs) => (.error (mapReadError e), fs)

def locateObject [GuestMemory μ] (p : PktVolume φ) (args : List Long) (mem : μ) :
    Res × PktVolume φ := p.issueLock (p.locateTarget args mem)

def freeLock (p : PktVolume φ) (args : List Long) : Res × PktVolume φ :=
  let lock := args.getD 0 0
  if lock = 0 then ((dosTrue, 0), p)
  else
    match p.lockAt lock with
    | some _ => ((dosTrue, 0), p.setHandle lock none)
    | none => ((dosFalse, Err.objectNotFound), p)

def copyDirTarget (p : PktVolume φ) (args : List Long) : Except Long Nat × φ :=
  match p.resolveLock (args.getD 0 0) with
  | some lba => (.ok lba, p.fs)
  | none => (.error Err.objectNotFound, p.fs)

def copyDir (p : PktVolume φ) (args : List Long) : Res × PktVolume φ :=
  p.issueLock (p.copyDirTarget args)

/-- The root's parent is the null lock, which `dup_lock` gives for the root. -/
def parentTarget (p : PktVolume φ) (args : List Long) : Except Long Nat × φ :=
  match p.resolveLock (args.getD 0 0) with
  | none => (.error Err.objectNotFound, p.fs)
  | some lba =>
    if lba = Ffs.rootLba p.fs then (.ok lba, p.fs)
    else
      match Ffs.entryAt p.fs lba with
      | (.ok entry, fs) => (.ok entry.parent.toNat, fs)
      | (.error e, fs) => (.error (mapReadError e), fs)

def parent (p : PktVolume φ) (args : List Long) : Res × PktVolume φ :=
  p.issueLock (p.parentTarget args)

def sameLock (p : PktVolume φ) (args : List Long) : Res × PktVolume φ :=
  match p.resolveLock (args.getD 0 0), p.resolveLock (args.getD 1 0) with
  | some x, some y => if x = y then ((dosTrue, 0), p) else ((dosFalse, 0), p)
  | _, _ => ((dosFalse, Err.objectNotFound), p)

def createDirTarget [GuestMemory μ] (p : PktVolume φ) (args : List Long) (mem : μ) :
    Except Long Nat × φ :=
  match p.openForFind (args.getD 0 0) (args.getD 1 0) mem with
  | (.error code, fs) => (.error code, fs)
  | (.ok (parentLba, leaf), fs) =>
    match Ffs.createDir fs parentLba leaf with
    | (.ok lba, fs) => (.ok lba, fs)
    | (.error e, fs) => (.error (mapMutateError e), fs)

/-- Unlike the other locks a new directory's is never the null lock. -/
def createDirAction [GuestMemory μ] (p : PktVolume φ) (args : List Long) (mem : μ) :
    Res × PktVolume φ :=
  if p.writable then
    match p.createDirTarget args mem with
    | (.ok lba, fs) => let r := { p with fs := fs }.allocHandle (.lock lba); ((r.1, 0), r.2)
    | (.error code, fs) => ((0, code), { p with fs := fs })
  else ((0, Err.writeProtected), p)

/-! ## Examine and info -/

/-- What `EXAMINE_OBJECT` reports of the block. -/
def examineTarget (fs : φ) (lba : Nat) :
    Except ReadError (Long × List Byte × Long × Long × DateStamp × List Byte × Long × Bool) × φ :=
  if lba = Ffs.rootLba fs then
    let r := Ffs.root fs
    (.ok (stRoot, r.1, 0, 0, r.2, [], 0, true), fs)
  else
    match Ffs.entryAt fs lba with
    | (.error e, fs) => (.error e, fs)
    | (.ok entry, fs) =>
      match Ffs.comment fs entry with
      | (.error e, fs) => (.error e, fs)
      | (.ok comment, fs) =>
        (.ok (entry.kind.secondaryType, entry.name, entry.protection, entry.byteSize, entry.date,
          comment, entry.owner, entry.kind.isDirectory), fs)

def examineObject [GuestMemory μ] (p : PktVolume φ) (args : List Long) (mem : μ) :
    Res × PktVolume φ × μ :=
  match p.resolveLock (args.getD 0 0) with
  | none => ((dosFalse, Err.objectNotFound), p, mem)
  | some lba =>
    match examineTarget p.fs lba with
    | (.error e, fs) => ((dosFalse, mapReadError e), { p with fs := fs }, mem)
    | (.ok (dirEntryType, name, protection, size, date, comment, owner, isDir), fs) =>
      let c := countBlocks fs lba isDir
      let r := storeStruct mem (args.getD 1 0)
        (fillFib 0 dirEntryType name protection size c.1 date comment owner)
      (r.1, { p with fs := c.2 }, r.2)

def examineNext [GuestMemory μ] (p : PktVolume φ) (args : List Long) (mem : μ) :
    Res × PktVolume φ × μ :=
  match p.resolveLock (args.getD 0 0) with
  | none => ((dosFalse, Err.objectNotFound), p, mem)
  | some dirLba =>
    match GuestMemory.ramSlice mem (args.getD 1 0 * 4) 4 with
    | none => ((dosFalse, Err.badNumber), p, mem)
    | some k =>
      -- The key is how many entries the guest has been given.
      let index := (be32 (k.getD 0 0) (k.getD 1 0) (k.getD 2 0) (k.getD 3 0)).toNat
      match Ffs.readDir p.fs dirLba with
      | (.error e, fs) => ((dosFalse, mapReadError e), { p with fs := fs }, mem)
      | (.ok entries, fs) =>
        match entries[index]? with
        | none => ((dosFalse, Err.noMoreEntries), { p with fs := fs }, mem)
        | some entry =>
          match Ffs.comment fs entry with
          | (.error e, fs) => ((dosFalse, mapReadError e), { p with fs := fs }, mem)
          | (.ok comment, fs) =>
            let c := countBlocks fs entry.lba entry.kind.isDirectory
            let r := storeStruct mem (args.getD 1 0)
              (fillFib (BitVec.ofNat 32 (index + 1)) entry.kind.secondaryType entry.name
                entry.protection entry.byteSize c.1 entry.date comment entry.owner)
            (r.1, { p with fs := c.2 }, r.2)

def fillDiskInfo [GuestMemory μ] (p : PktVolume φ) (infoBptr : Long) (mem : μ) :
    Res × PktVolume φ × μ :=
  let r := storeStruct mem infoBptr
    (fillInfoData (BitVec.ofNat 32 (Ffs.blockCount p.fs)) (BitVec.ofNat 32 (Ffs.blocksUsed p.fs))
      (BitVec.ofNat 32 (Ffs.blockSize p.fs)) (Ffs.dosType p.fs) p.writable)
  (r.1, p, r.2)

/-- The lock argument of `INFO` is not consulted: there is one volume. -/
def info [GuestMemory μ] (p : PktVolume φ) (args : List Long) (mem : μ) : Res × PktVolume φ × μ :=
  p.fillDiskInfo (args.getD 1 0) mem

def diskInfo [GuestMemory μ] (p : PktVolume φ) (args : List Long) (mem : μ) :
    Res × PktVolume φ × μ := p.fillDiskInfo (args.getD 0 0) mem

/-! ## Opening files -/

/-- A handle on the file that was found, or the refusal. -/
def issueFile (p : PktVolume φ) : Except Long OpenFile × φ → Res × PktVolume φ
  | (.ok f, fs) => let r := { p with fs := fs }.allocHandle (.file f); ((dosTrue, r.1), r.2)
  | (.error code, fs) => ((dosFalse, code), { p with fs := fs })

def findInputTarget [GuestMemory μ] (p : PktVolume φ) (args : List Long) (mem : μ) :
    Except Long OpenFile × φ :=
  match p.openForFind (args.getD 1 0) (args.getD 2 0) mem with
  | (.error code, fs) => (.error code, fs)
  | (.ok (parentLba, leaf), fs) =>
    match Ffs.lookup fs parentLba leaf with
    | (.ok (some entry), fs) =>
      if entry.kind.isFile then (.ok ⟨parentLba, leaf, entry.lba, 0, p.writable⟩, fs)
      else (.error Err.objectWrongType, fs)
    | (.ok none, fs) => (.error Err.objectNotFound, fs)
    | (.error e, fs) => (.error (mapReadError e), fs)

def findInput [GuestMemory μ] (p : PktVolume φ) (args : List Long) (mem : μ) :
    Res × PktVolume φ := p.issueFile (p.findInputTarget args mem)

/-- A file that is not there is created. -/
def createTarget (fs : φ) (parentLba : Nat) (leaf : List Byte) : Except Long OpenFile × φ :=
  match Ffs.createFile fs parentLba leaf with
  | (.ok lba, fs) => (.ok ⟨parentLba, leaf, lba, 0, true⟩, fs)
  | (.error e, fs) => (.error (mapMutateError e), fs)

/-- `FINDOUTPUT` empties the file that is there. -/
def findOutputTarget [GuestMemory μ] (p : PktVolume φ) (args : List Long) (mem : μ) :
    Except Long OpenFile × φ :=
  match p.openForFind (args.getD 1 0) (args.getD 2 0) mem with
  | (.error code, fs) => (.error code, fs)
  | (.ok (parentLba, leaf), fs) =>
    match Ffs.lookup fs parentLba leaf with
    | (.error e, fs) => (.error (mapReadError e), fs)
    | (.ok (some entry), fs) =>
      if entry.kind.isFile then
        match Ffs.truncate fs parentLba leaf 0 with
        | (.ok _, fs) => (.ok ⟨parentLba, leaf, entry.lba, 0, true⟩, fs)
        | (.error e, fs) => (.error (mapMutateError e), fs)
      else (.error Err.objectWrongType, fs)
    | (.ok none, fs) => createTarget fs parentLba leaf

def findOutput [GuestMemory μ] (p : PktVolume φ) (args : List Long) (mem : μ) :
    Res × PktVolume φ :=
  if p.writable then p.issueFile (p.findOutputTarget args mem)
  else ((dosFalse, Err.writeProtected), p)

def findUpdateTarget [GuestMemory μ] (p : PktVolume φ) (args : List Long) (mem : μ) :
    Except Long OpenFile × φ :=
  match p.openForFind (args.getD 1 0) (args.getD 2 0) mem with
  | (.error code, fs) => (.error code, fs)
  | (.ok (parentLba, leaf), fs) =>
    match Ffs.lookup fs parentLba leaf with
    | (.error e, fs) => (.error (mapReadError e), fs)
    | (.ok (some entry), fs) =>
      if entry.kind.isFile then (.ok ⟨parentLba, leaf, entry.lba, 0, true⟩, fs)
      else (.error Err.objectWrongType, fs)
    | (.ok none, fs) => createTarget fs parentLba leaf

def findUpdate [GuestMemory μ] (p : PktVolume φ) (args : List Long) (mem : μ) :
    Res × PktVolume φ :=
  if p.writable then p.issueFile (p.findUpdateTarget args mem)
  else ((dosFalse, Err.writeProtected), p)

def end' (p : PktVolume φ) (args : List Long) : Res × PktVolume φ :=
  match p.fileAt (args.getD 0 0) with
  | some _ => ((dosTrue, 0), p.setHandle (args.getD 0 0) none)
  | none => ((dosFalse, Err.objectNotFound), p)

/-! ## Reading, writing and seeking -/

def readAction [GuestMemory μ] (p : PktVolume φ) (args : List Long) (mem : μ) :
    Res × PktVolume φ × μ :=
  match p.fileAt (args.getD 0 0) with
  -- Not the `RES1` of the other refusals here.
  | none => ((dosFalse, Err.objectNotFound), p, mem)
  | some f =>
    match Ffs.fileChain p.fs f.headerLba with
    | (.error e, fs) => ((readWriteError, mapReadError e), { p with fs := fs }, mem)
    | (.ok chain, fs) =>
      match GuestMemory.ramSliceMut mem (args.getD 1 0) (args.getD 2 0) with
      | none => ((readWriteError, Err.badNumber), { p with fs := fs }, mem)
      | some (out, put) =>
        match Ffs.readRange fs chain f.position out with
        -- A read that fails may have filled part of the buffer.
        | (.error e, out, fs) => ((readWriteError, mapReadError e), { p with fs := fs }, put out)
        | (.ok n, out, fs) =>
          ((BitVec.ofNat 32 n, 0), { p with fs := fs }.seekTo (args.getD 0 0) f (f.position + n),
            put out)

def writeAction [GuestMemory μ] (p : PktVolume φ) (args : List Long) (mem : μ) :
    Res × PktVolume φ :=
  match p.fileAt (args.getD 0 0) with
  -- As in `readAction`.
  | none => ((dosFalse, Err.objectNotFound), p)
  | some f =>
    if f.write then
      match GuestMemory.ramSlice mem (args.getD 1 0) (args.getD 2 0) with
      | none => ((readWriteError, Err.badNumber), p)
      | some data =>
        if p.writable then
          match Ffs.writeFile p.fs f.parentLba f.name f.position data with
          | (.ok _, fs) =>
            ((BitVec.ofNat 32 data.length, 0),
              { p with fs := fs }.seekTo (args.getD 0 0) f (f.position + data.length))
          | (.error e, fs) => ((readWriteError, mapMutateError e), { p with fs := fs })
        else ((readWriteError, Err.writeProtected), p)
    else ((readWriteError, Err.writeProtectedFile), p)

/-- The offset a seek mode counts from. -/
def seekBase (mode : Int) (position size : Nat) : Option Nat :=
  if mode = -1 then some 0
  else if mode = 0 then some position
  else if mode = 1 then some size
  else none

/-- `(base + offset).clamp(0, size)`. -/
def seekAction (p : PktVolume φ) (args : List Long) : Res × PktVolume φ :=
  match p.fileAt (args.getD 0 0) with
  | none => ((readWriteError, Err.objectNotFound), p)
  | some f =>
    match Ffs.fileChain p.fs f.headerLba with
    | (.error e, fs) => ((readWriteError, mapReadError e), { p with fs := fs })
    | (.ok chain, fs) =>
      match seekBase (args.getD 2 0).toInt f.position chain.byteSize with
      | none => ((readWriteError, Err.badNumber), { p with fs := fs })
      | some base =>
        ((BitVec.ofNat 32 f.position, 0), { p with fs := fs }.seekTo (args.getD 0 0) f
          (min (base + (args.getD 1 0).toInt).toNat chain.byteSize))

def setFileSize (p : PktVolume φ) (args : List Long) : Res × PktVolume φ :=
  match p.fileAt (args.getD 0 0) with
  | none => ((readWriteError, Err.objectNotFound), p)
  | some f =>
    if p.writable then
      match Ffs.fileChain p.fs f.headerLba with
      | (.error e, fs) => ((readWriteError, mapReadError e), { p with fs := fs })
      | (.ok chain, fs) =>
        match seekBase (args.getD 2 0).toInt f.position chain.byteSize with
        | none => ((readWriteError, Err.badNumber), { p with fs := fs })
        | some base =>
          let newSize := (base + (args.getD 1 0).toInt).toNat
          match Ffs.truncate fs f.parentLba f.name newSize with
          -- The positions stay, the handle's own too.
          | (.ok _, fs) => ((BitVec.ofNat 32 newSize, 0), { p with fs := fs })
          | (.error e, fs) => ((readWriteError, mapMutateError e), { p with fs := fs })
    else ((readWriteError, Err.writeProtectedFile), p)

/-! ## The directory tree -/

/-- `DOSTRUE`, or the code of the failure. -/
def finish (p : PktVolume φ) : Except MutateError Unit × φ → Res × PktVolume φ
  | (.ok _, fs) => ((dosTrue, 0), { p with fs := fs })
  | (.error e, fs) => ((dosFalse, mapMutateError e), { p with fs := fs })

def deleteObject [GuestMemory μ] (p : PktVolume φ) (args : List Long) (mem : μ) :
    Res × PktVolume φ :=
  if p.writable then
    match p.openForFind (args.getD 0 0) (args.getD 1 0) mem with
    | (.error code, fs) => ((dosFalse, code), { p with fs := fs })
    | (.ok (parentLba, leaf), fs) => p.finish (Ffs.delete fs parentLba leaf)
  else ((dosFalse, Err.writeProtected), p)

/-- Both locks and both names are resolved before either path is walked. -/
def renameObject [GuestMemory μ] (p : PktVolume φ) (args : List Long) (mem : μ) :
    Res × PktVolume φ :=
  if p.writable then
    match p.resolveLock (args.getD 0 0) with
    | none => ((dosFalse, Err.objectNotFound), p)
    | some srcDir =>
      match readName mem (args.getD 1 0) with
      | none => ((dosFalse, Err.invalidComponentName), p)
      | some srcName =>
        match p.resolveLock (args.getD 2 0) with
        | none => ((dosFalse, Err.objectNotFound), p)
        | some dstDir =>
          match readName mem (args.getD 3 0) with
          | none => ((dosFalse, Err.invalidComponentName), p)
          | some dstName =>
            match splitParent p.fs srcDir srcName with
            | (.error code, fs) => ((dosFalse, code), { p with fs := fs })
            | (.ok (srcParent, srcLeaf), fs) =>
              match splitParent fs dstDir dstName with
              | (.error code, fs) => ((dosFalse, code), { p with fs := fs })
              | (.ok (dstParent, dstLeaf), fs) =>
                p.finish (Ffs.rename fs srcParent srcLeaf dstParent dstLeaf)
  else ((dosFalse, Err.writeProtected), p)

/-- An empty name is the lock itself. -/
def resolveMetaTarget (fs : φ) (dirLba : Nat) (name : List Byte) : Except Long Nat × φ :=
  if name.isEmpty then (.ok dirLba, fs)
  else
    match splitParent fs dirLba name with
    | (.error code, fs) => (.error code, fs)
    | (.ok (parent, leaf), fs) =>
      match Ffs.lookup fs parent leaf with
      | (.ok (some e), fs) => (.ok e.lba, fs)
      | (.ok none, fs) => (.error Err.objectNotFound, fs)
      | (.error e, fs) => (.error (mapReadError e), fs)

/-- `SET_PROTECT`, `SET_COMMENT` and `SET_DATE`, which differ in the update they read. -/
def setMeta [GuestMemory μ] (p : PktVolume φ) (args : List Long) (mem : μ)
    (update : Option MetaUpdate) : Res × PktVolume φ :=
  if p.writable then
    match p.resolveLock (args.getD 1 0) with
    | none => ((dosFalse, Err.objectNotFound), p)
    | some dirLba =>
      match readBstr mem (args.getD 2 0) with
      | none => ((dosFalse, Err.invalidComponentName), p)
      | some name =>
        match resolveMetaTarget p.fs dirLba name with
        | (.error code, fs) => ((dosFalse, code), { p with fs := fs })
        | (.ok target, fs) =>
          match update with
          | none => ((dosFalse, Err.badNumber), { p with fs := fs })
          | some u => p.finish (Ffs.setMetadata fs target u)
  else ((dosFalse, Err.writeProtected), p)

def setProtect [GuestMemory μ] (p : PktVolume φ) (args : List Long) (mem : μ) :
    Res × PktVolume φ := p.setMeta args mem (some (.protection (args.getD 3 0)))

def setComment [GuestMemory μ] (p : PktVolume φ) (args : List Long) (mem : μ) :
    Res × PktVolume φ := p.setMeta args mem ((readBstr mem (args.getD 3 0)).map .comment)

/-- The three longs of a `DateStamp`. -/
def readDateStamp (b : List Byte) : DateStamp where
  days := be32 (b.getD 0 0) (b.getD 1 0) (b.getD 2 0) (b.getD 3 0)
  mins := be32 (b.getD 4 0) (b.getD 5 0) (b.getD 6 0) (b.getD 7 0)
  ticks := be32 (b.getD 8 0) (b.getD 9 0) (b.getD 10 0) (b.getD 11 0)

def setDate [GuestMemory μ] (p : PktVolume φ) (args : List Long) (mem : μ) : Res × PktVolume φ :=
  p.setMeta args mem ((GuestMemory.ramSlice mem (args.getD 3 0) 12).map fun b =>
    .date (readDateStamp b))

/-! ## Flush, inhibit and format -/

def flush (p : PktVolume φ) : Res × PktVolume φ :=
  ((dosTrue, 0), if p.writable then { p with fs := Ffs.sync p.fs } else p)

/-- `remount`: the image mounted again, without any handle. -/
def remount (p : PktVolume φ) : Except Long (PktVolume φ) :=
  match Ffs.mount p.fs p.writable p.lenBlocks p.reserved with
  | .ok fs => .ok { p with fs := fs, handles := fun _ => none }
  | .error e => .error (mapMountError e)

def inhibitAction (p : PktVolume φ) (args : List Long) : Res × PktVolume φ :=
  if args.getD 0 0 ≠ 0 then
    if p.inhibited then ((dosTrue, 0), p)
    else if p.writable then
      -- The writes go out before the handles are dropped.
      ((dosTrue, 0), { p.flush.2 with handles := fun _ => none, inhibited := true })
    else ((dosFalse, Err.writeProtected), p)
  else if p.inhibited then
    match p.remount with
    | .ok p => ((dosTrue, 0), { p with inhibited := false })
    -- A volume that cannot be mounted stays inhibited.
    | .error code => ((dosFalse, code), p)
  else ((dosTrue, 0), p)

def formatAction [GuestMemory μ] (p : PktVolume φ) (args : List Long) (mem : μ) :
    Res × PktVolume φ :=
  if p.inhibited then
    if p.writable then
      match readName mem (args.getD 0 0) with
      | none => ((dosFalse, Err.invalidComponentName), p)
      | some name =>
        if Ffs.isVariant p.fs (args.getD 1 0) then
          match Ffs.format p.fs (args.getD 1 0) p.lenBlocks p.reserved name with
          | (.ok _, fs) => ((dosTrue, 0), { p with fs := fs })
          | (.error e, fs) => ((dosFalse, mapFormatError e), { p with fs := fs })
        else ((dosFalse, Err.notADosDisk), p)
    else ((dosFalse, Err.writeProtected), p)
  else ((dosFalse, Err.objectInUse), p)

/-! ## Dispatch -/

/-- An action that leaves memory alone. -/
def withMem (mem : μ) (r : Res × PktVolume φ) : Res × PktVolume φ × μ := (r.1, r.2, mem)

/-- `execute_inner`. Only the first four actions answer while the volume is inhibited. -/
def executeInner [GuestMemory μ] (p : PktVolume φ) (action : Long) (args : List Long) (mem : μ) :
    Res × PktVolume φ × μ :=
  if action = Action.inhibit then withMem mem (p.inhibitAction args)
  else if action = Action.format then withMem mem (p.formatAction args mem)
  else if action = Action.isFilesystem then ((dosTrue, 0), p, mem)
  else if action = Action.diskInfo then p.diskInfo args mem
  else if p.inhibited then ((dosFalse, Err.notADosDisk), p, mem)
  else if action = Action.locateObject then withMem mem (p.locateObject args mem)
  else if action = Action.freeLock then withMem mem (p.freeLock args)
  else if action = Action.copyDir then withMem mem (p.copyDir args)
  else if action = Action.parent then withMem mem (p.parent args)
  else if action = Action.sameLock then withMem mem (p.sameLock args)
  else if action = Action.examineObject then p.examineObject args mem
  else if action = Action.examineNext then p.examineNext args mem
  else if action = Action.info then p.info args mem
  else if action = Action.findInput then withMem mem (p.findInput args mem)
  else if action = Action.findOutput then withMem mem (p.findOutput args mem)
  else if action = Action.findUpdate then withMem mem (p.findUpdate args mem)
  else if action = Action.end' then withMem mem (p.end' args)
  else if action = Action.read then p.readAction args mem
  else if action = Action.write then withMem mem (p.writeAction args mem)
  else if action = Action.seek then withMem mem (p.seekAction args)
  else if action = Action.setFileSize then withMem mem (p.setFileSize args)
  else if action = Action.createDir then withMem mem (p.createDirAction args mem)
  else if action = Action.deleteObject then withMem mem (p.deleteObject args mem)
  else if action = Action.renameObject then withMem mem (p.renameObject args mem)
  else if action = Action.setProtect then withMem mem (p.setProtect args mem)
  else if action = Action.setComment then withMem mem (p.setComment args mem)
  else if action = Action.setDate then withMem mem (p.setDate args mem)
  else if action = Action.flush then withMem mem p.flush
  else ((dosFalse, Err.actionNotKnown), p, mem)

/-- A link of the chain of actions. -/
theorem of_action {α : Type} {P : Long → α → Prop} {a b : Long} {x y : α} (hb : P b x)
    (hy : P a y) : P a (if a = b then x else y) := by
  by_cases h : a = b
  · rw [if_pos h, h]
    exact hb
  · rw [if_neg h]
    exact hy

/-- A packet is one of the known actions, refused because the volume is inhibited, or unknown. -/
theorem dispatch [GuestMemory μ] {P : Long → Res × PktVolume φ × μ → Prop} (p : PktVolume φ)
    (args : List Long) (mem : μ)
    (inhibit : P Action.inhibit (withMem mem (p.inhibitAction args)))
    (format : P Action.format (withMem mem (p.formatAction args mem)))
    (isFilesystem : P Action.isFilesystem ((dosTrue, 0), p, mem))
    (diskInfo : P Action.diskInfo (p.diskInfo args mem))
    (refused : p.inhibited = true → ∀ a, P a ((dosFalse, Err.notADosDisk), p, mem))
    (locateObject : p.inhibited = false →
      P Action.locateObject (withMem mem (p.locateObject args mem)))
    (freeLock : p.inhibited = false → P Action.freeLock (withMem mem (p.freeLock args)))
    (copyDir : p.inhibited = false → P Action.copyDir (withMem mem (p.copyDir args)))
    (parent : p.inhibited = false → P Action.parent (withMem mem (p.parent args)))
    (sameLock : p.inhibited = false → P Action.sameLock (withMem mem (p.sameLock args)))
    (examineObject : p.inhibited = false → P Action.examineObject (p.examineObject args mem))
    (examineNext : p.inhibited = false → P Action.examineNext (p.examineNext args mem))
    (info : p.inhibited = false → P Action.info (p.info args mem))
    (findInput : p.inhibited = false → P Action.findInput (withMem mem (p.findInput args mem)))
    (findOutput : p.inhibited = false → P Action.findOutput (withMem mem (p.findOutput args mem)))
    (findUpdate : p.inhibited = false → P Action.findUpdate (withMem mem (p.findUpdate args mem)))
    (end' : p.inhibited = false → P Action.end' (withMem mem (p.end' args)))
    (read : p.inhibited = false → P Action.read (p.readAction args mem))
    (write : p.inhibited = false → P Action.write (withMem mem (p.writeAction args mem)))
    (seek : p.inhibited = false → P Action.seek (withMem mem (p.seekAction args)))
    (setFileSize : p.inhibited = false → P Action.setFileSize (withMem mem (p.setFileSize args)))
    (createDir : p.inhibited = false →
      P Action.createDir (withMem mem (p.createDirAction args mem)))
    (deleteObject : p.inhibited = false →
      P Action.deleteObject (withMem mem (p.deleteObject args mem)))
    (renameObject : p.inhibited = false →
      P Action.renameObject (withMem mem (p.renameObject args mem)))
    (setProtect : p.inhibited = false → P Action.setProtect (withMem mem (p.setProtect args mem)))
    (setComment : p.inhibited = false → P Action.setComment (withMem mem (p.setComment args mem)))
    (setDate : p.inhibited = false → P Action.setDate (withMem mem (p.setDate args mem)))
    (flush : p.inhibited = false → P Action.flush (withMem mem p.flush))
    (unknown : ∀ a, P a ((dosFalse, Err.actionNotKnown), p, mem)) (a : Long) :
    P a (p.executeInner a args mem) := by
  unfold executeInner
  apply of_action inhibit
  apply of_action format
  apply of_action isFilesystem
  apply of_action diskInfo
  cases hinh : p.inhibited with
  | true => exact refused hinh a
  | false =>
    apply of_action (locateObject hinh)
    apply of_action (freeLock hinh)
    apply of_action (copyDir hinh)
    apply of_action (parent hinh)
    apply of_action (sameLock hinh)
    apply of_action (examineObject hinh)
    apply of_action (examineNext hinh)
    apply of_action (info hinh)
    apply of_action (findInput hinh)
    apply of_action (findOutput hinh)
    apply of_action (findUpdate hinh)
    apply of_action (end' hinh)
    apply of_action (read hinh)
    apply of_action (write hinh)
    apply of_action (seek hinh)
    apply of_action (setFileSize hinh)
    apply of_action (createDir hinh)
    apply of_action (deleteObject hinh)
    apply of_action (renameObject hinh)
    apply of_action (setProtect hinh)
    apply of_action (setComment hinh)
    apply of_action (setDate hinh)
    apply of_action (flush hinh)
    exact unknown a

/-- The actions that answer a count or a position. -/
def dataActions : List Long := [Action.read, Action.write, Action.seek, Action.setFileSize]

/-- A volume that is not inhibited carries the data actions out. -/
theorem executeInner_data [GuestMemory μ] {p : PktVolume φ} (hinh : p.inhibited = false)
    (args : List Long) (mem : μ) :
    p.executeInner Action.read args mem = p.readAction args mem ∧
    p.executeInner Action.write args mem = withMem mem (p.writeAction args mem) ∧
    p.executeInner Action.seek args mem = withMem mem (p.seekAction args) ∧
    p.executeInner Action.setFileSize args mem = withMem mem (p.setFileSize args) := by
  refine ⟨?_, ?_, ?_, ?_⟩ <;> simp [executeInner, hinh]

theorem executeInner_data_inhibited [GuestMemory μ] {p : PktVolume φ} (hinh : p.inhibited = true)
    (args : List Long) (mem : μ) {a : Long} (ha : a ∈ dataActions) :
    p.executeInner a args mem = ((dosFalse, Err.notADosDisk), p, mem) := by
  simp only [dataActions, List.mem_cons, List.not_mem_nil, or_false] at ha
  rcases ha with rfl | rfl | rfl | rfl <;> simp [executeInner, hinh]

/-- The card drives the volume through the packet seam. -/
instance : PacketBackend (PktVolume φ) where
  execute := executeInner

end PktVolume

/-! ### The medium (`FileMedium`)

A partition of an image file, as the file system reads and writes it. The host's files are not part
of this repository and are a class here, `HostFile`. -/

/-- A file of the host: `seek` from the start, `read_exact` and `write_all`, which may fail. -/
class HostFile (φ : Type) where
  seek : φ → Nat → Bool × φ
  readExact : φ → (n : Nat) → Option (Vector Byte n) × φ
  writeAll : {n : Nat} → φ → Vector Byte n → Bool × φ

inductive MediumError
  /-- `lba out of range`. -/
  | outOfRange
  /-- `lba overflow`. -/
  | lbaOverflow
  /-- `byte offset overflow`. -/
  | byteOverflow
  /-- The host's. -/
  | host
  deriving DecidableEq

structure FileMedium (φ : Type) where
  file : φ
  blockSize : Nat
  baseLba : Nat
  lenBlocks : Option Nat

namespace FileMedium

abbrev u64Limit : Nat := 2 ^ 64

variable {φ : Type} [HostFile φ]

def abs (m : FileMedium φ) (lba : Nat) : Except MediumError Nat :=
  if m.lenBlocks.any (· ≤ lba) then .error .outOfRange
  else
    match Checked.add u64Limit m.baseLba lba with
    | some abs => .ok abs
    | none => .error .lbaOverflow

def seekTo (m : FileMedium φ) (lba : Nat) : Except MediumError Unit × FileMedium φ :=
  match m.abs lba with
  | .error e => (.error e, m)
  | .ok abs =>
    match Checked.mul u64Limit abs m.blockSize with
    | none => (.error .byteOverflow, m)
    | some byteOff =>
      let r := HostFile.seek m.file byteOff
      (if r.1 then .ok () else .error .host, { m with file := r.2 })

/-- The buffer is of `n` bytes. -/
def readBlock (m : FileMedium φ) (lba n : Nat) :
    Except MediumError (Vector Byte n) × FileMedium φ :=
  match m.seekTo lba with
  | (.error e, m) => (.error e, m)
  | (.ok _, m) =>
    let r := HostFile.readExact m.file n
    (r.1.elim (.error .host) .ok, { m with file := r.2 })

def writeBlock {n : Nat} (m : FileMedium φ) (lba : Nat) (buf : Vector Byte n) :
    Except MediumError Unit × FileMedium φ :=
  match m.seekTo lba with
  | (.error e, m) => (.error e, m)
  | (.ok _, m) =>
    let r := HostFile.writeAll m.file buf
    (if r.1 then .ok () else .error .host, { m with file := r.2 })

end FileMedium

end M68kMachine
