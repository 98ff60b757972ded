import M68kMachine.Hosted.Replay
import M68kMachine.Library.Codec

/-!
# The bytes of a replay log

`replay.rs`, the log format: one tag byte for each event and its fields after it, big-endian and
without any framing, as `docs/replay-log.md` lists them.

* `writeEvent`, `readEvent` — one record
* `writeLog`, `readLog` — records up to the end of the file
* `Event.Fits` — the fields have the widths of the source
-/

namespace M68kMachine

/-- Why `read_event` fails: too few bytes, or an unknown event tag. -/
inductive LogError
  | unexpectedEof
  | unknownTag (tag : Byte)
  deriving DecidableEq

abbrev LogReader := Reader Byte LogError

namespace ReplayLog

open Reader

/-! ## Integers -/

def writeU8 (v : Byte) : List Byte := [v]

def writeU16 (v : Word) : List Byte := bytesBE 2 v

def writeU32 (v : Long) : List Byte := bytesBE 4 v

def writeU64 (v : Quad) : List Byte := bytesBE 8 v

def readExact (n : Nat) : LogReader (List Byte) := takeExact .unexpectedEof n

def readU8 : LogReader Byte := (fun b => b.getD 0 0) <$> readExact 1

def readU16 : LogReader Word := ofBytesBE 16 <$> readExact 2

def readU32 : LogReader Long := ofBytesBE 32 <$> readExact 4

def readU64 : LogReader Quad := ofBytesBE 64 <$> readExact 8

/-! ## Tables and registers -/

def writeTable (table : PageTable) : List Byte := List.ofFn fun i => (table i).toCode

def readTable : LogReader PageTable :=
  (fun bytes i => PageType.fromCode (bytes.getD i 0)) <$> readExact pageCount

def writeRegs (regs : Regs) : List Byte :=
  regs.d.toList.flatMap writeU32 ++ regs.a.toList.flatMap writeU32 ++ writeU32 regs.pc ++
    writeU16 regs.sr

def readRegs : LogReader Regs := do
  let d ← vector readU32 8
  let a ← vector readU32 8
  let pc ← readU32
  let sr ← readU16
  pure { d, a, pc, sr }

/-! ## Events -/

def tagIoRead : Byte := 1
def tagIoWrite : Byte := 2
def tagIplChange : Byte := 3
def tagDeviceWrite : Byte := 4
def tagClassificationTransition : Byte := 5
def tagCheckpoint : Byte := 6
def tagEnd : Byte := 0xFF

/-- A counter of 64 bits. -/
def writeCount (n : Nat) : List Byte := writeU64 (BitVec.ofNat 64 n)

def readCount : LogReader Nat := BitVec.toNat <$> readU64

def writeEvent : Event → List Byte
  | .ioRead ordinal addr width value =>
    writeU8 tagIoRead ++ writeCount ordinal ++ writeU32 addr ++ writeU8 (BitVec.ofNat 8 width) ++
      writeU32 value
  | .ioWrite ordinal addr width value =>
    writeU8 tagIoWrite ++ writeCount ordinal ++ writeU32 addr ++ writeU8 (BitVec.ofNat 8 width) ++
      writeU32 value
  | .iplChange ordinal level => writeU8 tagIplChange ++ writeCount ordinal ++ writeU8 level
  | .deviceWrite ordinal addr bytes =>
    writeU8 tagDeviceWrite ++ writeCount ordinal ++ writeU32 addr ++
      writeU32 (BitVec.ofNat 32 bytes.length) ++ bytes
  | .classificationTransition ordinal table =>
    writeU8 tagClassificationTransition ++ writeCount ordinal ++ writeTable table
  | .checkpoint ordinal regs => writeU8 tagCheckpoint ++ writeCount ordinal ++ writeRegs regs
  | .finish ordinal totalInstructions regs chipRamDigest fastRamDigest =>
    writeU8 tagEnd ++ writeCount ordinal ++ writeCount totalInstructions ++ writeRegs regs ++
      writeU64 chipRamDigest ++ writeU64 fastRamDigest

/-- The record of one access to a device. -/
def readIo (access : Nat → Long → Nat → Long → Event) : LogReader Event := do
  let ordinal ← readCount
  let addr ← readU32
  let width ← readU8
  let value ← readU32
  pure (access ordinal addr width.toNat value)

/-- What follows the tag. -/
def readBody (tag : Byte) : LogReader Event :=
  if tag = tagIoRead then readIo .ioRead
  else if tag = tagIoWrite then readIo .ioWrite
  else if tag = tagIplChange then do
    let ordinal ← readCount
    let level ← readU8
    pure (.iplChange ordinal level)
  else if tag = tagDeviceWrite then do
    let ordinal ← readCount
    let addr ← readU32
    let len ← readU32
    let bytes ← readExact len.toNat
    pure (.deviceWrite ordinal addr bytes)
  else if tag = tagClassificationTransition then do
    let ordinal ← readCount
    let table ← readTable
    pure (.classificationTransition ordinal table)
  else if tag = tagCheckpoint then do
    let ordinal ← readCount
    let regs ← readRegs
    pure (.checkpoint ordinal regs)
  else if tag = tagEnd then do
    let ordinal ← readCount
    let totalInstructions ← readCount
    let regs ← readRegs
    let chipRamDigest ← readU64
    let fastRamDigest ← readU64
    pure (.finish ordinal totalInstructions regs chipRamDigest fastRamDigest)
  else fun _ => .error (.unknownTag tag)

/-- One event and what is left, or nothing at the end of the file. -/
def readEvent : List Byte → Except LogError (Option (Event × List Byte))
  | [] => .ok none
  | tag :: rest => some <$> (readBody tag).run rest

/-! ## A whole log -/

theorem shrinks_readCount : Shrinks readCount :=
  ((shrinks_takeExact _ _).map _).map _

theorem shrinks_readRegs : Shrinks readRegs :=
  have hint {w n} : Shrinks (ofBytesBE w <$> readExact n) := (shrinks_takeExact _ _).map _
  (hint.vector 8).bind fun _ => (hint.vector 8).bind fun _ => hint.bind fun _ => hint.bind fun _ =>
    .pure _

theorem shrinks_readIo (access : Nat → Long → Nat → Long → Event) : Shrinks (readIo access) :=
  shrinks_readCount.bind fun _ => ((shrinks_takeExact _ _).map _).bind fun _ =>
    ((shrinks_takeExact _ _).map _).bind fun _ => ((shrinks_takeExact _ _).map _).bind fun _ =>
      .pure _

theorem shrinks_readBody (tag : Byte) : Shrinks (readBody tag) := by
  have hmap {α : Type} {n : Nat} (f : List Byte → α) : Shrinks (f <$> readExact n) :=
    (shrinks_takeExact _ _).map f
  unfold readBody
  split
  · exact shrinks_readIo _
  split
  · exact shrinks_readIo _
  split
  · exact shrinks_readCount.bind fun _ => (hmap _).bind fun _ => .pure _
  split
  · exact shrinks_readCount.bind fun _ => (hmap _).bind fun _ => (hmap _).bind fun _ =>
      (shrinks_takeExact _ _).bind fun _ => .pure _
  split
  · exact shrinks_readCount.bind fun _ => (hmap _).bind fun _ => .pure _
  split
  · exact shrinks_readCount.bind fun _ => shrinks_readRegs.bind fun _ => .pure _
  split
  · exact shrinks_readCount.bind fun _ => shrinks_readCount.bind fun _ =>
      shrinks_readRegs.bind fun _ => (hmap _).bind fun _ => (hmap _).bind fun _ => .pure _
  · -- an unknown tag
    rintro _ _ _ ⟨⟩

/-- A record takes at least its tag. -/
theorem progresses_readEvent : Progresses readEvent := by
  rintro (_ | ⟨tag, body⟩) ev rest h
  · cases h
  · change some <$> (readBody tag).run body = _ at h
    cases hbody : (readBody tag).run body with
    | error e => rw [hbody] at h; cases h
    | ok p =>
      rw [hbody] at h
      cases h
      exact Nat.lt_succ_of_le (shrinks_readBody tag _ _ _ hbody)

/-- The records of a file, and how it ends. -/
def readLog (input : List Byte) : List Event × Ending LogError :=
  readAll readEvent progresses_readEvent input

def writeLog (events : List Event) : List Byte := events.flatMap writeEvent

end ReplayLog

/-- The fields have the widths of the source's types, and a payload has a length of 32 bits. -/
def Event.Fits : Event → Prop
  | ioRead ordinal _ width _ | ioWrite ordinal _ width _ => ordinal < 2 ^ 64 ∧ width < 2 ^ 8
  | deviceWrite ordinal _ bytes => ordinal < 2 ^ 64 ∧ bytes.length < 2 ^ 32
  | finish ordinal totalInstructions _ _ _ => ordinal < 2 ^ 64 ∧ totalInstructions < 2 ^ 64
  | iplChange ordinal _ | classificationTransition ordinal _ | checkpoint ordinal _ =>
    ordinal < 2 ^ 64

end M68kMachine
