import M68kMachine.Core.Registers

/-!
# The filesystem under a `pktport` volume

What `pktvol.rs` asks of a mounted volume, and its `RES2` codes for failures. The filesystem is a
parameter: every operation may fail, and returns the volume it leaves.

* `Ffs` — the operations
* `mapReadError`, `mapAllocError`, `mapMutateError`, `mapFormatError` — §6 of the protocol
-/

namespace M68kMachine

/-! ### `RES2` codes (`mod err`) -/

namespace Err

abbrev objectInUse : Long := 202
abbrev objectExists : Long := 203
abbrev dirNotFound : Long := 204
abbrev objectNotFound : Long := 205
abbrev actionNotKnown : Long := 209
abbrev invalidComponentName : Long := 210
abbrev objectWrongType : Long := 212
abbrev notValidated : Long := 213
abbrev writeProtected : Long := 214
abbrev directoryNotEmpty : Long := 216
abbrev diskFull : Long := 221
abbrev writeProtectedFile : Long := 223
abbrev notADosDisk : Long := 225
abbrev noMoreEntries : Long := 232
abbrev badNumber : Long := 115

end Err

/-! ## What the filesystem reports -/

/-- The failures of a read that `map_read_error` tells apart. -/
inductive ReadError
  | notADirectory
  | notHeader
  | nameTooLong
  | unknownDosType
  | variantMismatch
  | badBlockSize
  | other
  deriving DecidableEq

inductive AllocError
  | read (e : ReadError)
  | bitmapInvalid
  | volumeFull
  | other
  deriving DecidableEq

inductive MutateError
  | read (e : ReadError)
  | alloc (e : AllocError)
  | nameEmpty
  | nameTooLong
  | nameInvalidByte
  | commentTooLong
  | notADirectory
  | notAFile
  | isRoot
  | notFound
  | duplicateName
  | directoryNotEmpty
  | linkedTo
  | intoOwnSubtree
  | fileTooLarge
  | other
  deriving DecidableEq

inductive FormatError
  | nameEmpty
  | nameTooLong
  | nameInvalidByte
  | badBlockSize
  | badReserved
  | reservedTooSmall
  | volumeTooSmall
  | volumeTooLarge
  | sinkTooSmall
  | io
  deriving DecidableEq

/-- The ways a remount fails: the image, the volume, or its allocator in either mode. -/
inductive MountError
  | medium
  | read (e : ReadError)
  | mutate (e : MutateError)
  | alloc (e : AllocError)
  deriving DecidableEq

def mapReadError : ReadError → Long
  | .notADirectory | .notHeader => Err.objectWrongType
  | .nameTooLong => Err.invalidComponentName
  | .unknownDosType | .variantMismatch | .badBlockSize => Err.notADosDisk
  | .other => Err.objectNotFound

def mapAllocError : AllocError → Long
  | .read e => mapReadError e
  | .bitmapInvalid => Err.notValidated
  | .volumeFull => Err.diskFull
  | .other => Err.objectNotFound

def mapMutateError : MutateError → Long
  | .read e => mapReadError e
  | .alloc e => mapAllocError e
  | .nameEmpty | .nameTooLong | .nameInvalidByte | .commentTooLong => Err.invalidComponentName
  | .notADirectory | .notAFile | .isRoot => Err.objectWrongType
  | .notFound => Err.objectNotFound
  | .duplicateName => Err.objectExists
  | .directoryNotEmpty => Err.directoryNotEmpty
  | .linkedTo | .intoOwnSubtree => Err.objectInUse
  | .fileTooLarge => Err.diskFull
  | .other => Err.objectNotFound

def mapFormatError : FormatError → Long
  | .nameEmpty | .nameTooLong | .nameInvalidByte => Err.invalidComponentName
  | .badBlockSize | .badReserved | .reservedTooSmall | .volumeTooSmall | .volumeTooLarge
  | .sinkTooSmall => Err.notADosDisk
  | .io => Err.objectNotFound

def mapMountError : MountError → Long
  | .medium => Err.objectNotFound
  | .read e => mapReadError e
  | .mutate e => mapMutateError e
  | .alloc e => mapAllocError e

/-- No failure is reported with the code of success. -/
theorem mapReadError_ne_zero (e : ReadError) : mapReadError e ≠ 0 := by
  cases e <;> decide

theorem mapAllocError_ne_zero (e : AllocError) : mapAllocError e ≠ 0 := by
  cases e with
  | read e => exact mapReadError_ne_zero e
  | _ => decide

theorem mapMutateError_ne_zero (e : MutateError) : mapMutateError e ≠ 0 := by
  cases e with
  | read e => exact mapReadError_ne_zero e
  | alloc e => exact mapAllocError_ne_zero e
  | _ => decide

theorem mapFormatError_ne_zero (e : FormatError) : mapFormatError e ≠ 0 := by
  cases e <;> decide

theorem mapMountError_ne_zero (e : MountError) : mapMountError e ≠ 0 := by
  cases e with
  | medium => decide
  | read e => exact mapReadError_ne_zero e
  | mutate e => exact mapMutateError_ne_zero e
  | alloc e => exact mapAllocError_ne_zero e

structure DateStamp where
  days : Long
  mins : Long
  ticks : Long
  deriving DecidableEq

/-- What the backend asks of an entry's kind. `isFile` is `kind == EntryKind::File`. -/
structure EntryKind where
  isFile : Bool
  isDirectory : Bool
  secondaryType : Long
  deriving DecidableEq

structure Entry where
  lba : Nat
  kind : EntryKind
  name : List Byte
  protection : Long
  byteSize : Long
  date : DateStamp
  owner : Long
  parent : Long
  deriving DecidableEq

/-- The blocks of a file, as `read_range` follows them. -/
structure FileChain where
  blocks : List Nat
  extensions : List Nat
  byteSize : Nat
  deriving DecidableEq

inductive MetaUpdate
  | protection (mask : Long)
  | comment (text : List Byte)
  | date (stamp : DateStamp)
  deriving DecidableEq

/-! ## The operations -/

/-- A mounted volume: `Volume` on a read-only one, `Mutator` on a writable one. -/
class Ffs (φ : Type) where
  rootLba : φ → Nat
  /-- The volume's name and the date its root was altered. -/
  root : φ → List Byte × DateStamp
  blockCount : φ → Nat
  blockSize : φ → Nat
  dosType : φ → Long
  blocksUsed : φ → Nat
  lookup : φ → Nat → List Byte → Except ReadError (Option Entry) × φ
  lookupPath : φ → Nat → List Byte → Except ReadError (Option Entry) × φ
  readDir : φ → Nat → Except ReadError (List Entry) × φ
  entryAt : φ → Nat → Except ReadError Entry × φ
  comment : φ → Entry → Except ReadError (List Byte) × φ
  fileChain : φ → Nat → Except ReadError FileChain × φ
  /-- `read_range` into a buffer: the count, the buffer it leaves and the volume. -/
  readRange : φ → FileChain → Nat → List Byte → Except ReadError Nat × List Byte × φ
  createFile : φ → Nat → List Byte → Except MutateError Nat × φ
  createDir : φ → Nat → List Byte → Except MutateError Nat × φ
  writeFile : φ → Nat → List Byte → Nat → List Byte → Except MutateError Unit × φ
  truncate : φ → Nat → List Byte → Nat → Except MutateError Unit × φ
  delete : φ → Nat → List Byte → Except MutateError Unit × φ
  rename : φ → Nat → List Byte → Nat → List Byte → Except MutateError Unit × φ
  setMetadata : φ → Nat → MetaUpdate → Except MutateError Unit × φ
  /-- `Variant::from_dostype` recognises it. -/
  isVariant : φ → Long → Bool
  /-- A fresh empty volume over the medium: dostype, blocks, reserved blocks and name. -/
  format : φ → Long → Nat → Nat → List Byte → Except FormatError Unit × φ
  /-- `sync_data` on the image. -/
  sync : φ → φ
  /-- The image opened again and mounted: writable or not, its blocks and reserved blocks. -/
  mount : φ → Bool → Nat → Nat → Except MountError φ

end M68kMachine
