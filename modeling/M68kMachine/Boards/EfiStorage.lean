import M68kMachine.Core.Block
import M68kMachine.Library.FlatImage

/-!
# UEFI storage

`storage.rs` of the UEFI board: a medium of the firmware's blocks handed to `hostblk` as 512-byte
sectors, and the scan that finds it. The firmware's `EFI_BLOCK_IO_PROTOCOL` is a class here,
`BlockIo`.

Sums and products wrap around, as they do in a release build.
-/

namespace M68kMachine

/-- What a medium says of itself. -/
structure BlockIoMedia where
  mediaId : Long
  mediaPresent : Bool
  logicalPartition : Bool
  blockSize : Long
  lastBlock : Quad

/-- The firmware's protocol. `readBlocks` returns the lent buffer; `false` is an error status. -/
class BlockIo (ι : Type) where
  media : ι → BlockIoMedia
  readBlocks : {n : Nat} → ι → Long → Quad → Vector Byte n → Bool × Vector Byte n × ι
  writeBlocks : {n : Nat} → ι → Long → Quad → Vector Byte n → Bool × ι

/-- A medium of 512-byte sectors over blocks that hold several, or over parts of one. -/
structure EfiBlockDevice (ι : Type) where
  io : ι
  mediaId : Long
  nativeBlockSize : Quad
  sectorsPerNative : Quad
  nativesPerSector : Quad
  sectorCount : Quad
  /-- One block, for a medium with blocks larger than a sector; the source has none for the
  others. -/
  scratch : Vector Byte nativeBlockSize.toNat
  whole : sectorsPerNative.toNat * sectorBytes = nativesPerSector.toNat * nativeBlockSize.toNat
  one : sectorsPerNative = 1 ∨ nativesPerSector = 1
  blocky : 0 < sectorsPerNative.toNat ∧ 0 < nativesPerSector.toNat

namespace EfiBlockDevice

variable {ι : Type} [BlockIo ι]

/-- Why a block size cannot be translated. -/
def untranslatable (nativeBlockSize : Quad) : String :=
  "block size " ++ toString nativeBlockSize.toNat ++
    " is neither a clean multiple nor a clean divisor of " ++ toString sectorBytes ++
    " -- refusing to guess how to translate it"

/-- The device of a medium whose blocks and sectors make each other up. -/
def build (io : ι) (sectorsPerNative nativesPerSector : Quad)
    (whole : sectorsPerNative.toNat * sectorBytes =
      nativesPerSector.toNat * ((BlockIo.media io).blockSize.setWidth 64 : Quad).toNat)
    (one : sectorsPerNative = 1 ∨ nativesPerSector = 1)
    (blocky : 0 < sectorsPerNative.toNat ∧ 0 < nativesPerSector.toNat) : EfiBlockDevice ι where
  io := io
  mediaId := (BlockIo.media io).mediaId
  nativeBlockSize := (BlockIo.media io).blockSize.setWidth 64
  sectorsPerNative := sectorsPerNative
  nativesPerSector := nativesPerSector
  sectorCount :=
    let totalNativeBlocks := (BlockIo.media io).lastBlock + 1
    if nativesPerSector = 1 then totalNativeBlocks * sectorsPerNative
    else totalNativeBlocks / nativesPerSector
  scratch := Vector.replicate _ 0
  whole := whole
  one := one
  blocky := blocky

theorem larger_whole {b : Quad} (h : 512 < b.toNat ∧ b.toNat % 512 = 0) :
    (b / 512).toNat * sectorBytes = (1 : Quad).toNat * b.toNat ∧ 0 < (b / 512).toNat := by
  have hdiv : (b / 512).toNat = b.toNat / 512 := BitVec.toNat_udiv
  rw [hdiv, show (1 : Quad).toNat = 1 from rfl, sectorBytes]
  omega

theorem smaller_whole {b : Quad} (h : 0 < b.toNat ∧ b.toNat < 512 ∧ 512 % b.toNat = 0) :
    (1 : Quad).toNat * sectorBytes = (512 / b : Quad).toNat * b.toNat ∧
      0 < (512 / b : Quad).toNat := by
  have hdiv : (512 / b : Quad).toNat = 512 / b.toNat := BitVec.toNat_udiv
  have hmul := Nat.div_mul_cancel (Nat.dvd_of_mod_eq_zero h.2.2)
  refine ⟨by rw [hdiv, hmul]; rfl, ?_⟩
  rw [hdiv]
  exact Nat.div_pos (Nat.le_of_lt h.2.1) h.1

/-- Wrap a medium, or say why its blocks cannot be translated. -/
def new (io : ι) : Except String (EfiBlockDevice ι) :=
  let nativeBlockSize : Quad := (BlockIo.media io).blockSize.setWidth 64
  if hzero : nativeBlockSize.toNat = 0 then .error "reports a block size of 0"
  else if hsame : nativeBlockSize.toNat = 512 then
    .ok (build io 1 1 (by rw [show (1 : Quad).toNat = 1 from rfl, hsame]; rfl) (.inl rfl)
      ⟨by decide, by decide⟩)
  else if hlarger : 512 < nativeBlockSize.toNat ∧ nativeBlockSize.toNat % 512 = 0 then
    .ok (build io (nativeBlockSize / 512) 1 (larger_whole hlarger).1 (.inr rfl)
      ⟨(larger_whole hlarger).2, by decide⟩)
  else if hsmaller : nativeBlockSize.toNat < 512 ∧ 512 % nativeBlockSize.toNat = 0 then
    .ok (build io 1 (512 / nativeBlockSize) (smaller_whole ⟨by omega, hsmaller⟩).1 (.inl rfl)
      ⟨by decide, (smaller_whole ⟨by omega, hsmaller⟩).2⟩)
  else .error (untranslatable nativeBlockSize)

/-- Where in its block a sector starts. -/
def offsetOf (d : EfiBlockDevice ι) (lba : Quad) : Nat :=
  (lba % d.sectorsPerNative).toNat * sectorBytes

def readSector (d : EfiBlockDevice ι) (lba : Quad) (buf : Sector) :
    Bool × Sector × EfiBlockDevice ι :=
  if d.sectorCount ≤ lba then (false, buf, d)
  else if 1 < d.nativesPerSector then
    -- the sector is a whole number of blocks
    let (ok, buf, io) := BlockIo.readBlocks d.io d.mediaId (lba * d.nativesPerSector) buf
    (ok, buf, { d with io := io })
  else if d.sectorsPerNative = 1 then
    let (ok, buf, io) := BlockIo.readBlocks d.io d.mediaId lba buf
    (ok, buf, { d with io := io })
  else
    match BlockIo.readBlocks d.io d.mediaId (lba / d.sectorsPerNative) d.scratch with
    | (true, scratch, io) =>
      (true, FlatImage.cut buf scratch (d.offsetOf lba), { d with io := io, scratch := scratch })
    | (false, scratch, io) => (false, buf, { d with io := io, scratch := scratch })

def writeSector (d : EfiBlockDevice ι) (lba : Quad) (buf : Sector) : Bool × EfiBlockDevice ι :=
  if d.sectorCount ≤ lba then (false, d)
  else if 1 < d.nativesPerSector then
    let (ok, io) := BlockIo.writeBlocks d.io d.mediaId (lba * d.nativesPerSector) buf
    (ok, { d with io := io })
  else if d.sectorsPerNative = 1 then
    let (ok, io) := BlockIo.writeBlocks d.io d.mediaId lba buf
    (ok, { d with io := io })
  else
    match BlockIo.readBlocks d.io d.mediaId (lba / d.sectorsPerNative) d.scratch with
    | (true, scratch, io) =>
      let scratch := FlatImage.patch scratch (d.offsetOf lba) buf
      let (ok, io) := BlockIo.writeBlocks io d.mediaId (lba / d.sectorsPerNative) scratch
      (ok, { d with io := io, scratch := scratch })
    | (false, scratch, io) => (false, { d with io := io, scratch := scratch })

end EfiBlockDevice

instance {ι : Type} [BlockIo ι] : BlockDevice (EfiBlockDevice ι) where
  sectorCount := EfiBlockDevice.sectorCount
  readSector := EfiBlockDevice.readSector
  writeSector := EfiBlockDevice.writeSector

/-! ## The scan -/

/-- `RDB_LOCATION_LIMIT`. -/
abbrev rdbLocationLimit : Nat := 16

/-- `'RDSK'`. -/
def rdskMagic : List Byte := [0x52, 0x44, 0x53, 0x4B]

structure RdbScan (ι : Type) where
  device : Option (EfiBlockDevice ι)
  log : List String

namespace RdbScan

variable {ι : Type} [BlockIo ι]

/-- Look for the signature from `lba` on, passing over what cannot be read. -/
def probeFrom : Nat → Nat → EfiBlockDevice ι → Sector → Option Nat × EfiBlockDevice ι
  | 0, _, d, _ => (none, d)
  | n + 1, lba, d, probe =>
    match d.readSector (BitVec.ofNat 64 lba) probe with
    | (false, probe, d) => probeFrom n (lba + 1) d probe
    | (true, probe, d) =>
      if probe.toList.take 4 = rdskMagic then (some lba, d) else probeFrom n (lba + 1) d probe

def kind (media : BlockIoMedia) : String :=
  if media.logicalPartition then "logical partition" else "whole disk"

/-- How each line about a handle starts. -/
def handleLine (index : Nat) : String := "storage: handle " ++ toString index ++ ": "

def geometryText (d : EfiBlockDevice ι) : String :=
  ", native block size " ++ toString d.nativeBlockSize.toNat ++ " bytes, " ++
    toString d.sectorCount.toNat ++ " 512-byte sectors -- "

/-- What becomes of one handle: the device, when it is the one, and the line about it. -/
def examine (index : Nat) (handle : Except String ι) : Option (EfiBlockDevice ι) × String :=
  match handle with
  | .error e =>
    (none, handleLine index ++ "could not open BlockIO (" ++ e ++ ") -- skipped")
  | .ok io =>
    let media := BlockIo.media io
    if media.mediaPresent = false then
      (none, handleLine index ++ kind media ++ ", no media present -- skipped")
    else
      match EfiBlockDevice.new io with
      | .error reason =>
        (none, handleLine index ++ kind media ++ ", block size " ++
          toString media.blockSize.toNat ++ " bytes -- " ++ reason ++ " -- skipped")
      | .ok device =>
        let scanLimit := min rdbLocationLimit device.sectorCount.toNat
        match probeFrom scanLimit 0 device zeroSector with
        | (some lba, device) =>
          (some device, handleLine index ++ kind media ++ geometryText device ++
            "'RDSK' signature found at sector " ++ toString lba ++ " -- serving this to hostblk")
        | (none, device) =>
          (none, handleLine index ++ kind media ++ geometryText device ++
            "no 'RDSK' signature in the first " ++ toString scanLimit ++
            " sectors -- not a candidate")

def notFoundLine : String :=
  "storage: no Amiga RDB disk found on any EFI_BLOCK_IO_PROTOCOL handle -- " ++
    "continuing with no drive attached"

/-- The handles in their order, the first that carries a Rigid Disk Block wins. -/
def scanFrom : Nat → List (Except String ι) → List String → RdbScan ι
  | _, [], log => ⟨none, log ++ [notFoundLine]⟩
  | index, handle :: rest, log =>
    match examine index handle with
    | (some device, line) => ⟨some device, log ++ [line]⟩
    | (none, line) => scanFrom (index + 1) rest (log ++ [line])

/-- `find_rdb_disk`, for what the firmware answered to the question for its handles. -/
def findRdbDisk : Except String (List (Except String ι)) → RdbScan ι
  | .error e =>
    ⟨none, ["storage: no EFI_BLOCK_IO_PROTOCOL handles found at all (" ++ e ++ ")"]⟩
  | .ok handles => scanFrom 0 handles []

end RdbScan

end M68kMachine
