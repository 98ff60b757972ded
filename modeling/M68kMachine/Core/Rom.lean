import M68kMachine.Core.Registers

/-!
# ROM identification

`rom.rs`: what can be told about a Kickstart image from its header, its checksum and its strings. A
byte-swapped dump is recognised by its magic and read through accessors that swap each word back;
`unswapInPlace` is the caller's correction.

* `identify` — the report on an image
* `isByteSwapped`, `unswapInPlace` — the swapped form and its correction
* `verifyChecksum`, `verifyChecksumSwapped` — the sum with end-around carry, over either form
-/

namespace M68kMachine

namespace Rom

abbrev kickMagic512k : Long := 0x11144EF9
abbrev kickMagic256k : Long := 0x11114EF9
abbrev romRevOffset : Nat := 0x0C
abbrev execRevOffset : Nat := 0x10
abbrev magicResetOffset : Nat := 0xD0
abbrev magicResetOpcode : Word := 0x4E70
abbrev residentMatchword : Word := 0x4AFC
abbrev residentNameOffset : Nat := 14
abbrev residentIdstringOffset : Nat := 18
abbrev residentReadSize : Nat := residentIdstringOffset + 4
abbrev idStringScanCap : Nat := 96

inductive RomKind
  | kickstart
  | aros
  | unknown
  deriving DecidableEq

/-- Why an identified image is not usable as a Kickstart. -/
inductive Unsupported
  | tooOldForZorroIII
  | extensionRom
  deriving DecidableEq

structure RomInfo where
  kind : RomKind
  rev : Word × Word
  execRev : Word × Word
  size : Nat
  checksumOk : Bool
  bootPc : Long
  bootable : Bool
  /-- The image holds several identical copies. -/
  doubled : Bool
  supported : Except Unsupported Unit

/-! ## Header fields -/

def readU16 (image : List Byte) (off : Nat) : Option Word :=
  match image[off]?, image[off + 1]? with
  | some b0, some b1 => some (be16 b0 b1)
  | _, _ => none

def readU32 (image : List Byte) (off : Nat) : Option Long :=
  match readU16 image off, readU16 image (off + 2) with
  | some hi, some lo => some (hi ++ lo)
  | _, _ => none

/-- `u16::swap_bytes`. -/
def swapBytes (v : Word) : Word := (v.setWidth 8 : Byte) ++ ((v >>> 8).setWidth 8 : Byte)

/-- Each half swapped by itself; the halves stay where they are. -/
def swapHeaderU32 (v : Long) : Long :=
  swapBytes ((v >>> 16).setWidth 16) ++ swapBytes (v.setWidth 16)

def readU16Swapped (image : List Byte) (off : Nat) : Option Word :=
  (readU16 image off).map swapBytes

def readU32Swapped (image : List Byte) (off : Nat) : Option Long :=
  (readU32 image off).map swapHeaderU32

/-- The image size a magic declares. -/
def magicSize (magic : Long) : Option Nat :=
  if magic = kickMagic512k then some (512 * 1024)
  else if magic = kickMagic256k then some (256 * 1024)
  else none

/-! ## The checksum -/

/-- `overflowing_add`, with the carry added in. -/
def addEndAround (sum val : Long) : Long :=
  if 0x100000000 ≤ sum.toNat + val.toNat then sum + val + 1 else sum + val

/-- The sum of the whole longwords of an image. -/
def longSum (sum : Long) : List Byte → Long
  | b0 :: b1 :: b2 :: b3 :: rest => longSum (addEndAround sum (be32 b0 b1 b2 b3)) rest
  | _ => sum

def verifyChecksum (image : List Byte) : Bool := longSum 0 image = 0xFFFFFFFF

/-- The loop of `verify_checksum_swapped` from `off` on. -/
def longSumSwapped (image : List Byte) (off : Nat) (sum : Long) : Option Long :=
  if off + 4 ≤ image.length then
    match readU32Swapped image off with
    | none => none
    | some val => longSumSwapped image (off + 4) (addEndAround sum val)
  else some sum
termination_by image.length - off

def verifyChecksumSwapped (image : List Byte) : Bool :=
  longSumSwapped image 0 0 = some 0xFFFFFFFF

/-! ## Strings -/

/-- A byte string literal. -/
def ascii (s : String) : List Byte := s.toList.map fun c => BitVec.ofNat 8 c.toNat

def contains (haystack needle : List Byte) : Bool :=
  haystack.tails.any fun window => needle.isPrefixOf window

def detectKind (image : List Byte) : RomKind :=
  -- some AROS builds mention Kickstart too
  if contains image (ascii "AROS") then .aros
  else if contains image (ascii "Kickstart") then .kickstart
  else .unknown

def isAsciiDigit (b : Byte) : Bool := 0x30 ≤ b && b ≤ 0x39

/-- `none` for no digits and for a value that a `u16` does not hold. -/
def parseU16 (digits : List Byte) : Option Word :=
  if digits.isEmpty then none
  else digits.foldlM
    (fun val b => (checkedMul val 10).bind fun v => checkedAdd v ((b - 0x30).setWidth 16)) 0

/-- The first `<digits>.<digits>`; a run of digits that does not start one is skipped whole. -/
def parseFirstVersion : List Byte → Option (Word × Word)
  | [] => none
  | c :: s =>
    if isAsciiDigit c then
      let major := c :: s.takeWhile isAsciiDigit
      let rest := s.dropWhile isAsciiDigit
      let minor :=
        if rest.head? = some 0x2E then rest.tail.takeWhile isAsciiDigit else []
      match parseU16 major, parseU16 minor with
      | some major, some minor => some (major, minor)
      | _, _ => parseFirstVersion rest
    else parseFirstVersion s
termination_by s => s.length
decreasing_by
  · simp only [List.length_cons]
    have := (List.dropWhile_sublist isAsciiDigit (l := s)).length_le
    omega
  · simp

/-- The string `expected` at `off`, with its terminator. -/
def strAtMatches (image : List Byte) (off : Nat) (expected : List Byte) : Bool :=
  let last := off + expected.length
  if image.length ≤ last then false
  else (image.drop off).take expected.length = expected && image[last]? = some 0

/-! ## The exec.library resident -/

/-- The version in the id string of the resident at `off`, when it is exec.library's. -/
def tryParseExecResident (image : List Byte) (off : Nat) : Option (Word × Word) := do
  let tagPtr ← readU32 image (off + 2)
  -- `RT_MATCHTAG` points back at the structure, which gives the base the image is linked at
  let base := tagPtr - BitVec.ofNat 32 off
  let namePtr ← readU32 image (off + residentNameOffset)
  if namePtr = 0 then none
  else if strAtMatches image (namePtr - base).toNat (ascii "exec.library") then
    let idPtr ← readU32 image (off + residentIdstringOffset)
    let idOff := (idPtr - base).toNat
    if idPtr = 0 then none
    else if image.length ≤ idOff then none
    else
      let window := (image.drop idOff).take (min (image.length - idOff) idStringScanCap)
      parseFirstVersion (window.takeWhile fun b => b ≠ 0)
  else none

/-- The word-aligned offsets a resident can start at are tried in order. -/
def findExecLibraryVersion (image : List Byte) : Option (Word × Word) :=
  if image.length < residentReadSize then none
  else (List.range ((image.length - residentReadSize) / 2 + 1)).findSome? fun i =>
    if readU16 image (2 * i) = some residentMatchword then tryParseExecResident image (2 * i)
    else none

/-! ## Identification -/

/-- The first copy of an image that is several identical copies of one size. -/
def doubledCopy (image : List Byte) (expectedSize : Nat) : Option (List Byte) :=
  if expectedSize = 0 ∨ image.length % expectedSize ≠ 0 then none
  else
    let copies := image.length / expectedSize
    if copies < 2 then none
    else
      let first := image.take expectedSize
      if (List.range copies).all fun i => (image.drop (i * expectedSize)).take expectedSize = first
      then some first
      else none

/-- A Kickstart of version 34 or below knows no Zorro III board. -/
def classifySupport (rev : Word × Word) (bootable : Bool) : Except Unsupported Unit :=
  if rev.1 ≤ 34 then .error .tooOldForZorroIII
  else if bootable then .ok ()
  else .error .extensionRom

def buildInfo (fullImage headerRegion : List Byte) (doubled : Bool) : RomInfo :=
  let rev := ((readU16 headerRegion romRevOffset).getD 0,
    (readU16 headerRegion (romRevOffset + 2)).getD 0)
  let headerExecRev := ((readU16 headerRegion execRevOffset).getD 0,
    (readU16 headerRegion (execRevOffset + 2)).getD 0)
  let bootable : Bool := readU16 headerRegion magicResetOffset = some magicResetOpcode
  { kind := detectKind headerRegion
    rev := rev
    execRev := (findExecLibraryVersion headerRegion).getD headerExecRev
    size := fullImage.length
    checksumOk := verifyChecksum headerRegion
    bootPc := (readU32 headerRegion 4).getD 0
    bootable := bootable
    doubled := doubled
    supported := classifySupport rev bootable }

/-- Neither the strings nor the residents of a swapped image are looked at. -/
def buildSwappedInfo (image : List Byte) : RomInfo where
  kind := .unknown
  rev := ((readU16Swapped image romRevOffset).getD 0,
    (readU16Swapped image (romRevOffset + 2)).getD 0)
  execRev := ((readU16Swapped image execRevOffset).getD 0,
    (readU16Swapped image (execRevOffset + 2)).getD 0)
  size := image.length
  checksumOk := verifyChecksumSwapped image
  bootPc := (readU32Swapped image 4).getD 0
  bootable := readU16Swapped image magicResetOffset = some magicResetOpcode
  doubled := false
  supported := .ok ()

def identify (image : List Byte) : Option RomInfo :=
  match readU32 image 0 with
  | none => none
  | some magic =>
    match magicSize magic with
    | some expectedSize =>
      if image.length = expectedSize then some (buildInfo image image false)
      else (doubledCopy image expectedSize).map fun first => buildInfo image first true
    | none =>
      match magicSize (swapHeaderU32 magic) with
      | some expectedSize =>
        if image.length = expectedSize then some (buildSwappedInfo image) else none
      | none => none

/-- An image that reads as a header only once its words are swapped back. -/
def isByteSwapped (image : List Byte) : Bool :=
  match readU32 image 0 with
  | none => false
  | some magic =>
    if (magicSize magic).isSome then false
    else
      match magicSize (swapHeaderU32 magic) with
      | some expectedSize => image.length = expectedSize
      | none => false

/-- The two bytes of every word swapped; an odd last byte stays. -/
def unswapInPlace : List Byte → List Byte
  | b0 :: b1 :: rest => b1 :: b0 :: unswapInPlace rest
  | rest => rest

end Rom

end M68kMachine
