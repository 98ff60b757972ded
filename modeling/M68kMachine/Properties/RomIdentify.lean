import M68kMachine.Core.Rom

/-!
# A ROM is identified in either byte order

The swapped accessors of `rom.rs` read from a swapped image what the plain ones read from its
unswapped form, and the two checksum routines add the same longwords.

* `readU16_unswap`, `readU32_unswap` — header fields
* `longSumSwapped_eq` — the running sum, from any longword on
-/

namespace M68kMachine

namespace Rom

/-! ## Words -/

theorem swapBytes_be16 (b0 b1 : Byte) : swapBytes (be16 b0 b1) = be16 b1 b0 := by
  unfold swapBytes be16
  rw [BitVec.setWidth_append_eq_right, BitVec.setWidth_ushiftRight_eq_extractLsb,
    BitVec.extractLsb'_append_eq_left]

theorem swapHeaderU32_append (hi lo : Word) :
    swapHeaderU32 (hi ++ lo) = swapBytes hi ++ swapBytes lo := by
  unfold swapHeaderU32
  rw [BitVec.setWidth_append_eq_right, BitVec.setWidth_ushiftRight_eq_extractLsb,
    BitVec.extractLsb'_append_eq_left]

/-! ## Unswapping -/

variable (image : List Byte)

theorem unswapInPlace_unswapInPlace : unswapInPlace (unswapInPlace image) = image := by
  induction image using unswapInPlace.induct with
  | case1 b0 b1 rest ih => simp only [unswapInPlace, ih]
  | case2 rest h =>
    match rest, h with
    | [], _ => rfl
    | [_], _ => rfl
    | b0 :: b1 :: rest, h => exact absurd rfl (h b0 b1 rest)

theorem length_unswapInPlace : (unswapInPlace image).length = image.length := by
  induction image using unswapInPlace.induct with
  | case1 b0 b1 rest ih => simp only [unswapInPlace, List.length_cons, ih]
  | case2 rest h =>
    match rest, h with
    | [], _ => rfl
    | [_], _ => rfl
    | b0 :: b1 :: rest, h => exact absurd rfl (h b0 b1 rest)

/-- A word of the unswapped image is the swapped word of the image. -/
theorem readU16_unswap (k : Nat) :
    readU16 (unswapInPlace image) (2 * k) = readU16Swapped image (2 * k) := by
  induction k generalizing image with
  | zero =>
    match image with
    | [] => rfl
    | [_] => rfl
    | b0 :: b1 :: rest =>
      show some (be16 b1 b0) = some (swapBytes (be16 b0 b1))
      rw [swapBytes_be16]
  | succ k ih =>
    match image with
    | [] => rfl
    | [_] => rfl
    | b0 :: b1 :: rest => exact ih rest

theorem readU32_unswap (k : Nat) :
    readU32 (unswapInPlace image) (2 * k) = readU32Swapped image (2 * k) := by
  unfold readU32Swapped readU32
  rw [show 2 * k + 2 = 2 * (k + 1) from rfl, readU16_unswap, readU16_unswap]
  unfold readU16Swapped
  cases readU16 image (2 * k) with
  | none => rfl
  | some hi =>
    cases readU16 image (2 * (k + 1)) with
    | none => rfl
    | some lo => exact congrArg some (swapHeaderU32_append hi lo).symm

/-! ## The checksum -/

theorem longSum_short (sum : Long) : ∀ (image : List Byte), image.length < 4 →
    longSum sum image = sum
  | [], _ => rfl
  | [_], _ => rfl
  | [_, _], _ => rfl
  | [_, _, _], _ => rfl
  | _ :: _ :: _ :: _ :: rest, h => absurd h (by simp)

/-- Where a whole longword is left, the swapped accessor reads its bytes in the other order. -/
theorem readU32Swapped_drop {image : List Byte} {off : Nat} (h : off + 4 ≤ image.length) :
    ∃ b0 b1 b2 b3, image.drop off = b0 :: b1 :: b2 :: b3 :: image.drop (off + 4) ∧
      readU32Swapped image off = some (be32 b1 b0 b3 b2) := by
  refine ⟨image[off], image[off + 1], image[off + 2], image[off + 3], ?_, ?_⟩
  · rw [List.drop_eq_getElem_cons (by omega), List.drop_eq_getElem_cons (by omega),
      List.drop_eq_getElem_cons (by omega), List.drop_eq_getElem_cons (by omega)]
  · unfold readU32Swapped readU32 readU16
    rw [List.getElem?_eq_getElem (by omega), List.getElem?_eq_getElem (by omega),
      List.getElem?_eq_getElem (by omega), List.getElem?_eq_getElem (by omega)]
    simp only [Option.map_some]
    rw [swapHeaderU32_append, swapBytes_be16, swapBytes_be16, be16_append]

/-- The sum over a swapped image from `off` on is the plain sum over what is left, unswapped. -/
theorem longSumSwapped_eq (off : Nat) (sum : Long) :
    longSumSwapped image off sum = some (longSum sum (unswapInPlace (image.drop off))) := by
  induction off, sum using longSumSwapped.induct image with
  | case1 off sum h hread =>
    obtain ⟨_, _, _, _, -, hsome⟩ := readU32Swapped_drop h
    rw [hsome] at hread
    cases hread
  | case2 off sum h val hread ih =>
    obtain ⟨b0, b1, b2, b3, hdrop, hsome⟩ := readU32Swapped_drop h
    rw [hsome] at hread
    obtain rfl := Option.some.inj hread
    rw [longSumSwapped, if_pos h, hsome, hdrop]
    exact ih
  | case3 off sum h =>
    rw [longSumSwapped, if_neg h, longSum_short]
    rw [length_unswapInPlace, List.length_drop]
    omega

theorem verifyChecksumSwapped_eq :
    verifyChecksumSwapped image = verifyChecksum (unswapInPlace image) := by
  unfold verifyChecksumSwapped verifyChecksum
  rw [longSumSwapped_eq, List.drop_zero]
  simp only [Option.some.injEq]

/-! ## Identification -/

/-- What a swapped image's magic says: nothing as it stands, and its length once swapped back. -/
theorem isByteSwapped_iff {image : List Byte} :
    isByteSwapped image = true ↔
      ∃ magic, readU32 image 0 = some magic ∧ magicSize magic = none ∧
        magicSize (swapHeaderU32 magic) = some image.length := by
  unfold isByteSwapped
  cases hread : readU32 image 0 with
  | none => simp
  | some magic =>
    cases hplain : magicSize magic with
    | some n => simp [hplain]
    | none =>
      cases hswapped : magicSize (swapHeaderU32 magic) with
      | none => simp [hswapped]
      | some n => simp [hplain, hswapped, eq_comm]

theorem identify_of_isByteSwapped {image : List Byte} (h : isByteSwapped image = true) :
    identify image = some (buildSwappedInfo image) := by
  obtain ⟨magic, hread, hplain, hswapped⟩ := isByteSwapped_iff.1 h
  unfold identify
  rw [hread]
  simp only [hplain, hswapped, if_pos]

theorem identify_unswapInPlace {image : List Byte} (h : isByteSwapped image = true) :
    identify (unswapInPlace image) =
      some (buildInfo (unswapInPlace image) (unswapInPlace image) false) := by
  obtain ⟨magic, hread, -, hswapped⟩ := isByteSwapped_iff.1 h
  have hmagic : readU32 (unswapInPlace image) 0 = some (swapHeaderU32 magic) := by
    rw [show 0 = 2 * 0 from rfl, readU32_unswap]
    unfold readU32Swapped
    rw [show 2 * 0 = 0 from rfl, hread, Option.map_some]
  unfold identify
  rw [hmagic]
  simp only [hswapped, length_unswapInPlace, if_pos]

/-- **Identification does not depend on byte order**: revision, boot PC, bootability, checksum
verdict and size are the same. -/
theorem identify_byte_order (image : List Byte) :
    (isByteSwapped image = true → ∃ info info', identify image = some info ∧
      identify (unswapInPlace image) = some info' ∧ info.rev = info'.rev ∧
      info.bootPc = info'.bootPc ∧ info.bootable = info'.bootable ∧
      info.checksumOk = info'.checksumOk ∧ info.size = info'.size) ∧
    unswapInPlace (unswapInPlace image) = image ∧
    (verifyChecksumSwapped image = true ↔ verifyChecksum (unswapInPlace image) = true) := by
  have hsum := verifyChecksumSwapped_eq image
  refine ⟨fun h => ⟨_, _, identify_of_isByteSwapped h, identify_unswapInPlace h, ?_⟩,
    unswapInPlace_unswapInPlace image, by rw [hsum]⟩
  simp only [buildSwappedInfo, buildInfo]
  refine ⟨?_, ?_, ?_, hsum, (length_unswapInPlace image).symm⟩
  · rw [show romRevOffset = 2 * 6 from rfl, show 2 * 6 + 2 = 2 * 7 from rfl, readU16_unswap,
      readU16_unswap]
  · rw [show 4 = 2 * 2 from rfl, readU32_unswap]
  · rw [show magicResetOffset = 2 * 0x68 from rfl, readU16_unswap]

/-- A swapped header over zeros. -/
theorem identify_byte_order_swapped :
    ∃ info info',
      identify ([0x14, 0x11, 0xF9, 0x4E] ++ List.replicate (512 * 1024 - 4) 0) = some info ∧
      identify (unswapInPlace ([0x14, 0x11, 0xF9, 0x4E] ++ List.replicate (512 * 1024 - 4) 0)) =
        some info' ∧ info.rev = info'.rev ∧ info.bootPc = info'.bootPc ∧
      info.bootable = info'.bootable ∧ info.checksumOk = info'.checksumOk ∧
      info.size = info'.size := by
  refine (identify_byte_order _).1 (isByteSwapped_iff.2 ⟨0x1411F94E, rfl, by decide, ?_⟩)
  rw [List.length_append, List.length_replicate]
  decide

end Rom

end M68kMachine
