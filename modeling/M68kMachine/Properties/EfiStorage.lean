import M68kMachine.Boards.EfiStorage
import M68kMachine.Properties.HostblkTransfer

/-!
# A UEFI medium is a flat disk

Whatever the size of the medium's blocks, its 512-byte sectors are the stretches of one flat image.
When the firmware fails, a read changes nothing, and a write nothing outside the block it was about.

* `BlockMedium` — what the firmware's protocol is relied on for
* `readSector_spec`, `writeSector_spec` — one call
* `efi_device_is_flat` — any run of calls
-/

namespace M68kMachine

open FlatImage

section Medium

variable {ι : Type} [BlockIo ι]

/-- The call names the medium, and whole blocks of it. -/
structure OnMedium (io : ι) (mediaId : Long) (lba : Quad) (n : Nat) : Prop where
  id : mediaId = (BlockIo.media io).mediaId
  whole : (BlockIo.media io).blockSize.toNat ∣ n
  inside : lba.toNat * (BlockIo.media io).blockSize.toNat + n ≤
    ((BlockIo.media io).lastBlock.toNat + 1) * (BlockIo.media io).blockSize.toNat

/-- Where a block starts in the image. -/
def startOf (io : ι) (lba : Quad) : Nat := lba.toNat * (BlockIo.media io).blockSize.toNat

theorem OnMedium.of_media {io io' : ι} {id : Long} {lba : Quad} {n : Nat} (h : OnMedium io id lba n)
    (hmedia : BlockIo.media io' = BlockIo.media io) : OnMedium io' id lba n := by
  obtain ⟨hid, hwhole, hinside⟩ := h
  refine ⟨?_, ?_, ?_⟩ <;> rwa [hmedia]

theorem startOf_of_media {io io' : ι} (hmedia : BlockIo.media io' = BlockIo.media io) (lba : Quad) :
    startOf io' lba = startOf io lba := by
  unfold startOf
  rw [hmedia]

/-- What the protocol promises about calls that stay on the medium: one that succeeds moves its
bytes, and one that fails damages at most the blocks it was to write. -/
structure BlockMedium (content : ι → Nat → Byte) : Prop where
  read : ∀ {io io' : ι} {id : Long} {lba : Quad} {n : Nat} {buf out : Vector Byte n} {ok : Bool},
    OnMedium io id lba n → BlockIo.readBlocks io id lba buf = (ok, out, io') →
      BlockIo.media io' = BlockIo.media io ∧ content io' = content io ∧
        (ok = true → out = window (content io) (startOf io lba) n)
  written : ∀ {io io' : ι} {id : Long} {lba : Quad} {n : Nat} {buf : Vector Byte n},
    OnMedium io id lba n → BlockIo.writeBlocks io id lba buf = (true, io') →
      BlockIo.media io' = BlockIo.media io ∧
        content io' = splice (content io) (startOf io lba) buf
  refused : ∀ {io io' : ι} {id : Long} {lba : Quad} {n : Nat} {buf : Vector Byte n},
    OnMedium io id lba n → BlockIo.writeBlocks io id lba buf = (false, io') →
      BlockIo.media io' = BlockIo.media io ∧
        ∀ i, (i < startOf io lba ∨ startOf io lba + n ≤ i) → content io' i = content io i

/-- No read fails that stays on the medium. -/
def UnfailingReads (ι : Type) [BlockIo ι] : Prop :=
  ∀ {io : ι} {id : Long} {lba : Quad} {n : Nat} (buf : Vector Byte n),
    OnMedium io id lba n → (BlockIo.readBlocks io id lba buf).1 = true

/-- No write fails that stays on the medium. -/
def UnfailingWrites (ι : Type) [BlockIo ι] : Prop :=
  ∀ {io : ι} {id : Long} {lba : Quad} {n : Nat} (buf : Vector Byte n),
    OnMedium io id lba n → (BlockIo.writeBlocks io id lba buf).1 = true

end Medium

/-! ## A medium in memory -/

/-- A medium whose bytes are in memory, and which refuses what is not a call on it. -/
structure MemMedium where
  media : BlockIoMedia
  bytes : Nat → Byte

namespace MemMedium

/-- Whether a call is one on the medium. -/
def takes (m : MemMedium) (id : Long) (lba : Quad) (n : Nat) : Bool :=
  id = m.media.mediaId && m.media.blockSize.toNat ∣ n &&
    lba.toNat * m.media.blockSize.toNat + n ≤
      (m.media.lastBlock.toNat + 1) * m.media.blockSize.toNat

instance : BlockIo MemMedium where
  media := MemMedium.media
  readBlocks {n} m id lba buf :=
    if m.takes id lba n then (true, window m.bytes (lba.toNat * m.media.blockSize.toNat) n, m)
    else (false, buf, m)
  writeBlocks {n} m id lba buf :=
    if m.takes id lba n then
      (true, { m with bytes := splice m.bytes (lba.toNat * m.media.blockSize.toNat) buf })
    else (false, m)

theorem takes_of_onMedium {m : MemMedium} {id : Long} {lba : Quad} {n : Nat}
    (h : OnMedium m id lba n) : m.takes id lba n = true := by
  obtain ⟨hid, hwhole, hinside⟩ := h
  change id = m.media.mediaId at hid
  change m.media.blockSize.toNat ∣ n at hwhole
  simp only [takes, Bool.and_eq_true, decide_eq_true_eq]
  exact ⟨⟨hid, hwhole⟩, hinside⟩

theorem blockMedium : BlockMedium MemMedium.bytes where
  read hon hread := by
    simp only [BlockIo.readBlocks, takes_of_onMedium hon, if_true] at hread
    cases hread
    exact ⟨rfl, rfl, fun _ => rfl⟩
  written hon hwrite := by
    simp only [BlockIo.writeBlocks, takes_of_onMedium hon, if_true] at hwrite
    cases hwrite
    exact ⟨rfl, rfl⟩
  refused hon hwrite := by
    simp only [BlockIo.writeBlocks, takes_of_onMedium hon, if_true] at hwrite
    cases hwrite

theorem unfailingReads : UnfailingReads MemMedium := by
  intro io id lba n buf hon
  simp only [BlockIo.readBlocks, takes_of_onMedium hon, if_true]

/-- Sixteen blocks of 4096 bytes, with the signature at the start of sector 3. -/
def large : MemMedium where
  media := ⟨7, true, false, 4096, 15⟩
  bytes i := if i < 1536 then 0 else rdskMagic[i - 1536]?.getD 0

end MemMedium

namespace EfiBlockDevice

variable {ι : Type} [BlockIo ι] {d d' : EfiBlockDevice ι}

/-- The device is one of the medium it is on, and no larger. -/
structure Fits (d : EfiBlockDevice ι) : Prop where
  id : d.mediaId = (BlockIo.media d.io).mediaId
  block : d.nativeBlockSize.toNat = (BlockIo.media d.io).blockSize.toNat
  count : d.sectorCount.toNat * sectorBytes ≤
    ((BlockIo.media d.io).lastBlock.toNat + 1) * (BlockIo.media d.io).blockSize.toNat

/-- What the device is does not change. -/
structure SameShape (d d' : EfiBlockDevice ι) : Prop where
  media : BlockIo.media d'.io = BlockIo.media d.io
  id : d'.mediaId = d.mediaId
  block : d'.nativeBlockSize = d.nativeBlockSize
  count : d'.sectorCount = d.sectorCount

theorem SameShape.refl (d : EfiBlockDevice ι) : SameShape d d := ⟨rfl, rfl, rfl, rfl⟩

theorem SameShape.trans {d d' d'' : EfiBlockDevice ι} (h : SameShape d d')
    (h' : SameShape d' d'') : SameShape d d'' :=
  ⟨h'.media.trans h.media, h'.id.trans h.id, h'.block.trans h.block, h'.count.trans h.count⟩

theorem Fits.of_same (h : d.Fits) (hs : SameShape d d') : d'.Fits := by
  obtain ⟨hmedia, hid, hblock, hcount⟩ := hs
  refine ⟨?_, ?_, ?_⟩
  · rw [hid, hmedia]
    exact h.id
  · rw [hblock, hmedia]
    exact h.block
  · rw [hcount, hmedia]
    exact h.count

/-! ## Geometry -/

theorem fits_build (io : ι) (spn nps : Quad) (hwhole) (hone) (hblocky) :
    (build io spn nps hwhole hone hblocky).Fits := by
  have hblock : ((BlockIo.media io).blockSize.setWidth 64 : Quad).toNat =
      (BlockIo.media io).blockSize.toNat := by
    rw [BitVec.toNat_setWidth]
    omega
  refine ⟨rfl, hblock, ?_⟩
  show (if nps = 1 then ((BlockIo.media io).lastBlock + 1) * spn
    else ((BlockIo.media io).lastBlock + 1) / nps : Quad).toNat * sectorBytes ≤ _
  have htotal :
      ((BlockIo.media io).lastBlock + 1).toNat ≤ (BlockIo.media io).lastBlock.toNat + 1 := by
    rw [BitVec.toNat_add]
    exact Nat.mod_le _ _
  rw [hblock] at hwhole
  have hmono := Nat.mul_le_mul_right (BlockIo.media io).blockSize.toNat htotal
  split
  · rename_i hnps
    rw [hnps, show (1 : Quad).toNat = 1 from rfl, Nat.one_mul] at hwhole
    -- a product that wraps makes the disk smaller
    have hcount : (((BlockIo.media io).lastBlock + 1) * spn).toNat ≤
        ((BlockIo.media io).lastBlock + 1).toNat * spn.toNat := by
      rw [BitVec.toNat_mul]
      exact Nat.mod_le _ _
    refine (Nat.mul_le_mul_right sectorBytes hcount).trans ?_
    rw [Nat.mul_assoc, hwhole]
    exact hmono
  · rename_i hnps
    rw [hone.resolve_right hnps, show (1 : Quad).toNat = 1 from rfl, Nat.one_mul] at hwhole
    rw [hwhole, BitVec.toNat_udiv, ← Nat.mul_assoc]
    exact (Nat.mul_le_mul_right _ (Nat.div_mul_le_self _ _)).trans hmono

theorem fits_new {io : ι} (h : new io = .ok d) : d.Fits ∧ d.io = io := by
  unfold new at h
  dsimp only at h
  split at h
  · cases h
  split at h
  · cases h
    exact ⟨fits_build .., rfl⟩
  split at h
  · cases h
    exact ⟨fits_build .., rfl⟩
  split at h
  · cases h
    exact ⟨fits_build .., rfl⟩
  · cases h

/-- The whole medium is served, unless it has more sectors than can be counted. -/
theorem sectorCount_build (io : ι) (spn nps : Quad) (hwhole) (hone) (hblocky)
    (hblocks : (BlockIo.media io).lastBlock.toNat + 1 < 2 ^ 64)
    (hsectors : ((BlockIo.media io).lastBlock.toNat + 1) * (BlockIo.media io).blockSize.toNat /
      sectorBytes < 2 ^ 64) :
    (build io spn nps hwhole hone hblocky).sectorCount.toNat =
      ((BlockIo.media io).lastBlock.toNat + 1) * (BlockIo.media io).blockSize.toNat /
        sectorBytes := by
  have hblock : ((BlockIo.media io).blockSize.setWidth 64 : Quad).toNat =
      (BlockIo.media io).blockSize.toNat := by
    rw [BitVec.toNat_setWidth]
    omega
  have htotal :
      ((BlockIo.media io).lastBlock + 1).toNat = (BlockIo.media io).lastBlock.toNat + 1 := by
    rw [BitVec.toNat_add]
    exact Nat.mod_eq_of_lt hblocks
  rw [hblock] at hwhole
  show (if nps = 1 then ((BlockIo.media io).lastBlock + 1) * spn
    else ((BlockIo.media io).lastBlock + 1) / nps : Quad).toNat = _
  split
  · rename_i hnps
    rw [hnps, show (1 : Quad).toNat = 1 from rfl, Nat.one_mul] at hwhole
    rw [← hwhole, ← Nat.mul_assoc, Nat.mul_div_cancel _ (by decide)] at hsectors ⊢
    rw [BitVec.toNat_mul, htotal, Nat.mod_eq_of_lt hsectors]
  · rename_i hnps
    rw [hone.resolve_right hnps, show (1 : Quad).toNat = 1 from rfl, Nat.one_mul] at hwhole
    have hpos : 0 < (BlockIo.media io).blockSize.toNat := by
      rcases Nat.eq_zero_or_pos (BlockIo.media io).blockSize.toNat with h0 | h0
      · rw [h0] at hwhole
        cases hwhole
      · exact h0
    rw [hwhole, Nat.mul_div_mul_right _ _ hpos, BitVec.toNat_udiv, htotal]

theorem sectorCount_new {io : ι} (h : new io = .ok d)
    (hblocks : (BlockIo.media io).lastBlock.toNat + 1 < 2 ^ 64)
    (hsectors : ((BlockIo.media io).lastBlock.toNat + 1) * (BlockIo.media io).blockSize.toNat /
      sectorBytes < 2 ^ 64) :
    d.sectorCount.toNat =
      ((BlockIo.media io).lastBlock.toNat + 1) * (BlockIo.media io).blockSize.toNat /
        sectorBytes := by
  unfold new at h
  dsimp only at h
  split at h
  · cases h
  split at h
  · cases h
    exact sectorCount_build _ _ _ _ _ _ hblocks hsectors
  split at h
  · cases h
    exact sectorCount_build _ _ _ _ _ _ hblocks hsectors
  split at h
  · cases h
    exact sectorCount_build _ _ _ _ _ _ hblocks hsectors
  · cases h

theorem new_large :
    ∃ d, new MemMedium.large = .ok d ∧ d.sectorCount.toNat = 128 := by
  cases hnew : new MemMedium.large with
  | error reason => exact absurd hnew (by simp [new, BlockIo.media, MemMedium.large])
  | ok d =>
    have hcount := sectorCount_new hnew (by decide) (by decide)
    exact ⟨d, rfl, hcount⟩

/-- How sectors lie on blocks. -/
inductive Layout (d : EfiBlockDevice ι) : Prop
  /-- A sector is several blocks. -/
  | smaller (hnps : 1 < d.nativesPerSector)
      (h : d.nativesPerSector.toNat * d.nativeBlockSize.toNat = sectorBytes)
  | same (hnps : ¬1 < d.nativesPerSector) (hspn : d.sectorsPerNative = 1)
      (h : d.nativeBlockSize.toNat = sectorBytes)
  /-- A block is several sectors. -/
  | larger (hnps : ¬1 < d.nativesPerSector) (hspn : d.sectorsPerNative ≠ 1)
      (h : d.nativeBlockSize.toNat = d.sectorsPerNative.toNat * sectorBytes)

omit [BlockIo ι] in
theorem layout (d : EfiBlockDevice ι) : d.Layout := by
  have hwhole := d.whole
  have hone : (1 : Quad).toNat = 1 := rfl
  by_cases hnps : 1 < d.nativesPerSector
  · have hspn : d.sectorsPerNative = 1 := by
      rcases d.one with h | h
      · exact h
      · rw [h] at hnps
        exact absurd hnps (by decide)
    rw [hspn, hone, Nat.one_mul] at hwhole
    exact .smaller hnps hwhole.symm
  · have hnps1 : d.nativesPerSector.toNat = 1 := by
      have hpos := d.blocky.2
      rw [BitVec.lt_def, hone] at hnps
      omega
    rw [hnps1, Nat.one_mul] at hwhole
    by_cases hspn : d.sectorsPerNative = 1
    · rw [hspn, hone, Nat.one_mul] at hwhole
      exact .same hnps hspn hwhole.symm
    · exact .larger hnps hspn hwhole.symm

omit [BlockIo ι] in
theorem lt_sectorCount {lba : Quad} (h : ¬d.sectorCount ≤ lba) :
    lba.toNat < d.sectorCount.toNat := by
  rw [BitVec.le_def] at h
  omega

/-! ## What each call is about -/

section Calls

variable {d : EfiBlockDevice ι} {lba : Quad}

/-- A sector that is there ends on the medium. -/
theorem Fits.sector (h : d.Fits) (hlba : ¬d.sectorCount ≤ lba) :
    (lba.toNat + 1) * sectorBytes ≤
      ((BlockIo.media d.io).lastBlock.toNat + 1) * d.nativeBlockSize.toNat := by
  rw [h.block]
  exact (Nat.mul_le_mul_right sectorBytes (lt_sectorCount hlba)).trans h.count

theorem onMedium_smaller (h : d.Fits) (hlba : ¬d.sectorCount ≤ lba)
    (hsize : d.nativesPerSector.toNat * d.nativeBlockSize.toNat = sectorBytes) :
    OnMedium d.io d.mediaId (lba * d.nativesPerSector) sectorBytes ∧
      startOf d.io (lba * d.nativesPerSector) = lba.toNat * sectorBytes := by
  have hend := h.sector hlba
  have hlast := (BlockIo.media d.io).lastBlock.isLt
  have hpos : 0 < d.nativeBlockSize.toNat := by
    rcases Nat.eq_zero_or_pos d.nativeBlockSize.toNat with h0 | h0
    · rw [h0] at hsize
      cases hsize
    · exact h0
  have hblocks : (lba.toNat + 1) * d.nativesPerSector.toNat ≤
      (BlockIo.media d.io).lastBlock.toNat + 1 := by
    refine Nat.le_of_mul_le_mul_right ?_ hpos
    rw [Nat.mul_assoc, hsize]
    exact hend
  rw [Nat.succ_mul] at hblocks
  have hfirst : (lba * d.nativesPerSector).toNat = lba.toNat * d.nativesPerSector.toNat := by
    have hnps := d.blocky.2
    rw [BitVec.toNat_mul, Nat.mod_eq_of_lt (by omega)]
  have hstart : startOf d.io (lba * d.nativesPerSector) = lba.toNat * sectorBytes := by
    unfold startOf
    rw [hfirst, ← h.block, Nat.mul_assoc, hsize]
  refine ⟨⟨h.id, ⟨d.nativesPerSector.toNat, ?_⟩, ?_⟩, hstart⟩
  · rw [← h.block, Nat.mul_comm, hsize]
  · rw [show (lba * d.nativesPerSector).toNat * (BlockIo.media d.io).blockSize.toNat = _ from
      hstart, ← h.block, ← Nat.succ_mul]
    exact hend

theorem onMedium_same (h : d.Fits) (hlba : ¬d.sectorCount ≤ lba)
    (hsize : d.nativeBlockSize.toNat = sectorBytes) :
    OnMedium d.io d.mediaId lba sectorBytes ∧ startOf d.io lba = lba.toNat * sectorBytes := by
  have hend := h.sector hlba
  have hstart : startOf d.io lba = lba.toNat * sectorBytes := by
    unfold startOf
    rw [← h.block, hsize]
  refine ⟨⟨h.id, ⟨1, ?_⟩, ?_⟩, hstart⟩
  · rw [← h.block, hsize, Nat.mul_one]
  · rw [show lba.toNat * (BlockIo.media d.io).blockSize.toNat = _ from hstart, ← h.block,
      ← Nat.succ_mul]
    exact hend

theorem onMedium_larger (h : d.Fits) (hlba : ¬d.sectorCount ≤ lba)
    (hsize : d.nativeBlockSize.toNat = d.sectorsPerNative.toNat * sectorBytes) :
    OnMedium d.io d.mediaId (lba / d.sectorsPerNative) d.nativeBlockSize.toNat ∧
      startOf d.io (lba / d.sectorsPerNative) + d.offsetOf lba = lba.toNat * sectorBytes ∧
      d.offsetOf lba + sectorBytes ≤ d.nativeBlockSize.toNat := by
  have hend := h.sector hlba
  have hspn := d.blocky.1
  have hsectors : lba.toNat < ((BlockIo.media d.io).lastBlock.toNat + 1) *
      d.sectorsPerNative.toNat := by
    refine Nat.le_of_mul_le_mul_right (?_ : (lba.toNat + 1) * sectorBytes ≤ _) (by decide)
    rw [Nat.mul_assoc, ← hsize]
    exact hend
  have hblock : lba.toNat / d.sectorsPerNative.toNat < (BlockIo.media d.io).lastBlock.toNat + 1 :=
    (Nat.div_lt_iff_lt_mul hspn).mpr hsectors
  have hfirst : (lba / d.sectorsPerNative).toNat = lba.toNat / d.sectorsPerNative.toNat :=
    BitVec.toNat_udiv
  have hoffset : d.offsetOf lba = lba.toNat % d.sectorsPerNative.toNat * sectorBytes := by
    unfold offsetOf
    rw [BitVec.toNat_umod]
  have hsplit := Nat.div_add_mod lba.toNat d.sectorsPerNative.toNat
  refine ⟨⟨h.id, ⟨1, ?_⟩, ?_⟩, ?_, ?_⟩
  · rw [← h.block, Nat.mul_one]
  · rw [hfirst, ← h.block, ← Nat.succ_mul]
    exact Nat.mul_le_mul_right _ hblock
  · unfold startOf
    rw [hfirst, hoffset, ← h.block, hsize, ← Nat.mul_assoc, ← Nat.add_mul, Nat.mul_comm (_ / _),
      hsplit]
  · rw [hoffset, hsize, ← Nat.succ_mul]
    exact Nat.mul_le_mul_right _ (Nat.mod_lt _ hspn)

end Calls

/-! ## One call -/

section Spec

variable {content : ι → Nat → Byte} {d d' : EfiBlockDevice ι} {lba : Quad} {buf s : Sector}
  {ok : Bool}

/-- The bytes a failed write may damage are those of the blocks that hold the sector. -/
def unit (d : EfiBlockDevice ι) : Nat := max d.nativeBlockSize.toNat sectorBytes

/-- What a call that reads does. -/
structure ReadsSector (content : ι → Nat → Byte) (d : EfiBlockDevice ι) (lba : Quad) (ok : Bool)
    (s : Sector) (d' : EfiBlockDevice ι) : Prop where
  shape : SameShape d d'
  kept : content d'.io = content d.io
  moved : ok = true → lba.toNat < d.sectorCount.toNat ∧
    s = window (content d.io) (lba.toNat * sectorBytes) sectorBytes

theorem readSector_spec (h : BlockMedium content) (hfits : d.Fits)
    (hread : d.readSector lba buf = (ok, s, d')) : ReadsSector content d lba ok s d' := by
  unfold readSector at hread
  split at hread
  · cases hread
    exact ⟨.refl d, rfl, nofun⟩
  rename_i hlba
  have hlt := lt_sectorCount hlba
  cases d.layout with
  | smaller hnps hsize =>
    obtain ⟨hon, hstart⟩ := onMedium_smaller hfits hlba hsize
    rw [if_pos hnps] at hread
    cases hcall : BlockIo.readBlocks d.io d.mediaId (lba * d.nativesPerSector) buf with
    | mk ok' rest =>
      obtain ⟨hmedia, hcontent, hmoved⟩ := h.read hon hcall
      rw [hcall] at hread
      cases hread
      refine ⟨⟨hmedia, rfl, rfl, rfl⟩, hcontent, fun hok => ⟨hlt, ?_⟩⟩
      rw [← hstart]
      exact hmoved hok
  | same hnps hspn hsize =>
    obtain ⟨hon, hstart⟩ := onMedium_same hfits hlba hsize
    rw [if_neg hnps, if_pos hspn] at hread
    cases hcall : BlockIo.readBlocks d.io d.mediaId lba buf with
    | mk ok' rest =>
      obtain ⟨hmedia, hcontent, hmoved⟩ := h.read hon hcall
      rw [hcall] at hread
      cases hread
      refine ⟨⟨hmedia, rfl, rfl, rfl⟩, hcontent, fun hok => ⟨hlt, ?_⟩⟩
      rw [← hstart]
      exact hmoved hok
  | larger hnps hspn hsize =>
    obtain ⟨hon, hstart, hroom⟩ := onMedium_larger hfits hlba hsize
    rw [if_neg hnps, if_neg hspn] at hread
    split at hread
    · rename_i scratch io hcall
      obtain ⟨hmedia, hcontent, hmoved⟩ := h.read hon hcall
      simp only [Prod.mk.injEq] at hread
      obtain ⟨rfl, rfl, rfl⟩ := hread
      refine ⟨⟨hmedia, rfl, rfl, rfl⟩, hcontent, fun _ => ⟨hlt, ?_⟩⟩
      rw [hmoved rfl, ← hstart]
      exact cut_window _ _ _ hroom
    · rename_i scratch io hcall
      obtain ⟨hmedia, hcontent, -⟩ := h.read hon hcall
      cases hread
      exact ⟨⟨hmedia, rfl, rfl, rfl⟩, hcontent, nofun⟩

/-- What a call that writes does. -/
structure WritesSector (content : ι → Nat → Byte) (d : EfiBlockDevice ι) (lba : Quad) (s : Sector)
    (ok : Bool) (d' : EfiBlockDevice ι) : Prop where
  shape : SameShape d d'
  stored : ok = true → lba.toNat < d.sectorCount.toNat ∧
    content d'.io = splice (content d.io) (lba.toNat * sectorBytes) s
  failed : ok = false → lba.toNat < d.sectorCount.toNat →
    ∀ i, i / d.unit ≠ lba.toNat * sectorBytes / d.unit → content d'.io i = content d.io i
  refused : d.sectorCount.toNat ≤ lba.toNat → ok = false ∧ content d'.io = content d.io

theorem outside_of_div_ne {i k u : Nat} (hu : 0 < u) (h : i / u ≠ k) :
    i < k * u ∨ k * u + u ≤ i := by
  have hmod := Nat.mod_lt i hu
  have hdiv := Nat.div_add_mod' i u
  rcases Nat.lt_or_gt_of_ne h with hlt | hgt
  · have hle := Nat.mul_le_mul_right u (Nat.succ_le_of_lt hlt)
    rw [Nat.succ_mul] at hle
    omega
  · have hle := Nat.mul_le_mul_right u (Nat.succ_le_of_lt hgt)
    rw [Nat.succ_mul] at hle
    omega

/-- A sector that is written as it is. -/
theorem writesSector_direct (h : BlockMedium content) {first : Quad} {io : ι}
    (hon : OnMedium d.io d.mediaId first sectorBytes)
    (hstart : startOf d.io first = lba.toNat * sectorBytes)
    (hunit : d.nativeBlockSize.toNat ≤ sectorBytes) (hlt : lba.toNat < d.sectorCount.toNat)
    (hcall : BlockIo.writeBlocks d.io d.mediaId first s = (ok, io)) :
    WritesSector content d lba s ok { d with io := io } := by
  cases ok with
  | true =>
    obtain ⟨hmedia, hstored⟩ := h.written hon hcall
    refine ⟨⟨hmedia, rfl, rfl, rfl⟩, fun _ => ⟨hlt, ?_⟩, nofun, fun hle => by omega⟩
    rw [hstored, hstart]
    rfl
  | false =>
    obtain ⟨hmedia, hkept⟩ := h.refused hon hcall
    refine ⟨⟨hmedia, rfl, rfl, rfl⟩, nofun, fun _ _ i hi => ?_, fun hle => by omega⟩
    have hu : d.unit = sectorBytes := Nat.max_eq_right hunit
    rw [hu, Nat.mul_div_cancel _ (by decide)] at hi
    refine hkept i ?_
    rw [hstart]
    exact outside_of_div_ne (by decide) hi

theorem writeSector_spec (h : BlockMedium content) (hfits : d.Fits)
    (hwrite : d.writeSector lba s = (ok, d')) : WritesSector content d lba s ok d' := by
  unfold writeSector at hwrite
  split at hwrite
  · rename_i hlba
    cases hwrite
    rw [BitVec.le_def] at hlba
    exact ⟨.refl d, nofun, fun _ hlt => by omega, fun _ => ⟨rfl, rfl⟩⟩
  rename_i hlba
  have hlt := lt_sectorCount hlba
  cases d.layout with
  | smaller hnps hsize =>
    obtain ⟨hon, hstart⟩ := onMedium_smaller hfits hlba hsize
    rw [if_pos hnps] at hwrite
    have hunit : d.nativeBlockSize.toNat ≤ sectorBytes := by
      rw [← hsize]
      exact Nat.le_mul_of_pos_left _ d.blocky.2
    cases hcall : BlockIo.writeBlocks d.io d.mediaId (lba * d.nativesPerSector) s with
    | mk ok' io =>
      rw [hcall] at hwrite
      cases hwrite
      exact writesSector_direct h hon hstart hunit hlt hcall
  | same hnps hspn hsize =>
    obtain ⟨hon, hstart⟩ := onMedium_same hfits hlba hsize
    rw [if_neg hnps, if_pos hspn] at hwrite
    cases hcall : BlockIo.writeBlocks d.io d.mediaId lba s with
    | mk ok' io =>
      rw [hcall] at hwrite
      cases hwrite
      exact writesSector_direct h hon hstart hsize.le hlt hcall
  | larger hnps hspn hsize =>
    obtain ⟨hon, hstart, hroom⟩ := onMedium_larger hfits hlba hsize
    rw [if_neg hnps, if_neg hspn] at hwrite
    split at hwrite
    · rename_i scratch io hread
      obtain ⟨hmedia, hcontent, hmoved⟩ := h.read hon hread
      have hon' := hon.of_media hmedia
      have hfirst := startOf_of_media hmedia (lba / d.sectorsPerNative)
      cases hcall : BlockIo.writeBlocks io d.mediaId (lba / d.sectorsPerNative)
          (patch scratch (d.offsetOf lba) s) with
      | mk ok' io' =>
        simp only [hcall, Prod.mk.injEq] at hwrite
        obtain ⟨rfl, rfl⟩ := hwrite
        cases ok' with
        | true =>
          obtain ⟨hmedia', hstored⟩ := h.written hon' hcall
          refine ⟨⟨hmedia'.trans hmedia, rfl, rfl, rfl⟩, fun _ => ⟨hlt, ?_⟩, nofun,
            fun hle => by omega⟩
          rw [hstored, hfirst, hcontent, hmoved rfl, ← hstart]
          exact splice_patch _ _ s hroom
        | false =>
          obtain ⟨hmedia', hkept⟩ := h.refused hon' hcall
          refine ⟨⟨hmedia'.trans hmedia, rfl, rfl, rfl⟩, nofun, fun _ _ i hi => ?_,
            fun hle => by omega⟩
          have hsector : 0 < sectorBytes := by decide
          have hlarge : sectorBytes ≤ d.nativeBlockSize.toNat := by omega
          have hu : d.unit = d.nativeBlockSize.toNat := Nat.max_eq_left hlarge
          have hblock : lba.toNat * sectorBytes / d.nativeBlockSize.toNat =
              (lba / d.sectorsPerNative).toNat := by
            rw [← hstart, startOf, ← hfits.block, Nat.add_comm,
              Nat.add_mul_div_right _ _ (by omega), Nat.div_eq_of_lt (by omega), Nat.zero_add]
          rw [hu, hblock] at hi
          rw [hkept i ?_, hcontent]
          rw [hfirst, startOf, ← hfits.block]
          exact outside_of_div_ne (by omega) hi
    · rename_i scratch io hread
      obtain ⟨hmedia, hcontent, -⟩ := h.read hon hread
      simp only [Prod.mk.injEq] at hwrite
      obtain ⟨rfl, rfl⟩ := hwrite
      exact ⟨⟨hmedia, rfl, rfl, rfl⟩, nofun, fun _ _ i _ => congrFun hcontent i,
        fun hle => by omega⟩

theorem readSector_ok (h : UnfailingReads ι) (hfits : d.Fits)
    (hlt : lba.toNat < d.sectorCount.toNat) (buf : Sector) : (d.readSector lba buf).1 = true := by
  have hlba : ¬d.sectorCount ≤ lba := by
    rw [BitVec.le_def]
    omega
  unfold readSector
  rw [if_neg hlba]
  cases d.layout with
  | smaller hnps hsize =>
    rw [if_pos hnps]
    exact h buf (onMedium_smaller hfits hlba hsize).1
  | same hnps hspn hsize =>
    rw [if_neg hnps, if_pos hspn]
    exact h buf (onMedium_same hfits hlba hsize).1
  | larger hnps hspn hsize =>
    rw [if_neg hnps, if_neg hspn]
    have hok := h d.scratch (onMedium_larger hfits hlba hsize).1
    split
    · rfl
    · rename_i hcall
      rw [hcall] at hok
      cases hok

theorem writeSector_ok (h : UnfailingReads ι) (hw : UnfailingWrites ι)
    (hmedium : BlockMedium content) (hfits : d.Fits)
    (hlt : lba.toNat < d.sectorCount.toNat) (s : Sector) : (d.writeSector lba s).1 = true := by
  have hlba : ¬d.sectorCount ≤ lba := by
    rw [BitVec.le_def]
    omega
  unfold writeSector
  rw [if_neg hlba]
  cases d.layout with
  | smaller hnps hsize =>
    rw [if_pos hnps]
    exact hw s (onMedium_smaller hfits hlba hsize).1
  | same hnps hspn hsize =>
    rw [if_neg hnps, if_pos hspn]
    exact hw s (onMedium_same hfits hlba hsize).1
  | larger hnps hspn hsize =>
    rw [if_neg hnps, if_neg hspn]
    obtain ⟨hon, -⟩ := onMedium_larger hfits hlba hsize
    have hok := h d.scratch hon
    split
    · rename_i scratch io hcall
      exact hw _ (hon.of_media (hmedium.read hon hcall).1)
    · rename_i hcall
      rw [hcall] at hok
      cases hok

end Spec

/-! ## Runs -/

inductive DiskOp
  | read (lba : Quad) (buf : Sector)
  | write (lba : Quad) (s : Sector)

def DiskOp.request : DiskOp → Request Byte 512
  | read lba _ => .read lba.toNat
  | write lba s => .write lba.toNat s

def answer (d : EfiBlockDevice ι) : DiskOp → Answer Byte 512 × EfiBlockDevice ι
  | .read lba buf =>
    match d.readSector lba buf with
    | (true, s, d') => (.data s, d')
    | (false, _, d') => (.failed, d')
  | .write lba s =>
    match d.writeSector lba s with
    | (true, d') => (.stored, d')
    | (false, d') => (.failed, d')

/-- The requests of a run with their answers, and the device after it. -/
def answers : EfiBlockDevice ι → List DiskOp →
    List (Request Byte 512 × Answer Byte 512) × EfiBlockDevice ι
  | d, [] => ([], d)
  | d, op :: ops =>
    let (ans, d') := d.answer op
    let (rest, d'') := answers d' ops
    ((op.request, ans) :: rest, d'')

variable {content : ι → Nat → Byte}

theorem answer_spec (h : BlockMedium content) (hfits : d.Fits) {op : DiskOp} {ans : Answer Byte 512}
    (hans : d.answer op = (ans, d')) :
    SameShape d d' ∧
      Serves d.sectorCount.toNat d.unit (content d.io) op.request ans (content d'.io) := by
  cases op with
  | read lba buf =>
    cases hcall : d.readSector lba buf with
    | mk ok rest =>
      obtain ⟨hshape, hkept, hmoved⟩ := readSector_spec h hfits hcall
      cases ok with
      | true =>
        obtain ⟨hlt, hs⟩ := hmoved rfl
        simp only [answer, hcall] at hans
        cases hans
        refine ⟨hshape, ?_⟩
        rw [hkept, hs]
        exact .data hlt
      | false =>
        simp only [answer, hcall] at hans
        cases hans
        refine ⟨hshape, ?_⟩
        rw [hkept]
        exact .noData
  | write lba s =>
    cases hcall : d.writeSector lba s with
    | mk ok rest =>
      obtain ⟨hshape, hstored, hfailed, hrefused⟩ := writeSector_spec h hfits hcall
      cases ok with
      | true =>
        obtain ⟨hlt, hs⟩ := hstored rfl
        simp only [answer, hcall] at hans
        cases hans
        refine ⟨hshape, ?_⟩
        rw [hs]
        exact .stored hlt
      | false =>
        simp only [answer, hcall] at hans
        cases hans
        refine ⟨hshape, ?_⟩
        rcases Nat.lt_or_ge lba.toNat d.sectorCount.toNat with hlt | hge
        · exact .damaged hlt (hfailed rfl hlt)
        · rw [(hrefused hge).2]
          exact .refused hge

theorem unit_of_same (h : SameShape d d') : d'.unit = d.unit := by
  unfold unit
  rw [h.block]

theorem served_answers (h : BlockMedium content) (ops : List DiskOp) :
    ∀ {d : EfiBlockDevice ι}, d.Fits →
      Served d.sectorCount.toNat d.unit (content d.io) (d.answers ops).1
        (content (d.answers ops).2.io) := by
  induction ops with
  | nil => exact fun _ => .nil _
  | cons op ops ih =>
    intro d hfits
    cases hans : d.answer op with
    | mk ans d' =>
      obtain ⟨hshape, hserves⟩ := answer_spec h hfits hans
      have hrest := ih (hfits.of_same hshape)
      rw [hshape.count, unit_of_same hshape] at hrest
      simp only [answers, hans]
      exact .cons hserves hrest

theorem answer_failed (h : UnfailingReads ι) (hmedium : BlockMedium content) (hfits : d.Fits)
    {op : DiskOp} (hop : (∃ lba, op.request = .read lba) ∨ UnfailingWrites ι)
    (hans : (d.answer op).1 = .failed) : d.sectorCount.toNat ≤ op.request.block := by
  by_contra hlt
  cases op with
  | read lba buf =>
    have hok := readSector_ok h hfits (Nat.lt_of_not_le hlt) buf
    cases hcall : d.readSector lba buf with
    | mk ok rest =>
      rw [hcall] at hok
      obtain rfl : ok = true := hok
      simp [answer, hcall] at hans
  | write lba s =>
    have hw : UnfailingWrites ι := hop.resolve_left fun ⟨_, hread⟩ => by cases hread
    have hok := writeSector_ok h hw hmedium hfits (Nat.lt_of_not_le hlt) s
    cases hcall : d.writeSector lba s with
    | mk ok d' =>
      rw [hcall] at hok
      obtain rfl : ok = true := hok
      simp [answer, hcall] at hans

theorem answers_failed (h : UnfailingReads ι) (hmedium : BlockMedium content)
    (ops : List DiskOp) : ∀ {d : EfiBlockDevice ι}, d.Fits → ∀ p ∈ (d.answers ops).1,
      (∃ lba, p.1 = .read lba) ∨ UnfailingWrites ι → p.2 = .failed →
        d.sectorCount.toNat ≤ p.1.block := by
  induction ops with
  | nil => exact fun _ p hp => absurd hp List.not_mem_nil
  | cons op ops ih =>
    intro d hfits p hp hop hfailed
    cases hans : d.answer op with
    | mk ans d' =>
      simp only [answers, hans, List.mem_cons] at hp
      rcases hp with rfl | hp
      · refine answer_failed h hmedium hfits hop ?_
        rw [hans]
        exact hfailed
      · have hshape := (answer_spec hmedium hfits hans).1
        rw [← hshape.count]
        exact ih (hfits.of_same hshape) p hp hop hfailed

/-- **A medium is a flat disk.** Whatever the size of its blocks, a run of calls that may fail is
served from the flat image of the medium, and what a failed write damages is confined to the blocks
of the sector. All of it is there, as long as its blocks and sectors can be counted in a `u64`.
While the firmware's reads, and its writes, do not fail, only calls past the end do. -/
theorem efi_device_is_flat (h : BlockMedium content) {io : ι} {d : EfiBlockDevice ι}
    (hnew : new io = .ok d) (ops : List DiskOp) :
    Served d.sectorCount.toNat d.unit (content io) (d.answers ops).1
        (content (d.answers ops).2.io) ∧
      ((BlockIo.media io).lastBlock.toNat + 1 < 2 ^ 64 →
        ((BlockIo.media io).lastBlock.toNat + 1) * (BlockIo.media io).blockSize.toNat / 512 <
          2 ^ 64 →
        d.sectorCount.toNat =
          ((BlockIo.media io).lastBlock.toNat + 1) * (BlockIo.media io).blockSize.toNat / 512) ∧
      (UnfailingReads ι → ∀ p ∈ (d.answers ops).1, (∃ lba, p.1 = .read lba) ∨ UnfailingWrites ι →
        p.2 = .failed → d.sectorCount.toNat ≤ p.1.block) := by
  obtain ⟨hfits, rfl⟩ := fits_new hnew
  exact ⟨served_answers h ops hfits, sectorCount_new hnew,
    fun hun => answers_failed hun h ops hfits⟩

/-- A sector in the middle of a block of 4096 bytes. -/
theorem efi_device_is_flat_large :
    ∃ d, new MemMedium.large = .ok d ∧ d.sectorCount.toNat = 128 ∧
      Served 128 d.unit MemMedium.large.bytes
        (d.answers [.write 9 (Vector.replicate 512 0xA5), .read 9 zeroSector]).1
        (d.answers [.write 9 (Vector.replicate 512 0xA5), .read 9 zeroSector]).2.io.bytes := by
  obtain ⟨d, hnew, h128⟩ := new_large
  obtain ⟨hserved, -⟩ := efi_device_is_flat MemMedium.blockMedium hnew
    [.write 9 (Vector.replicate 512 0xA5), .read 9 zeroSector]
  rw [h128] at hserved
  exact ⟨d, hnew, h128, hserved⟩

end EfiBlockDevice

end M68kMachine
