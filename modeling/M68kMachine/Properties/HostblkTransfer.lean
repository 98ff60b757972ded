import M68kMachine.Cards.Hostblk
import M68kMachine.Core.GuestRam

/-!
# A `hostblk` transfer is all or accounted

What `execute` moves between a unit's disk and guest memory, over every disk that may refuse any
call. The sector loop stops at the first refused call, and reports what the granted ones moved.

* `Request` — a readable descriptor that passes every check, with what it names
* `Granted`, `Refuses` — the calls a transfer makes of the disk
* `Moved` — the first `k` calls were granted, and the next one was refused if `k < n`
* `transfer_is_all_or_accounted` — what `execute` does with every pointer
-/

namespace M68kMachine

/-- A call that is granted moves its sector; one that is refused damages that sector at most. -/
structure FallibleDevice {δ : Type} [BlockDevice δ] (content : δ → Nat → Sector) : Prop where
  read : ∀ {d d' : δ} {lba : Quad} {buf s : Sector} {ok : Bool},
    BlockDevice.readSector d lba buf = (ok, s, d') →
      content d' = content d ∧ (ok = true → s = content d lba.toNat)
  write : ∀ {d d' : δ} {lba : Quad} {s : Sector}, BlockDevice.writeSector d lba s = (true, d') →
    content d' = fun i => if i = lba.toNat then s else content d i
  refused : ∀ {d d' : δ} {lba : Quad} {s : Sector}, BlockDevice.writeSector d lba s = (false, d') →
    ∀ i, i ≠ lba.toNat → content d' i = content d i

/-- A refused write leaves the disk as it was. -/
def RefusesCleanly {δ : Type} [BlockDevice δ] (content : δ → Nat → Sector) : Prop :=
  ∀ {d d' : δ} {lba : Quad} {s : Sector}, BlockDevice.writeSector d lba s = (false, d') →
    content d' = content d

namespace Hostblk

open GuestMemory

variable {δ μ : Type} [BlockDevice δ]

/-! ## The sector loop -/

/-- `k` granted calls from `start` on take the disk `d` to the one given, and leave the sector
buffer. -/
inductive Granted (isWrite : Bool) (start : Quad) (buf : List Byte) (d : δ) :
    Nat → δ → Sector → Prop
  | start : Granted isWrite start buf d 0 d zeroSector
  | read {k : Nat} {d' d'' : δ} {b s : Sector} : isWrite = false →
      Granted isWrite start buf d k d' b →
      BlockDevice.readSector d' (start + BitVec.ofNat 64 k) b = (true, s, d'') →
      Granted isWrite start buf d (k + 1) d'' s
  | write {k : Nat} {d' d'' : δ} {b : Sector} : isWrite = true →
      Granted isWrite start buf d k d' b →
      BlockDevice.writeSector d' (start + BitVec.ofNat 64 k) (sectorOf buf k) = (true, d'') →
      Granted isWrite start buf d (k + 1) d'' (sectorOf buf k)

/-- The disk `d` refuses the call on the sector `k` behind `start`, and is `dev` behind it. -/
def Refuses (isWrite : Bool) (start : Quad) (buf : List Byte) (d : δ) (b : Sector) (k : Nat)
    (dev : δ) : Prop :=
  if isWrite then
    BlockDevice.writeSector d (start + BitVec.ofNat 64 k) (sectorOf buf k) = (false, dev)
  else ∃ s, BlockDevice.readSector d (start + BitVec.ofNat 64 k) b = (false, s, dev)

/-- Behind a transfer of `k` of `n` sectors all were granted, or the call on sector `k` was
refused. -/
def CallsMade (isWrite : Bool) (start : Quad) (buf : List Byte) (d : δ) (n k : Nat) (dev : δ) :
    Prop :=
  ∃ d' b, Granted isWrite start buf d k d' b ∧
    (k = n ∧ dev = d' ∨ k < n ∧ Refuses isWrite start buf d' b k dev)

/-- How a transfer of `n` sectors ended after `k`: complete, or at a refused call. -/
structure EndsAfter (n k : Nat) (error : Byte) (actual : Long) : Prop where
  le : k ≤ n
  error : k = n ∧ error = Err.ok ∨ k < n ∧ error = Err.ioError
  actual : actual = BitVec.ofNat 32 (sectorBytes * k)

theorem toNat_lba (start : Quad) (i : Nat) (h : start.toNat + i < 2 ^ 64) :
    (start + BitVec.ofNat 64 i).toNat = start.toNat + i := by
  rw [BitVec.toNat_add, BitVec.toNat_ofNat]
  omega

theorem actual_succ {actual : Long} {i : Nat} (h : actual = BitVec.ofNat 32 (sectorBytes * i)) :
    actual + 512 = BitVec.ofNat 32 (sectorBytes * (i + 1)) := by
  rw [h, Nat.mul_succ, BitVec.ofNat_add]
  rfl

/-- Storing sector `i` behind the first `i`. -/
theorem storeSector_next {front old : List Byte} {i : Nat} (s : Sector)
    (hfront : front.length = sectorBytes * i) :
    storeSector (front ++ old.drop (sectorBytes * i)) (i * sectorBytes) s =
      front ++ s.toList ++ old.drop (sectorBytes * (i + 1)) := by
  have hoff : i * sectorBytes = front.length := by
    rw [hfront, Nat.mul_comm]
  unfold storeSector
  rw [hoff, List.take_left, List.drop_length_add_append, List.drop_drop, Nat.mul_succ]

theorem sectorAt_eq (buf : List Byte) (i : Nat) :
    sectorAt buf (i * sectorBytes) = sectorOf buf i := by
  unfold sectorAt sectorOf
  rw [Nat.mul_comm]

variable {content : δ → Nat → Sector} {start : Quad}

/-- **The reading loop** fills the buffer from the front with what the disk holds. -/
theorem transferSectors_read (hdev : FallibleDevice content) (c : Nat → Sector) (old : List Byte)
    (d : δ) {n : Nat} (hn : start.toNat + n < 2 ^ 64) : ∀ (remaining i : Nat) (dev : δ)
      (sectorBuf : Sector) (buf : List Byte) (actual : Long), i + remaining = n →
      Granted false start old d i dev sectorBuf → content dev = c →
      buf = sectorRun c start.toNat i ++ old.drop (sectorBytes * i) →
      actual = BitVec.ofNat 32 (sectorBytes * i) →
      ∃ k r, transferSectors false start remaining i dev sectorBuf buf actual = r ∧
        EndsAfter n k r.error r.actual ∧ CallsMade false start old d n k r.device ∧
          content r.device = c ∧
          r.buf = sectorRun c start.toNat k ++ old.drop (sectorBytes * k) := by
  intro remaining
  induction remaining with
  | zero =>
    intro i dev sectorBuf buf actual hi hgranted hc hbuf hactual
    exact ⟨i, _, rfl, ⟨by omega, .inl ⟨by omega, rfl⟩, hactual⟩,
      ⟨dev, sectorBuf, hgranted, .inl ⟨by omega, rfl⟩⟩, hc, hbuf⟩
  | succ remaining ih =>
    intro i dev sectorBuf buf actual hi hgranted hc hbuf hactual
    have hlba := toNat_lba start i (by omega)
    unfold transferSectors
    simp only [Bool.false_eq_true, if_false]
    split
    · rename_i s dev' hread
      -- The first refused call ends the transfer, after `i` sectors.
      exact ⟨i, _, rfl, ⟨by omega, .inr ⟨by omega, rfl⟩, hactual⟩,
        ⟨dev, sectorBuf, hgranted, .inr ⟨by omega, s, hread⟩⟩, (hdev.read hread).1.trans hc, hbuf⟩
    · rename_i s dev' hread
      obtain ⟨hkeep, hs⟩ := hdev.read hread
      have hsector : s = c (start.toNat + i) := by
        rw [hs rfl, hlba, hc]
      refine ih (i + 1) dev' s _ _ (by omega) (.read rfl hgranted hread) (hkeep.trans hc) ?_
        (actual_succ hactual)
      rw [hbuf, storeSector_next s (length_sectorRun _ _ _), sectorRun_succ, hsector]

/-- **The writing loop** stores the buffer's sectors from the front on. -/
theorem transferSectors_write (hdev : FallibleDevice content) (c : Nat → Sector) (old : List Byte)
    (d : δ) {n : Nat} (hn : start.toNat + n < 2 ^ 64) : ∀ (remaining i : Nat) (dev : δ)
      (sectorBuf : Sector) (actual : Long), i + remaining = n →
      Granted true start old d i dev sectorBuf → content dev = storeRun c start.toNat i old →
      actual = BitVec.ofNat 32 (sectorBytes * i) →
      ∃ k r, transferSectors true start remaining i dev sectorBuf old actual = r ∧
        EndsAfter n k r.error r.actual ∧ CallsMade true start old d n k r.device ∧ r.buf = old ∧
        (∀ j, k < n → j = start.toNat + k ∨ content r.device j = storeRun c start.toNat k old j) ∧
        (k = n ∨ RefusesCleanly content → content r.device = storeRun c start.toNat k old) := by
  intro remaining
  induction remaining with
  | zero =>
    intro i dev sectorBuf actual hi hgranted hc hactual
    exact ⟨i, _, rfl, ⟨by omega, .inl ⟨by omega, rfl⟩, hactual⟩,
      ⟨dev, sectorBuf, hgranted, .inl ⟨by omega, rfl⟩⟩, rfl, fun j hk => by omega, fun _ => hc⟩
  | succ remaining ih =>
    intro i dev sectorBuf actual hi hgranted hc hactual
    have hlba := toNat_lba start i (by omega)
    unfold transferSectors
    simp only [if_true]
    split
    · rename_i dev' hwrite
      have hrefused : Refuses true start old dev sectorBuf i dev' := by
        rw [sectorAt_eq] at hwrite
        exact hwrite
      refine ⟨i, _, rfl, ⟨by omega, .inr ⟨by omega, rfl⟩, hactual⟩,
        ⟨dev, sectorBuf, hgranted, .inr ⟨by omega, hrefused⟩⟩, rfl, ?_, ?_⟩
      · intro j _
        rcases Nat.decEq j (start.toNat + i) with hj | hj
        · exact .inr ((hdev.refused hwrite j (by rw [hlba]; exact hj)).trans (congrFun hc j))
        · exact .inl hj
      · rintro (hk | hclean)
        · omega
        · exact (hclean hwrite).trans hc
    · rename_i dev' hwrite
      rw [sectorAt_eq] at hwrite ⊢
      refine ih (i + 1) dev' _ _ (by omega) (.write rfl hgranted hwrite) ?_ (actual_succ hactual)
      rw [hdev.write hwrite, hlba, storeRun_succ, hc]

/-! ## The checks -/

/-- The descriptor at `ptr` passes every check: a span of whole sectors of the unit `u`, and
`buf`. -/
structure Accepts [GuestMemory μ] (h : Hostblk δ) (ptr : Long) (mem : μ) (desc : Descriptor)
    (u : Fin unitCount) (unit : AttachedUnit δ) (isWrite : Bool) (buf : List Byte) : Prop where
  descriptor : readDescriptor ptr mem = some desc
  attached : h.unitIndex desc.unit = some (u, unit)
  command : desc.command = if isWrite then Cmd.write else Cmd.read
  writable : isWrite = true → unit.writeProtect = false
  length : desc.length ≠ 0 ∧ desc.length.toNat % sectorBytes = 0
  aligned : desc.offset.toNat % sectorBytes = 0
  range : desc.offset.toNat / sectorBytes + desc.length.toNat / sectorBytes ≤
    (BlockDevice.sectorCount unit.device).toNat
  buffer : ramSlice mem desc.buffer desc.length = some buf

/-- What an accepted descriptor's transfer leaves behind, after `k` sectors. -/
structure Moved [GuestMemory μ] (content : δ → Nat → Sector) (h : Hostblk δ) (mem : μ)
    (desc : Descriptor) (u : Fin unitCount) (unit : AttachedUnit δ) (isWrite : Bool)
    (buf : List Byte) (k : Nat) (dev : δ) (r : (Byte × Long) × Hostblk δ × μ) : Prop where
  ends : k = desc.length.toNat / sectorBytes ∧ r.1.1 = Err.ok ∨
    k < desc.length.toNat / sectorBytes ∧ r.1.1 = Err.ioError
  calls : CallsMade isWrite (BitVec.ofNat 64 (desc.offset.toNat / sectorBytes)) buf unit.device
    (desc.length.toNat / sectorBytes) k dev
  actual : r.1.2.toNat = sectorBytes * k
  card : r.2.1 = h.setUnit u { unit with device := dev }
  frame : Frame [⟨desc.buffer.toNat, desc.length.toNat⟩] mem r.2.2
  read : isWrite = false → content dev = content unit.device ∧
    ramSlice r.2.2 desc.buffer desc.length =
      some (sectorRun (content unit.device) (desc.offset.toNat / sectorBytes) k ++
        buf.drop (sectorBytes * k))
  written : isWrite = true → ramSlice r.2.2 desc.buffer desc.length = some buf ∧
    (∀ j, k < desc.length.toNat / sectorBytes → j = desc.offset.toNat / sectorBytes + k ∨
      content dev j = storeRun (content unit.device) (desc.offset.toNat / sectorBytes) k buf j) ∧
    (k = desc.length.toNat / sectorBytes ∨ RefusesCleanly content →
      content dev = storeRun (content unit.device) (desc.offset.toNat / sectorBytes) k buf)

/-- A request that moves nothing: `FLUSH`, or a refusal. -/
structure MovesNothing [GuestMemory μ] (h : Hostblk δ) (ptr : Long) (mem : μ)
    (r : (Byte × Long) × Hostblk δ × μ) : Prop where
  kept : r.2 = (h, mem)
  actual : r.1.2 = 0
  error : r.1.1 ≠ Err.ioError ∧ (r.1.1 = Err.ok →
    ∃ desc, readDescriptor ptr mem = some desc ∧ desc.command = Cmd.flush)

variable [GuestMemory μ] {ptr : Long} {mem : μ}

omit [BlockDevice δ] in
theorem movesNothing_of_refused {h : Hostblk δ} {e : Byte} (hok : e ≠ Err.ok)
    (hio : e ≠ Err.ioError) : MovesNothing h ptr mem ((e, 0), h, mem) :=
  ⟨rfl, rfl, hio, fun he => absurd he hok⟩

variable [LawfulGuestMemory μ]

theorem toNat_startLba (desc : Descriptor) :
    (BitVec.ofNat 64 (desc.offset.toNat / sectorBytes)).toNat =
      desc.offset.toNat / sectorBytes := by
  rw [BitVec.toNat_ofNat]
  exact Nat.mod_eq_of_lt (Nat.lt_of_le_of_lt (Nat.div_le_self _ _) desc.offset.isLt)

theorem toNat_sectorCount (desc : Descriptor) :
    (BitVec.ofNat 64 (desc.length.toNat / sectorBytes)).toNat =
      desc.length.toNat / sectorBytes := by
  have hlength := desc.length.isLt
  rw [BitVec.toNat_ofNat]
  refine Nat.mod_eq_of_lt (Nat.lt_of_le_of_lt (Nat.div_le_self _ _) ?_)
  omega

omit [BlockDevice δ] in
/-- A buffer put back through its view. -/
theorem frame_put {addr len : Long} {buf : List Byte} {put : List Byte → μ} (new : List Byte)
    (hput : ramSliceMut mem addr len = some (buf, put)) (hpos : len ≠ 0)
    (hnew : new.length = len.toNat) :
    Frame [⟨addr.toNat, len.toNat⟩] mem (put new) ∧ ramSlice (put new) addr len = some new := by
  have hlen : BitVec.ofNat 32 new.length = len := by
    rw [hnew, BitVec.ofNat_toNat, BitVec.setWidth_eq]
  have hstore : store mem addr new = some (put new) := by
    unfold store
    rw [hlen, hput]
    rfl
  have hne : new ≠ [] := by
    rintro rfl
    exact hpos (BitVec.eq_of_toNat_eq hnew.symm)
  have hframe := frame_store hne (by rw [hnew]; exact len.isLt) hstore
  rw [hnew] at hframe
  exact ⟨hframe, LawfulGuestMemory.slice_put hput hnew⟩

/-- **An accepted descriptor moves its sectors** up to the first refused call. -/
theorem transfer_moved (hdev : FallibleDevice content) {h : Hostblk δ} {desc : Descriptor}
    {u : Fin unitCount} {unit : AttachedUnit δ} {isWrite : Bool} {buf : List Byte}
    (ha : Accepts h ptr mem desc u unit isWrite buf) :
    ∃ k dev, Moved content h mem desc u unit isWrite buf k dev
      (h.transfer u unit desc mem isWrite) := by
  obtain ⟨-, -, -, hwritable, ⟨hpos, hlen⟩, haligned, hrange, hbuffer⟩ := ha
  have hoffset := desc.offset.isLt
  have hlength := desc.length.isLt
  have hbuflen := LawfulGuestMemory.length_ramSlice hbuffer
  have hstart := toNat_startLba desc
  have hcount := toNat_sectorCount desc
  have hsum := Nat.lt_of_le_of_lt hrange (BlockDevice.sectorCount unit.device).isLt
  have hnowrap : (BitVec.ofNat 64 (desc.offset.toNat / sectorBytes)).toNat +
      (BitVec.ofNat 64 (desc.length.toNat / sectorBytes)).toNat < 2 ^ 64 := by
    rw [hstart, hcount]
    exact hsum
  obtain ⟨endLba, hend⟩ := Option.isSome_iff_exists.mp (GuestRam.checkedAdd_isSome.mpr hnowrap)
  have hendNat := (GuestRam.toNat_of_checkedAdd hend).1
  rw [hstart, hcount] at hendNat
  obtain ⟨put, hput⟩ := ramSliceMut_of_ramSlice hbuffer
  have hprotect : ¬(isWrite && unit.writeProtect) = true := by
    cases isWrite with
    | false => simp
    | true => simp [hwritable rfl]
  have hchecks : ¬(desc.length = 0 ∨ desc.length.toNat % sectorBytes ≠ 0) := by
    rintro (hzero | hodd)
    · exact hpos hzero
    · exact hodd hlen
  unfold transfer
  rw [if_neg hprotect, if_neg hchecks, if_neg (by omega)]
  simp only [hend]
  rw [if_neg (by omega)]
  simp only [hput]
  have hwhole : sectorBytes * (desc.length.toNat / sectorBytes) = desc.length.toNat :=
    Nat.mul_div_cancel' (Nat.dvd_of_mod_eq_zero hlen)
  have hactual : ∀ k ≤ desc.length.toNat / sectorBytes,
      (BitVec.ofNat 32 (sectorBytes * k)).toNat = sectorBytes * k := by
    intro k hk
    have hle := Nat.mul_le_mul_left sectorBytes hk
    rw [BitVec.toNat_ofNat]
    exact Nat.mod_eq_of_lt (by omega)
  cases isWrite with
  | false =>
    obtain ⟨k, r, hr, ⟨hk, herror, hcnt⟩, hcalls, hcontent, hbuf⟩ := transferSectors_read hdev
      (content unit.device) buf unit.device (n := desc.length.toNat / sectorBytes)
      (by rw [hstart]; exact hsum) _ 0 unit.device zeroSector buf 0 (Nat.zero_add _) .start rfl
      (by simp [sectorRun]) rfl
    rw [hr]
    rw [hstart] at hbuf
    have hle := Nat.mul_le_mul_left sectorBytes hk
    obtain ⟨hframe, hself⟩ := frame_put r.buf hput hpos (by
      rw [hbuf, List.length_append, length_sectorRun, List.length_drop]
      omega)
    refine ⟨k, r.device, herror, hcalls, ?_, rfl, hframe, fun _ => ⟨hcontent, ?_⟩,
      (by intro hw; cases hw)⟩
    · rw [hcnt]
      exact hactual k hk
    · rw [← hbuf]
      exact hself
  | true =>
    obtain ⟨k, r, hr, ⟨hk, herror, hcnt⟩, hcalls, hbuf, hother, hclean⟩ := transferSectors_write
      hdev (content unit.device) buf unit.device (n := desc.length.toNat / sectorBytes)
      (by rw [hstart]; exact hsum) _ 0 unit.device zeroSector 0 (Nat.zero_add _) .start
      (storeRun_zero _ _ _).symm rfl
    rw [hr]
    rw [hstart] at hother hclean
    obtain ⟨hframe, hself⟩ := frame_put r.buf hput hpos (by rw [hbuf, hbuflen])
    refine ⟨k, r.device, herror, hcalls, ?_, rfl, hframe, (by intro hw; cases hw),
      fun _ => ⟨?_, hother, hclean⟩⟩
    · rw [hcnt]
      exact hactual k hk
    · rw [← hbuf]
      exact hself

/-- A `READ` or `WRITE` that fails a check is refused. -/
theorem transfer_refused {h : Hostblk δ} {desc : Descriptor} {u : Fin unitCount}
    {unit : AttachedUnit δ} (isWrite : Bool) (hdesc : readDescriptor ptr mem = some desc)
    (hunit : h.unitIndex desc.unit = some (u, unit))
    (hcommand : desc.command = if isWrite then Cmd.write else Cmd.read)
    (hno : ∀ buf, ¬Accepts h ptr mem desc u unit isWrite buf) :
    ∃ e, e ≠ Err.ok ∧ e ≠ Err.ioError ∧ h.transfer u unit desc mem isWrite = ((e, 0), h, mem) := by
  unfold transfer
  split
  · exact ⟨_, by decide, by decide, rfl⟩
  rename_i hprotect
  split
  · exact ⟨_, by decide, by decide, rfl⟩
  rename_i hlength
  split
  · exact ⟨_, by decide, by decide, rfl⟩
  rename_i haligned
  simp only
  split
  · exact ⟨_, by decide, by decide, rfl⟩
  rename_i endLba hend
  split
  · exact ⟨_, by decide, by decide, rfl⟩
  rename_i hrange
  have hendNat := (GuestRam.toNat_of_checkedAdd hend).1
  rw [toNat_startLba, toNat_sectorCount] at hendNat
  split
  · exact ⟨_, by decide, by decide, rfl⟩
  · -- Every check was passed.
    rename_i buf put hput
    simp only [not_or, Decidable.not_not] at hlength haligned
    refine absurd ⟨hdesc, hunit, hcommand, ?_, hlength, haligned, by omega,
      ramSlice_of_ramSliceMut hput⟩ (hno buf)
    intro hw
    simpa [hw] using hprotect

/-- **A transfer is all or accounted.** An accepted descriptor asks for its sectors one by one up to
the first the disk refuses, moves the granted ones and reports their bytes; any other pointer leaves
the card and memory alone and reports none. -/
theorem transfer_is_all_or_accounted (hdev : FallibleDevice content) (h : Hostblk δ) (ptr : Long)
    (mem : μ) :
    (∀ desc u unit isWrite buf, Accepts h ptr mem desc u unit isWrite buf →
      ∃ k dev, Moved content h mem desc u unit isWrite buf k dev (h.execute ptr mem)) ∧
    ((∀ desc u unit isWrite buf, ¬Accepts h ptr mem desc u unit isWrite buf) →
      MovesNothing h ptr mem (h.execute ptr mem)) := by
  constructor
  · intro desc u unit isWrite buf ha
    have hmoved := transfer_moved hdev ha
    obtain ⟨hdesc, hunit, hcommand, -⟩ := ha
    unfold execute
    simp only [hdesc, hunit]
    cases isWrite with
    | false =>
      have hread : desc.command = Cmd.read := hcommand
      rw [if_pos hread]
      exact hmoved
    | true =>
      have hwrite : desc.command = Cmd.write := hcommand
      rw [if_neg (by rw [hwrite]; decide), if_pos hwrite]
      exact hmoved
  · intro hno
    unfold execute
    split
    · exact movesNothing_of_refused (by decide) (by decide)
    · rename_i desc hdesc
      split
      · exact movesNothing_of_refused (by decide) (by decide)
      · rename_i u unit hunit
        split
        · rename_i hread
          obtain ⟨e, hok, hio, he⟩ := transfer_refused false hdesc hunit hread
            (hno desc u unit false)
          rw [he]
          exact movesNothing_of_refused hok hio
        · split
          · rename_i hwrite
            obtain ⟨e, hok, hio, he⟩ := transfer_refused true hdesc hunit hwrite
              (hno desc u unit true)
            rw [he]
            exact movesNothing_of_refused hok hio
          · split
            · rename_i hflush
              refine ⟨rfl, rfl, ?_, fun _ => ⟨desc, hdesc, hflush⟩⟩
              show Err.ok ≠ Err.ioError
              decide
            · exact movesNothing_of_refused (by decide) (by decide)

/-! ## A sample card -/

theorem memDisk_fallible : FallibleDevice MemDisk.sectors where
  read := by
    intro d d' lba buf s ok h
    simp only [BlockDevice.readSector] at h
    split at h
    · cases h
      exact ⟨rfl, fun _ => rfl⟩
    · cases h
      exact ⟨rfl, fun hok => by cases hok⟩
  write := by
    intro d d' lba s h
    simp only [BlockDevice.writeSector] at h
    split at h
    · cases h
      rfl
    · cases h
  refused := by
    intro d d' lba s h i _
    simp only [BlockDevice.writeSector] at h
    split at h
    · cases h
    · cases h
      rfl

/-- A card with a disk of four sectors in unit 0. -/
def diskCard : Hostblk MemDisk := (new []).attachUnit 0 ⟨4, fun _ => zeroSector⟩ false

/-- A descriptor at 0 that reads the second sector to 1024. -/
def readRam : FlatRam 2048 where
  bytes i := ([1, 0, 0, 0, 0, 0, 2, 0, 0, 0, 0, 0, 0, 0, 2, 0, 0, 0, 4, 0] : List Byte).getD i.val 0

theorem transfer_is_all_or_accounted_read :
    ∃ k dev, Moved MemDisk.sectors diskCard readRam ⟨1, 0, 512, 512, 1024⟩ 0
      ⟨⟨4, fun _ => zeroSector⟩, false, 0⟩ false (readRam.bytes.slice ⟨1024, 512, by decide⟩) k dev
      (diskCard.execute 0 readRam) := by
  refine (transfer_is_all_or_accounted memDisk_fallible diskCard 0 readRam).1 _ _ _ _ _ ?_
  exact ⟨rfl, rfl, rfl, (by intro hw; cases hw), by decide, by decide, by decide, rfl⟩

end Hostblk

end M68kMachine
