import M68kMachine.Cards.ConfigSpace
import M68kMachine.Library.MaskedStore
import M68kMachine.Library.Transition
import M68kMachine.Properties.Lanes

/-!
# Writes to configuration space

Seen byte by byte, a configuration space is a store with a write mask: three bits of `COMMAND`, the
address bits of the BARs that exist, and nothing else. A write of any width is its bytes.

* `writable` — the mask
* `readByte_writeByte` — one byte written, in terms of the masked store
* `config_space_bounded` — what that means for the header, the BARs, the reads and the windows
-/

namespace M68kMachine

open Pci VirtioNetStub Transition

namespace Pci

/-- The bits of a BAR that hold an address. -/
def BarKind.addressBits : BarKind → Long
  | .none => 0
  | .mem32 s => ~~~(s.size - 1)

/-- A size is a power of two of at least 16, so the address bits start above the type bits. -/
theorem BarSize.getLsbD_pred (s : BarSize) {i : Nat} (hi : i < 4) :
    (s.size - 1).getLsbD i = true := by
  obtain ⟨k, hk⟩ := s.powerOfTwo
  have hge := s.atLeast
  have hone : (1 : Long).toNat = 1 := rfl
  -- The size is a power of two, so one less is ones up to its bit.
  have hpred : (s.size - 1).toNat = 2 ^ k - 1 := by
    rw [BitVec.toNat_sub_of_le (show (1 : Long) ≤ s.size from by
      rw [BitVec.le_def, hone]
      omega), hone, hk]
  have hlog : 4 ≤ k := by
    rw [hk] at hge
    exact (Nat.pow_le_pow_iff_right (by omega)).mp (show 2 ^ 4 ≤ 2 ^ k from hge)
  rw [← BitVec.testBit_toNat, hpred, Nat.testBit_two_pow_sub_one]
  exact decide_eq_true (by omega)

theorem BarKind.type_bits (kind : BarKind) (value : Long) :
    value &&& kind.addressBits &&& 0xF = 0 := by
  refine BitVec.eq_of_getLsbD_eq fun i hi => ?_
  rw [BitVec.getLsbD_and, BitVec.getLsbD_and]
  by_cases hlow : i < 4
  · cases kind with
    | none => simp [addressBits]
    | mem32 s =>
      unfold addressBits
      rw [BitVec.getLsbD_not, s.getLsbD_pred hlow]
      simp
  · have hmask : ∀ i, i < 32 → ¬i < 4 → (0xF : Long).getLsbD i = false := by decide
    rw [hmask i hi hlow]
    simp

end Pci

namespace ConfigSpace

/-! ## The registers, byte by byte -/

variable {offset lane : Nat} {bar : Fin 6}

theorem barIndex_eq_some :
    barIndex offset = some (bar, lane) ↔ lane < 4 ∧ offset = Off.bar0 + 4 * bar.val + lane := by
  have hbar := bar.isLt
  unfold barIndex
  split
  · rename_i h
    simp only [Option.some.injEq, Prod.mk.injEq, Fin.ext_iff]
    omega
  · rename_i h
    constructor
    · intro hsome
      cases hsome
    · intro hoffset
      omega

/-- Where no register lies, the image and the fixed bytes answer. -/
theorem readByte_of_no_bar (c : ConfigSpace) (h : barIndex offset = none) (regs) :
    ({ c with barRegs := regs } : ConfigSpace).readByte offset = c.readByte offset := by
  unfold readByte
  rw [h]

theorem readByte_bar (c : ConfigSpace) (h : barIndex offset = some (bar, lane)) :
    c.readByte offset = laneLE (c.barRegs bar) lane := by
  obtain ⟨-, hoffset⟩ := barIndex_eq_some.mp h
  simp only [Off.bar0] at hoffset
  unfold readByte
  rw [if_neg (by simp only [Off.command]; omega), if_neg (by simp only [Off.command]; omega),
    if_neg (by simp only [Off.status]; omega), if_neg (by simp only [Off.status]; omega), h]

/-- The bits of a byte that can be written. -/
def writable (kinds : Fin 6 → BarKind) (offset : Nat) : Byte :=
  if offset = Off.command then CommandBits.writableMask
  else
    match barIndex offset with
    | some (bar, lane) => laneLE (kinds bar).addressBits lane
    | none => 0

/-- The BARs hold address bits only. -/
def Masked (c : ConfigSpace) : Prop := ∀ bar, c.barRegs bar &&& ~~~(c.barKinds bar).addressBits = 0

theorem barKinds_writeByte (c : ConfigSpace) (offset : Nat) (byte : Byte) :
    (c.writeByte offset byte).barKinds = c.barKinds := by
  unfold writeByte writeBarByte
  split_ifs
  · rfl
  · split
    · split <;> rfl
    · rfl

variable {c : ConfigSpace}

theorem masked_writeByte (h : c.Masked) (offset : Nat) (byte : Byte) :
    (c.writeByte offset byte).Masked := by
  intro bar'
  rw [barKinds_writeByte]
  unfold writeByte
  split
  · exact h bar'
  · split
    · rename_i bar lane _
      unfold writeBarByte
      split
      · exact h bar'
      · rename_i s hkind
        -- Only a BAR that exists is stored to, and only under its mask.
        dsimp only
        split
        · rename_i hbar
          rw [hbar, hkind]
          show mergeLE (c.barRegs bar) lane byte &&& ~~~(s.size - 1) &&& ~~~~~~(s.size - 1) = 0
          rw [BitVec.and_assoc]
          simp
        · exact h bar'
    · exact h bar'

/-- A register that is clear outside its mask is so lane by lane. -/
theorem laneLE_clear {reg mask : Long} (h : reg &&& ~~~mask = 0) (hlane : lane < 4) :
    laneLE reg lane &&& ~~~laneLE mask lane = 0 := by
  refine BitVec.eq_of_getLsbD_eq fun i hi => ?_
  have hbit := congrArg (fun v : Long => v.getLsbD (8 * lane + i)) h
  simp only [BitVec.getLsbD_and, BitVec.getLsbD_not,
    decide_eq_true (show 8 * lane + i < 32 by omega), Bool.true_and] at hbit
  rw [BitVec.getLsbD_and, BitVec.getLsbD_not, getLsbD_laneLE _ _ hi, getLsbD_laneLE _ _ hi,
    decide_eq_true hi, Bool.true_and, hbit]
  simp

/-- Where nothing can be written, the store stays. -/
theorem write_of_read_only (h : writable c.barKinds offset = 0) (byte : Byte) :
    c.readByte = MaskedStore.write (writable c.barKinds) c.readByte (offset, byte) := by
  funext i
  by_cases hi : i = offset
  · subst hi
    rw [MaskedStore.write_self, h, MaskedStore.merge_zero]
  · rw [MaskedStore.write_of_ne hi]

/-- A byte of a BAR that exists. -/
theorem readByte_writeBar {mask : Long} (hindex : barIndex offset = some (bar, lane))
    (hbits : (c.barKinds bar).addressBits = mask) (hmasked : c.barRegs bar &&& ~~~mask = 0)
    (byte : Byte) :
    ({ c with barRegs := fun i =>
      if i = bar then mergeLE (c.barRegs bar) lane byte &&& mask else c.barRegs i } :
        ConfigSpace).readByte =
      MaskedStore.write (writable c.barKinds) c.readByte (offset, byte) := by
  obtain ⟨hlane, hoffset⟩ := barIndex_eq_some.mp hindex
  have hmask : writable c.barKinds offset = laneLE mask lane := by
    have hcommand : offset ≠ Off.command := by
      simp only [Off.command, Off.bar0] at hoffset ⊢
      omega
    unfold writable
    rw [if_neg hcommand, hindex, ← hbits]
  funext i
  cases hi : barIndex i with
  | none =>
    have hne : i ≠ offset := by
      rintro rfl
      rw [hindex] at hi
      cases hi
    rw [MaskedStore.write_of_ne hne]
    exact c.readByte_of_no_bar hi _
  | some p =>
    obtain ⟨bar', lane'⟩ := p
    obtain ⟨hlane', hoffset'⟩ := barIndex_eq_some.mp hi
    rw [readByte_bar _ hi]
    dsimp only
    -- The byte is of the register that was written, at this lane or at another.
    by_cases hbar : bar' = bar
    · subst hbar
      rw [if_pos rfl, laneLE_and, laneLE_mergeLE _ _ hlane']
      by_cases hsame : lane' = lane
      · have heq : i = offset := by rw [hoffset, hoffset', hsame]
        subst heq hsame
        rw [if_pos rfl, MaskedStore.write_self, hmask, readByte_bar c hi,
          MaskedStore.merge_of_clear (laneLE_clear hmasked hlane)]
      · have hne : i ≠ offset := by omega
        rw [if_neg hsame, MaskedStore.write_of_ne hne, readByte_bar c hi,
          MaskedStore.and_of_clear (laneLE_clear hmasked hlane')]
    · have hne : i ≠ offset := fun heq => hbar (Fin.ext (by omega))
      rw [if_neg hbar, MaskedStore.write_of_ne hne, readByte_bar c hi]

/-- **One byte written** merges into the byte that is there, under the mask. -/
theorem readByte_writeByte (h : c.Masked) (offset : Nat) (byte : Byte) :
    (c.writeByte offset byte).readByte =
      MaskedStore.write (writable c.barKinds) c.readByte (offset, byte) := by
  by_cases hcommand : offset = Off.command
  · subst hcommand
    funext i
    by_cases hi : i = Off.command
    · subst hi
      rw [MaskedStore.write_self]
      rfl
    · rw [MaskedStore.write_of_ne hi]
      unfold readByte
      rw [if_neg hi, if_neg hi]
      rfl
  · -- A byte that is not the command's is a BAR's, or can be written nowhere.
    have hwritable : writable c.barKinds offset = match barIndex offset with
        | some (bar, lane) => laneLE (c.barKinds bar).addressBits lane
        | none => 0 := if_neg hcommand
    unfold writeByte
    rw [if_neg hcommand]
    split
    · rename_i bar lane hindex
      rw [hindex] at hwritable
      unfold writeBarByte
      split
      · rename_i hkind
        refine write_of_read_only ?_ byte
        rw [hwritable]
        show laneLE (c.barKinds bar).addressBits lane = 0
        rw [hkind]
        simp [BarKind.addressBits, laneLE]
      · rename_i s hkind
        have hbits : (c.barKinds bar).addressBits = ~~~(s.size - 1) := by
          rw [hkind]
          rfl
        exact readByte_writeBar hindex hbits (hbits ▸ h bar) byte
    · rename_i hindex
      rw [hindex] at hwritable
      exact write_of_read_only hwritable byte

/-! ## Runs of writes -/

/-- A write of any width at any offset. -/
structure Write where
  offset : Word
  width : AccessWidth
  value : Long

/-- The bytes a write stores, in order; none where it runs past the end. -/
def Write.bytes (w : Write) : List (Nat × Byte) :=
  if configSpaceLen < w.offset.toNat + w.width.bytes then []
  else (List.range w.width.bytes).map fun lane => (w.offset.toNat + lane, laneLE w.value lane)

def step (c : ConfigSpace) (w : Write) : ConfigSpace := c.write w.offset w.width w.value

def stepByte (c : ConfigSpace) (p : Nat × Byte) : ConfigSpace := c.writeByte p.1 p.2

theorem step_eq_foldl (c : ConfigSpace) (w : Write) : c.step w = w.bytes.foldl stepByte c := by
  unfold step write Write.bytes
  split
  · rfl
  · rw [List.foldl_map]
    rfl

theorem run_eq_foldl (ws : List Write) :
    ∀ c : ConfigSpace, run step c ws = (ws.flatMap Write.bytes).foldl stepByte c := by
  induction ws with
  -- Byte writes come one after the other across the accesses too.
  | nil => exact fun _ => rfl
  | cons w ws ih =>
    intro c
    rw [run_cons, ih, step_eq_foldl, List.flatMap_cons, List.foldl_append]

/-- What writes leave alone, and keep. -/
structure Frame (c c' : ConfigSpace) : Prop where
  image : c'.image = c.image
  kinds : c'.barKinds = c.barKinds
  caps : c'.capsInstalled = c.capsInstalled
  masked : c'.Masked

theorem frame_stepByte (c' : ConfigSpace) (p : Nat × Byte) (h : Frame c c') :
    Frame c (c'.stepByte p) := by
  have hrest : (c'.stepByte p).image = c'.image ∧
      (c'.stepByte p).capsInstalled = c'.capsInstalled := by
    unfold stepByte writeByte writeBarByte
    split_ifs
    · exact ⟨rfl, rfl⟩
    · split
      · split <;> exact ⟨rfl, rfl⟩
      · exact ⟨rfl, rfl⟩
  exact ⟨hrest.1.trans h.image, (barKinds_writeByte c' p.1 p.2).trans h.kinds,
    hrest.2.trans h.caps, masked_writeByte h.masked p.1 p.2⟩

theorem frame_run (h : c.Masked) (ws : List Write) : Frame c (run step c ws) := by
  rw [run_eq_foldl]
  exact run_invariant (P := Frame c) frame_stepByte _ ⟨rfl, rfl, rfl, h⟩

/-- **A run of writes, byte by byte.** -/
theorem readByte_run (h : c.Masked) (ws : List Write) :
    (run step c ws).readByte =
      (ws.flatMap Write.bytes).foldl (MaskedStore.write (writable c.barKinds)) c.readByte := by
  rw [run_eq_foldl]
  -- What the mask is made of does not change, so it is that of the start.
  refine MaskedStore.foldl_step (I := Frame c) frame_stepByte ?_ _ ⟨rfl, rfl, rfl, h⟩
  intro c' p h'
  rw [← h'.kinds]
  exact readByte_writeByte h'.masked p.1 p.2

/-! ## What a run of writes leaves -/

/-- The spaces a device builds: an identity, its BARs, and capability chains. -/
inductive Built : ConfigSpace → Prop
  | new (identity : ConfigSpaceIdentity) (bars : Fin 6 → BarKind) :
    Built (ConfigSpace.new identity bars)
  | install {c : ConfigSpace} (h : Built c) (firstOffset : Word) (bytes : List Byte) :
    Built (c.installCapabilities firstOffset bytes)

/-- Every register of a space that was built is clear. -/
theorem Built.clear (h : Built c) : c.barRegs = fun _ => 0 := by
  induction h with
  | new identity bars => rfl
  | install h firstOffset bytes ih => exact ih

theorem Built.masked (h : Built c) : c.Masked := by
  intro bar
  rw [h.clear]
  simp

/-- Where a BAR starts. -/
def barOffset (bar : Fin 6) : Word := BitVec.ofNat 16 (Off.bar0 + 4 * bar.val)

/-- The longword last written to a BAR, zero in the bytes nothing was written to. -/
def lastBar (ws : List Write) (bar : Fin 6) : Long :=
  composeLanes .w32 fun lane =>
    (MaskedStore.last (ws.flatMap Write.bytes) (Off.bar0 + 4 * bar.val + lane)).getD 0

/-- What the writes `ws` make of `c`. -/
structure Bounded (c : ConfigSpace) (ws : List Write) (c' : ConfigSpace) : Prop where
  /-- No byte changes outside `COMMAND` and the address bits of the BARs that exist. -/
  frame (offset : Nat) : c'.readByte offset &&& ~~~writable c.barKinds offset =
    c.readByte offset &&& ~~~writable c.barKinds offset
  fixed : c'.image = c.image ∧ c'.barKinds = c.barKinds ∧ c'.capsInstalled = c.capsInstalled
  bars (bar : Fin 6) :
    c'.read (barOffset bar) .w32 = lastBar ws bar &&& (c.barKinds bar).addressBits
  types (bar : Fin 6) : c'.read (barOffset bar) .w32 &&& 0xF = 0
  probe (bar : Fin 6) : (c'.write (barOffset bar) .w32 0xFFFFFFFF).read (barOffset bar) .w32 =
    (c.barKinds bar).addressBits
  /-- A read in the space is its bytes, least significant first. -/
  reads (offset : Word) (width : AccessWidth) (h : offset.toNat + width.bytes ≤ configSpaceLen) :
    c'.read offset width =
      composeLanes width fun lane => (c'.read (offset + BitVec.ofNat 16 lane) .w8).setWidth 8
  /-- A read that runs past the end is all ones. -/
  beyond (offset : Word) (width : AccessWidth) (h : configSpaceLen < offset.toNat + width.bytes) :
    c'.read offset width = allOnes width
  windows (bar : Nat) (base len : Quad) : c'.barWindow bar = some (base, len) ↔
    (c'.readByte Off.command).getLsbD 1 = true ∧ ∃ (h : bar < 6) (s : BarSize),
      c.barKinds ⟨bar, h⟩ = .mem32 s ∧ len = s.size.setWidth 64 ∧
        base = (c'.read (barOffset ⟨bar, h⟩) .w32).setWidth 64

theorem barIndex_bar (bar : Fin 6) (h : lane < 4) :
    barIndex (Off.bar0 + 4 * bar.val + lane) = some (bar, lane) := barIndex_eq_some.mpr ⟨h, rfl⟩

theorem read_of_le {offset : Word} {width : AccessWidth}
    (h : offset.toNat + width.bytes ≤ configSpaceLen) :
    c.read offset width = composeLanes width fun lane => c.readByte (offset.toNat + lane) :=
  if_neg (Nat.not_lt.mpr h)

theorem toNat_barOffset (bar : Fin 6) : (barOffset bar).toNat = Off.bar0 + 4 * bar.val := by
  have hbar := bar.isLt
  unfold barOffset
  rw [BitVec.toNat_ofNat]
  exact Nat.mod_eq_of_lt (by simp only [Off.bar0]; omega)

/-- A BAR is read whole. -/
theorem read_bar (c : ConfigSpace) (bar : Fin 6) : c.read (barOffset bar) .w32 = c.barRegs bar := by
  have hbar := bar.isLt
  have hin : (barOffset bar).toNat + AccessWidth.w32.bytes ≤ configSpaceLen := by
    rw [toNat_barOffset]
    simp only [Off.bar0, AccessWidth.bytes, configSpaceLen]
    omega
  rw [read_of_le hin]
  refine eq_of_laneLE fun lane hlane => ?_
  rw [laneLE_composeLanes _ _ hlane, toNat_barOffset, readByte_bar c (barIndex_bar bar hlane)]
  exact if_pos hlane

theorem writable_bar (kinds : Fin 6 → BarKind) (bar : Fin 6) (h : lane < 4) :
    writable kinds (Off.bar0 + 4 * bar.val + lane) = laneLE (kinds bar).addressBits lane := by
  unfold writable
  rw [if_neg (by simp only [Off.bar0, Off.command]; omega), barIndex_bar bar h]

/-- **A BAR after a run of writes** from one that is clear outside its address bits. -/
theorem laneLE_bar_run (h : c.Masked) (ws : List Write) (bar : Fin 6) (hlane : lane < 4) :
    laneLE ((run step c ws).barRegs bar) lane =
      match MaskedStore.last (ws.flatMap Write.bytes) (Off.bar0 + 4 * bar.val + lane) with
      | some byte => byte &&& laneLE (c.barKinds bar).addressBits lane
      | none => laneLE (c.barRegs bar) lane := by
  have hindex := barIndex_bar bar hlane
  rw [← readByte_bar _ hindex, readByte_run h, MaskedStore.foldl_write, readByte_bar c hindex]
  cases MaskedStore.last (ws.flatMap Write.bytes) (Off.bar0 + 4 * bar.val + lane) with
  | some byte =>
    dsimp only
    rw [writable_bar _ bar hlane]
    exact MaskedStore.merge_of_clear (laneLE_clear (h bar) hlane) byte
  | none => rfl

theorem barRegs_run (h : Built c) (ws : List Write) (bar : Fin 6) :
    (run step c ws).barRegs bar = lastBar ws bar &&& (c.barKinds bar).addressBits := by
  refine eq_of_laneLE fun lane hlane => ?_
  rw [laneLE_bar_run h.masked ws bar hlane, laneLE_and]
  unfold lastBar
  rw [laneLE_composeLanes _ _ hlane, if_pos (show lane < AccessWidth.w32.bytes from hlane), h.clear]
  cases MaskedStore.last (ws.flatMap Write.bytes) (Off.bar0 + 4 * bar.val + lane) with
  | some byte => rfl
  | none => simp [laneLE]

/-- All ones to a BAR leave its address bits. -/
theorem probe_bar (h : c.Masked) (bar : Fin 6) :
    (c.write (barOffset bar) .w32 0xFFFFFFFF).barRegs bar = (c.barKinds bar).addressBits := by
  -- A longword of ones is the last write to each of the four lanes.
  have hlast : ∀ (bar : Fin 6) (lane : Fin 4),
      MaskedStore.last ([Write.mk (barOffset bar) .w32 0xFFFFFFFF].flatMap Write.bytes)
        (Off.bar0 + 4 * bar.val + lane.val) = some 0xFF := by decide
  refine eq_of_laneLE fun lane hlane => ?_
  have hrun := laneLE_bar_run h [Write.mk (barOffset bar) .w32 0xFFFFFFFF] bar hlane
  rw [hlast bar ⟨lane, hlane⟩] at hrun
  refine Eq.trans hrun ?_
  show BitVec.allOnes 8 &&& _ = _
  rw [BitVec.allOnes_and]

theorem memorySpaceEnabled_eq (c : ConfigSpace) :
    c.memorySpaceEnabled = (c.readByte Off.command).getLsbD 1 := by
  have hbit : ∀ b : Byte, decide (b &&& CommandBits.memoryEnable ≠ 0) = b.getLsbD 1 := by decide
  exact hbit c.command

/-- A window is that of a BAR that exists, while memory decoding is enabled. -/
theorem barWindow_eq_some (c : ConfigSpace) (bar : Nat) (base len : Quad) :
    c.barWindow bar = some (base, len) ↔
      (c.readByte Off.command).getLsbD 1 = true ∧ ∃ (h : bar < 6) (s : BarSize),
        c.barKinds ⟨bar, h⟩ = .mem32 s ∧ len = s.size.setWidth 64 ∧
          base = (c.barRegs ⟨bar, h⟩).setWidth 64 := by
  unfold barWindow
  rw [memorySpaceEnabled_eq]
  cases (c.readByte Off.command).getLsbD 1 with
  | false => simp
  | true =>
    by_cases hbar : bar < 6
    · cases hkind : c.barKinds ⟨bar, hbar⟩ with
      | none => simp [hbar, hkind]
      | mem32 s => simp [hbar, hkind, eq_comm, and_comm]
    · simp [hbar]

/-- **Configuration space changes only where it may.** -/
theorem config_space_bounded {c : ConfigSpace} (h : Built c) (ws : List Write) :
    Bounded c ws (run step c ws) := by
  have hframe := frame_run h.masked ws
  constructor
  · intro offset
    rw [readByte_run h.masked]
    exact MaskedStore.foldl_write_and_not _ _ _ _
  · exact ⟨hframe.image, hframe.kinds, hframe.caps⟩
  · intro bar
    rw [read_bar]
    exact barRegs_run h ws bar
  · intro bar
    rw [read_bar, barRegs_run h]
    exact BarKind.type_bits _ _
  · intro bar
    rw [read_bar, probe_bar hframe.masked, hframe.kinds]
  · intro offset width hin
    rw [read_of_le hin]
    refine composeLanes_congr fun lane hlane => ?_
    -- The offset does not wrap, the access being inside the space.
    have hoffset : (offset + BitVec.ofNat 16 lane).toNat = offset.toNat + lane := by
      have hlen : configSpaceLen = 256 := rfl
      rw [BitVec.toNat_add, BitVec.toNat_ofNat]
      omega
    have hbyte : (offset + BitVec.ofNat 16 lane).toNat + AccessWidth.w8.bytes ≤ configSpaceLen := by
      have hone : AccessWidth.w8.bytes = 1 := rfl
      rw [hoffset, hone]
      omega
    rw [read_of_le hbyte, setWidth_composeLanes, hoffset]
    rfl
  · intro offset width hout
    exact if_pos hout
  · intro bar base len
    rw [barWindow_eq_some, hframe.kinds]
    simp only [read_bar]

/-- A function with one BAR of 16 KiB. -/
def oneBar : ConfigSpace :=
  ConfigSpace.new ⟨0x1AF4, 0x1041, 1, 2, 0, 0, 0x1AF4, 1, 1⟩ fun bar =>
    if bar = 0 then .mem32 ⟨0x4000, by decide, 14, by decide⟩ else .none

/-- Its BAR after a longword and then a byte to the lane of the lowest address bits. -/
theorem config_space_bounded_oneBar :
    (run step oneBar [⟨0x10, .w32, 0x12345678⟩, ⟨0x11, .w8, 0xFF⟩]).read 0x10 .w32 = 0x1234C000 :=
  ((config_space_bounded (.new _ _) [⟨0x10, .w32, 0x12345678⟩, ⟨0x11, .w8, 0xFF⟩]).bars 0).trans
    (by decide)

/-- A word read that runs past the end is all ones, and the byte reads are not. -/
theorem read_past_the_end :
    Built oneBar ∧ oneBar.read 0xFF .w16 ≠
      composeLanes .w16 fun lane => (oneBar.read (0xFF + BitVec.ofNat 16 lane) .w8).setWidth 8 :=
  ⟨.new _ _, by decide⟩

end ConfigSpace

end M68kMachine
