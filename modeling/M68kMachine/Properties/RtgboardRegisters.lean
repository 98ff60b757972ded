import M68kMachine.Properties.Lanes
import M68kMachine.Properties.RtgboardModes

/-!
# The RTG board's registers as longs

The driver reads and writes the register file a longword at a time. Seen that way every register is
one 32-bit word; those the protocol calls bytes keep the low byte.

* `Register` — the register map
* `Words` — the register file as words, and the bits of a write each holds
* `Shows` — the relation between the board and its words
* `reads_eq_words` — the board and its words give the same reads
-/

namespace M68kMachine

open Rtgboard

/-! ## Longword accesses -/

/-- The low lane of a value is the value's low byte. -/
theorem setWidth_byteOf_three (v : Long) : (byteOf v 3).setWidth 32 = v &&& 0xFF := by
  have hmask : ∀ i, (0xFF : Long).getLsbD i = decide (i < 8) := by
    intro i
    by_cases hi : i < 32
    · revert i
      decide
    · rw [BitVec.getLsbD_of_ge _ _ (by omega), eq_comm, decide_eq_false_iff_not]
      omega
  refine BitVec.eq_of_getLsbD_eq fun i hi => ?_
  rw [BitVec.getLsbD_setWidth, decide_eq_true hi, Bool.true_and, BitVec.getLsbD_and, hmask]
  rcases Nat.lt_or_ge i 8 with h | h
  · rw [getLsbD_byteOf v 3 h, decide_eq_true h]
    simp
  · rw [BitVec.getLsbD_of_ge _ _ h, decide_eq_false (Nat.not_lt.mpr h), Bool.and_false]

namespace Rtgboard

/-! ## The register map -/

inductive Register
  | modeCount | modeIndex | modeWidth | modeHeight | modeFormat
  | setWidth | setHeight | setFormat | setStride | setFbOffset
  | commit | status
  | curWidth | curHeight | curFormat | curStride | curFbOffset
  | vramBytes | version
  deriving DecidableEq

namespace Register

def offset : Register → Nat
  | modeCount => Reg.modeCount
  | modeIndex => Reg.modeIndex
  | modeWidth => Reg.modeWidth
  | modeHeight => Reg.modeHeight
  | modeFormat => Reg.modeFormat
  | setWidth => Reg.setWidth
  | setHeight => Reg.setHeight
  | setFormat => Reg.setFormat
  | setStride => Reg.setStride
  | setFbOffset => Reg.setFbOffset
  | commit => Reg.commit
  | status => Reg.status
  | curWidth => Reg.curWidth
  | curHeight => Reg.curHeight
  | curFormat => Reg.curFormat
  | curStride => Reg.curStride
  | curFbOffset => Reg.curFbOffset
  | vramBytes => Reg.vramBytes
  | version => Reg.version

/-- The bits a register keeps of a long: all of them, or those of the low lane. -/
def bits : Register → Long
  | modeIndex | modeFormat | setFormat | commit | status | curFormat => 0xFF
  | _ => 0xFFFFFFFF

end Register

/-- A longword access to a register. -/
inductive LongAccess
  | read (reg : Register)
  | write (reg : Register) (value : Long)

/-! ## The registers as words -/

/-- An applied mode, word by word. -/
structure ModeWords where
  width : Long
  height : Long
  format : Long
  stride : Long
  fbOffset : Long
  deriving DecidableEq

/-- The register file of the protocol with one 32-bit word for each register. -/
structure Words where
  catalog : List ModeDescriptor
  vramBytes : Long
  modeIndex : Long
  staged : ModeWords
  status : Long
  current : Option ModeWords

namespace Words

def new (catalog : List ModeDescriptor) (vramBytes : Long) : Words where
  catalog := catalog
  vramBytes := vramBytes
  modeIndex := 0
  staged := ⟨0, 0, 0xFF, 0, 0⟩
  status := 0
  current := none

/-- The mode `MODE_INDEX` selects. -/
def selected (w : Words) : Option ModeDescriptor := w.catalog[w.modeIndex.toNat]?

/-- A row of pixels fits the stride. -/
def rowFits (width stride : Long) (format : Byte) : Bool :=
  match Format.bytesPerPixel format with
  | none => false
  | some bpp => width.toNat * bpp.toNat ≤ stride.toNat

/-- The checks of `COMMIT` on the staged words, as integers. -/
def passes (w : Words) : Bool :=
  let s := w.staged
  w.catalog.any fun m =>
    (m.width, m.height, m.format.setWidth 32) = (s.width, s.height, s.format) ∧
    rowFits s.width s.stride m.format ∧
    s.fbOffset.toNat + s.height.toNat * s.stride.toNat ≤ w.vramBytes.toNat

def commit (w : Words) : Words :=
  if w.passes then { w with current := some w.staged, status := 2 }
  else { w with status := 1 }

def read (w : Words) : Register → Long
  | .modeCount => BitVec.ofNat 32 w.catalog.length
  | .modeIndex => 0
  | .modeWidth => (w.selected.map (·.width)).getD 0
  | .modeHeight => (w.selected.map (·.height)).getD 0
  | .modeFormat => (w.selected.map (·.format.setWidth 32)).getD 0xFF
  | .setWidth => w.staged.width
  | .setHeight => w.staged.height
  | .setFormat => w.staged.format
  | .setStride => w.staged.stride
  | .setFbOffset => w.staged.fbOffset
  | .commit => 0
  | .status => w.status
  | .curWidth => (w.current.map (·.width)).getD 0
  | .curHeight => (w.current.map (·.height)).getD 0
  | .curFormat => (w.current.map (·.format)).getD 0xFF
  | .curStride => (w.current.map (·.stride)).getD 0
  | .curFbOffset => (w.current.map (·.fbOffset)).getD 0
  | .vramBytes => w.vramBytes
  | .version => 1

/-- A long written to a register, which holds the bits of it that `keep` names. -/
def write (keep : Register → Long) (w : Words) (reg : Register) (value : Long) :
    Words :=
  let held := value &&& keep reg
  match reg with
  | .modeIndex => { w with modeIndex := held }
  | .setWidth => { w with staged := { w.staged with width := held } }
  | .setHeight => { w with staged := { w.staged with height := held } }
  | .setFormat => { w with staged := { w.staged with format := held } }
  | .setStride => { w with staged := { w.staged with stride := held } }
  | .setFbOffset => { w with staged := { w.staged with fbOffset := held } }
  | .commit => w.commit
  | .status => { w with status := w.status &&& ~~~held }
  | _ => w

/-- The longs a run of accesses reads. -/
def reads (keep : Register → Long) (w : Words) : List LongAccess → List Long
  | [] => []
  | .read reg :: rest => w.read reg :: reads keep w rest
  | .write reg value :: rest => reads keep (w.write keep reg value) rest

end Words

end Rtgboard

namespace RtgBoard

/-- The longs a run of accesses reads from the board. -/
def reads (r : RtgBoard) : List LongAccess → List Long
  | [] => []
  | .read reg :: rest => r.readLong reg.offset :: reads r rest
  | .write reg value :: rest => reads (r.writeLong reg.offset value) rest

/-! ## The board shows its words -/

end RtgBoard

def Rtgboard.AppliedMode.words (m : AppliedMode) : ModeWords :=
  ⟨m.width, m.height, m.format.setWidth 32, m.stride, m.fbOffset⟩

/-- The board holds the register file `w`. -/
structure RtgBoard.Shows (r : RtgBoard) (w : Words) : Prop where
  catalog : w.catalog = r.catalog
  vramBytes : w.vramBytes = r.vramLen
  modeIndex : w.modeIndex.toNat = r.modeIndex
  staged : w.staged = r.staged.words
  status : w.status = r.status.setWidth 32
  current : w.current = r.current.map AppliedMode.words

namespace RtgBoard

theorem shows_new (vram : ByteSlice) (catalog : List ModeDescriptor) :
    (new vram catalog).Shows (Words.new catalog (new vram catalog).vramLen) :=
  ⟨rfl, rfl, rfl, rfl, rfl, rfl⟩

/-- **A long read is the word of its register.** -/
theorem Shows.readLong {r : RtgBoard} {w : Words} (h : r.Shows w) (reg : Register) :
    r.readLong reg.offset = w.read reg := by
  obtain ⟨hcat, hvram, hidx, hstaged, hstatus, hcur⟩ := h
  have hsel : w.selected = r.catalogEntry := by
    unfold Words.selected catalogEntry
    rw [hcat, hidx]
  cases reg with
  | modeCount => exact (be32_byteOf _).trans (by rw [Words.read, hcat])
  | modeIndex | commit => exact be32_low 0
  | modeWidth | modeHeight => exact (be32_byteOf _).trans (by rw [Words.read, hsel])
  | modeFormat =>
    have hlow : r.readLong Register.modeFormat.offset
        = ((r.catalogEntry.map (·.format)).getD Format.invalid).setWidth 32 := be32_low _
    rw [hlow, Words.read, hsel]
    cases r.catalogEntry <;> rfl
  | setWidth | setHeight | setStride | setFbOffset =>
    exact (be32_byteOf _).trans (by rw [Words.read, hstaged]; rfl)
  | setFormat => exact (be32_low _).trans (by rw [Words.read, hstaged]; rfl)
  | status => exact (be32_low _).trans hstatus.symm
  | curWidth | curHeight | curStride | curFbOffset =>
    refine (be32_byteOf _).trans ?_
    rw [Words.read, hcur]
    cases r.current <;> rfl
  | curFormat =>
    have hlow : r.readLong Register.curFormat.offset
        = ((r.current.map (·.format)).getD Format.invalid).setWidth 32 := be32_low _
    rw [hlow, Words.read, hcur]
    cases r.current <;> rfl
  | vramBytes => exact (be32_byteOf _).trans hvram.symm
  | version => exact be32_byteOf 1

/-- The staged words pass the checks that the staged mode does. -/
theorem Shows.passes_iff {r : RtgBoard} {w : Words} (h : r.Shows w) : w.passes = true ↔
    ((r.catalog.any fun m => m = ⟨r.setWidth, r.setHeight, r.setFormat⟩) &&
      modeFits r.setWidth r.setFormat r.setStride r.setFbOffset r.setHeight r.vramLen) = true := by
  have hs : w.staged = ⟨r.setWidth, r.setHeight, r.setFormat.setWidth 32, r.setStride,
    r.setFbOffset⟩ := h.staged
  have hrow : ∀ format, Words.rowFits r.setWidth r.setStride format = true ↔
      ∃ bpp, Format.bytesPerPixel format = some bpp ∧
        r.setWidth.toNat * bpp.toNat ≤ r.setStride.toNat := by
    rintro format
    unfold Words.rowFits
    cases Format.bytesPerPixel format <;> simp
  have hinj : ∀ a b : Byte, a.setWidth 32 = b.setWidth 32 → a = b := by
    rintro a b hab
    refine BitVec.eq_of_toNat_eq ?_
    have hnat := congrArg BitVec.toNat hab
    rw [BitVec.toNat_setWidth, BitVec.toNat_setWidth] at hnat
    have := a.isLt
    have := b.isLt
    omega
  rw [Bool.and_eq_true, modeFits_iff, List.any_eq_true]
  unfold Words.passes
  rw [List.any_eq_true, h.catalog, h.vramBytes, hs]
  simp only [decide_eq_true_eq, Prod.mk.injEq, hrow]
  constructor
  · rintro ⟨m, hm, ⟨hw, hh, hf⟩, hrow, hframe⟩
    obtain ⟨width, height, format⟩ := m
    obtain rfl : width = r.setWidth := hw
    obtain rfl : height = r.setHeight := hh
    obtain rfl : format = r.setFormat := hinj _ _ hf
    exact ⟨⟨_, hm, rfl⟩, hrow, hframe⟩
  · rintro ⟨⟨m, hm, rfl⟩, hrow, hframe⟩
    exact ⟨_, hm, ⟨rfl, rfl, rfl⟩, hrow, hframe⟩

theorem Shows.commit {r : RtgBoard} {w : Words} (h : r.Shows w) : r.commit.Shows w.commit := by
  have hpasses := h.passes_iff
  obtain ⟨hcat, hvram, hidx, hstaged, hstatus, hcur⟩ := h
  unfold RtgBoard.commit Words.commit
  by_cases hp : w.passes = true
  · rw [if_pos hp, if_pos (hpasses.mp hp)]
    exact ⟨hcat, hvram, hidx, hstaged, rfl, congrArg some hstaged⟩
  · rw [if_neg hp, if_neg (mt hpasses.mpr hp)]
    exact ⟨hcat, hvram, hidx, hstaged, rfl, hcur⟩

theorem writeLong_setWidth (r : RtgBoard) (value : Long) :
    r.writeLong Reg.setWidth value = { r with setWidth := value } :=
  congrArg (fun v => ({ r with setWidth := v } : RtgBoard)) (setByteOf_lanes r.setWidth value)

theorem writeLong_setHeight (r : RtgBoard) (value : Long) :
    r.writeLong Reg.setHeight value = { r with setHeight := value } :=
  congrArg (fun v => ({ r with setHeight := v } : RtgBoard)) (setByteOf_lanes r.setHeight value)

theorem writeLong_setStride (r : RtgBoard) (value : Long) :
    r.writeLong Reg.setStride value = { r with setStride := value } :=
  congrArg (fun v => ({ r with setStride := v } : RtgBoard)) (setByteOf_lanes r.setStride value)

theorem writeLong_setFbOffset (r : RtgBoard) (value : Long) :
    r.writeLong Reg.setFbOffset value = { r with setFbOffset := value } :=
  congrArg (fun v => ({ r with setFbOffset := v } : RtgBoard))
    (setByteOf_lanes r.setFbOffset value)

/-- **A long write is a write of the register's word**, or of its low byte. -/
theorem Shows.writeLong {r : RtgBoard} {w : Words} (h : r.Shows w) (reg : Register)
    (value : Long) : (r.writeLong reg.offset value).Shows (w.write Register.bits reg value) := by
  have hcommit := h.commit
  obtain ⟨hcat, hvram, hidx, hstaged, hstatus, hcur⟩ := h
  have hbyte : (byteOf value 3).setWidth 32 = value &&& 0xFF := setWidth_byteOf_three value
  have hword : value &&& 0xFFFFFFFF = value := BitVec.and_allOnes
  cases reg with
  | modeCount | modeWidth | modeHeight | modeFormat | curWidth | curHeight | curFormat | curStride
  | curFbOffset | vramBytes | version => exact ⟨hcat, hvram, hidx, hstaged, hstatus, hcur⟩
  | modeIndex =>
    refine ⟨hcat, hvram, ?_, hstaged, hstatus, hcur⟩
    show (value &&& 0xFF).toNat = (byteOf value 3).toNat
    rw [← hbyte]
    exact BitVec.toNat_setWidth_of_le (by decide)
  | commit => exact hcommit
  | status =>
    refine ⟨hcat, hvram, hidx, hstaged, ?_, hcur⟩
    show w.status &&& ~~~(value &&& 0xFF) = (r.status &&& ~~~byteOf value 3).setWidth 32
    rw [hstatus, ← hbyte]
    refine BitVec.eq_of_getLsbD_eq fun i hi => ?_
    simp only [BitVec.getLsbD_and, BitVec.getLsbD_not, BitVec.getLsbD_setWidth,
      decide_eq_true hi, Bool.true_and]
    rcases Nat.lt_or_ge i 8 with h8 | h8
    · rw [decide_eq_true h8, Bool.true_and]
    · simp only [BitVec.getLsbD_of_ge _ _ h8, Bool.false_and]
  | setWidth =>
    rw [show Register.setWidth.offset = Reg.setWidth from rfl, writeLong_setWidth]
    refine ⟨hcat, hvram, hidx, ?_, hstatus, hcur⟩
    show { w.staged with width := value &&& 0xFFFFFFFF } = _
    rw [hstaged, hword]
    rfl
  | setHeight =>
    rw [show Register.setHeight.offset = Reg.setHeight from rfl, writeLong_setHeight]
    refine ⟨hcat, hvram, hidx, ?_, hstatus, hcur⟩
    show { w.staged with height := value &&& 0xFFFFFFFF } = _
    rw [hstaged, hword]
    rfl
  | setFormat =>
    refine ⟨hcat, hvram, hidx, ?_, hstatus, hcur⟩
    show { w.staged with format := value &&& 0xFF } = _
    rw [hstaged, ← hbyte]
    rfl
  | setStride =>
    rw [show Register.setStride.offset = Reg.setStride from rfl, writeLong_setStride]
    refine ⟨hcat, hvram, hidx, ?_, hstatus, hcur⟩
    show { w.staged with stride := value &&& 0xFFFFFFFF } = _
    rw [hstaged, hword]
    rfl
  | setFbOffset =>
    rw [show Register.setFbOffset.offset = Reg.setFbOffset from rfl, writeLong_setFbOffset]
    refine ⟨hcat, hvram, hidx, ?_, hstatus, hcur⟩
    show { w.staged with fbOffset := value &&& 0xFFFFFFFF } = _
    rw [hstaged, hword]
    rfl

/-- The reads of a run, from any board that shows its words. -/
theorem Shows.reads {r : RtgBoard} {w : Words} (h : r.Shows w) (accesses : List LongAccess) :
    r.reads accesses = w.reads Register.bits accesses := by
  induction accesses generalizing r w with
  | nil => rfl
  | cons access rest ih =>
    cases access with
    | read reg =>
      unfold RtgBoard.reads Words.reads
      rw [h.readLong reg, ih h]
    | write reg value => exact ih (h.writeLong reg value)

/-- **The register file is one of 32-bit words**, four of which are one byte wide. -/
theorem reads_eq_words (vram : ByteSlice) (catalog : List ModeDescriptor)
    (accesses : List LongAccess) :
    (new vram catalog).reads accesses
      = (Words.new catalog (new vram catalog).vramLen).reads Register.bits accesses :=
  (shows_new vram catalog).reads accesses

/-- A long written to `MODE_INDEX` above its low byte selects a mode of the catalog. -/
theorem mode_index_keeps_a_byte :
    ¬∀ (vram : ByteSlice) (catalog : List ModeDescriptor) (accesses : List LongAccess),
      (new vram catalog).reads accesses
        = (Words.new catalog (new vram catalog).vramLen).reads (fun _ => 0xFFFFFFFF) accesses := by
  intro h
  have h := h (ByteSlice.zero 0) [⟨640, 480, Format.rgb565⟩]
    [.write .modeIndex 0x100, .read .modeWidth]
  revert h
  decide

end RtgBoard

end M68kMachine
