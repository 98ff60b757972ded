import M68kMachine.Drivers.Rtgboard
import M68kMachine.Properties.RtgboardRegisters

/-!
# Mode changes through rtgboard.card

`RtgSetGC` stages the new geometry at the offset of the mode before it. When the new frame does not
fit there, the board refuses, the driver logs it, and `RtgSetPanning` moves the old mode to the new
bitmap.

* `commitMode_spec`, `panTo_cases` — what the driver's commits do to the applied mode
* `mode_change_lands_iff` — when the new mode ends up applied
-/

namespace M68kMachine.RtgCard

open Rtgboard RtgBoard Transition

/-! ## The two vectors -/

/-- The board with a mode staged. -/
def stage (r : RtgBoard) (m : AppliedMode) : RtgBoard :=
  { r with
    setWidth := m.width
    setHeight := m.height
    setFormat := m.format
    setStride := m.stride
    setFbOffset := m.fbOffset }

variable (r : RtgBoard) {f : RtgBoard → Long} {r₀ : RtgBoard}

theorem commitMode_eq (m : AppliedMode) (hfb : ∀ r', r'.current = r.current → f r' = m.fbOffset) :
    commitMode r m.width m.height m.format m.stride f
      = ({ (stage r m).commit with status := (stage r m).commit.status &&& ~~~0xFF },
        if (stage r m).commit.status &&& Status.applied ≠ 0 then .applied else .rejected) := by
  unfold commitMode regWrite32 regRead8 regWrite8
  simp only [writeLong_setWidth, writeLong_setHeight, writeLong_setStride, writeLong_setFbOffset]
  rw [hfb]
  · rfl
  · rfl

/-- **A commit of the driver** applies the mode exactly when the board takes it, and says so. -/
theorem commitMode_spec {r : RtgBoard} (hlen : r.vram.size < 2 ^ 32) (m : AppliedMode)
    (hfb : ∀ r', r'.current = r.current → f r' = m.fbOffset) :
    let out := commitMode r m.width m.height m.format m.stride f
    (r.Admits m ∧ out.2 = .applied ∧ out.1.current = some m ∨
      ¬r.Admits m ∧ out.2 = .rejected ∧ out.1.current = r.current) ∧
    out.1.catalog = r.catalog ∧ out.1.vram = r.vram := by
  intro out
  have hout : out = _ := commitMode_eq r m hfb
  have hadmits : (stage r m).Admits (stage r m).staged ↔ r.Admits m :=
    ⟨fun h => h.congr rfl rfl, fun h => h.congr rfl rfl⟩
  rw [hout]
  by_cases ha : r.Admits m
  · have hc := commit_admitted (r := stage r m) hlen (hadmits.mpr ha)
    simp only [hc]
    exact ⟨.inl ⟨ha, rfl, rfl⟩, rfl, rfl⟩
  · have hc := commit_refused (r := stage r m) hlen (mt hadmits.mp ha)
    simp only [hc]
    exact ⟨.inr ⟨ha, rfl, rfl⟩, rfl, rfl⟩

theorem regRead8_curFormat :
    regRead8 r Reg.curFormat = (r.current.map (·.format)).getD Format.invalid := rfl

theorem regRead32_curWidth :
    regRead32 r Reg.curWidth = (r.current.map (·.width)).getD 0 := be32_byteOf _

theorem regRead32_curHeight :
    regRead32 r Reg.curHeight = (r.current.map (·.height)).getD 0 := be32_byteOf _

theorem regRead32_curStride :
    regRead32 r Reg.curStride = (r.current.map (·.stride)).getD 0 := be32_byteOf _

theorem regRead32_curFbOffset :
    regRead32 r Reg.curFbOffset = (r.current.map (·.fbOffset)).getD 0 := be32_byteOf _

/-- The mode `RtgSetGC` asks for, at the offset the board shows. -/
def requested (r : RtgBoard) (width height : Word) : AppliedMode where
  width := width.setWidth 32
  height := height.setWidth 32
  format := Format.rgb565
  stride := (rowBytes565 width).setWidth 32
  fbOffset := regRead32 r Reg.curFbOffset

theorem requested_fbOffset (width height : Word) (r' : RtgBoard) (h : r'.current = r.current) :
    regRead32 r' Reg.curFbOffset = (requested r width height).fbOffset := by
  unfold requested
  rw [regRead32_curFbOffset, regRead32_curFbOffset, h]

/-- The commit `RtgSetGC` makes of a requested mode. -/
def commitRequested (r : RtgBoard) (m : AppliedMode) : RtgBoard × Narration :=
  commitMode r m.width m.height m.format m.stride fun r => regRead32 r Reg.curFbOffset

/-- **`RtgSetGC`** commits the geometry of a mode that is not empty, at the offset before it. -/
theorem rtgSetGc_cases (mi : Option ModeInfo) :
    rtgSetGc r mi = (r, none) ∨ ∃ width height : Word, mi = some ⟨width, height⟩ ∧
      rtgSetGc r mi = ((commitRequested r (requested r width height)).1,
        some (commitRequested r (requested r width height)).2) := by
  cases mi with
  | none => exact .inl rfl
  | some mi =>
    by_cases h : mi.width = 0 ∨ mi.height = 0
    · exact .inl (if_pos h)
    · exact .inr ⟨mi.width, mi.height, rfl, if_neg h⟩

/-- A mode the board took shows a real format. -/
theorem format_ne_invalid {r : RtgBoard} {m : AppliedMode} (h : r.Admits m) :
    m.format ≠ Format.invalid := by
  rintro hf
  obtain ⟨bpp, hbpp, -⟩ := h.row
  have hnone : Format.bytesPerPixel Format.invalid = none := by decide
  rw [hf, hnone] at hbpp
  cases hbpp

/-- The frame of a mode at an offset of the board's memory. -/
def frameBytes (m : AppliedMode) : Nat := m.height.toNat * m.stride.toNat

/-- The bitmap lies in the board's memory, with room for the frame of the mode. -/
structure HoldsFrame (bi : BoardInfo) (m : AppliedMode) (memory : Long) : Prop where
  notNull : memory ≠ 0
  base : bi.memoryBase.toNat ≤ memory.toNat
  inside : memory.toNat - bi.memoryBase.toNat < bi.memorySize.toNat
  frame : memory.toNat - bi.memoryBase.toNat + frameBytes m ≤ bi.memorySize.toNat

/-- **`RtgSetPanning`** commits the applied geometry at a bitmap that holds its frame. -/
theorem panTo_cases {r : RtgBoard} (hlen : r.vram.size < 2 ^ 32)
    (hcur : ∀ m, r.current = some m → r.Admits m) (bi : BoardInfo) (memory : Long) :
    (∃ m, r.current = some m ∧ HoldsFrame bi m memory ∧
      panTo bi r memory = commitMode r m.width m.height m.format m.stride
        fun _ => memory - bi.memoryBase) ∨
    ((∀ m, r.current = some m → ¬HoldsFrame bi m memory) ∧ (panTo bi r memory).1 = r ∧
      (panTo bi r memory).2 ≠ .applied) := by
  cases hm : r.current with
  | none =>
    have hinv : regRead8 r Reg.curFormat = Format.invalid := by
      rw [regRead8_curFormat, hm]
      rfl
    have hpan : panTo bi r memory = (r, .noModeApplied) := if_pos hinv
    rw [hpan]
    exact .inr ⟨fun _ h => (nomatch h), rfl, nofun⟩
  | some m =>
    have ha : r.Admits m := hcur m hm
    have hbytes : (m.height * m.stride).toNat = frameBytes m := by
      refine BitVec.toNat_mul_of_lt ?_
      have := ha.frame
      omega
    unfold panTo
    simp only [regRead8_curFormat, regRead32_curWidth, regRead32_curHeight, regRead32_curStride, hm,
      Option.map_some, Option.getD_some]
    rw [if_neg (format_ne_invalid ha)]
    by_cases h0 : memory = 0
    · rw [if_pos h0]
      refine .inr ⟨fun _ hm' h => h.notNull h0, rfl, nofun⟩
    rw [if_neg h0]
    rcases Nat.lt_or_ge memory.toNat bi.memoryBase.toNat with hlt | hge
    · rw [if_pos hlt]
      exact .inr ⟨fun _ _ h => absurd h.base (Nat.not_le.mpr hlt), rfl, nofun⟩
    rw [if_neg (Nat.not_lt.mpr hge)]
    have hoff : (memory - bi.memoryBase).toNat = memory.toNat - bi.memoryBase.toNat :=
      BitVec.toNat_sub_of_le hge
    rcases Nat.lt_or_ge (memory - bi.memoryBase).toNat bi.memorySize.toNat with hin | hout
    · rw [if_neg (Nat.not_le.mpr hin)]
      have hroom : (bi.memorySize - (memory - bi.memoryBase)).toNat
          = bi.memorySize.toNat - (memory.toNat - bi.memoryBase.toNat) := by
        rw [BitVec.toNat_sub_of_le (Nat.le_of_lt hin), hoff]
      rw [hroom, hbytes]
      rw [hoff] at hin
      by_cases hframe : bi.memorySize.toNat - (memory.toNat - bi.memoryBase.toNat) < frameBytes m
      · rw [if_pos hframe]
        refine .inr ⟨fun m' hm' h => ?_, rfl, nofun⟩
        obtain rfl := Option.some.inj hm'
        have := h.frame
        omega
      · rw [if_neg hframe]
        exact .inl ⟨m, rfl, ⟨h0, hge, hin, by omega⟩, rfl⟩
    · rw [if_pos hout]
      rw [hoff] at hout
      exact .inr ⟨fun _ _ h => absurd h.inside (Nat.not_lt.mpr hout), rfl, nofun⟩

/-! ## Calls in sequence -/

/-- A call of Picasso96 into the driver. -/
inductive Call
  | setGc (mi : Option ModeInfo)
  | setPanning (memory : Long) (xOffset yOffset : Word)

/-- The board after a call, and what the driver logged. -/
def call (bi : BoardInfo) (r : RtgBoard) : Call → BoardInfo × RtgBoard × Option Narration
  | .setGc mi =>
    let (r, said) := rtgSetGc r mi
    (bi, r, said)
  | .setPanning memory xOffset yOffset =>
    let (bi, r, said) := rtgSetPanning bi r memory xOffset yOffset
    (bi, r, some said)

/-- The driver and the board after a call. -/
def step (s : BoardInfo × RtgBoard) (c : Call) : BoardInfo × RtgBoard :=
  let (bi, r, _) := call s.1 s.2 c
  (bi, r)

/-- What a call leaves behind, for the driver of the board `r₀`. -/
structure Kept (bi₀ : BoardInfo) (r₀ : RtgBoard) (s : BoardInfo × RtgBoard) : Prop where
  sound : Sound r₀ s.2
  base : s.1.memoryBase = bi₀.memoryBase
  size : s.1.memorySize = bi₀.memorySize

theorem sound_commitMode {r : RtgBoard} (hlen : r₀.vram.size < 2 ^ 32) (h : Sound r₀ r)
    (m : AppliedMode) (hfb : ∀ r', r'.current = r.current → f r' = m.fbOffset) :
    Sound r₀ (commitMode r m.width m.height m.format m.stride f).1 := by
  obtain ⟨hcases, hcat, hvram⟩ := commitMode_spec (h.size ▸ hlen) m hfb
  have hsize := congrArg ByteSlice.size hvram
  refine ⟨hcat.trans h.catalog, hsize.trans h.size, fun m' hm' => ?_⟩
  obtain ⟨ha, -, hcur⟩ | ⟨-, -, hcur⟩ := hcases
  · obtain rfl := Option.some.inj (hcur.symm.trans hm')
    exact ha.congr hcat hsize
  · exact (h.applied m' (hcur ▸ hm')).congr hcat hsize

theorem sound_rtgSetGc {r : RtgBoard} (hlen : r₀.vram.size < 2 ^ 32) (h : Sound r₀ r)
    (mi : Option ModeInfo) : Sound r₀ (rtgSetGc r mi).1 := by
  obtain hskip | ⟨width, height, -, hgc⟩ := rtgSetGc_cases r mi
  · rw [hskip]
    exact h
  · rw [hgc]
    dsimp only [commitRequested]
    exact sound_commitMode hlen h (requested r width height) (requested_fbOffset r width height)

/-- A `RtgSetGC` that is not logged as applied changes nothing that shows. -/
theorem rtgSetGc_refused {r : RtgBoard} (hlen : r.vram.size < 2 ^ 32) (mi : Option ModeInfo)
    (hsaid : (rtgSetGc r mi).2 ≠ some .applied) : (rtgSetGc r mi).1.current = r.current := by
  obtain hskip | ⟨width, height, -, hgc⟩ := rtgSetGc_cases r mi
  · rw [hskip]
  · rw [hgc] at hsaid ⊢
    obtain ⟨⟨-, happlied, -⟩ | ⟨-, -, hcur⟩, -, -⟩ := commitMode_spec hlen
      (requested r width height) (requested_fbOffset r width height)
    · exact absurd (congrArg some happlied) hsaid
    · exact hcur

theorem sound_panTo {r : RtgBoard} (hlen : r₀.vram.size < 2 ^ 32) (h : Sound r₀ r) (bi : BoardInfo)
    (memory : Long) : Sound r₀ (panTo bi r memory).1 := by
  obtain ⟨m, -, -, hpan⟩ | ⟨-, hsame, -⟩ :=
    panTo_cases (h.size ▸ hlen) h.applied bi memory
  · rw [hpan]
    exact sound_commitMode hlen h { m with fbOffset := memory - bi.memoryBase } fun _ _ => rfl
  · rw [hsame]
    exact h

/-- **A pan** logged as applied shows the applied geometry at its bitmap; any other changes
nothing. -/
theorem panTo_spec {r : RtgBoard} (hlen : r.vram.size < 2 ^ 32)
    (hcur : ∀ m, r.current = some m → r.Admits m) (bi : BoardInfo) (memory : Long) :
    (∃ m, r.current = some m ∧ HoldsFrame bi m memory ∧ (panTo bi r memory).2 = .applied ∧
      (panTo bi r memory).1.current = some { m with fbOffset := memory - bi.memoryBase }) ∨
    (panTo bi r memory).2 ≠ .applied ∧ (panTo bi r memory).1.current = r.current := by
  obtain ⟨m, hm, hroom, hpan⟩ | ⟨-, hsame, hsaid⟩ := panTo_cases hlen hcur bi memory
  · rw [hpan]
    obtain ⟨⟨-, happlied, hcur'⟩ | ⟨-, hrejected, hcur'⟩, -, -⟩ := commitMode_spec hlen
      { m with fbOffset := memory - bi.memoryBase } (f := fun _ => memory - bi.memoryBase)
      fun _ _ => rfl
    · exact .inl ⟨m, hm, hroom, happlied, hcur'⟩
    · refine .inr ⟨fun h => ?_, hcur'⟩
      cases hrejected.symm.trans h
  · exact .inr ⟨hsaid, congrArg RtgBoard.current hsame⟩

/-- **One call.** One not logged as applied leaves the mode; a pan that is shows the bitmap. -/
theorem call_spec {bi₀ : BoardInfo} (hlen : r₀.vram.size < 2 ^ 32) {s : BoardInfo × RtgBoard}
    (h : Kept bi₀ r₀ s) (c : Call) :
    Kept bi₀ r₀ (step s c) ∧
    ((call s.1 s.2 c).2.2 ≠ some .applied → (step s c).2.current = s.2.current) ∧
    ∀ memory xOffset yOffset, c = .setPanning memory xOffset yOffset →
      (call s.1 s.2 c).2.2 = some .applied →
      ∃ m, (step s c).2.current = some m ∧ m.fbOffset = memory - bi₀.memoryBase ∧
        HoldsFrame bi₀ m memory := by
  obtain ⟨bi, r⟩ := s
  obtain ⟨hs, hbase, hsize⟩ := h
  have hlen' : r.vram.size < 2 ^ 32 := hs.size ▸ hlen
  cases c with
  | setGc mi =>
    exact ⟨⟨sound_rtgSetGc hlen hs mi, hbase, hsize⟩, rtgSetGc_refused hlen' mi,
      fun _ _ _ h => (nomatch h)⟩
  | setPanning memory xOffset yOffset =>
    refine ⟨⟨sound_panTo hlen hs bi memory, hbase, hsize⟩, fun hsaid => ?_, ?_⟩
    · obtain ⟨-, -, -, happlied, -⟩ | ⟨-, hcur⟩ := panTo_spec hlen' hs.applied bi memory
      · exact absurd (congrArg some happlied) hsaid
      · exact hcur
    · rintro memory' x y hcall hsaid
      obtain ⟨rfl, -, -⟩ := Call.setPanning.inj hcall
      obtain ⟨m, -, hroom, -, hcur⟩ | ⟨hrefused, -⟩ := panTo_spec hlen' hs.applied bi memory
      · obtain ⟨hnull, hge, hin, hframe⟩ := hroom
        rw [show bi.memoryBase = bi₀.memoryBase from hbase] at hge hin hframe hcur
        rw [show bi.memorySize = bi₀.memorySize from hsize] at hin hframe
        exact ⟨_, hcur, rfl, hnull, hge, hin, hframe⟩
      · exact absurd (Option.some.inj hsaid) hrefused

/-! ## A mode change -/

/-- The driver and board after `RtgSetGC` and `RtgSetPanning`. -/
def changeMode (bi : BoardInfo) (r : RtgBoard) (mi : ModeInfo) (memory : Long)
    (xOffset yOffset : Word) : BoardInfo × RtgBoard :=
  Transition.run step (bi, r) [.setGc (some mi), .setPanning memory xOffset yOffset]

theorem changeMode_current (bi : BoardInfo) (r : RtgBoard) (mi : ModeInfo) (memory : Long)
    (xOffset yOffset : Word) : (changeMode bi r mi memory xOffset yOffset).2.current
      = (panTo bi (rtgSetGc r (some mi)).1 memory).1.current := rfl

section ModeChange

variable {r : RtgBoard} {boardAddr : Long} {width : Word}

theorem memoryBase_toNat (hwindow : boardAddr.toNat + windowBytes.toNat ≤ 2 ^ 32) :
    (findCard boardAddr r).memoryBase.toNat = boardAddr.toNat + vramBase := by
  have hw : windowBytes.toNat = 0x1000000 := rfl
  have hb : vramBase = 0x100000 := rfl
  refine (BitVec.toNat_add_of_lt ?_).trans rfl
  show boardAddr.toNat + 0x100000 < 2 ^ 32
  omega

/-- VRAM that the window reaches to its end is all the driver's. -/
theorem memorySize_toNat (hvram : r.vram.size ≤ windowBytes.toNat - vramBase) :
    (findCard boardAddr r).memorySize.toNat = r.vram.size := by
  have hlen : r.vram.size < 2 ^ 32 := Nat.lt_of_le_of_lt hvram (by decide)
  have hread : regRead32 r Reg.vramBytes = r.vramLen := be32_byteOf _
  have hmax : windowBytes.toNat - vramBase = (windowBytes - 0x100000).toNat := by decide
  unfold findCard
  simp only [hread]
  rw [if_neg, vramLen_toNat hlen]
  rw [vramLen_toNat hlen]
  omega

theorem rowBytes565_toNat (hw : width.toNat < 32768) :
    ((rowBytes565 width).setWidth 32).toNat = 2 * width.toNat := by
  have htwo : (width * 2).toNat = width.toNat * 2 :=
    BitVec.toNat_mul_of_lt (show width.toNat * 2 < 2 ^ 16 by omega)
  rw [BitVec.toNat_setWidth_of_le (by decide)]
  unfold rowBytes565
  omega

/-- Whether the board takes a mode of its catalog depends on the frame alone. -/
theorem admits_requested_iff {height : Word} (hw' : width.toNat < 32768)
    (hmode : (⟨width.setWidth 32, height.setWidth 32, Format.rgb565⟩ : ModeDescriptor)
      ∈ r.catalog) (fbOffset : Long) :
    r.Admits { requested r width height with fbOffset := fbOffset } ↔
      fbOffset.toNat + height.toNat * (2 * width.toNat) ≤ r.vram.size := by
  have hword : ∀ w : Word, (w.setWidth 32).toNat = w.toNat := fun w =>
    BitVec.toNat_setWidth_of_le (by decide)
  have hstride := rowBytes565_toNat hw'
  rw [hword] at hstride
  constructor
  · intro h
    have := h.frame
    simpa only [requested, hword, hstride] using this
  · intro h
    refine ⟨hmode, ⟨2, rfl, ?_⟩, ?_⟩
    · show (width.setWidth 32).toNat * 2 ≤ ((rowBytes565 width).setWidth 32).toNat
      rw [hword, hword, hstride]
      omega
    · simpa only [requested, hword, hstride] using h

/-- After a pan, what is applied is what was applied, at some offset. -/
theorem panTo_geometry (hlen : r.vram.size < 2 ^ 32)
    (hcur : ∀ m, r.current = some m → r.Admits m) (bi : BoardInfo) (memory : Long)
    {m : AppliedMode} (h : (panTo bi r memory).1.current = some m) :
    ∃ m₀, r.current = some m₀ ∧ m = { m₀ with fbOffset := m.fbOffset } := by
  obtain ⟨m₀, hm₀, -, -, hpan⟩ | ⟨-, hsame⟩ := panTo_spec hlen hcur bi memory
  · obtain rfl := Option.some.inj (hpan.symm.trans h)
    exact ⟨m₀, hm₀, rfl⟩
  · exact ⟨m, hsame ▸ h, rfl⟩

/-- **The new mode is applied after the pan exactly when its frame fits VRAM at the old offset.** -/
theorem changeMode_lands_iff (hwindow : boardAddr.toNat + windowBytes.toNat ≤ 2 ^ 32)
    (hvram : r.vram.size ≤ windowBytes.toNat - vramBase)
    (hcur : ∀ m, r.current = some m → r.Admits m) {height : Word} (hw : 0 < width.toNat)
    (hw' : width.toNat < 32768) (hh : 0 < height.toNat)
    (hmode : (⟨width.setWidth 32, height.setWidth 32, Format.rgb565⟩ : ModeDescriptor)
      ∈ r.catalog) {memory : Long} (hbase : (findCard boardAddr r).memoryBase.toNat ≤ memory.toNat)
    (hfits : memory.toNat - (findCard boardAddr r).memoryBase.toNat
      + height.toNat * (2 * width.toNat) ≤ (findCard boardAddr r).memorySize.toNat)
    (xOffset yOffset : Word) :
    (changeMode (findCard boardAddr r) r ⟨width, height⟩ memory xOffset yOffset).2.current =
      some { requested r width height with
        fbOffset := memory - (findCard boardAddr r).memoryBase } ↔
    (regRead32 r Reg.curFbOffset).toNat + height.toNat * (2 * width.toNat) ≤ r.vram.size := by
  have hlen : r.vram.size < 2 ^ 32 := Nat.lt_of_le_of_lt hvram (by decide)
  have hpos : 0 < height.toNat * (2 * width.toNat) := Nat.mul_pos hh (by omega)
  have hsize : (findCard boardAddr r).memorySize.toNat = r.vram.size := memorySize_toNat hvram
  have hbaseNat := memoryBase_toNat (r := r) hwindow
  have hoff : (memory - (findCard boardAddr r).memoryBase).toNat
      = memory.toNat - (findCard boardAddr r).memoryBase.toNat := BitVec.toNat_sub_of_le hbase
  have hgc : rtgSetGc r (some ⟨width, height⟩)
      = ((commitRequested r (requested r width height)).1,
        some (commitRequested r (requested r width height)).2) := by
    refine if_neg ?_
    rintro (h | h)
    · exact absurd (congrArg BitVec.toNat h) (Nat.ne_of_gt hw)
    · exact absurd (congrArg BitVec.toNat h) (Nat.ne_of_gt hh)
  have hspec := commitMode_spec hlen (requested r width height)
    (requested_fbOffset r width height)
  rw [changeMode_current, hgc]
  dsimp only [commitRequested]
  generalize commitMode r (requested r width height).width (requested r width height).height
    (requested r width height).format (requested r width height).stride
    (fun r => regRead32 r Reg.curFbOffset) = out at hspec ⊢
  obtain ⟨r', said⟩ := out
  obtain ⟨hcases, hcat, hv⟩ := hspec
  dsimp only at hcases hcat hv ⊢
  have hlen' : r'.vram.size < 2 ^ 32 := hv ▸ hlen
  -- the driver sees the same memory after the first commit
  have hadmits := admits_requested_iff hw' hmode (regRead32 r Reg.curFbOffset)
  constructor
  · intro hlanded
    obtain ⟨ha, -, -⟩ | ⟨hna, -, hsame⟩ := hcases
    · exact hadmits.mp ha
    · have hcur' : ∀ m, r'.current = some m → r'.Admits m := fun m hm =>
        (hcur m (hsame ▸ hm)).congr hcat (congrArg ByteSlice.size hv)
      obtain ⟨m₀, hm₀, hm⟩ := panTo_geometry hlen' hcur' _ _ hlanded
      have ha₀ := (hcur m₀ (hsame ▸ hm₀)).frame
      have hfb : regRead32 r Reg.curFbOffset = m₀.fbOffset := by
        rw [regRead32_curFbOffset, ← hsame, hm₀]
        rfl
      have hheight : m₀.height = height.setWidth 32 := (congrArg AppliedMode.height hm).symm
      have hstride : m₀.stride = (rowBytes565 width).setWidth 32 :=
        (congrArg AppliedMode.stride hm).symm
      rw [hheight, hstride, rowBytes565_toNat hw', BitVec.toNat_setWidth_of_le (by decide)] at ha₀
      rw [hfb]
      exact ha₀
  · intro hroom
    obtain ⟨ha, -, hnew⟩ | ⟨hna, -, -⟩ := hcases
    · have hcur' : ∀ m, r'.current = some m → r'.Admits m := by
        rintro m hm
        obtain rfl := Option.some.inj (hnew.symm.trans hm)
        exact ha.congr hcat (congrArg ByteSlice.size hv)
      have hframe : frameBytes (requested r width height) = height.toNat * (2 * width.toNat) := by
        unfold frameBytes requested
        rw [rowBytes565_toNat hw', BitVec.toNat_setWidth_of_le (by decide)]
      have hholds : HoldsFrame (findCard boardAddr r) (requested r width height) memory := by
        refine ⟨?_, hbase, by omega, hframe ▸ hfits⟩
        rintro rfl
        have hv : vramBase = 0x100000 := rfl
        have hz : (0 : Long).toNat = 0 := rfl
        omega
      obtain ⟨m, hm, -, hpan⟩ | ⟨hnone, -, -⟩ :=
        panTo_cases hlen' hcur' (findCard boardAddr r) memory
      · obtain rfl := Option.some.inj (hnew.symm.trans hm)
        obtain ⟨⟨-, -, hdone⟩ | ⟨hna, -, -⟩, -, -⟩ := commitMode_spec hlen'
          { requested r width height with fbOffset := memory - (findCard boardAddr r).memoryBase }
          (f := fun _ => memory - (findCard boardAddr r).memoryBase) fun _ _ => rfl
        · rw [hpan]
          exact hdone
        · refine absurd (Admits.congr ?_ hcat (congrArg ByteSlice.size hv)) hna
          exact (admits_requested_iff hw' hmode _).mpr (by omega)
      · exact absurd hholds (hnone _ hnew)
    · exact absurd (hadmits.mpr hroom) hna

end ModeChange

/-- What holds of every call in a sequence of calls. -/
theorem run_calls {bi₀ : BoardInfo} (hlen : r₀.vram.size < 2 ^ 32) {s : BoardInfo × RtgBoard}
    (h : Kept bi₀ r₀ s) (calls : List Call) : Kept bi₀ r₀ (Transition.run step s calls) :=
  run_invariant (P := Kept bi₀ r₀) (fun _ c h => (call_spec hlen h c).1) calls h

/-- **A mode change lands exactly when the new frame fits VRAM at the old offset.** On any board
that writes lead to, `RtgSetGC` for a mode of the catalog and `RtgSetPanning` with room for it leave
that mode at that bitmap if and only if it also fits at the offset applied before. Refused calls
change nothing, and what a pan applies lies in the board's memory, in any sequence of calls. -/
theorem mode_change_lands_iff {vram : ByteSlice}
    (hvram : vram.size ≤ windowBytes.toNat - vramBase) (catalog : List ModeDescriptor)
    (writes : List (Nat × Byte)) {boardAddr : Long}
    (hwindow : boardAddr.toNat + windowBytes.toNat ≤ 2 ^ 32) :
    let r := Transition.run writeByte (RtgBoard.new vram catalog) writes
    let bi := findCard boardAddr r
    (∀ (width height : Word) (memory : Long) (xOffset yOffset : Word),
      0 < width.toNat → width.toNat < 32768 → 0 < height.toNat →
      (⟨width.setWidth 32, height.setWidth 32, Format.rgb565⟩ : ModeDescriptor) ∈ catalog →
      bi.memoryBase.toNat ≤ memory.toNat →
      memory.toNat - bi.memoryBase.toNat + height.toNat * (2 * width.toNat)
        ≤ bi.memorySize.toNat →
      ((changeMode bi r ⟨width, height⟩ memory xOffset yOffset).2.current =
        some ⟨width.setWidth 32, height.setWidth 32, Format.rgb565,
          (rowBytes565 width).setWidth 32, memory - bi.memoryBase⟩ ↔
      (regRead32 r Reg.curFbOffset).toNat + height.toNat * (2 * width.toNat) ≤ vram.size)) ∧
    ∀ (calls : List Call) (c : Call),
      let s := Transition.run step (bi, r) calls
      ((call s.1 s.2 c).2.2 ≠ some .applied → (step s c).2.current = s.2.current) ∧
      ∀ memory xOffset yOffset, c = .setPanning memory xOffset yOffset →
        (call s.1 s.2 c).2.2 = some .applied →
        ∃ m, (step s c).2.current = some m ∧
          bi.memoryBase.toNat ≤ memory.toNat ∧
          m.fbOffset.toNat = memory.toNat - bi.memoryBase.toNat ∧
          m.fbOffset.toNat + m.height.toNat * m.stride.toNat ≤ bi.memorySize.toNat := by
  intro r bi
  have hlen : vram.size < 2 ^ 32 := Nat.lt_of_le_of_lt hvram (by decide)
  have hs : Sound (RtgBoard.new vram catalog) r := sound_run hlen catalog writes
  have hsize : r.vram.size = vram.size := hs.size
  have hcat : r.catalog = catalog := hs.catalog
  refine ⟨fun width height memory xOffset yOffset hw hw' hh hmode hbase hfits => ?_,
    fun calls c => ?_⟩
  · rw [← hsize]
    exact changeMode_lands_iff hwindow (hsize ▸ hvram) hs.applied hw hw' hh (hcat ▸ hmode) hbase
      hfits xOffset yOffset
  · intro s
    have hkept : Kept bi (RtgBoard.new vram catalog) s :=
      run_calls (s := (bi, r)) hlen ⟨hs, rfl, rfl⟩ calls
    obtain ⟨-, hrefused, hpanned⟩ := call_spec hlen hkept c
    refine ⟨hrefused, fun memory xOffset yOffset hc hsaid => ?_⟩
    obtain ⟨m, hm, hfb, hholds⟩ := hpanned memory xOffset yOffset hc hsaid
    have hoff : m.fbOffset.toNat = memory.toNat - bi.memoryBase.toNat := by
      rw [hfb]
      exact BitVec.toNat_sub_of_le hholds.base
    exact ⟨m, hm, hholds.base, hoff, hoff ▸ hholds.frame⟩

/-! ## A change that does not land -/

/-- A megabyte of VRAM that shows 640 by 480 pixels at 400000, and can show 800 by 600. -/
def smallBoard : RtgBoard :=
  Transition.run writeByte (RtgBoard.new (ByteSlice.zero 0x100000)
      [⟨640, 480, Format.rgb565⟩, ⟨800, 600, Format.rgb565⟩])
    [(0x16, 0x02), (0x17, 0x80), (0x1A, 0x01), (0x1B, 0xE0), (0x1F, 0x00), (0x22, 0x05),
      (0x23, 0x00), (0x25, 0x06), (0x26, 0x1A), (0x27, 0x80), (0x2B, 1)]

/-- A larger mode is refused at the old offset, and the pan shows the old mode instead. -/
theorem larger_mode_is_refused_at_the_old_offset :
    let bi := findCard 0x40000000 smallBoard
    smallBoard.current = some ⟨640, 480, Format.rgb565, 1280, 400000⟩ ∧
    (⟨800, 600, Format.rgb565⟩ : ModeDescriptor) ∈ smallBoard.catalog ∧
    0 + 600 * 1600 ≤ bi.memorySize.toNat ∧
    (changeMode bi smallBoard ⟨800, 600⟩ bi.memoryBase 0 0).2.current
      = some ⟨640, 480, Format.rgb565, 1280, 0⟩ := by
  decide

/-- From a board that shows nothing, the mode change lands. -/
theorem mode_change_lands_iff_first_mode :
    let r := RtgBoard.new (ByteSlice.zero 0x100000) [⟨640, 480, Format.rgb565⟩]
    let bi := findCard 0x40000000 r
    (changeMode bi r ⟨640, 480⟩ bi.memoryBase 0 0).2.current
      = some ⟨640, 480, Format.rgb565, 1280, 0⟩ := by
  have h := mode_change_lands_iff
    (show (ByteSlice.zero 0x100000).size ≤ windowBytes.toNat - vramBase by decide)
    [⟨640, 480, Format.rgb565⟩] []
    (show (0x40000000 : Long).toNat + windowBytes.toNat ≤ 2 ^ 32 by decide)
  exact (h.1 640 480 _ 0 0 (by decide) (by decide) (by decide) (by decide) (by decide)
    (by decide)).mpr (by decide)

end M68kMachine.RtgCard
