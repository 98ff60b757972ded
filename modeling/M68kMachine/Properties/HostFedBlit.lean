import M68kMachine.Properties.PlainBlit
import Mathlib.Data.List.Induction

/-!
# Blits fed by the host

With a system source the start bit only arms the blit. The bytes written through the aperture are
counted, up to the buffer's length kept, and the last one runs the transfer, over zero for the
others.

* `feed`, `feed_of_lt`, `feed_of_eq` — the writes as they are counted
* `FromVram` — the same transfer from VRAM
-/

namespace M68kMachine

open Cirrus

namespace Cirrus542x

/-! ## Feeding -/

/-- Writes through the aperture, each an offset and a byte. -/
def feed (c : Cirrus542x) (writes : List (Nat × Byte)) : Cirrus542x :=
  writes.foldl (fun c write => c.vramWrite write.1 write.2) c

/-- The bytes that a blit from the host waits for. -/
def expected (c : Cirrus542x) : Nat := max (c.systemSourcePitch c.blitWidth * c.blitHeight) 1

/-- The start and status register, as it is read. -/
def blitStatusRead (c : Cirrus542x) : Byte :=
  { c with grIndex := BitVec.ofNat 8 Idx.grBlitStartStatus }.readGraphics

/-- The bytes of the stream that the buffer keeps. -/
def kept (writes : List (Nat × Byte)) : List Byte := (writes.map Prod.snd).take systemBlitCapacity

theorem kept_length (writes : List (Nat × Byte)) :
    (kept writes).length = min systemBlitCapacity writes.length := by
  simp [kept]

theorem kept_append (writes : List (Nat × Byte)) (write : Nat × Byte) :
    kept (writes ++ [write]) =
      if writes.length < systemBlitCapacity then kept writes ++ [write.2] else kept writes := by
  unfold kept
  rw [List.map_append, List.map_singleton, List.take_append, List.length_map]
  split
  case isTrue h =>
    obtain ⟨room, hroom⟩ : ∃ room, systemBlitCapacity - writes.length = room + 1 :=
      ⟨systemBlitCapacity - writes.length - 1, by omega⟩
    rw [hroom, List.take_succ_cons, List.take_nil]
  case isFalse h =>
    rw [Nat.sub_eq_zero_of_le (Nat.not_lt.mp h), List.take_zero, List.append_nil]

section Feed

variable {c : Cirrus542x} (hsystem : reg c.gr Idx.grBlitMode &&& BlitMode.systemSource ≠ 0)

include hsystem

theorem startBlit_system : c.startBlit = { c with systemBlit := some ⟨c.expected, 0, []⟩ } :=
  if_pos hsystem

/-- **Until the last byte, a write is counted, and kept if there is room.** -/
theorem feed_of_lt {writes : List (Nat × Byte)} (h : writes.length < c.expected) :
    c.startBlit.feed writes =
      { c with systemBlit := some ⟨c.expected, writes.length, kept writes⟩ } := by
  induction writes using List.reverseRecOn with
  | nil => exact startBlit_system hsystem
  | append_singleton writes write ih =>
    rw [List.length_append, List.length_singleton] at h ⊢
    have hbefore := ih (by omega)
    unfold feed at hbefore ⊢
    rw [List.foldl_append, hbefore, List.foldl_cons, List.foldl_nil, kept_append]
    exact if_pos h

/-- **The last byte runs the blit.** -/
theorem feed_of_eq {writes : List (Nat × Byte)} (h : writes.length = c.expected) :
    c.startBlit.feed writes = { c with systemBlit := none }.executeBlit (some (kept writes)) := by
  obtain rfl | ⟨init, write, rfl⟩ := writes.eq_nil_or_concat
  · exact absurd h (Nat.ne_of_lt (Nat.le_max_right _ _))
  rw [List.concat_eq_append] at h ⊢
  rw [List.length_append, List.length_singleton] at h
  have hinit : init.length < c.expected := by omega
  have hbefore := feed_of_lt hsystem hinit
  unfold feed at hbefore ⊢
  rw [List.foldl_append, hbefore, List.foldl_cons, List.foldl_nil]
  show { c with systemBlit := some ⟨c.expected, init.length, kept init⟩ }.feedSystemBlit write.2 =
    _
  unfold feedSystemBlit
  dsimp only
  rw [if_neg (by omega), ← kept_append, List.take_of_length_le]
  rw [kept_length, List.length_append, List.length_singleton, h]
  omega

end Feed

/-! ## What a place reads of the stream -/

/-- Where in the stream the source of a byte of the destination is. -/
def BlitSetup.streamAt (p : BlitSetup) (y x : Nat) : Nat :=
  y * p.systemPitch + if p.colorExpand then x / p.pixelBytes / 8 else x

/-- Byte `i` of the pixel that column `x` belongs to. -/
def BlitSetup.pixelColumn (p : BlitSetup) (x i : Nat) : Nat := x - x % p.pixelBytes + i

/-- The byte of the stream for this place was not kept. -/
def BlitSetup.Dropped (p : BlitSetup) (y x : Nat) : Prop :=
  p.pattern = false ∧ systemBlitCapacity ≤ p.streamAt y x

instance (p : BlitSetup) (y x : Nat) : Decidable (p.Dropped y x) :=
  inferInstanceAs (Decidable (_ ∧ _))

/-- No byte that this place looks at was dropped: its own, and under a colour key its pixel's. -/
def BlitSetup.Kept (p : BlitSetup) (length y x : Nat) : Prop :=
  p.pattern = false → ∀ i < p.pixelBytes, p.transparent = true ∨ i = x % p.pixelBytes →
    p.streamAt y (p.pixelColumn x i) < systemBlitCapacity ∨
      length ≤ p.streamAt y (p.pixelColumn x i)

/-- A byte of the stream, zero past its end. -/
def streamByte (stream : List Byte) (i : Nat) : Byte := stream.getD i 0

theorem streamByte_take {stream : List Byte} {i : Nat}
    (h : i < systemBlitCapacity ∨ stream.length ≤ i) :
    streamByte (stream.take systemBlitCapacity) i = streamByte stream i := by
  unfold streamByte
  simp only [List.getD_eq_getElem?_getD, List.getElem?_take]
  split
  case isTrue => rfl
  case isFalse hlt =>
    rw [List.getElem?_eq_none (h.resolve_left hlt)]

theorem streamByte_kept_of_le {writes : List (Nat × Byte)} {i : Nat}
    (h : systemBlitCapacity ≤ i) : streamByte (kept writes) i = 0 := by
  have hlength := kept_length writes
  unfold streamByte
  rw [List.getD_eq_getElem?_getD, List.getElem?_eq_none (by omega)]
  rfl

theorem pixelColumn_self (p : BlitSetup) (x : Nat) : p.pixelColumn x (x % p.pixelBytes) = x := by
  unfold BlitSetup.pixelColumn
  have := Nat.mod_le x p.pixelBytes
  omega

/-- What a place takes from a source read by `byte`, and whether it is held back. -/
def sourceFrom (c : Cirrus542x) (p : BlitSetup) (byte : Nat → Byte) (x : Nat) : Byte × Bool :=
  let lit := (byte x).getLsbD (7 - x / p.pixelBytes % 8)
  let source :=
    if p.colorExpand then
      if lit then c.blitFgComponent (x % p.pixelBytes) else c.blitBgComponent (x % p.pixelBytes)
    else byte x
  let held :=
    p.transparent &&
      if p.colorExpand then
        if p.modeext &&& BlitModeext.colorExpandInvert ≠ 0 then lit else !lit
      else c.matchesKey p.pixelBytes fun i => byte (p.pixelColumn x i)
  (source, held)

variable {c : Cirrus542x} {p : BlitSetup} {x : Nat}

/-- Sources that agree on what a place looks at give it the same. -/
theorem sourceFrom_congr {byte byte' : Nat → Byte} (hpos : 0 < p.pixelBytes)
    (h : ∀ i < p.pixelBytes, p.transparent = true ∨ i = x % p.pixelBytes →
      byte (p.pixelColumn x i) = byte' (p.pixelColumn x i)) :
    c.sourceFrom p byte x = c.sourceFrom p byte' x := by
  have hown : byte x = byte' x := by
    have := h (x % p.pixelBytes) (Nat.mod_lt _ hpos) (.inr rfl)
    rwa [pixelColumn_self] at this
  have hkey : (p.transparent && c.matchesKey p.pixelBytes fun i => byte (p.pixelColumn x i)) =
      (p.transparent && c.matchesKey p.pixelBytes fun i => byte' (p.pixelColumn x i)) := by
    cases ht : p.transparent with
    | false => rfl
    | true =>
      rw [matchesKey_congr fun i hi => h i hi (.inl ht)]
  unfold sourceFrom
  rw [hown]
  cases p.colorExpand with
  | true => rfl
  | false =>
    simp only [Bool.false_eq_true, if_false]
    rw [hkey]

theorem sourceFrom_system (c : Cirrus542x) (system : Option (List Byte)) (byte : Nat → Byte)
    (x : Nat) :
    c.sourceFrom (c.blitSetup system) byte x = c.sourceFrom (c.blitSetup none) byte x := rfl

/-- **A blit from the host reads its stream.** -/
theorem blitSource_host {data : List Byte} (hdata : p.system = some data)
    (hpattern : p.pattern = false) (s : BlitState) (y x : Nat) :
    c.blitSource p s y x = c.sourceFrom p (fun x => streamByte data (p.streamAt y x)) x := by
  unfold blitSource sourceFrom BlitSetup.solidFill
  have hexpand : p.expandBit s y x =
      (data.getD (y * p.systemPitch + x / p.pixelBytes / 8) 0).getLsbD
        (7 - x / p.pixelBytes % 8) := by
    unfold BlitSetup.expandBit
    simp only [hpattern, hdata, Bool.false_eq_true, if_false]
  have hlinear : ∀ x,
      p.linearBlitSource s.vram false y x = data.getD (y * p.systemPitch + x) 0 := by
    intro x
    unfold BlitSetup.linearBlitSource
    simp only [hdata, Bool.false_eq_true, if_false]
  simp only [hpattern, hexpand, Bool.false_and, Bool.false_eq_true, if_false, hlinear]
  unfold BlitSetup.streamAt streamByte
  cases hcolor : p.colorExpand with
  | true =>
    simp only [if_true]
    cases p.transparent <;> rfl
  | false =>
    simp only [Bool.false_eq_true, if_false]
    have hkeyed : c.keyed p s.vram y x = c.matchesKey p.pixelBytes fun i =>
        data.getD (y * p.systemPitch + p.pixelColumn x i) 0 := by
      unfold keyed matchesKey
      simp only [hlinear]
      rfl
    rw [hkeyed]
    cases p.transparent <;> rfl

/-! ## The source in VRAM -/

/-- The bytes of a row of a source of bits in VRAM. -/
def BlitSetup.packedRow (p : BlitSetup) : Nat :=
  (p.width + (p.pixelBytes * 8 - 1)) / (p.pixelBytes * 8)

/-- The address in VRAM of the source of a byte of the destination. -/
def BlitSetup.vramPlace (p : BlitSetup) (y x : Nat) : Option Nat :=
  if p.colorExpand then
    some (p.advance p.srcStart (y * p.packedRow + x / p.pixelBytes / 8)).toNat
  else p.srcAt y x

theorem nextExpandAddr_advance (p : BlitSetup) (start span : Nat) :
    p.nextExpandAddr (p.advance start span) = p.advance start (span + 1) := by
  unfold BlitSetup.nextExpandAddr BlitSetup.advance
  cases p.backwards with
  | true =>
    simp only [if_true, BitVec.ofNat_add]
    exact BitVec.sub_sub _ _ _
  | false =>
    simp only [Bool.false_eq_true, if_false, BitVec.ofNat_add]
    exact BitVec.add_assoc _ _ _

/-- How far a source of bits has been read before byte `x` of row `y`. -/
structure ExpandAt (p : BlitSetup) (s : BlitState) (y x : Nat) : Prop where
  address : s.expandAddr = p.advance p.srcStart (y * p.packedRow + x / p.pixelBytes / 8)
  count : s.expandCount = x % (p.pixelBytes * 8)

/-- Counting by `m`: the next number starts a group, or is the next one in it. -/
theorem succ_group {m : Nat} (hm : 0 < m) :
    if x % m + 1 = m then (x + 1) / m = x / m + 1 ∧ (x + 1) % m = 0
    else (x + 1) / m = x / m ∧ (x + 1) % m = x % m + 1 := by
  have hdiv := Nat.div_add_mod x m
  have hmod := Nat.mod_lt x hm
  split
  case isTrue hlast =>
    have hsplit : x + 1 = m * (x / m + 1) := by
      rw [Nat.mul_add, Nat.mul_one]
      omega
    rw [hsplit, Nat.mul_div_cancel_left _ hm, Nat.mul_mod_right]
    exact ⟨rfl, rfl⟩
  case isFalse hmore =>
    have hsplit : x + 1 = x % m + 1 + m * (x / m) := by omega
    have hlt : x % m + 1 < m := by omega
    rw [hsplit, Nat.add_mul_div_left _ _ hm, Nat.add_mul_mod_self_left, Nat.div_eq_of_lt hlt,
      Nat.mod_eq_of_lt hlt, Nat.zero_add]
    exact ⟨rfl, rfl⟩

section Expand

variable {c : Cirrus542x} {p : BlitSetup} (hexpands : p.expandsVram = true)
  (hpos : 0 < p.pixelBytes)

theorem blitByte_expand (c : Cirrus542x) (p : BlitSetup) (y x : Nat) (s : BlitState) :
    (c.blitByte p y s x).expandAddr = (p.stepExpand s).expandAddr ∧
      (c.blitByte p y s x).expandCount = (p.stepExpand s).expandCount := by
  unfold blitByte
  dsimp only
  split
  · exact ⟨rfl, rfl⟩
  · split
    · exact ⟨rfl, rfl⟩
    · split <;> exact ⟨rfl, rfl⟩

include hexpands hpos

/-- One byte. -/
theorem ExpandAt.byte {s : BlitState} {y x : Nat} (h : ExpandAt p s y x) :
    ExpandAt p (c.blitByte p y s x) y (x + 1) := by
  obtain ⟨haddress, hcount⟩ := h
  obtain ⟨hbyte, hbyte'⟩ := blitByte_expand c p y x s
  have hgroup := succ_group (x := x) (Nat.mul_pos hpos (by decide : 0 < 8))
  have hdiv : ∀ x, x / p.pixelBytes / 8 = x / (p.pixelBytes * 8) := fun x =>
    Nat.div_div_eq_div_mul x _ _
  unfold BlitSetup.stepExpand at hbyte hbyte'
  rw [if_pos hexpands, Nat.mul_comm 8, hcount] at hbyte hbyte'
  split at hgroup
  case isTrue hlast =>
    rw [if_pos hlast] at hbyte hbyte'
    constructor
    · rw [hbyte, haddress, nextExpandAddr_advance, hdiv, hdiv, hgroup.1]
      rfl
    · rw [hbyte', hgroup.2]
  case isFalse hmore =>
    rw [if_neg hmore] at hbyte hbyte'
    constructor
    · rw [hbyte, haddress, hdiv, hdiv, hgroup.1]
    · rw [hbyte', hgroup.2]

/-- One row, at whose end a partly used byte is left. -/
theorem ExpandAt.row {s : BlitState} {y : Nat} (h : ExpandAt p s y 0) :
    ExpandAt p (c.blitRow p s y) (y + 1) 0 := by
  have hrow : ∀ n, ExpandAt p ((List.range n).foldl (c.blitByte p y) s) y n := by
    intro n
    induction n with
    | zero => exact h
    | succ n ih =>
      rw [List.range_succ, List.foldl_append]
      exact ih.byte hexpands hpos
  obtain ⟨haddress, hcount⟩ := hrow p.width
  have hm : 0 < p.pixelBytes * 8 := Nat.mul_pos hpos (by decide)
  have hdiv := Nat.div_add_mod p.width (p.pixelBytes * 8)
  have hmod := Nat.mod_lt p.width hm
  rw [Nat.div_div_eq_div_mul] at haddress
  -- the bytes of a row are its whole groups, and one more where some bits are over
  have hpacked : p.packedRow = p.width / (p.pixelBytes * 8) +
      if p.width % (p.pixelBytes * 8) = 0 then 0 else 1 := by
    unfold BlitSetup.packedRow
    generalize p.pixelBytes * 8 = m at *
    split
    case isTrue hzero =>
      rw [Nat.add_zero]
      have hsplit : p.width + (m - 1) = m - 1 + m * (p.width / m) := by omega
      rw [hsplit, Nat.add_mul_div_left _ _ hm, Nat.div_eq_of_lt (by omega), Nat.zero_add]
    case isFalse hmore =>
      have hsplit : p.width + (m - 1) = p.width % m - 1 + m * (p.width / m + 1) := by
        rw [Nat.mul_add, Nat.mul_one]
        omega
      rw [hsplit, Nat.add_mul_div_left _ _ hm, Nat.div_eq_of_lt (by omega), Nat.zero_add]
  have hnext : (y + 1) * p.packedRow + 0 / p.pixelBytes / 8 = y * p.packedRow + p.packedRow := by
    rw [Nat.zero_div, Nat.zero_div, Nat.add_mul, Nat.one_mul]
    rfl
  unfold blitRow
  dsimp only
  split
  case isTrue hpart =>
    rw [hcount] at hpart
    constructor
    · dsimp only
      rw [haddress, nextExpandAddr_advance, hnext, hpacked, if_neg hpart.2]
      rfl
    · exact (Nat.zero_mod _).symm
  case isFalse hwhole =>
    have hzero : p.width % (p.pixelBytes * 8) = 0 := by
      rw [hcount] at hwhole
      by_contra hne
      exact hwhole ⟨hexpands, hne⟩
    constructor
    · rw [haddress, hnext, hpacked, if_pos hzero]
      rfl
    · rw [hcount, hzero, Nat.zero_mod]

theorem expandAt_stateAt (y x : Nat) : ExpandAt p (c.stateAt p y x) y x := by
  have hrows : ∀ y, ExpandAt p (c.rowStart p y) y 0 := by
    intro y
    induction y with
    | zero =>
      constructor
      · show BitVec.ofNat 64 p.srcStart = _
        unfold BlitSetup.advance
        simp
      · exact (Nat.zero_mod _).symm
    | succ y ih =>
      unfold rowStart
      rw [List.range_succ, List.foldl_append]
      exact ih.row hexpands hpos
  induction x with
  | zero => exact hrows y
  | succ x ih =>
    rw [stateAt_succ]
    exact ih.byte hexpands hpos

end Expand

/-- **A blit from VRAM reads VRAM.** -/
theorem blitSource_vram (hsystem : p.system = none) (hpattern : p.pattern = false) {s : BlitState}
    {y : Nat} (hexpand : p.colorExpand = true → ExpandAt p s y x) :
    c.blitSource p s y x = c.sourceFrom p (fun x => vramByte s.vram (p.vramPlace y x)) x := by
  unfold blitSource sourceFrom BlitSetup.solidFill
  simp only [hpattern, Bool.false_and, Bool.false_eq_true, if_false]
  cases hcolor : p.colorExpand with
  | true =>
    obtain ⟨haddress, hcount⟩ := hexpand hcolor
    have hlit : p.expandBit s y x =
        (vramByte s.vram (p.vramPlace y x)).getLsbD (7 - x / p.pixelBytes % 8) := by
      unfold BlitSetup.expandBit BlitSetup.vramPlace
      simp only [hpattern, hsystem, hcolor, Bool.false_eq_true, if_false, if_true]
      rw [haddress, hcount, Nat.mod_mul_right_div_self]
    simp only [hlit, if_true]
    cases p.transparent <;> rfl
  | false =>
    have hlinear : ∀ x, p.linearBlitSource s.vram false y x =
        vramByte s.vram (p.vramPlace y x) := by
      intro x
      unfold BlitSetup.linearBlitSource BlitSetup.vramPlace
      simp only [hsystem, hcolor, Bool.false_eq_true, if_false]
      rfl
    have hkeyed : c.keyed p s.vram y x = c.matchesKey p.pixelBytes fun i =>
        vramByte s.vram (p.vramPlace y (p.pixelColumn x i)) := by
      unfold keyed matchesKey
      simp only [hlinear]
      rfl
    simp only [Bool.false_eq_true, if_false, hlinear, hkeyed]
    cases p.transparent <;> rfl

/-! ## One byte of the destination -/

/-- What a source, or one that is held back, makes of a byte of the destination. -/
def painted (c : Cirrus542x) (source : Byte × Bool) (dest : Byte) : Byte :=
  if source.2 then dest else applyRop (reg c.gr Idx.grBlitRop) source.1 dest

/-! ## The same transfer from VRAM -/

/-- `r` is programmed for the blit of `c` with its source in VRAM: the memories agree, and `r` holds
the stream wherever the blit reads. A pattern is read from VRAM in both. -/
structure FromVram (r c : Cirrus542x) (stream : List Byte) : Prop where
  registers : ∀ i, i ≠ Idx.grBlitMode → i < Idx.grBlitSrcPitchLo ∨
    Idx.grBlitSrcPitchLo + 1 < i → i < Idx.grBlitSrcAddrLo ∨ Idx.grBlitSrcAddrLo + 2 < i →
      reg r.gr i = reg c.gr i
  mode : reg r.gr Idx.grBlitMode = reg c.gr Idx.grBlitMode &&& ~~~BlitMode.systemSource
  width : (r.blitSetup none).width = (c.blitSetup none).width
  memory : ∀ i < c.vram.size, r.vram.get? i = c.vram.get? i
  tile : (c.blitSetup none).pattern = true →
    r.vram = c.vram ∧ r.blitAddr Idx.grBlitSrcAddrLo = c.blitAddr Idx.grBlitSrcAddrLo
  source : (c.blitSetup none).pattern = false →
    ∀ y < c.blitHeight, ∀ x < (c.blitSetup none).width, ∀ i < c.blitPixelBytes,
      vramByte r.vram ((r.blitSetup none).vramPlace y ((r.blitSetup none).pixelColumn x i)) =
        streamByte stream ((c.blitSetup none).streamAt y ((c.blitSetup none).pixelColumn x i))
  apart : (c.blitSetup none).pattern = false →
    ∀ y < c.blitHeight, ∀ x < (c.blitSetup none).width, ∀ dst,
      (r.blitSetup none).dstAt y x = some dst →
        ∀ y' < c.blitHeight, ∀ x' < (c.blitSetup none).width, ∀ i < c.blitPixelBytes,
          (r.blitSetup none).vramPlace y' ((r.blitSetup none).pixelColumn x' i) ≠ some dst

namespace FromVram

variable {r c : Cirrus542x} {stream : List Byte} (h : FromVram r c stream)

include h

/-- The mode's other bits are the same. -/
theorem mode_and {mask : Byte} (hmask : ~~~BlitMode.systemSource &&& mask = mask) :
    reg r.gr Idx.grBlitMode &&& mask = reg c.gr Idx.grBlitMode &&& mask := by
  rw [h.mode, BitVec.and_assoc, hmask]

theorem bit {mask : Byte} (hmask : ~~~BlitMode.systemSource &&& mask = mask) :
    decide (reg r.gr Idx.grBlitMode &&& mask ≠ 0) =
      decide (reg c.gr Idx.grBlitMode &&& mask ≠ 0) := by
  rw [h.mode_and hmask]

theorem noSystem : reg r.gr Idx.grBlitMode &&& BlitMode.systemSource = 0 := by
  rw [h.mode, BitVec.and_assoc]
  have hnone : ~~~BlitMode.systemSource &&& BlitMode.systemSource = 0 := by decide
  rw [hnone]
  exact BitVec.and_zero

theorem register {i : Nat} (hlo : i < 0x26 ∨ 0x27 < i ∧ i < 0x2C ∨ 0x30 < i) :
    reg r.gr i = reg c.gr i := by
  have hbase : Idx.grBlitSrcPitchLo = 0x26 ∧ Idx.grBlitSrcAddrLo = 0x2C ∧
    Idx.grBlitMode = 0x30 := ⟨rfl, rfl, rfl⟩
  exact h.registers i (by omega) (by omega) (by omega)

theorem pixelBytes : r.blitPixelBytes = c.blitPixelBytes := by
  unfold blitPixelBytes
  rw [h.mode_and (by decide)]

theorem height : r.blitHeight = c.blitHeight := by
  unfold blitHeight
  rw [h.register (.inl (by decide)), h.register (.inl (by decide))]

theorem pattern : (r.blitSetup none).pattern = (c.blitSetup none).pattern :=
  h.bit (by decide)

theorem colorExpand : (r.blitSetup none).colorExpand = (c.blitSetup none).colorExpand :=
  h.bit (by decide)

theorem backwards : (r.blitSetup none).backwards = (c.blitSetup none).backwards :=
  h.bit (by decide)

theorem transparent : (r.blitSetup none).transparent = (c.blitSetup none).transparent :=
  h.bit (by decide)

/-- Both blits go through the same destination. -/
theorem dstAt (y x : Nat) : (r.blitSetup none).dstAt y x = (c.blitSetup none).dstAt y x := by
  have hpitch : (r.blitSetup none).dstPitch = (c.blitSetup none).dstPitch := by
    show r.blitPitch Idx.grBlitDstPitchLo = c.blitPitch Idx.grBlitDstPitchLo
    unfold blitPitch
    rw [h.register (.inl (by decide)), h.register (.inl (by decide))]
  have hstart : (r.blitSetup none).dstStart = (c.blitSetup none).dstStart :=
    blitAddr_congr (h.register (.inr (.inl (by decide)))) (h.register (.inr (.inl (by decide))))
      (h.register (.inr (.inl (by decide))))
  unfold BlitSetup.dstAt BlitSetup.along BlitSetup.lineStart
  rw [h.backwards, hpitch, hstart]

theorem pixelColumn (x i : Nat) :
    (r.blitSetup none).pixelColumn x i = (c.blitSetup none).pixelColumn x i := by
  have hpixel : (r.blitSetup none).pixelBytes = (c.blitSetup none).pixelBytes := h.pixelBytes
  unfold BlitSetup.pixelColumn
  rw [hpixel]

theorem modeext : (r.blitSetup none).modeext = (c.blitSetup none).modeext := by
  show reg r.gr Idx.grBlitModeExt = reg c.gr Idx.grBlitModeExt
  exact h.register (.inr (.inr (by decide)))

theorem colours (i : Nat) :
    r.blitFgComponent i = c.blitFgComponent i ∧ r.blitBgComponent i = c.blitBgComponent i := by
  have hcolours : ∀ k < 4, Idx.grFg.getD k 0 < 0x26 ∧ Idx.grBg.getD k 0 < 0x26 := by decide
  exact ⟨h.register (.inl (hcolours _ (by omega)).1), h.register (.inl (hcolours _ (by omega)).2)⟩

theorem painted : r.painted = c.painted := by
  funext source dest
  unfold Cirrus542x.painted
  rw [h.register (.inr (.inr (by decide)))]

/-- Sources that read the same give the same. -/
theorem sourceFrom (byte : Nat → Byte) (x : Nat) :
    r.sourceFrom (r.blitSetup none) byte x = c.sourceFrom (c.blitSetup none) byte x := by
  have hpixel : (r.blitSetup none).pixelBytes = (c.blitSetup none).pixelBytes := h.pixelBytes
  have hkey : ∀ n f, r.matchesKey n f = c.matchesKey n f := by
    have hbase : Idx.grBlitTransparentMask = 0x38 ∧ Idx.grBlitTransparentCompare = 0x34 :=
      ⟨rfl, rfl⟩
    intro n f
    unfold matchesKey
    have hmask : ∀ i, reg r.gr (Idx.grBlitTransparentMask + i) =
        reg c.gr (Idx.grBlitTransparentMask + i) := fun i =>
      h.register (.inr (.inr (by omega)))
    have hcompare : ∀ i, reg r.gr (Idx.grBlitTransparentCompare + i) =
        reg c.gr (Idx.grBlitTransparentCompare + i) := fun i =>
      h.register (.inr (.inr (by omega)))
    simp only [hmask, hcompare]
  unfold Cirrus542x.sourceFrom
  simp only [hpixel, h.modeext, h.colours, hkey, h.colorExpand, h.transparent, h.pixelColumn]

end FromVram

/-! ## One address of the destination -/

theorem blitByte_get? (c : Cirrus542x) (p : BlitSetup) (s : BlitState) (y x at' : Nat) :
    (c.blitByte p y s x).vram.get? at' =
      if p.dstAt y x = some at' then (s.vram.get? at').map (c.painted (c.blitSource p s y x))
      else s.vram.get? at' := by
  rw [blitByte_vram]
  unfold stores BlitSetup.dstAt
  cases p.along (p.lineStart p.dstStart p.dstPitch y) x with
  | none => rfl
  | some dst =>
    dsimp only
    by_cases hat : dst = at'
    · subst hat
      rw [if_pos rfl]
      by_cases hin : dst < s.vram.size
      · have hget : s.vram.get? dst = some (s.vram.bytes ⟨dst, hin⟩) := Buffer.get?_eq_some hin
        cases hheld : (c.blitSource p s y x).2 with
        | true => simp [hget, painted, hheld]
        | false =>
          rw [if_pos ⟨hin, rfl⟩]
          refine (Buffer.get?_set _ _ _ _).trans ?_
          rw [if_pos ⟨rfl, hin⟩, hget]
          simp [painted, hheld]
      · have hget : s.vram.get? dst = none := Buffer.get?_eq_none (Nat.not_lt.mp hin)
        rw [if_neg fun h => hin h.1]
        simp [hget]
    · rw [if_neg fun h => hat (Option.some.inj h)]
      split
      case h_1 => rfl
      case h_2 dst' hdst' =>
        obtain rfl : dst = dst' := by
          split at hdst'
          · exact Option.some.inj hdst'
          · cases hdst'
        refine (Buffer.get?_set _ _ _ _).trans ?_
        rw [if_neg fun h => hat h.1.symm]
        rfl

/-- The rows and columns that go to an address, in the order of the blit. -/
def BlitSetup.hits (p : BlitSetup) (at' : Nat) : List (Nat × Nat) :=
  p.places.filter fun q => p.dstAt q.1 q.2 = some at'

/-- What a place makes of a byte of the destination, its source in `data`. -/
def paint (c : Cirrus542x) (p : BlitSetup) (data : List Byte) (dest : Byte) (q : Nat × Nat) :
    Byte :=
  c.painted (c.sourceFrom p (fun x => streamByte data (p.streamAt q.1 x)) q.2) dest

/-- What a place makes of the byte at an address. -/
def paintAt (c : Cirrus542x) (p : BlitSetup) (data : List Byte) (at' : Nat) (cell : Option Byte)
    (q : Nat × Nat) : Option Byte :=
  if p.dstAt q.1 q.2 = some at' then cell.map fun dest => c.paint p data dest q else cell

theorem foldl_paintAt (c : Cirrus542x) (p : BlitSetup) (data : List Byte) (at' : Nat)
    (qs : List (Nat × Nat)) (cell : Option Byte) :
    qs.foldl (c.paintAt p data at') cell = cell.map
      ((qs.filter fun q => p.dstAt q.1 q.2 = some at').foldl (c.paint p data)) := by
  induction qs generalizing cell with
  | nil => cases cell <;> rfl
  | cons q qs ih =>
    rw [List.foldl_cons, ih, List.filter_cons]
    by_cases hq : p.dstAt q.1 q.2 = some at'
    · cases cell <;> simp [paintAt, hq]
    · cases cell <;> simp [paintAt, hq]

/-- **A byte of a blit from the host is what its places make of it, one after the other.** -/
theorem executeBlit_host_get? {data : List Byte}
    (hpattern : (c.blitSetup (some data)).pattern = false) (at' : Nat) :
    (c.executeBlit (some data)).vram.get? at' = (c.vram.get? at').map
      (((c.blitSetup (some data)).hits at').foldl (c.paint (c.blitSetup (some data)) data)) := by
  have hexpands : (c.blitSetup (some data)).expandsVram = false := Bool.and_false _
  have hrow (s : BlitState) (y : Nat) : (c.blitRow (c.blitSetup (some data)) s y).vram.get? at' =
      (List.range (c.blitSetup (some data)).width).foldl (fun cell x =>
        c.paintAt (c.blitSetup (some data)) data at' cell (y, x)) (s.vram.get? at') := by
    have hbyte (s : BlitState) (x : Nat) :
        c.paintAt (c.blitSetup (some data)) data at' (s.vram.get? at') (y, x) =
          (c.blitByte (c.blitSetup (some data)) y s x).vram.get? at' := by
      rw [blitByte_get?, blitSource_host rfl hpattern]
      rfl
    unfold blitRow
    simp only [hexpands, Bool.false_eq_true, false_and, if_false]
    exact (List.foldl_hom (fun s : BlitState => s.vram.get? at') hbyte).symm
  have hrows : (c.executeBlit (some data)).vram.get? at' = (c.blitSetup (some data)).places.foldl
      (c.paintAt (c.blitSetup (some data)) data at') (c.vram.get? at') := by
    unfold BlitSetup.places
    show _ = (List.flatMap _ _).foldl _ _
    rw [List.foldl_flatMap]
    simp only [List.foldl_map]
    exact (List.foldl_hom (fun s : BlitState => s.vram.get? at') fun s y => (hrow s y).symm).symm
  rw [hrows, foldl_paintAt]
  rfl

/-! ## Two transfers side by side -/

/-- What every byte that both transfer keeps, the two transfers keep. -/
theorem executeBlit_relation {c' : Cirrus542x} {system system' : Option (List Byte)}
    (hheight : (c'.blitSetup system').height = (c.blitSetup system).height)
    (hwidth : (c'.blitSetup system').width = (c.blitSetup system).width)
    {R : ByteSlice → ByteSlice → Prop} (hstart : R c.vram c'.vram)
    (hbyte : ∀ y < (c.blitSetup system).height, ∀ x < (c.blitSetup system).width,
      R (c.stateAt (c.blitSetup system) y x).vram (c'.stateAt (c'.blitSetup system') y x).vram →
        R (c.blitByte (c.blitSetup system) y (c.stateAt (c.blitSetup system) y x) x).vram
          (c'.blitByte (c'.blitSetup system') y (c'.stateAt (c'.blitSetup system') y x) x).vram) :
    R (c.executeBlit system).vram (c'.executeBlit system').vram := by
  have hrow (y : Nat) (hy : y < (c.blitSetup system).height)
      (h : R (c.rowStart (c.blitSetup system) y).vram
        (c'.rowStart (c'.blitSetup system') y).vram) :
      ∀ x ≤ (c.blitSetup system).width, R (c.stateAt (c.blitSetup system) y x).vram
        (c'.stateAt (c'.blitSetup system') y x).vram := by
    intro x
    induction x with
    | zero => exact fun _ => h
    | succ x ih =>
      intro hx
      rw [stateAt_succ, stateAt_succ]
      exact hbyte y hy x hx (ih (Nat.le_of_succ_le hx))
  have hrows : ∀ y ≤ (c.blitSetup system).height, R (c.rowStart (c.blitSetup system) y).vram
      (c'.rowStart (c'.blitSetup system') y).vram := by
    intro y
    induction y with
    | zero => exact fun _ => hstart
    | succ y ih =>
      intro hy
      rw [rowStart_succ_vram, rowStart_succ_vram, hwidth]
      exact hrow y hy (ih (Nat.le_of_succ_le hy)) _ (Nat.le_refl _)
  have hvram : (c'.executeBlit system').vram =
      (c'.rowStart (c'.blitSetup system') (c'.blitSetup system').height).vram := rfl
  rw [hvram, hheight]
  exact hrows _ (Nat.le_refl _)

section Twin

variable {r c : Cirrus542x} {stream : List Byte}

theorem mem_hits {p : BlitSetup} {at' : Nat} {q : Nat × Nat} :
    q ∈ p.hits at' ↔ (q.1 < p.height ∧ q.2 < p.width) ∧ p.dstAt q.1 q.2 = some at' := by
  unfold BlitSetup.hits
  rw [List.mem_filter, mem_places, decide_eq_true_iff]

/-- A pattern is read alike. -/
theorem FromVram.blitSource_tile (h : FromVram r c stream)
    (hpattern : (c.blitSetup none).pattern = true) {data : List Byte} {s s' : BlitState}
    (hsame : ∀ i, s.vram.get? i = s'.vram.get? i) (y x : Nat) :
    c.blitSource (c.blitSetup (some data)) s y x = r.blitSource (r.blitSetup none) s' y x := by
  have hpattern' : (r.blitSetup none).pattern = true := h.pattern.trans hpattern
  have hpatternData : (c.blitSetup (some data)).pattern = true := hpattern
  have hread : ∀ i, vramByte s.vram (some i) = vramByte s'.vram (some i) := by
    intro i
    show (s.vram.get? i).getD 0 = (s'.vram.get? i).getD 0
    rw [hsame]
  have hsrc : (r.blitSetup none).srcStart = (c.blitSetup (some data)).srcStart :=
    (h.tile hpattern).2
  have hpixel : (r.blitSetup none).pixelBytes = (c.blitSetup (some data)).pixelBytes :=
    h.pixelBytes
  have hcolor : (r.blitSetup none).colorExpand = (c.blitSetup (some data)).colorExpand :=
    h.colorExpand
  have htransparent : (r.blitSetup none).transparent = (c.blitSetup (some data)).transparent :=
    h.transparent
  have hext : (r.blitSetup none).modeext = (c.blitSetup (some data)).modeext := h.modeext
  unfold blitSource BlitSetup.expandBit BlitSetup.linearBlitSource BlitSetup.solidFill
  simp only [hpattern', hpatternData, if_true, hread, hsrc, hpixel, hcolor, htransparent, hext,
    h.colours]

/-- With a pattern, the two transfers are the same. -/
theorem FromVram.executeBlit_tile (h : FromVram r c stream)
    (hpattern : (c.blitSetup none).pattern = true) (data : List Byte) (at' : Nat) :
    (c.executeBlit (some data)).vram.get? at' = (r.executeBlit none).vram.get? at' := by
  have hheight : (r.blitSetup none).height = (c.blitSetup (some data)).height := h.height
  have hwidth : (r.blitSetup none).width = (c.blitSetup (some data)).width := h.width
  refine executeBlit_relation (R := fun v v' => ∀ i, v.get? i = v'.get? i) hheight hwidth ?_ ?_ at'
  · intro i
    rw [(h.tile hpattern).1]
  · intro y hy x hx hsame i
    have hdst : (r.blitSetup none).dstAt y x = (c.blitSetup (some data)).dstAt y x := h.dstAt y x
    rw [blitByte_get?, blitByte_get?, hsame, hdst, h.blitSource_tile hpattern hsame,
      h.painted]

/-- The addresses that are not written with a source of which bytes were dropped. -/
def WellFed (c : Cirrus542x) (length at' : Nat) : Prop :=
  ∀ q ∈ (c.blitSetup none).hits at', (c.blitSetup none).Kept length q.1 q.2

/-- In the middle of the transfers the source in VRAM is as it was, and the byte at an address the
same. -/
structure SideBySide (r c : Cirrus542x) (stream : List Byte) (at' : Nat) (v v' : ByteSlice) :
    Prop where
  source : ∀ y < c.blitHeight, ∀ x < (c.blitSetup none).width, ∀ i < c.blitPixelBytes,
    vramByte v' ((r.blitSetup none).vramPlace y ((r.blitSetup none).pixelColumn x i)) =
      streamByte stream ((c.blitSetup none).streamAt y ((c.blitSetup none).pixelColumn x i))
  same : v.get? at' = v'.get? at'

/-- **From the host or from VRAM**: what is written with a source that was kept is the same. -/
theorem FromVram.executeBlit_eq (h : FromVram r c stream) {data : List Byte}
    (hpattern : (c.blitSetup none).pattern = false)
    (hdata : ∀ i, i < systemBlitCapacity ∨ stream.length ≤ i →
      streamByte data i = streamByte stream i)
    {at' : Nat} (hin : at' < c.vram.size) (hfed : WellFed c stream.length at') :
    (c.executeBlit (some data)).vram.get? at' = (r.executeBlit none).vram.get? at' := by
  have hpattern' : (r.blitSetup none).pattern = false := h.pattern.trans hpattern
  have hheight : (r.blitSetup none).height = (c.blitSetup (some data)).height := h.height
  have hwidth : (r.blitSetup none).width = (c.blitSetup (some data)).width := h.width
  have hpos : 0 < (c.blitSetup none).pixelBytes := c.blitPixelBytes_bounds.1
  have hrpos := r.blitPixelBytes_bounds.1
  refine (executeBlit_relation (R := SideBySide r c stream at') hheight hwidth
    ⟨h.source hpattern, (h.memory at' hin).symm⟩ ?_).same
  intro y hy x hx hside
  constructor
  · intro y' hy' x' hx' i hi
    rw [← hside.source y' hy' x' hx' i hi]
    cases hplace : (r.blitSetup none).vramPlace y' ((r.blitSetup none).pixelColumn x' i) with
    | none => rfl
    | some src =>
      have hne : (r.blitSetup none).dstAt y x ≠ some src := fun hdst =>
        h.apart hpattern y hy x hx src hdst y' hy' x' hx' i hi hplace
      show (ByteSlice.get? _ src).getD 0 = (ByteSlice.get? _ src).getD 0
      rw [blitByte_get?, if_neg hne]
  · have hdst : (r.blitSetup none).dstAt y x = (c.blitSetup (some data)).dstAt y x := h.dstAt y x
    rw [blitByte_get?, blitByte_get?, hside.same, hdst]
    split
    case isFalse => rfl
    case isTrue hat =>
      have hkept := hfed (y, x) (mem_hits.mpr ⟨⟨hy, hx⟩, hat⟩) hpattern
      have hexpand : (r.blitSetup none).colorExpand = true → ExpandAt (r.blitSetup none)
          (r.stateAt (r.blitSetup none) y x) y x := by
        intro hcolor
        refine expandAt_stateAt ?_ hrpos y x
        unfold BlitSetup.expandsVram
        rw [hcolor, hpattern']
        rfl
      have hsource :
          c.blitSource (c.blitSetup (some data)) (c.stateAt (c.blitSetup (some data)) y x) y x =
            r.blitSource (r.blitSetup none) (r.stateAt (r.blitSetup none) y x) y x := by
        have hpatternData : (c.blitSetup (some data)).pattern = false := hpattern
        rw [blitSource_host rfl hpatternData, blitSource_vram rfl hpattern' hexpand, h.sourceFrom,
          sourceFrom_system]
        refine sourceFrom_congr hpos fun i hi hlooks => ?_
        have hplace := hside.source y hy x hx i hi
        rw [h.pixelColumn] at hplace
        exact (hdata _ (hkept i hi hlooks)).trans hplace.symm
      rw [hsource, h.painted]

end Twin

/-! ## The handshake and the result -/

theorem executeBlit_disarmed (c : Cirrus542x) (system : Option (List Byte)) :
    ({ c with systemBlit := none }.executeBlit system).vram = (c.executeBlit system).vram ∧
      ({ c with systemBlit := none }.executeBlit system).systemBlit = none := ⟨rfl, rfl⟩

/-- The start and status register reads busy while bytes are outstanding. -/
theorem blitStatusRead_busy (hunlocked : c.extensionsUnlocked = true) :
    c.blitStatusRead &&& BlitStatus.busyMask =
      if c.systemBlit.isSome then BlitStatus.busyMask else 0 := by
  have hindex : (BitVec.ofNat 8 Idx.grBlitStartStatus).toNat % 0x40 = Idx.grBlitStartStatus := by
    decide
  have hclear : ∀ value : Byte, value &&& ~~~BlitStatus.busyMask &&& BlitStatus.busyMask = 0 := by
    decide
  have hset : ∀ value : Byte, (value &&& ~~~BlitStatus.busyMask ||| BlitStatus.busyMask) &&&
    BlitStatus.busyMask = BlitStatus.busyMask := by decide
  have hlock : ¬(8 < Idx.grBlitStartStatus ∧
      { c with grIndex := BitVec.ofNat 8 Idx.grBlitStartStatus }.extensionsUnlocked = false) :=
    fun h => Bool.false_ne_true (h.2.symm.trans hunlocked)
  unfold blitStatusRead readGraphics
  dsimp only at hlock ⊢
  rw [hindex, if_neg hlock, if_pos rfl]
  split
  · exact hset _
  · exact hclear _

/-- A blit from the host waits, busy, for the bytes it expects, and then writes what the blit from
VRAM writes, but nothing with a byte that was dropped. -/
structure HostFed (c : Cirrus542x) (writes : List (Nat × Byte)) : Prop where
  waits : ∀ n < c.expected,
    (c.startBlit.feed (writes.take n)).vram = c.vram ∧
      (c.startBlit.feed (writes.take n)).blitStatusRead &&& BlitStatus.busyMask =
        BlitStatus.busyMask
  done : (c.startBlit.feed writes).blitStatusRead &&& BlitStatus.busyMask = 0
  after : ∀ offset value, ((c.startBlit.feed writes).vramWrite offset value).vram =
    (c.startBlit.feed writes).vram.set offset value
  stored : ∀ r, FromVram r c (writes.map Prod.snd) → ∀ at' < c.vram.size,
    WellFed c c.expected at' →
      (c.startBlit.feed writes).vram.get? at' = r.startBlit.vram.get? at'
  dropped : ∀ at', (c.blitSetup none).hits at' ≠ [] →
    (∀ q ∈ (c.blitSetup none).hits at', (c.blitSetup none).Dropped q.1 q.2) →
      (c.startBlit.feed writes).vram.get? at' = c.vram.get? at'

/-- A byte whose source bytes were all dropped is painted over with zeros all the same. -/
theorem feed_get?_of_dropped {c : Cirrus542x}
    (hsystem : reg c.gr Idx.grBlitMode &&& BlitMode.systemSource ≠ 0)
    {writes : List (Nat × Byte)} (hlength : writes.length = c.expected) {at' : Nat}
    (hhits : (c.blitSetup none).hits at' ≠ [])
    (hall : ∀ q ∈ (c.blitSetup none).hits at', (c.blitSetup none).Dropped q.1 q.2) :
    (c.startBlit.feed writes).vram.get? at' = (c.vram.get? at').map
      (((c.blitSetup none).hits at').foldl (c.paint (c.blitSetup none) (kept writes))) := by
  obtain ⟨q, hq⟩ := List.exists_mem_of_ne_nil _ hhits
  have hpattern : (c.blitSetup (some (kept writes))).pattern = false := (hall q hq).1
  rw [feed_of_eq hsystem hlength, (executeBlit_disarmed c _).1, executeBlit_host_get? hpattern]
  rfl

/-- A byte whose source bytes were dropped is given back by the raster operations of its places over
zero. -/
def Restored (c : Cirrus542x) (writes : List (Nat × Byte)) : Prop :=
  ∀ at' dest, c.vram.get? at' = some dest → (c.blitSetup none).hits at' ≠ [] →
    (∀ q ∈ (c.blitSetup none).hits at', (c.blitSetup none).Dropped q.1 q.2) →
      ((c.blitSetup none).hits at').foldl (c.paint (c.blitSetup none) (kept writes)) dest = dest

/-- **When a blit from the host is the one from VRAM**: exactly when the raster operation over zero
gives back the bytes of the dropped ones. -/
theorem host_fed_iff {c : Cirrus542x}
    (hsystem : reg c.gr Idx.grBlitMode &&& BlitMode.systemSource ≠ 0)
    (hunlocked : c.extensionsUnlocked = true) {writes : List (Nat × Byte)}
    (hlength : writes.length = c.expected) : HostFed c writes ↔ Restored c writes := by
  have hfed := feed_of_eq hsystem hlength
  obtain ⟨hvram, hidle⟩ := executeBlit_disarmed c (some (kept writes))
  rw [← hfed] at hvram hidle
  have hdropped := @feed_get?_of_dropped c hsystem writes hlength
  constructor
  · intro h at' dest hdest hhits hall
    have hsame := h.dropped at' hhits hall
    rw [hdropped hhits hall, hdest] at hsame
    exact Option.some.inj hsame
  · intro h
    refine ⟨?_, ?_, ?_, ?_, ?_⟩
    · intro n hn
      have htake : (writes.take n).length < c.expected := by
        rw [List.length_take]
        omega
      have hwaits := feed_of_lt hsystem htake
      have hstill : (c.startBlit.feed (writes.take n)).extensionsUnlocked = true := by
        rw [hwaits]
        exact hunlocked
      rw [blitStatusRead_busy hstill, hwaits]
      exact ⟨rfl, rfl⟩
    · have hstill : (c.startBlit.feed writes).extensionsUnlocked = true := by
        rw [hfed]
        exact hunlocked
      rw [blitStatusRead_busy hstill, hidle]
      rfl
    · intro offset value
      unfold vramWrite
      rw [hidle]
      rfl
    · intro r hr at' hin hwell
      have hstart : r.startBlit = r.executeBlit none := if_neg fun hne => hne hr.noSystem
      rw [hstart, hvram]
      cases hpattern : (c.blitSetup none).pattern with
      | true => exact hr.executeBlit_tile hpattern _ at'
      | false =>
        refine hr.executeBlit_eq hpattern (fun i hi => streamByte_take hi) hin ?_
        rw [List.length_map, hlength]
        exact hwell
    · intro at' hhits hall
      rw [hdropped hhits hall]
      cases hdest : c.vram.get? at' with
      | none => rfl
      | some dest => exact congrArg some (h at' dest hdest hhits hall)

/-! ## A transfer that is too long -/

/-- An unlocked board that copies from the host, `width` bytes a row, one row below the other. -/
def hostCirrus (vram : ByteSlice) (low high rows : Byte) : Cirrus542x :=
  { Cirrus542x.new .gd5428 vram with
    sr := (Vector.replicate 32 0).setIfInBounds Idx.srLock Idx.srLockUnlocked
    gr := ((((((Vector.replicate 64 0).setIfInBounds Idx.grBlitWidthLo low).setIfInBounds
      (Idx.grBlitWidthLo + 1) high).setIfInBounds Idx.grBlitHeightLo rows).setIfInBounds
      (Idx.grBlitDstPitchLo + 1) 8).setIfInBounds Idx.grBlitMode
      BlitMode.systemSource).setIfInBounds Idx.grBlitRop 0x0D }

/-- Five rows of 2048 bytes over VRAM that ends with the first byte of the fifth. -/
def longCirrus : Cirrus542x := hostCirrus ⟨8193, fun _ => 0xFF⟩ 0xFF 7 4

theorem mem_hits_longCirrus {q : Nat × Nat} :
    q ∈ (longCirrus.blitSetup none).hits 8192 ↔ q = (4, 0) := by
  have hheight : (longCirrus.blitSetup none).height = 5 := by decide
  have hwidth : (longCirrus.blitSetup none).width = 2048 := by decide
  have hback : (longCirrus.blitSetup none).backwards = false := by decide
  have hstart : (longCirrus.blitSetup none).dstStart = 0 := by decide
  have hpitch : (longCirrus.blitSetup none).dstPitch = 2048 := by decide
  have hdst : (longCirrus.blitSetup none).dstAt q.1 q.2 = some (0 + q.1 * 2048 + q.2) := by
    unfold BlitSetup.dstAt BlitSetup.along BlitSetup.lineStart
    rw [hback, hstart, hpitch]
    rfl
  rw [mem_hits, hheight, hwidth, hdst, Option.some.injEq, Prod.ext_iff]
  dsimp only
  omega

theorem foldl_eq_of_forall {α β : Type} {f : β → α → β} {l : List α} {v : β} (hne : l ≠ [])
    (h : ∀ a ∈ l, ∀ b, f b a = v) (b : β) : l.foldl f b = v := by
  obtain rfl | ⟨init, a, rfl⟩ := l.eq_nil_or_concat
  · exact absurd rfl hne
  rw [List.concat_eq_append] at h ⊢
  rw [List.foldl_append]
  exact h a (by simp) _

/-- What a place without a source byte makes of a byte, copied. -/
theorem paint_dropped {writes : List (Nat × Byte)} (hcolor : p.colorExpand = false)
    (htransparent : p.transparent = false) (hrop : reg c.gr Idx.grBlitRop = 0x0D) {q : Nat × Nat}
    (hq : p.Dropped q.1 q.2) (dest : Byte) : c.paint p (kept writes) dest q = 0 := by
  unfold paint painted sourceFrom
  simp only [hcolor, htransparent, Bool.false_and, Bool.false_eq_true, if_false, hrop]
  obtain ⟨-, hcapacity⟩ := hq
  rw [streamByte_kept_of_le hcapacity]
  rfl

/-- The first byte of the fifth row was dropped, and painted black. -/
theorem dropped_byte_is_painted :
    reg longCirrus.gr Idx.grBlitMode &&& BlitMode.systemSource ≠ 0 ∧
      longCirrus.extensionsUnlocked = true ∧ longCirrus.expected = 10240 ∧
      ¬HostFed longCirrus (List.replicate 10240 (0, 0xFF)) := by
  have hsystem : reg longCirrus.gr Idx.grBlitMode &&& BlitMode.systemSource ≠ 0 := by decide
  have hexpected : longCirrus.expected = 10240 := by decide
  refine ⟨hsystem, by decide, hexpected, fun h => ?_⟩
  have hhits : (longCirrus.blitSetup none).hits 8192 ≠ [] :=
    List.ne_nil_of_mem (mem_hits_longCirrus.mpr rfl)
  have hall : ∀ q ∈ (longCirrus.blitSetup none).hits 8192,
      (longCirrus.blitSetup none).Dropped q.1 q.2 := by
    intro q hq
    rw [mem_hits_longCirrus.mp hq]
    decide
  have hsame := h.dropped 8192 hhits hall
  have hwhite : longCirrus.vram.get? 8192 = some 0xFF := rfl
  have hblack (writes : List (Nat × Byte)) (dest : Byte) :
      ((longCirrus.blitSetup none).hits 8192).foldl
        (longCirrus.paint (longCirrus.blitSetup none) (kept writes)) dest = 0 :=
    foldl_eq_of_forall hhits (fun q hq =>
      paint_dropped (by decide) (by decide) (by decide) (hall q hq)) dest
  rw [feed_get?_of_dropped hsystem (by rw [List.length_replicate, hexpected]) hhits hall, hwhite,
    Option.map_some, hblack] at hsame
  exact absurd (Option.some.inj hsame) (by decide)

/-- A row of four bytes, and the board that has it in VRAM below the row. -/
def shortCirrus : Cirrus542x := hostCirrus (ByteSlice.zero 4) 3 0 0

def shortTwin : Cirrus542x :=
  { shortCirrus with
    vram := ⟨8, fun i => if i.val < 4 then 0 else 0x11⟩
    gr := (shortCirrus.gr.setIfInBounds Idx.grBlitMode 0).setIfInBounds Idx.grBlitSrcAddrLo 4 }

theorem shortTwin_fromVram : FromVram shortTwin shortCirrus (List.replicate 4 0x11) where
  registers i hmode _ haddr := by
    have hbase : Idx.grBlitSrcAddrLo = 0x2C := rfl
    have hsrc : i ≠ Idx.grBlitSrcAddrLo := by omega
    simp only [shortTwin, reg_setIfInBounds _ (by decide : Idx.grBlitMode < 64),
      reg_setIfInBounds _ (by decide : Idx.grBlitSrcAddrLo < 64), hmode, hsrc, if_false]
  mode := by decide
  width := by decide
  memory := by decide
  tile hpattern := absurd hpattern (by decide)
  source _ := by decide
  apart _ y hy x hx dst hdst y' hy' x' hx' i hi hplace := by
    have hbelow : ∀ y < shortCirrus.blitHeight, ∀ x < (shortCirrus.blitSetup none).width,
        ((shortTwin.blitSetup none).dstAt y x).any (· < 4) = true := by decide
    have habove : ∀ y < shortCirrus.blitHeight, ∀ x < (shortCirrus.blitSetup none).width,
        ∀ i < shortCirrus.blitPixelBytes, ((shortTwin.blitSetup none).vramPlace y
          ((shortTwin.blitSetup none).pixelColumn x i)).any (· < 4) = false := by decide
    have hlow := hbelow y hy x hx
    have hhigh := habove y' hy' x' hx' i hi
    rw [hdst] at hlow
    rw [hplace, hlow] at hhigh
    cases hhigh

/-- Four bytes at four offsets make the row that the other board copies. -/
theorem host_fed_iff_short_row :
    FromVram shortTwin shortCirrus (List.replicate 4 0x11) ∧
      shortTwin.startBlit.vram.get? 3 = some 0x11 ∧
      HostFed shortCirrus [(0, 0x11), (7, 0x11), (2, 0x11), (9, 0x11)] := by
  refine ⟨shortTwin_fromVram, by decide, ?_⟩
  refine (host_fed_iff (by decide) (by decide) (by decide)).mpr ?_
  intro at' dest _ hhits hall
  obtain ⟨q, hq⟩ := List.exists_mem_of_ne_nil _ hhits
  have hnone : ∀ y < (shortCirrus.blitSetup none).height,
      ∀ x < (shortCirrus.blitSetup none).width, ¬(shortCirrus.blitSetup none).Dropped y x := by
    decide
  obtain ⟨⟨hy, hx⟩, -⟩ := mem_hits.mp hq
  exact absurd (hall q hq) (hnone q.1 hy q.2 hx)

end Cirrus542x

end M68kMachine
