import M68kMachine.Cards.Cirrus
import M68kMachine.Library.Checked

/-!
# A blit that stops where the source would panic

The functions of the blit engine with their arithmetic and indexing checked, each beside the
function of `Cirrus.lean` it follows. What saturates, wraps or goes through `get` does so here too;
the sums fit the `usize` of any target.

* `linearBlitSourceChecked`, `expandBitChecked`, `keyedChecked` — the source of a byte
* `sourceByteChecked`, `heldBackChecked` — what a byte is combined with, and whether it is
* `blitByteChecked`, `executeBlitChecked` — the transfer
* `executeBlitChecked_eq` — a blit never panics
-/

namespace M68kMachine

namespace Cirrus

/-- What a `usize` holds lies below this, on the smallest of the targets. -/
abbrev usizeLimit : Nat := 0x100000000

theorem usizeLimit_eq : usizeLimit = 4294967296 := rfl

/-- An index into a register file. -/
def regChecked {n : Nat} (file : Vector Byte n) (i : Nat) : Option Byte := file[i]?

/-- `next_multiple_of`, as the library computes it. -/
def nextMultipleOfChecked (n m : Nat) : Option Nat := do
  let r ← Checked.rem n m
  if r = 0 then some n
  else do
    let gap ← Checked.sub m r
    Checked.add usizeLimit n gap

/-- `div_ceil`. -/
def divCeilChecked (n m : Nat) : Option Nat := do
  let q ← Checked.div n m
  let r ← Checked.rem n m
  if 0 < r then Checked.add usizeLimit q 1 else some q

end Cirrus

open Cirrus

namespace Cirrus542x

/-! ## The registers -/

def blitWidthChecked (c : Cirrus542x) : Option Nat :=
  Checked.add usizeLimit ((reg c.gr (Idx.grBlitWidthLo + 1) &&& 0x07).toNat <<< 8 |||
    (reg c.gr Idx.grBlitWidthLo).toNat) 1

def blitHeightChecked (c : Cirrus542x) : Option Nat :=
  Checked.add usizeLimit ((reg c.gr (Idx.grBlitHeightLo + 1) &&& 0x03).toNat <<< 8 |||
    (reg c.gr Idx.grBlitHeightLo).toNat) 1

def systemSourcePitchChecked (c : Cirrus542x) (width : Nat) : Option Nat :=
  if reg c.gr Idx.grBlitMode &&& BlitMode.colorExpand = 0 then nextMultipleOfChecked width 4
  else do
    let pixels ← divCeilChecked width c.blitPixelBytes
    let granularity :=
      if reg c.gr Idx.grBlitModeExt &&& BlitModeext.dwordGranularity ≠ 0 then 32 else 8
    let bits ← nextMultipleOfChecked pixels granularity
    Checked.div bits 8

def blitSetupChecked (c : Cirrus542x) (system : Option (List Byte)) : Option BlitSetup := do
  let blitWidth ← c.blitWidthChecked
  let width := min blitWidth (max c.vram.size 1)
  let height ← c.blitHeightChecked
  let systemPitch ← c.systemSourcePitchChecked width
  some { c.blitSetup system with width, height, systemPitch }

def blitFgComponentChecked (c : Cirrus542x) (component : Nat) : Option Byte := do
  let index ← Idx.grFg[min component 3]?
  regChecked c.gr index

def blitBgComponentChecked (c : Cirrus542x) (component : Nat) : Option Byte := do
  let index ← Idx.grBg[min component 3]?
  regChecked c.gr index

/-! ## The source -/

def linearBlitSourceChecked (p : BlitSetup) (vram : ByteSlice) (pattern : Bool) (y x : Nat) :
    Option Byte :=
  if pattern then do
    let rowBytes ← Checked.mul usizeLimit 8 p.pixelBytes
    let row ← Checked.mul usizeLimit (y % 8) rowBytes
    let line ← Checked.add usizeLimit (p.srcStart / 4 * 4) row
    let column ← Checked.rem x (max rowBytes 1)
    let at' ← Checked.add usizeLimit line column
    some (vramByte vram (some at'))
  else
    match p.system with
    | some data => do
      let row ← Checked.mul usizeLimit y p.systemPitch
      let at' ← Checked.add usizeLimit row x
      some (data.getD at' 0)
    | none => some (vramByte vram (p.along (p.lineStart p.srcStart p.srcPitch y) x))

def expandBitChecked (p : BlitSetup) (s : BlitState) (y x : Nat) : Option Bool := do
  let pixel ← Checked.div x p.pixelBytes
  if p.pattern then do
    let shift ← Checked.sub 7 (pixel % 8)
    some ((vramByte s.vram (some (p.srcStart + y % 8))).getLsbD shift)
  else
    match p.system with
    | some data => do
      let row ← Checked.mul usizeLimit y p.systemPitch
      let at' ← Checked.add usizeLimit row (pixel / 8)
      let shift ← Checked.sub 7 (pixel % 8)
      some ((data.getD at' 0).getLsbD shift)
    | none => do
      let used ← Checked.div s.expandCount p.pixelBytes
      let shift ← Checked.sub 7 used
      some ((vramByte s.vram (some s.expandAddr.toNat)).getLsbD shift)

def stepExpandChecked (p : BlitSetup) (s : BlitState) : Option BlitState :=
  if p.expandsVram then do
    let count ← Checked.add usizeLimit s.expandCount 1
    let span ← Checked.mul usizeLimit 8 p.pixelBytes
    if count = span then
      some { s with expandCount := 0, expandAddr := p.nextExpandAddr s.expandAddr }
    else some { s with expandCount := count }
  else some s

def keyedChecked (c : Cirrus542x) (p : BlitSetup) (vram : ByteSlice) (y x : Nat) :
    Option Bool := do
  let component ← Checked.rem x p.pixelBytes
  let pixelBase ← Checked.sub x component
  (List.range p.pixelBytes).allM fun i => do
    let at' ← Checked.add usizeLimit pixelBase i
    let source ← linearBlitSourceChecked p vram false y at'
    let mask ← regChecked c.gr (Idx.grBlitTransparentMask + i)
    let compare ← regChecked c.gr (Idx.grBlitTransparentCompare + i)
    some (source &&& ~~~mask = compare &&& ~~~mask)

/-- The byte that is combined; `lit` is its bit when the blit expands colours. -/
def sourceByteChecked (c : Cirrus542x) (p : BlitSetup) (s : BlitState) (y x : Nat) (lit : Bool) :
    Option Byte := do
  let component ← Checked.rem x p.pixelBytes
  if p.solidFill then c.blitFgComponentChecked component
  else if p.colorExpand then
    if lit then c.blitFgComponentChecked component else c.blitBgComponentChecked component
  else linearBlitSourceChecked p s.vram p.pattern y x

/-- Whether the byte is held back. -/
def heldBackChecked (c : Cirrus542x) (p : BlitSetup) (s : BlitState) (y x : Nat) (lit : Bool) :
    Option Bool :=
  if !p.transparent then some false
  else if p.colorExpand then
    some (if p.modeext &&& BlitModeext.colorExpandInvert ≠ 0 then lit else !lit)
  else if p.pattern then some false
  else c.keyedChecked p s.vram y x

/-! ## The transfer -/

/-- The bit is taken from the source before anything else is looked at. -/
def blitBitChecked (p : BlitSetup) (s : BlitState) (y x : Nat) : Option Bool :=
  if p.colorExpand then expandBitChecked p s y x else some false

def blitByteChecked (c : Cirrus542x) (p : BlitSetup) (y : Nat) (s : BlitState) (x : Nat) :
    Option BlitState := do
  let lit ← blitBitChecked p s y x
  let next ← stepExpandChecked p s
  match p.along (p.lineStart p.dstStart p.dstPitch y) x with
  | none => some next
  | some dst =>
    if dst < s.vram.size then do
      let source ← c.sourceByteChecked p s y x lit
      let transparent ← c.heldBackChecked p s y x lit
      if transparent then some next
      else do
        let dest ← s.vram.get? dst
        some { next with vram := next.vram.set dst (applyRop (reg c.gr Idx.grBlitRop) source dest) }
    else some next

def blitRowChecked (c : Cirrus542x) (p : BlitSetup) (s : BlitState) (y : Nat) :
    Option BlitState := do
  let s ← (List.range p.width).foldlM (c.blitByteChecked p y) s
  if p.expandsVram ∧ s.expandCount ≠ 0 then
    some { s with expandCount := 0, expandAddr := p.nextExpandAddr s.expandAddr }
  else some s

/-- The bytes a counter moves in a whole blit. -/
def spanChecked (p : BlitSetup) (pitch : Nat) : Option Nat := do
  let rows ← Checked.mul usizeLimit (p.height - 1) pitch
  Checked.add usizeLimit rows p.width

/-- Only a plain copy moves its source counter by a span. -/
def srcSpanChecked (p : BlitSetup) : Option Nat :=
  if p.pattern || p.system.isSome || p.colorExpand then some 0 else spanChecked p p.srcPitch

def executeBlitChecked (c : Cirrus542x) (system : Option (List Byte)) : Option Cirrus542x := do
  let p ← c.blitSetupChecked system
  let s ← (List.range p.height).foldlM (c.blitRowChecked p)
    ⟨c.vram, BitVec.ofNat 64 p.srcStart, 0⟩
  let dstSpan ← spanChecked p p.dstPitch
  let srcSpan ← srcSpanChecked p
  let srcEnd :=
    if p.pattern || p.system.isSome then BitVec.ofNat 64 p.srcStart
    else if p.colorExpand then s.expandAddr
    else p.advance p.srcStart srcSpan
  some (({ c with vram := s.vram }.setBlitAddr Idx.grBlitDstAddrLo
    (p.advance p.dstStart dstSpan)).setBlitAddr Idx.grBlitSrcAddrLo srcEnd)

/-! ## The bounds of a setup -/

/-- What the register fields can hold. -/
structure BlitSetup.Small (p : BlitSetup) : Prop where
  width_le : p.width ≤ 2048
  height_le : p.height ≤ 1024
  dstPitch_lt : p.dstPitch < 8192
  srcPitch_lt : p.srcPitch < 8192
  srcStart_lt : p.srcStart < 2097152
  pixelBytes_pos : 0 < p.pixelBytes
  pixelBytes_le : p.pixelBytes ≤ 4
  systemPitch_le : p.systemPitch ≤ 4096

/-- A field of some high bits above a byte. -/
theorem field_lt (hi lo mask : Byte) {k : Nat} (hmask : mask.toNat < 2 ^ k) :
    (hi &&& mask).toNat <<< 8 ||| lo.toNat < 2 ^ (k + 8) := by
  refine Nat.or_lt_two_pow ?_ ?_
  · rw [Nat.shiftLeft_eq, Nat.pow_add]
    refine Nat.mul_lt_mul_of_pos_right ?_ (Nat.two_pow_pos 8)
    rw [BitVec.toNat_and]
    exact Nat.lt_of_le_of_lt Nat.and_le_right hmask
  · exact Nat.lt_of_lt_of_le lo.isLt (Nat.pow_le_pow_right Nat.two_pos (Nat.le_add_left 8 k))

variable (c : Cirrus542x) {n m : Nat}

theorem blitWidth_le : c.blitWidth ≤ 2048 :=
  field_lt _ _ _ (k := 3) (by decide)

theorem blitHeight_le : c.blitHeight ≤ 1024 :=
  field_lt _ _ _ (k := 2) (by decide)

theorem blitPitch_lt (low : Nat) : c.blitPitch low < 8192 :=
  field_lt _ _ _ (k := 5) (by decide)

theorem blitAddr_lt (low : Nat) : c.blitAddr low < 2097152 := by
  have hbyte (b : Byte) (k : Nat) (hk : k ≤ 13) : b.toNat <<< k < 2 ^ 21 := by
    rw [Nat.shiftLeft_eq]
    calc b.toNat * 2 ^ k < 2 ^ 8 * 2 ^ k := Nat.mul_lt_mul_of_pos_right b.isLt (Nat.two_pow_pos k)
      _ = 2 ^ (8 + k) := (Nat.pow_add 2 8 k).symm
      _ ≤ 2 ^ 21 := Nat.pow_le_pow_right Nat.two_pos (by omega)
  refine Nat.or_lt_two_pow (n := 21) (Nat.or_lt_two_pow (hbyte _ 0 (by omega))
    (hbyte _ 8 (by omega))) ?_
  rw [Nat.shiftLeft_eq]
  have hfive : (reg c.gr (low + 2) &&& 0x1F).toNat ≤ 31 := by
    rw [BitVec.toNat_and]
    exact Nat.and_le_right
  omega

theorem blitPixelBytes_bounds : 0 < c.blitPixelBytes ∧ c.blitPixelBytes ≤ 4 := by
  unfold blitPixelBytes
  dsimp only
  split
  · decide
  split
  · decide
  split <;> decide

theorem nextMultipleOf_le (n m : Nat) : nextMultipleOf n m ≤ n + (m - 1) :=
  Nat.div_mul_le_self _ _

theorem systemSourcePitch_le {width : Nat} (h : width ≤ 2048) :
    c.systemSourcePitch width ≤ 4096 := by
  unfold systemSourcePitch
  split
  · have := nextMultipleOf_le width 4
    omega
  · obtain ⟨hpos, hle⟩ := c.blitPixelBytes_bounds
    have hpixels : (width + (c.blitPixelBytes - 1)) / c.blitPixelBytes ≤ width + 3 :=
      Nat.le_trans (Nat.div_le_self _ _) (by omega)
    dsimp only
    split
    · have := nextMultipleOf_le ((width + (c.blitPixelBytes - 1)) / c.blitPixelBytes) 32
      omega
    · have := nextMultipleOf_le ((width + (c.blitPixelBytes - 1)) / c.blitPixelBytes) 8
      omega

theorem blitSetup_small (system : Option (List Byte)) :
    (c.blitSetup system).Small where
  width_le := Nat.le_trans (Nat.min_le_left _ _) c.blitWidth_le
  height_le := c.blitHeight_le
  dstPitch_lt := c.blitPitch_lt _
  srcPitch_lt := c.blitPitch_lt _
  srcStart_lt := c.blitAddr_lt _
  pixelBytes_pos := c.blitPixelBytes_bounds.1
  pixelBytes_le := c.blitPixelBytes_bounds.2
  systemPitch_le := c.systemSourcePitch_le (Nat.le_trans (Nat.min_le_left _ _) c.blitWidth_le)

/-! ## Nothing stops -/

/-- A number as a multiple of `m` and a rest. -/
theorem ceil_eq (hm : 0 < m) : (n + (m - 1)) / m = if 0 < n % m then n / m + 1 else n / m := by
  have hdiv := Nat.div_add_mod n m
  have hlt := Nat.mod_lt n hm
  have hsplit : n + (m - 1) = n % m + (m - 1) + m * (n / m) := by omega
  rw [hsplit, Nat.add_mul_div_left _ _ hm]
  split
  · have hone : (n % m + (m - 1)) / m = 1 := Nat.div_eq_of_lt_le (by omega) (by omega)
    omega
  · have hzero : (n % m + (m - 1)) / m = 0 := Nat.div_eq_of_lt (by omega)
    omega

theorem divCeilChecked_eq (hm : 0 < m) (h : n + 1 < usizeLimit) :
    divCeilChecked n m = some ((n + (m - 1)) / m) := by
  have hq : n / m ≤ n := Nat.div_le_self n m
  rw [divCeilChecked, Checked.div_of_pos hm, Checked.rem_of_pos hm, ceil_eq hm]
  show (if 0 < n % m then Checked.add usizeLimit (n / m) 1 else some (n / m)) = _
  split
  · exact Checked.add_of_lt (by omega)
  · rfl

theorem nextMultipleOfChecked_eq (hm : 0 < m) (h : n + m < usizeLimit) :
    nextMultipleOfChecked n m = some (nextMultipleOf n m) := by
  have hdiv := Nat.div_add_mod' n m
  have hlt := Nat.mod_lt n hm
  rw [nextMultipleOfChecked, Checked.rem_of_pos hm, nextMultipleOf, ceil_eq hm]
  show (if n % m = 0 then some n else
    (Checked.sub m (n % m)).bind fun gap => Checked.add usizeLimit n gap) = _
  split
  case isTrue h0 =>
    rw [if_neg (by omega)]
    congr 1
    omega
  case isFalse h0 =>
    rw [if_pos (by omega), Checked.sub_of_le (Nat.le_of_lt hlt), Option.bind_some,
      Checked.add_of_lt (by omega), Nat.succ_mul]
    congr 1
    omega

theorem systemSourcePitchChecked_eq {width : Nat} (h : width ≤ 2048) :
    c.systemSourcePitchChecked width = some (c.systemSourcePitch width) := by
  have hlimit := usizeLimit_eq
  obtain ⟨hpos, hle⟩ := c.blitPixelBytes_bounds
  unfold systemSourcePitchChecked systemSourcePitch
  split
  · exact nextMultipleOfChecked_eq (by decide) (by omega)
  · have hpixels : (width + (c.blitPixelBytes - 1)) / c.blitPixelBytes ≤ width + 3 :=
      Nat.le_trans (Nat.div_le_self _ _) (by omega)
    rw [divCeilChecked_eq hpos (by omega)]
    dsimp only [Option.bind_eq_bind, Option.bind_some]
    split
    · rw [nextMultipleOfChecked_eq (by decide) (by omega)]
      rfl
    · rw [nextMultipleOfChecked_eq (by decide) (by omega)]
      rfl

theorem blitSetupChecked_eq (system : Option (List Byte)) :
    c.blitSetupChecked system = some (c.blitSetup system) := by
  have hwidth : c.blitWidthChecked = some c.blitWidth :=
    Checked.add_of_lt (Nat.lt_of_le_of_lt c.blitWidth_le (by decide))
  have hheight : c.blitHeightChecked = some c.blitHeight :=
    Checked.add_of_lt (Nat.lt_of_le_of_lt c.blitHeight_le (by decide))
  have hpitch := c.systemSourcePitchChecked_eq
    (Nat.le_trans (Nat.min_le_left c.blitWidth (max c.vram.size 1)) c.blitWidth_le)
  rw [blitSetupChecked, hwidth, hheight]
  dsimp only [Option.bind_eq_bind, Option.bind_some]
  rw [hpitch]
  rfl

theorem blitFgComponentChecked_eq (component : Nat) :
    c.blitFgComponentChecked component = some (c.blitFgComponent component) := by
  have hmin : min component 3 < 4 := by omega
  unfold blitFgComponentChecked blitFgComponent regChecked reg
  generalize min component 3 = i at hmin
  match i, hmin with
  | 0, _ | 1, _ | 2, _ | 3, _ => rfl

theorem blitBgComponentChecked_eq (component : Nat) :
    c.blitBgComponentChecked component = some (c.blitBgComponent component) := by
  have hmin : min component 3 < 4 := by omega
  unfold blitBgComponentChecked blitBgComponent regChecked reg
  generalize min component 3 = i at hmin
  match i, hmin with
  | 0, _ | 1, _ | 2, _ | 3, _ => rfl

variable {p : BlitSetup} {y x : Nat} {s : BlitState}

theorem linearBlitSourceChecked_eq (hp : p.Small) (vram : ByteSlice) (pattern : Bool)
    (hy : y ≤ 1024) (hx : x ≤ 4096) :
    linearBlitSourceChecked p vram pattern y x = some (p.linearBlitSource vram pattern y x) := by
  have hlimit := usizeLimit_eq
  have hle := hp.pixelBytes_le
  have hstart := hp.srcStart_lt
  unfold linearBlitSourceChecked BlitSetup.linearBlitSource
  split
  · have hrow : y % 8 * (8 * p.pixelBytes) ≤ 7 * 32 :=
      Nat.mul_le_mul (by omega) (by omega)
    have hcolumn : x % max (8 * p.pixelBytes) 1 < max (8 * p.pixelBytes) 1 :=
      Nat.mod_lt _ (by omega)
    rw [Checked.mul_of_lt (by omega)]
    dsimp only [Option.bind_eq_bind, Option.bind_some]
    rw [Checked.mul_of_lt (by omega), Option.bind_some, Checked.add_of_lt (by omega),
      Option.bind_some, Checked.rem_of_pos (by omega), Option.bind_some,
      Checked.add_of_lt (by omega), Option.bind_some]
  · cases p.system with
    | none => rfl
    | some data =>
      have hrow : y * p.systemPitch ≤ 1024 * 4096 := Nat.mul_le_mul hy hp.systemPitch_le
      dsimp only [Option.bind_eq_bind]
      rw [Checked.mul_of_lt (by omega), Option.bind_some, Checked.add_of_lt (by omega),
        Option.bind_some]

theorem expandBitChecked_eq (hp : p.Small) (hs : s.expandCount < 8 * p.pixelBytes) (hy : y ≤ 1024)
    (hx : x ≤ 2048) : expandBitChecked p s y x = some (p.expandBit s y x) := by
  have hlimit := usizeLimit_eq
  have hpixel : x / p.pixelBytes ≤ x := Nat.div_le_self _ _
  have hbit : x / p.pixelBytes % 8 < 8 := Nat.mod_lt _ (by omega)
  have hused : s.expandCount / p.pixelBytes < 8 := Nat.div_lt_of_lt_mul (by rwa [Nat.mul_comm])
  unfold expandBitChecked BlitSetup.expandBit
  rw [Checked.div_of_pos hp.pixelBytes_pos]
  dsimp only [Option.bind_eq_bind, Option.bind_some]
  split
  · rw [Checked.sub_of_le (by omega), Option.bind_some]
  · cases p.system with
    | none =>
      dsimp only
      rw [Checked.div_of_pos hp.pixelBytes_pos, Option.bind_some, Checked.sub_of_le (by omega),
        Option.bind_some]
    | some data =>
      have hrow : y * p.systemPitch ≤ 1024 * 4096 := Nat.mul_le_mul hy hp.systemPitch_le
      dsimp only
      rw [Checked.mul_of_lt (by omega), Option.bind_some, Checked.add_of_lt (by omega),
        Option.bind_some, Checked.sub_of_le (by omega), Option.bind_some]

/-- The bits used of a source byte stay below its width. -/
theorem stepExpandChecked_eq (hp : p.Small) (hs : s.expandCount < 8 * p.pixelBytes) :
    stepExpandChecked p s = some (p.stepExpand s) ∧
      (p.stepExpand s).expandCount < 8 * p.pixelBytes := by
  have hlimit := usizeLimit_eq
  have hpos := hp.pixelBytes_pos
  have hle := hp.pixelBytes_le
  unfold stepExpandChecked BlitSetup.stepExpand
  split
  · rw [Checked.add_of_lt (by omega)]
    dsimp only [Option.bind_eq_bind, Option.bind_some]
    rw [Checked.mul_of_lt (by omega), Option.bind_some]
    split
    · exact ⟨rfl, by dsimp only; omega⟩
    · exact ⟨rfl, by dsimp only; omega⟩
  · exact ⟨rfl, hs⟩

theorem keyedChecked_eq (hp : p.Small) (vram : ByteSlice) (hy : y ≤ 1024) (hx : x ≤ 2048) :
    c.keyedChecked p vram y x = some (c.keyed p vram y x) := by
  have hlimit := usizeLimit_eq
  have hle := hp.pixelBytes_le
  have hmod : x % p.pixelBytes ≤ x := Nat.mod_le _ _
  unfold keyedChecked keyed
  rw [Checked.rem_of_pos hp.pixelBytes_pos]
  dsimp only [Option.bind_eq_bind, Option.bind_some]
  rw [Checked.sub_of_le hmod, Option.bind_some]
  refine Checked.allM_of_total fun i hi => ?_
  have hi : i < p.pixelBytes := List.mem_range.mp hi
  -- the four compare and the four mask registers are in the file
  have hreg (base : Nat) (hbase : base + 4 ≤ 64) :
      regChecked c.gr (base + i) = some (reg c.gr (base + i)) := by
    unfold regChecked reg
    rw [Vector.getElem?_eq_getElem (by omega), Option.getD_some]
  rw [Checked.add_of_lt (by omega), Option.bind_some,
    linearBlitSourceChecked_eq hp vram false hy (by omega), Option.bind_some,
    hreg _ (by decide), Option.bind_some, hreg _ (by decide), Option.bind_some]

/-- A blit without colour expansion does not look at its bit. -/
theorem sourceByteChecked_eq (hp : p.Small) (s : BlitState) (hy : y ≤ 1024) (hx : x ≤ 2048)
    {lit : Bool} (hlit : p.colorExpand = true → lit = p.expandBit s y x) :
    c.sourceByteChecked p s y x lit = some (c.blitSource p s y x).1 := by
  unfold sourceByteChecked blitSource
  rw [Checked.rem_of_pos hp.pixelBytes_pos]
  dsimp only [Option.bind_eq_bind, Option.bind_some]
  split
  · exact c.blitFgComponentChecked_eq _
  split
  case isTrue hexpand =>
    rw [hlit hexpand]
    split
    · exact c.blitFgComponentChecked_eq _
    · exact c.blitBgComponentChecked_eq _
  case isFalse => exact linearBlitSourceChecked_eq hp s.vram p.pattern hy (by omega)

theorem heldBackChecked_eq (hp : p.Small) (s : BlitState) (hy : y ≤ 1024) (hx : x ≤ 2048)
    {lit : Bool} (hlit : p.colorExpand = true → lit = p.expandBit s y x) :
    c.heldBackChecked p s y x lit = some (c.blitSource p s y x).2 := by
  unfold heldBackChecked blitSource
  dsimp only
  split
  · rfl
  split
  case isTrue hexpand => rw [hlit hexpand]
  case isFalse =>
    split
    · rfl
    · exact c.keyedChecked_eq hp s.vram hy hx

/-! ## The transfer does not stop -/

theorem get?_eq_none {b : ByteSlice} {i : Nat} (h : ¬i < b.size) : b.get? i = none :=
  Buffer.get?_eq_none (Nat.le_of_not_lt h)

theorem blitByteChecked_eq (hp : p.Small) (hs : s.expandCount < 8 * p.pixelBytes) (hy : y ≤ 1024)
    (hx : x ≤ 2048) :
    c.blitByteChecked p y s x = some (c.blitByte p y s x) ∧
      (c.blitByte p y s x).expandCount < 8 * p.pixelBytes := by
  obtain ⟨hstep, hcount⟩ := stepExpandChecked_eq hp hs
  obtain ⟨lit, hbit, hlit⟩ : ∃ lit, blitBitChecked p s y x = some lit ∧
      (p.colorExpand = true → lit = p.expandBit s y x) := by
    unfold blitBitChecked
    split
    · exact ⟨_, expandBitChecked_eq hp hs hy hx, fun _ => rfl⟩
    case isFalse hexpand => exact ⟨false, rfl, fun h => absurd h hexpand⟩
  have hsource := c.sourceByteChecked_eq hp s hy hx hlit
  have hheld := c.heldBackChecked_eq hp s hy hx hlit
  unfold blitByteChecked blitByte
  rw [hbit, hstep]
  dsimp only [Option.bind_eq_bind, Option.bind_some]
  cases p.along (p.lineStart p.dstStart p.dstPitch y) x with
  | none => exact ⟨rfl, hcount⟩
  | some dst =>
    dsimp only
    split
    case isFalse hout =>
      rw [get?_eq_none hout]
      exact ⟨rfl, hcount⟩
    case isTrue hin =>
      rw [hsource, hheld, show s.vram.get? dst = _ from Buffer.get?_eq_some hin, Option.bind_some,
        Option.bind_some]
      dsimp only
      split
      · exact ⟨rfl, hcount⟩
      · exact ⟨rfl, hcount⟩

theorem blitRowChecked_eq (hp : p.Small) (hs : s.expandCount < 8 * p.pixelBytes) (hy : y ≤ 1024) :
    c.blitRowChecked p s y = some (c.blitRow p s y) ∧
      (c.blitRow p s y).expandCount < 8 * p.pixelBytes := by
  have hwidth := hp.width_le
  have hpos := hp.pixelBytes_pos
  obtain ⟨hfold, hcount⟩ := Checked.foldlM_of_total (List.range p.width)
    (P := fun t : BlitState => t.expandCount < 8 * p.pixelBytes)
    (fun x hx t ht => c.blitByteChecked_eq hp ht hy
      (Nat.le_of_lt (Nat.lt_of_lt_of_le (List.mem_range.mp hx) hwidth))) hs
  unfold blitRowChecked blitRow
  rw [hfold]
  dsimp only [Option.bind_eq_bind, Option.bind_some]
  split
  · refine ⟨rfl, ?_⟩
    show 0 < 8 * p.pixelBytes
    omega
  · exact ⟨rfl, hcount⟩

theorem spanChecked_eq (hp : p.Small) {pitch : Nat} (h : pitch < 8192) :
    spanChecked p pitch = some ((p.height - 1) * pitch + p.width) := by
  have hlimit := usizeLimit_eq
  have hwidth := hp.width_le
  have hrows : (p.height - 1) * pitch ≤ 1024 * 8192 :=
    Nat.mul_le_mul (Nat.le_trans (Nat.sub_le _ _) hp.height_le) (Nat.le_of_lt h)
  unfold spanChecked
  rw [Checked.mul_of_lt (by omega)]
  exact Checked.add_of_lt (by omega)

/-- **A blit never panics**, whatever the registers and VRAM. -/
theorem executeBlitChecked_eq (system : Option (List Byte)) :
    c.executeBlitChecked system = some (c.executeBlit system) := by
  have hp := c.blitSetup_small system
  have hpos := hp.pixelBytes_pos
  have hstart : (0 : Nat) < 8 * (c.blitSetup system).pixelBytes := by omega
  obtain ⟨hfold, -⟩ := Checked.foldlM_of_total (List.range (c.blitSetup system).height)
    (P := fun t : BlitState => t.expandCount < 8 * (c.blitSetup system).pixelBytes)
    (fun y hy t ht => c.blitRowChecked_eq hp ht
      (Nat.le_of_lt (Nat.lt_of_lt_of_le (List.mem_range.mp hy) hp.height_le)))
    (s := ⟨c.vram, BitVec.ofNat 64 (c.blitSetup system).srcStart, 0⟩) hstart
  unfold executeBlitChecked executeBlit
  rw [c.blitSetupChecked_eq system]
  dsimp only [Option.bind_eq_bind, Option.bind_some]
  rw [hfold, Option.bind_some, spanChecked_eq hp hp.dstPitch_lt, Option.bind_some]
  unfold srcSpanChecked
  cases hplain : (c.blitSetup system).pattern || (c.blitSetup system).system.isSome with
  | true => rfl
  | false =>
    cases hexpand : (c.blitSetup system).colorExpand with
    | true => rfl
    | false =>
      rw [spanChecked_eq hp hp.srcPitch_lt]
      rfl

end Cirrus542x

end M68kMachine
