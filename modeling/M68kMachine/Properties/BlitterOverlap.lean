import M68kMachine.Library.CopyOrder
import M68kMachine.Properties.BlitterStream

/-!
# Overlapping copies

A plain copy reads and stores word after word. As a sequence of moves it copies what was there
before the blit when it goes away from its own destination: up to one at or below the source, down
to one above.

* `Copies` — the registers of a plain copy
* `Copying` — the invariant: memory is the initial one after the moves so far
* `overlapping_copy` — the blit
-/

namespace M68kMachine

namespace Blitter

open CopyOrder

def descends (b : Blitter) : Bool := b.bltcon1 &&& bltcon1Desc ≠ 0

/-- The registers of a copy from A to D, neither shifted nor masked nor filled. -/
structure Copies (b : Blitter) : Prop where
  area : b.bltcon1 &&& bltcon1Line = 0
  source : b.bltcon0 &&& bltcon0Usea ≠ 0
  dest : b.bltcon0 &&& bltcon0Used ≠ 0
  minterm : b.bltcon0.setWidth 8 = (0xF0 : Byte)
  unshifted : b.shiftA = 0
  first : b.bltafwm = 0xFFFF
  last : b.bltalwm = 0xFFFF
  unfilled : b.areaSetup.fill = false

/-- How far a word is from the first one of the blit, in the direction it goes. -/
def cellOffset (b : Blitter) (ch : Channel) (cell : Nat × Nat) : Int :=
  let up := cell.1 * b.rowBytes ch + 2 * cell.2
  if b.descends then -up else up

/-- Where a channel's pointer stands at a word of a row. -/
def wordPtr (b : Blitter) (ch : Channel) (cell : Nat × Nat) : Long :=
  b.pt ch + BitVec.ofInt 32 (b.cellOffset ch cell)

/-- The words of both pictures lie in chip RAM, without going round its ends. -/
def Unwrapped (b : Blitter) : Prop :=
  ∀ cell ∈ b.cells b.heightRows, ∀ ch ∈ [Channel.a, Channel.d],
    0 ≤ (b.pt ch).toNat + b.cellOffset ch cell ∧
      (b.pt ch).toNat + b.cellOffset ch cell < chipRamSize

variable {b : Blitter} {m : BlitRam} {s : AreaState} {f : Nat → Word}

/-! ## The words of a copy -/

theorem wordPtr_zero (b : Blitter) (ch : Channel) : b.wordPtr ch (0, 0) = b.pt ch := by
  simp [wordPtr, cellOffset]

theorem wordPtr_word (b : Blitter) (ch : Channel) (r w : Nat) :
    b.wordPtr ch (r, w) + b.areaSetup.step = b.wordPtr ch (r, w + 1) := by
  have hstep : b.areaSetup.step = BitVec.ofInt 32 (if b.descends then -2 else 2) := by
    show (if b.descends then -2 else 2 : Long) = _
    split <;> rfl
  rw [hstep]
  unfold wordPtr cellOffset
  rw [BitVec.add_assoc, ← BitVec.ofInt_add]
  congr 2
  split <;> push_cast <;> omega

theorem wordPtr_row (b : Blitter) (ch : Channel) (r : Nat) :
    b.wordPtr ch (r, b.widthWords) + signedStep b.descends (even (b.modulo ch)) =
      b.wordPtr ch (r + 1, 0) := by
  have hmod : signedStep b.descends (even (b.modulo ch)) = BitVec.ofInt 32
      (if b.descends then -(even (b.modulo ch)).toInt else (even (b.modulo ch)).toInt) := by
    unfold signedStep BitVec.signExtend
    split
    · rw [BitVec.ofInt_neg]
    · rfl
  rw [hmod]
  unfold wordPtr cellOffset
  rw [BitVec.add_assoc, ← BitVec.ofInt_add]
  congr 2
  unfold rowBytes
  push_cast
  rw [Int.add_mul, Int.one_mul]
  split <;> omega

/-- The words of chip RAM a word of the blit is moved between. -/
def move (b : Blitter) (cell : Nat × Nat) : Move Nat :=
  (chipAddr (b.wordPtr .a cell), chipAddr (b.wordPtr .d cell))

/-- Chip RAM holds these words. -/
def Views (m : BlitRam) (f : Nat → Word) : Prop := ∀ q, m.readWord q = f (chipAddr q)

theorem views_self (m : BlitRam) : Views m fun i => m.readWord (BitVec.ofNat 32 i) := by
  intro q
  have hq := chipAddr_eq q
  have hsame : chipAddr (BitVec.ofNat 32 (chipAddr q)) = chipAddr q := by
    rw [chipAddr_eq, BitVec.toNat_ofNat]
    omega
  have hlt := chipAddr_lt q
  have hlt' := chipAddr_lt (BitVec.ofNat 32 (chipAddr q))
  unfold BlitRam.readWord
  simp only [hsame]

theorem Views.writeWord (h : Views m f) (p : Long) (value : Word) :
    Views (m.writeWord p value) (Function.update f (chipAddr p) value) := by
  intro q
  rw [readWord_writeWord, Function.update_apply, h q]

/-- After the words `done`, with the next one at `next`. -/
structure Copying (b : Blitter) (f : Nat → Word) (s : AreaState) (done : List (Nat × Nat))
    (next : Nat × Nat) : Prop where
  apt : s.apt = b.wordPtr .a next
  dpt : s.dpt = b.wordPtr .d next
  mem : Views s.mem (copyAll f (done.map b.move))

theorem channelA_copy (h : b.Copies) (s : AreaState) (w : Nat) :
    (b.areaSetup.channelA s w).1 = s.mem.readWord s.apt ∧
      (b.areaSetup.channelA s w).2.mem = s.mem ∧
      (b.areaSetup.channelA s w).2.apt = s.apt + b.areaSetup.step ∧
      (b.areaSetup.channelA s w).2.dpt = s.dpt := by
  have huse : b.areaSetup.useA = true := decide_eq_true h.source
  have hshift : b.areaSetup.ash = 0 := h.unshifted
  have hfirst : b.areaSetup.afwm = BitVec.allOnes 16 := h.first
  have hlast : b.areaSetup.alwm = BitVec.allOnes 16 := h.last
  unfold AreaSetup.channelA shiftCombine
  simp only [huse, hshift, hfirst, hlast, BitVec.and_allOnes, ite_self, if_true, and_self]

/-- One word is moved, and both pointers go on to the next. -/
theorem copying_word {done : List (Nat × Nat)} {r w : Nat} (h : b.Copies)
    (hs : Copying b f s done (r, w)) :
    Copying b f (b.areaSetup.word s w) (done ++ [(r, w)]) (r, w + 1) := by
  have hlf : b.areaSetup.lf = 0xF0 := h.minterm
  have huse : b.areaSetup.useD = true := decide_eq_true h.dest
  have hB (t : AreaState) : (b.areaSetup.channelB t).2.mem = t.mem ∧
      (b.areaSetup.channelB t).2.apt = t.apt ∧ (b.areaSetup.channelB t).2.dpt = t.dpt := by
    unfold AreaSetup.channelB
    split <;> exact ⟨rfl, rfl, rfl⟩
  have hC (t : AreaState) : (b.areaSetup.channelC t).2.mem = t.mem ∧
      (b.areaSetup.channelC t).2.apt = t.apt ∧ (b.areaSetup.channelC t).2.dpt = t.dpt := by
    unfold AreaSetup.channelC
    split <;> exact ⟨rfl, rfl, rfl⟩
  obtain ⟨hvalue, hmem, hapt, hdpt⟩ := channelA_copy h s w
  obtain ⟨hBmem, hBapt, hBdpt⟩ := hB (b.areaSetup.channelA s w).2
  obtain ⟨hCmem, hCapt, hCdpt⟩ := hC (b.areaSetup.channelB (b.areaSetup.channelA s w).2).2
  have hword : b.areaSetup.word s w = b.areaSetup.channelD
      (b.areaSetup.channelC (b.areaSetup.channelB (b.areaSetup.channelA s w).2).2).2
      (b.areaSetup.channelA s w).1 := by
    unfold AreaSetup.word
    simp only
    rw [h.unfilled, hlf, minterm_a]
    rfl
  rw [hword]
  unfold AreaSetup.channelD
  simp only [huse, if_true]
  refine ⟨?_, ?_, ?_⟩
  · show (b.areaSetup.channelC _).2.apt = _
    rw [hCapt, hBapt, hapt, hs.apt, wordPtr_word]
  · show (b.areaSetup.channelC _).2.dpt + b.areaSetup.step = _
    rw [hCdpt, hBdpt, hdpt, hs.dpt, wordPtr_word]
  · show Views (BlitRam.writeWord (b.areaSetup.channelC _).2.mem
      (b.areaSetup.channelC _).2.dpt _) _
    rw [hCmem, hBmem, hmem, hCdpt, hBdpt, hdpt, hs.dpt, hvalue, hs.apt, hs.mem, List.map_append,
      List.map_singleton, copyAll_append]
    exact hs.mem.writeWord _ _

theorem copying_words {done : List (Nat × Nat)} {r : Nat} (h : b.Copies)
    (hs : Copying b f s done (r, 0)) (k : Nat) :
    Copying b f ((List.range k).foldl b.areaSetup.word s)
      (done ++ (List.range k).map fun w => (r, w)) (r, k) := by
  induction k with
  | zero => simpa using hs
  | succ k ih =>
    rw [List.range_succ, List.foldl_append, List.map_append, ← List.append_assoc]
    exact copying_word h ih

theorem copying_rows (h : b.Copies) (m : BlitRam) (n : Nat) :
    Copying b (fun i => m.readWord (BitVec.ofNat 32 i))
      (b.areaSetup.row^[n] (b.areaStart m)) (b.cells n) (n, 0) := by
  induction n with
  | zero =>
    refine ⟨?_, ?_, views_self m⟩
    · exact (wordPtr_zero b .a).symm
    · exact (wordPtr_zero b .d).symm
  | succ n ih =>
    rw [Function.iterate_succ_apply', cells_succ]
    generalize b.areaSetup.row^[n] (b.areaStart m) = t at ih ⊢
    have hstart : Copying b (fun i => m.readWord (BitVec.ofNat 32 i))
        { t with fillState := b.areaSetup.fci } (b.cells n) (n, 0) := ⟨ih.apt, ih.dpt, ih.mem⟩
    have hrow := copying_words h hstart b.widthWords
    have huseA : b.areaSetup.useA = true := decide_eq_true h.source
    have huseD : b.areaSetup.useD = true := decide_eq_true h.dest
    refine ⟨?_, ?_, hrow.mem⟩
    · unfold AreaSetup.row
      simp only [huseA, if_true]
      rw [← wordPtr_row, ← hrow.apt]
      rfl
    · unfold AreaSetup.row
      simp only [huseD, if_true]
      rw [← wordPtr_row, ← hrow.dpt]
      rfl

/-! ## The order of the words -/

/-- The words of a blit come row after row, and in a row one after the other. -/
theorem pairwise_cells (b : Blitter) (rows : Nat) : (b.cells rows).Pairwise fun c c' =>
    (c.1 < c'.1 ∨ c.1 = c'.1 ∧ c.2 < c'.2) ∧ c.2 < b.widthWords ∧ c'.1 < rows := by
  unfold cells
  refine List.pairwise_flatMap.mpr ⟨?_, ?_⟩
  · intro r hr
    refine List.pairwise_map.mpr ?_
    refine List.Pairwise.imp_of_mem ?_ List.pairwise_lt_range
    intro w w' hw _ hlt
    exact ⟨.inr ⟨rfl, hlt⟩, List.mem_range.mp hw, List.mem_range.mp hr⟩
  · refine List.Pairwise.imp_of_mem ?_ List.pairwise_lt_range
    intro r r' _ hr' hlt c hc c' hc'
    obtain ⟨w, hw, rfl⟩ := List.mem_map.mp hc
    obtain ⟨w', -, rfl⟩ := List.mem_map.mp hc'
    exact ⟨.inl hlt, List.mem_range.mp hw, List.mem_range.mp hr'⟩

/-- A row does not begin before the last word of the row above it. -/
theorem offset_mono {c c' : Nat × Nat} (hrows : b.heightRows ≤ 1 ∨ -2 ≤ (even (b.modulo .a)).toInt)
    (h : (c.1 < c'.1 ∨ c.1 = c'.1 ∧ c.2 < c'.2) ∧ c.2 < b.widthWords ∧ c'.1 < b.heightRows) :
    c.1 * b.rowBytes .a + 2 * c.2 ≤ c'.1 * b.rowBytes .a + 2 * c'.2 := by
  obtain ⟨hbefore, hw, hr⟩ := h
  rcases hbefore with hlt | ⟨heq, hlt⟩
  · rcases hrows with hone | hmod
    · omega
    · have hbytes : b.rowBytes .a = 2 * b.widthWords + (even (b.modulo .a)).toInt := rfl
      have hrow : ((c.1 : Int) + 1) * b.rowBytes .a ≤ c'.1 * b.rowBytes .a :=
        Int.mul_le_mul_of_nonneg_right (by omega) (by omega)
      rw [Int.add_mul, Int.one_mul] at hrow
      omega
  · rw [heq]
    omega

theorem dvd_cellOffset (b : Blitter) (ch : Channel) (cell : Nat × Nat) :
    2 ∣ b.cellOffset ch cell := by
  have heven : 2 ∣ (even (b.modulo ch)).toInt := by
    have hbit : (even (b.modulo ch)).getLsbD 0 = false := by simp [even]
    have hnat : (even (b.modulo ch)).toNat % 2 = 0 := by
      rw [BitVec.getLsbD, Nat.testBit_zero] at hbit
      have hne := of_decide_eq_false hbit
      omega
    rw [BitVec.toInt_eq_toNat_cond]
    split <;> omega
  have hup : 2 ∣ (cell.1 : Int) * b.rowBytes ch + 2 * cell.2 := by
    have hbytes : 2 ∣ b.rowBytes ch := Int.dvd_add ⟨_, rfl⟩ heven
    exact Int.dvd_add (Int.dvd_trans hbytes ⟨_, Int.mul_comm _ _⟩) ⟨_, rfl⟩
  unfold cellOffset
  split
  · exact Int.dvd_neg.mpr hup
  · exact hup

/-- A word's place in chip RAM, when the blit does not leave it. -/
theorem chipAddr_wordPtr {ch : Channel} {cell : Nat × Nat}
    (h : 0 ≤ (b.pt ch).toNat + b.cellOffset ch cell ∧
      (b.pt ch).toNat + b.cellOffset ch cell < chipRamSize) :
    (chipAddr (b.wordPtr ch cell) : Int) = (b.pt ch).toNat / 2 * 2 + b.cellOffset ch cell := by
  obtain ⟨k, hk⟩ := dvd_cellOffset b ch cell
  have hsize : chipRamSize = 0x200000 := rfl
  have hptr : ((b.wordPtr ch cell).toNat : Int) = (b.pt ch).toNat + b.cellOffset ch cell := by
    unfold wordPtr
    rw [BitVec.toNat_add, BitVec.toNat_ofInt]
    omega
  have haddr := chipAddr_eq (b.wordPtr ch cell)
  omega

/-- The order of a copy that goes away from its destination. -/
theorem safe_moves (hfits : b.Unwrapped) (hmod : even (b.modulo .a) = even (b.modulo .d))
    (hdir : if b.descends then (b.pt .a).toNat ≤ (b.pt .d).toNat
      else (b.pt .d).toNat ≤ (b.pt .a).toNat)
    (hrows : b.pt .d = b.pt .a ∨ b.heightRows ≤ 1 ∨ -2 ≤ (even (b.modulo .a)).toInt) :
    Safe ((b.cells b.heightRows).map b.move) := by
  have hoffset (cell : Nat × Nat) : b.cellOffset .d cell = b.cellOffset .a cell := by
    unfold cellOffset rowBytes
    rw [hmod]
  refine List.pairwise_map.mpr ((pairwise_cells b b.heightRows).imp_of_mem ?_)
  intro c c' hc hc' hbefore
  have ha := chipAddr_wordPtr (hfits c hc .a (by simp))
  have hd := chipAddr_wordPtr (hfits c hc .d (by simp))
  have ha' := chipAddr_wordPtr (hfits c' hc' .a (by simp))
  have hd' := chipAddr_wordPtr (hfits c' hc' .d (by simp))
  rw [hoffset] at hd hd'
  simp only [move]
  refine ⟨fun hread => ?_, fun hstore => by omega⟩
  -- a destination met again as a source is one that was its own source
  rcases hrows with hsame | hrows
  · rw [hsame] at hd
    omega
  · have hmono := offset_mono hrows hbefore
    have hup (cell : Nat × Nat) : b.cellOffset .a cell =
        if b.descends then -(cell.1 * b.rowBytes .a + 2 * cell.2)
        else cell.1 * b.rowBytes .a + 2 * cell.2 := rfl
    rw [hup] at ha hd
    rw [hup] at ha' hd'
    split at hdir <;> rename_i hdesc
    · simp only [hdesc, if_true] at ha hd ha' hd'
      omega
    · simp only [hdesc, Bool.false_eq_true, if_false] at ha hd ha' hd'
      omega

/-- **Overlapping copies.** -/
theorem overlapping_copy (b : Blitter) (m : BlitRam) (hpending : b.pending = true) (h : b.Copies)
    (hmod : even (b.modulo .a) = even (b.modulo .d)) (hfits : b.Unwrapped)
    (hdir : if b.descends then (b.pt .a).toNat ≤ (b.pt .d).toNat
      else (b.pt .d).toNat ≤ (b.pt .a).toNat)
    (hrows : b.pt .d = b.pt .a ∨ b.heightRows ≤ 1 ∨ -2 ≤ (even (b.modulo .a)).toInt) :
    ∀ cell ∈ b.cells b.heightRows,
      (b.executeLogged m).2.2.readWord (b.wordPtr .d cell) = m.readWord (b.wordPtr .a cell) := by
  intro cell hcell
  have hafter : (b.executeLogged m).2 =
      { b with pending := false, zero := true }.executeArea m := by
    unfold executeLogged
    rw [if_neg (by simp [hpending])]
    exact if_neg (not_not.mpr h.area)
  have hcopied := (copying_rows (b := { b with pending := false, zero := true })
    ⟨h.area, h.source, h.dest, h.minterm, h.unshifted, h.first, h.last, h.unfilled⟩
    m b.heightRows).mem
  have hview := hcopied (b.wordPtr .d cell)
  have hmoved := copyAll_apply (m := fun i => m.readWord (BitVec.ofNat 32 i))
    (safe_moves hfits hmod hdir hrows) (b.move cell) (List.mem_map_of_mem hcell)
  rw [hafter]
  exact (hview.trans hmoved).trans (views_self m (b.wordPtr .a cell)).symm

/-- A row of eight words, one word up, the last word first. -/
theorem overlapping_copy_scroll :
    let b : Blitter :=
      { Blitter.new with
        bltcon0 := 0x0FF0, bltcon1 := 0x0002, bltafwm := 0xFFFF, bltalwm := 0xFFFF
        pt := fun ch => if ch = .a then 0x100E else 0x1010
        widthWords := 8, heightRows := 1, pending := true }
    let m : BlitRam := ⟨fun i => BitVec.ofNat 8 i.val, none⟩
    ∀ cell ∈ b.cells 1,
      (b.executeLogged m).2.2.readWord (b.wordPtr .d cell) = m.readWord (b.wordPtr .a cell) := by
  intro b m
  have h : b.Copies := by constructor <;> decide
  have hfits : b.Unwrapped := by
    unfold Unwrapped
    decide
  exact overlapping_copy b m rfl h rfl hfits (by decide) (.inr (.inl (by decide)))

/-- Two rows that go up while their words go down: the second source is the first destination. -/
theorem overlapping_copy_upward :
    let b : Blitter :=
      { Blitter.new with
        bltcon0 := 0x09F0, bltafwm := 0xFFFF, bltalwm := 0xFFFF
        modulo := fun _ => -4
        pt := fun ch => if ch = .a then 0x1000 else 0x0FFE
        widthWords := 1, heightRows := 2, pending := true }
    let m : BlitRam := ⟨fun i => BitVec.ofNat 8 i.val, none⟩
    b.Copies ∧ b.Unwrapped ∧ b.descends = false ∧ (b.pt .d).toNat ≤ (b.pt .a).toNat ∧
      ¬ ∀ cell ∈ b.cells b.heightRows,
        (b.executeLogged m).2.2.readWord (b.wordPtr .d cell) =
          m.readWord (b.wordPtr .a cell) := by
  intro b m
  have hfits : b.Unwrapped := by
    unfold Unwrapped
    decide
  exact ⟨by constructor <;> decide, hfits, by decide, by decide, by decide⟩

end Blitter

end M68kMachine
