import M68kMachine.Library.BitStream
import M68kMachine.Properties.BlitterWords

/-!
# Area blits as streams

An ascending blit that copies A to D takes the masked words of its source for one stream of bits,
and stores it moved right by the A shift. `Streaming` holds after every word: what was stored is the
shifted stream of what was read.

* `cells` — the words of a blit in the order they are taken
* `Streaming` — the invariant, `streaming_word` its step
* `area_is_stream_shift` — the blit
-/

namespace M68kMachine

namespace Blitter

open BitStream

/-! ## The cells of a blit -/

/-- Bytes from one row to the next. -/
def rowBytes (b : Blitter) (ch : Channel) : Int :=
  2 * b.widthWords + (even (b.modulo ch)).toInt

/-- Where a channel's pointer stands at a word of a row. -/
def cellPtr (b : Blitter) (ch : Channel) (cell : Nat × Nat) : Long :=
  b.pt ch + BitVec.ofInt 32 (cell.1 * b.rowBytes ch + 2 * cell.2)

/-- The words of the first `rows` rows, in order. -/
def cells (b : Blitter) (rows : Nat) : List (Nat × Nat) :=
  (List.range rows).flatMap fun r => (List.range b.widthWords).map fun w => (r, w)

/-- A source word under the masks of its row's ends. -/
def maskedWord (b : Blitter) (m : BlitRam) (cell : Nat × Nat) : Word :=
  let raw := m.readWord (b.cellPtr .a cell)
  let first := if cell.2 = 0 then raw &&& b.bltafwm else raw
  if cell.2 + 1 = b.widthWords then first &&& b.bltalwm else first

def useD (b : Blitter) : Bool := b.bltcon0 &&& bltcon0Used ≠ 0

def shiftA (b : Blitter) : Nat := (b.bltcon0 >>> 12).toNat

/-- No destination word is a source word, or another destination word. -/
structure Apart (b : Blitter) : Prop where
  source : ∀ d ∈ b.cells b.heightRows, ∀ s ∈ b.cells b.heightRows,
    chipAddr (b.cellPtr .d d) ≠ chipAddr (b.cellPtr .a s)
  dest : (b.cells b.heightRows).Pairwise fun c c' =>
    chipAddr (b.cellPtr .d c) ≠ chipAddr (b.cellPtr .d c')

theorem cellPtr_zero (b : Blitter) (ch : Channel) : b.cellPtr ch (0, 0) = b.pt ch := by
  unfold cellPtr
  simp

theorem cellPtr_word (b : Blitter) (ch : Channel) (r w : Nat) :
    b.cellPtr ch (r, w) + 2 = b.cellPtr ch (r, w + 1) := by
  unfold cellPtr
  have htwo : (2 : Long) = BitVec.ofInt 32 2 := rfl
  rw [htwo, BitVec.add_assoc, ← BitVec.ofInt_add]
  congr 2
  push_cast
  omega

theorem cellPtr_row (b : Blitter) (ch : Channel) (r : Nat) :
    b.cellPtr ch (r, b.widthWords) + (even (b.modulo ch)).signExtend 32 =
      b.cellPtr ch (r + 1, 0) := by
  unfold cellPtr BitVec.signExtend
  rw [BitVec.add_assoc, ← BitVec.ofInt_add]
  congr 2
  unfold rowBytes
  push_cast
  rw [Int.add_mul, Int.one_mul]
  omega

theorem cells_succ (b : Blitter) (rows : Nat) :
    b.cells (rows + 1) = b.cells rows ++ (List.range b.widthWords).map fun w => (rows, w) := by
  unfold cells
  rw [List.range_succ, List.flatMap_append]
  simp

/-! ## The word of a plain copy -/

/-- What an ascending blit from A to D asks of the registers. -/
structure CopiesA (b : Blitter) : Prop where
  area : b.bltcon1 &&& bltcon1Line = 0
  ascending : b.bltcon1 &&& bltcon1Desc = 0
  source : b.bltcon0 &&& bltcon0Usea ≠ 0
  minterm : b.bltcon0.setWidth 8 = (0xF0 : Byte)

/-- The minterm that is A alone. -/
theorem minterm_a (a b c : Word) : minterm 0xF0 a b c = a := by
  refine BitVec.eq_of_getLsbD_eq fun i hi => ?_
  rw [getLsbD_minterm _ _ _ _ hi]
  cases a.getLsbD i <;> cases b.getLsbD i <;> cases c.getLsbD i <;> rfl

theorem shiftCombine_ascending (prev cur : Word) (n : Nat) :
    shiftCombine prev cur n false = carryShift n prev cur := by
  refine BitVec.eq_of_getLsbD_eq fun i hi => ?_
  rw [getLsbD_shift_ascending prev cur hi, getLsbD_carryShift prev cur hi, Nat.add_comm i n]

/-! ## Word after word -/

/-- The output words for a list of source words. -/
def outputs (b : Blitter) (m : BlitRam) (done : List (Nat × Nat)) : List Word :=
  shiftWords b.shiftA 0 (done.map (b.maskedWord m))

theorem outputs_append (b : Blitter) (m : BlitRam) (done : List (Nat × Nat)) (c : Nat × Nat) :
    b.outputs m (done ++ [c]) = b.outputs m done ++
      [carryShift b.shiftA ((done.map (b.maskedWord m)).getLastD 0) (b.maskedWord m c)] := by
  unfold outputs
  rw [List.map_append]
  exact shiftWords_append _ _ _ _

/-- After the words `done`, with the next one at `next`. -/
structure Streaming (b : Blitter) (m : BlitRam) (s : AreaState) (done : List (Nat × Nat))
    (next : Nat × Nat) : Prop where
  apt : s.apt = b.cellPtr .a next
  dpt : s.dpt = if b.useD then b.cellPtr .d next else b.pt .d
  aPrev : s.aPrev = (done.map (b.maskedWord m)).getLastD 0
  zero : s.zero = true ↔ ∀ v ∈ b.outputs m done, v = 0
  stored : b.useD = true → done.map (fun c => s.mem.readWord (b.cellPtr .d c)) = b.outputs m done
  kept : ∀ q, (b.useD = true → ∀ c ∈ done, chipAddr q ≠ chipAddr (b.cellPtr .d c)) →
    s.mem.readWord q = m.readWord q

variable {b : Blitter} {m : BlitRam} {s : AreaState} {done : List (Nat × Nat)}

/-- The word channel D is handed, with B and C fetched beside it. -/
theorem word_eq (h : b.CopiesA) (s : AreaState) (w : Nat) :
    ∃ t : AreaState, b.areaSetup.word s w =
        b.areaSetup.channelD t (b.areaSetup.channelA s w).1 ∧
      t.mem = s.mem ∧ t.apt = (b.areaSetup.channelA s w).2.apt ∧ t.dpt = s.dpt ∧
      t.aPrev = (b.areaSetup.channelA s w).2.aPrev ∧ t.zero = s.zero := by
  have hdesc : b.areaSetup.desc = false := decide_eq_false (not_not.mpr h.ascending)
  have hfill : b.areaSetup.fill = false := by
    unfold AreaSetup.fill
    rw [hdesc]
    rfl
  have hlf : b.areaSetup.lf = 0xF0 := h.minterm
  have hB (t : AreaState) : (b.areaSetup.channelB t).2.mem = t.mem ∧
      (b.areaSetup.channelB t).2.apt = t.apt ∧ (b.areaSetup.channelB t).2.dpt = t.dpt ∧
      (b.areaSetup.channelB t).2.aPrev = t.aPrev ∧ (b.areaSetup.channelB t).2.zero = t.zero := by
    unfold AreaSetup.channelB
    split <;> exact ⟨rfl, rfl, rfl, rfl, rfl⟩
  have hC (t : AreaState) : (b.areaSetup.channelC t).2.mem = t.mem ∧
      (b.areaSetup.channelC t).2.apt = t.apt ∧ (b.areaSetup.channelC t).2.dpt = t.dpt ∧
      (b.areaSetup.channelC t).2.aPrev = t.aPrev ∧ (b.areaSetup.channelC t).2.zero = t.zero := by
    unfold AreaSetup.channelC
    split <;> exact ⟨rfl, rfl, rfl, rfl, rfl⟩
  obtain ⟨hB1, hB2, hB3, hB4, hB5⟩ := hB (b.areaSetup.channelA s w).2
  obtain ⟨hC1, hC2, hC3, hC4, hC5⟩ := hC (b.areaSetup.channelB (b.areaSetup.channelA s w).2).2
  refine ⟨(b.areaSetup.channelC (b.areaSetup.channelB (b.areaSetup.channelA s w).2).2).2, ?_,
    hC1.trans hB1, hC2.trans hB2, hC3.trans hB3, hC4.trans hB4, hC5.trans hB5⟩
  unfold AreaSetup.word
  simp only
  rw [hfill, hlf, minterm_a]
  rfl

/-- What channel A makes of its word. -/
theorem channelA_eq (h : b.CopiesA) (hs : Streaming b m s done (r, w))
    (hclear : b.useD = true → ∀ c ∈ done,
      chipAddr (b.cellPtr .a (r, w)) ≠ chipAddr (b.cellPtr .d c)) :
    (b.areaSetup.channelA s w).1 =
        carryShift b.shiftA ((done.map (b.maskedWord m)).getLastD 0) (b.maskedWord m (r, w)) ∧
      (b.areaSetup.channelA s w).2.apt = b.cellPtr .a (r, w + 1) ∧
      (b.areaSetup.channelA s w).2.aPrev = b.maskedWord m (r, w) := by
  have hdesc : b.areaSetup.desc = false := decide_eq_false (not_not.mpr h.ascending)
  have huse : b.areaSetup.useA = true := decide_eq_true h.source
  have hstep : b.areaSetup.step = 2 := by
    show (if b.areaSetup.desc then -2 else 2 : Long) = 2
    rw [hdesc]
    rfl
  have hread : s.mem.readWord s.apt = m.readWord (b.cellPtr .a (r, w)) := by
    rw [hs.apt]
    exact hs.kept _ hclear
  unfold AreaSetup.channelA
  simp only
  rw [huse, hdesc, hstep, hs.aPrev, shiftCombine_ascending]
  simp only [if_true]
  rw [hread, hs.apt, cellPtr_word]
  exact ⟨rfl, rfl, rfl⟩

theorem masked_getLast (b : Blitter) (m : BlitRam) (done : List (Nat × Nat)) (c : Nat × Nat) :
    ((done ++ [c]).map (b.maskedWord m)).getLastD 0 = b.maskedWord m c := by
  simp

/-- One word more. Its own cell is kept apart from what was stored before it. -/
theorem streaming_word (h : b.CopiesA) (hs : Streaming b m s done (r, w))
    (hsource : b.useD = true → ∀ c ∈ done,
      chipAddr (b.cellPtr .a (r, w)) ≠ chipAddr (b.cellPtr .d c))
    (hdest : b.useD = true → ∀ c ∈ done,
      chipAddr (b.cellPtr .d c) ≠ chipAddr (b.cellPtr .d (r, w))) :
    Streaming b m (b.areaSetup.word s w) (done ++ [(r, w)]) (r, w + 1) := by
  obtain ⟨t, hword, hmem, hapt, hdpt, hprev, hzero⟩ := word_eq h s w
  obtain ⟨hvalue, happ, hmasked⟩ := channelA_eq h hs hsource
  have hstep : b.areaSetup.step = 2 := by
    show (if decide (b.bltcon1 &&& bltcon1Desc ≠ 0) then -2 else 2 : Long) = 2
    rw [decide_eq_false (not_not.mpr h.ascending)]
    rfl
  rw [hword, hvalue]
  unfold AreaSetup.channelD
  dsimp only
  have huse : b.areaSetup.useD = b.useD := rfl
  rw [huse, hstep, hmem, hdpt, hs.dpt]
  rw [happ] at hapt
  rw [hmasked] at hprev
  have hzeros (z : Bool) (hz : z = (t.zero && decide (carryShift b.shiftA
      ((done.map (b.maskedWord m)).getLastD 0) (b.maskedWord m (r, w)) = 0))) :
      z = true ↔ ∀ v ∈ b.outputs m (done ++ [(r, w)]), v = 0 := by
    rw [hz, outputs_append, hzero, Bool.and_eq_true, hs.zero, decide_eq_true_iff,
      List.forall_mem_append, List.forall_mem_singleton]
  by_cases hD : b.useD = true
  · -- the word is stored, over nothing that was stored or will be read
    simp only [hD, if_true]
    refine ⟨hapt, ?_, ?_, hzeros _ rfl, ?_, ?_⟩
    · simp only [hD, if_true]
      exact cellPtr_word b .d r w
    · rw [masked_getLast]
      exact hprev
    · intro _
      rw [List.map_append, outputs_append, ← hs.stored hD]
      congr 1
      · refine List.map_congr_left fun c hc => ?_
        rw [readWord_writeWord, if_neg (hdest hD c hc)]
      · simp only [List.map_cons, List.map_nil, readWord_writeWord, if_true]
    · intro q hq
      have hq := hq hD
      rw [readWord_writeWord, if_neg (hq (r, w) (by simp))]
      exact hs.kept q fun _ c hc => hq c (List.mem_append_left _ hc)
  · simp only [hD, Bool.false_eq_true, if_false]
    refine ⟨hapt, ?_, ?_, hzeros _ rfl, fun h => absurd h hD, fun q _ => ?_⟩
    · simp only [hD, Bool.false_eq_true, if_false]
    · rw [masked_getLast]
      exact hprev
    · exact hs.kept q fun h => absurd h hD

/-! ## Row after row -/

/-- A row of words, its own cells apart from one another and from what was stored before. -/
theorem streaming_words (h : b.CopiesA) (hs : Streaming b m s done (r, 0)) (k : Nat)
    (hsource : b.useD = true → ∀ w < k, ∀ c ∈ done ++ (List.range w).map fun w => (r, w),
      chipAddr (b.cellPtr .a (r, w)) ≠ chipAddr (b.cellPtr .d c))
    (hdest : b.useD = true → ∀ w < k, ∀ c ∈ done ++ (List.range w).map fun w => (r, w),
      chipAddr (b.cellPtr .d c) ≠ chipAddr (b.cellPtr .d (r, w))) :
    Streaming b m ((List.range k).foldl b.areaSetup.word s)
      (done ++ (List.range k).map fun w => (r, w)) (r, k) := by
  induction k with
  | zero => simpa using hs
  | succ k ih =>
    have hk := ih (fun hD w hw => hsource hD w (Nat.lt_succ_of_lt hw))
      (fun hD w hw => hdest hD w (Nat.lt_succ_of_lt hw))
    rw [List.range_succ, List.foldl_append, List.map_append, ← List.append_assoc]
    exact streaming_word h hk (fun hD => hsource hD k (Nat.lt_succ_self k))
      (fun hD => hdest hD k (Nat.lt_succ_self k))

theorem range_split {i n : Nat} (h : i < n) :
    ∃ rest, List.range n = List.range i ++ i :: rest := by
  refine ⟨(List.range n).drop (i + 1), ?_⟩
  have hlt : i < (List.range n).length := by simpa using h
  have hdrop := List.drop_eq_getElem_cons hlt
  rw [List.getElem_range] at hdrop
  rw [← hdrop]
  have htake : (List.range n).take i = List.range i := by
    rw [List.take_range, Nat.min_eq_left (Nat.le_of_lt h)]
  rw [← htake]
  exact (List.take_append_drop i _).symm

/-- A cell of the blit has the rows before it and the words before it in front. -/
theorem cells_split (b : Blitter) {n r w : Nat} (hr : r < n) (hw : w < b.widthWords) :
    ∃ rest, b.cells n =
      (b.cells r ++ (List.range w).map fun w => (r, w)) ++ (r, w) :: rest := by
  obtain ⟨rows, hrows⟩ := range_split hr
  obtain ⟨words, hwords⟩ := range_split hw
  unfold cells
  rw [hrows, hwords, List.flatMap_append, List.flatMap_cons, List.map_append, List.map_cons]
  simp only [List.append_assoc, List.cons_append]
  exact ⟨_, rfl⟩

/-- What the whole blit keeps apart, for the cells of one row. -/
theorem apart_row (h : b.Apart) {rows w : Nat} (hrows : rows < b.heightRows)
    (hw : w < b.widthWords) {c : Nat × Nat}
    (hc : c ∈ b.cells rows ++ (List.range w).map fun w => (rows, w)) :
    chipAddr (b.cellPtr .a (rows, w)) ≠ chipAddr (b.cellPtr .d c) ∧
      chipAddr (b.cellPtr .d c) ≠ chipAddr (b.cellPtr .d (rows, w)) := by
  obtain ⟨rest, heq⟩ := cells_split b hrows hw
  have hdest := h.dest
  have hsource := h.source
  rw [heq] at hdest hsource
  refine ⟨(hsource c (List.mem_append_left _ hc) (rows, w) (by simp)).symm, ?_⟩
  exact (List.pairwise_append.mp hdest).2.2 c hc (rows, w) (by simp)

/-- After whole rows. -/
theorem streaming_rows (h : b.CopiesA) (hapart : b.useD = true → b.Apart) (m : BlitRam) (n : Nat)
    (hn : n ≤ b.heightRows) :
    Streaming b m (b.areaSetup.row^[n] ({ b with zero := true }.areaStart m)) (b.cells n)
      (n, 0) := by
  induction n with
  | zero =>
    refine ⟨?_, ?_, rfl, ?_, fun _ => rfl, fun _ _ => rfl⟩
    · exact (cellPtr_zero b .a).symm
    · rw [cellPtr_zero, ite_self]
      rfl
    · simp [outputs, cells, shiftWords, areaStart]
  | succ n ih =>
    have hs := ih (Nat.le_of_succ_le hn)
    rw [Function.iterate_succ_apply', cells_succ]
    generalize b.areaSetup.row^[n] ({ b with zero := true }.areaStart m) = t at hs ⊢
    -- a row begins with the fill carry, which an ascending blit does not look at
    have hstart : Streaming b m { t with fillState := b.areaSetup.fci } (b.cells n) (n, 0) :=
      ⟨hs.apt, hs.dpt, hs.aPrev, hs.zero, hs.stored, hs.kept⟩
    have hrow := streaming_words h hstart b.widthWords
      (fun hD w hw c hc => (apart_row (hapart hD) hn hw hc).1)
      (fun hD w hw c hc => (apart_row (hapart hD) hn hw hc).2)
    have hmodulo (ch : Channel) : signedStep (decide (b.bltcon1 &&& bltcon1Desc ≠ 0))
        (even (b.modulo ch)) = (even (b.modulo ch)).signExtend 32 := by
      rw [decide_eq_false (not_not.mpr h.ascending)]
      rfl
    refine ⟨?_, ?_, hrow.aPrev, hrow.zero, hrow.stored, hrow.kept⟩
    · have huse : b.areaSetup.useA = true := decide_eq_true h.source
      have hmod : b.areaSetup.amod = (even (b.modulo .a)).signExtend 32 := hmodulo .a
      unfold AreaSetup.row
      simp only [huse, if_true]
      rw [hmod, ← cellPtr_row, ← hrow.apt]
      rfl
    · have huse : b.areaSetup.useD = b.useD := rfl
      have hmod : b.areaSetup.dmod = (even (b.modulo .d)).signExtend 32 := hmodulo .d
      have hdpt := hrow.dpt
      unfold AreaSetup.row
      simp only [huse, hmod]
      split <;> rename_i hD
      · rw [if_pos hD] at hdpt
        rw [← cellPtr_row, ← hdpt]
        rfl
      · rw [if_neg hD] at hdpt
        exact hdpt

/-- **An area copy is a shift of the stream.** -/
theorem area_is_stream_shift (b : Blitter) (m : BlitRam) (hpending : b.pending = true)
    (h : b.CopiesA) (hapart : b.useD = true → b.Apart) :
    let after := (b.executeLogged m).2
    let shifted := shiftRight b.shiftA (stream ((b.cells b.heightRows).map (b.maskedWord m)))
    (b.useD = true → stream ((b.cells b.heightRows).map
      fun cell => after.2.readWord (b.cellPtr .d cell)) = shifted) ∧
    after.1.pt .a = b.pt .a + BitVec.ofInt 32 (b.heightRows * b.rowBytes .a) ∧
    after.1.pt .d = (if b.useD then b.pt .d + BitVec.ofInt 32 (b.heightRows * b.rowBytes .d)
      else b.pt .d) ∧
    (after.1.zero = true ↔ ∀ bit ∈ shifted, bit = false) := by
  intro after shifted
  have hs := streaming_rows h hapart m b.heightRows (Nat.le_refl _)
  have hafter : after = { b with pending := false, zero := true }.executeArea m := by
    show (b.executeLogged m).2 = _
    unfold executeLogged
    rw [if_neg (by simp [hpending])]
    exact if_neg (not_not.mpr h.area)
  have hshift : b.shiftA ≤ 16 := by
    have hlt := (b.bltcon0 >>> 12).isLt
    have htop : (b.bltcon0 >>> 12).toNat = b.bltcon0.toNat / 2 ^ 12 := by
      rw [BitVec.toNat_ushiftRight, Nat.shiftRight_eq_div_pow]
    have := b.bltcon0.isLt
    unfold shiftA
    omega
  have hshifted : shifted = stream (b.outputs m (b.cells b.heightRows)) :=
    (stream_shiftWords_zero hshift _).symm
  have hend (ch : Channel) : b.cellPtr ch (b.heightRows, 0) =
      b.pt ch + BitVec.ofInt 32 (b.heightRows * b.rowBytes ch) := by
    unfold cellPtr
    simp
  rw [hafter]
  refine ⟨?_, ?_, ?_, ?_⟩
  · intro hD
    rw [hshifted, ← hs.stored hD]
    rfl
  · rw [← hend]
    exact hs.apt
  · rw [← hend]
    exact hs.dpt
  · rw [hshifted, stream_eq_zero]
    exact hs.zero

/-- Two rows of two words, masked and shifted by three, to a picture of rows of six bytes. -/
theorem area_is_stream_shift_rows :
    let b : Blitter :=
      { Blitter.new with
        bltcon0 := 0x39F0, bltafwm := 0xFF0F, bltalwm := 0x0FFF
        modulo := fun ch => if ch = .d then 2 else 5
        pt := fun ch => if ch = .d then 0x2000 else 0x1000
        widthWords := 2, heightRows := 2, pending := true }
    let m : BlitRam := ⟨fun i => BitVec.ofNat 8 i.val, none⟩
    let after := (b.executeLogged m).2
    let shifted := shiftRight 3 (stream ((b.cells 2).map (b.maskedWord m)))
    stream ((b.cells 2).map fun cell => after.2.readWord (b.cellPtr .d cell)) = shifted ∧
      after.1.pt .d = 0x200C := by
  intro b m after shifted
  have hapart : b.Apart := ⟨by decide, by decide⟩
  have h : b.CopiesA := ⟨by decide, by decide, by decide, by decide⟩
  have hshift : b.shiftA = 3 := by decide
  have huse : b.useD = true := by decide
  obtain ⟨hstored, _, hd, _⟩ := area_is_stream_shift b m rfl h fun _ => hapart
  rw [hshift] at hstored
  refine ⟨hstored huse, hd.trans ?_⟩
  decide

end Blitter

end M68kMachine
