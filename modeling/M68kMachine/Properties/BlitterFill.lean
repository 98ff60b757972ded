import M68kMachine.Library.PrefixParity
import M68kMachine.Properties.BlitterWords

/-!
# Filled rows

A descending blit takes the words of a row from the right, and the fill each word from its lowest
bit up: the bits of a row are met from its right edge to its left. The fill combines each with the
parity of those before it.

* `stateAt`, `Sequenced` — the blit before each of its words
* `drawn`, `filled` — the words of a row in front of the fill and behind it
* `fill_word`, `fill_words` — the fill of a word and of a row
* `fill_is_prefix_parity` — the blit
-/

namespace M68kMachine

namespace Blitter

open PrefixParity

/-- What the fill makes of a bit and the carry; the inclusive fill is looked at first. -/
def AreaSetup.combine (p : AreaSetup) (bit carry : Bool) : Bool :=
  if p.ife then bit || carry else xor bit carry

/-- The word a step of the blit hands to the fill. -/
def AreaSetup.mintermWord (p : AreaSetup) (s : AreaState) (wordIdx : Nat) : Word :=
  let (a, s) := p.channelA s wordIdx
  let (b, s) := p.channelB s
  minterm p.lf a b (p.channelC s).1

/-- The registers a blit is run with. -/
def started (b : Blitter) : Blitter := { b with pending := false, zero := true }

/-- A blit before its word `w` of row `r`. -/
def stateAt (b : Blitter) (m : BlitRam) (r w : Nat) : AreaState :=
  (List.range w).foldl b.areaSetup.word
    { b.areaSetup.row^[r] (b.started.areaStart m) with fillState := b.areaSetup.fci }

/-- What the end of a row does: the modulos of the channels in use are added. -/
def AreaSetup.rowEnd (p : AreaSetup) (s : AreaState) : AreaState :=
  { s with
    apt := if p.useA then s.apt + p.amod else s.apt
    bpt := if p.useB then s.bpt + p.bmod else s.bpt
    cpt := if p.useC then s.cpt + p.cmod else s.cpt
    dpt := if p.useD then s.dpt + p.dmod else s.dpt }

/-- **The blit goes through `stateAt`**, where a new row sets nothing but the fill carry anew. -/
structure Sequenced (b : Blitter) (m : BlitRam) : Prop where
  start : b.stateAt m 0 0 =
    { b.started.areaStart m with fillState := decide (b.bltcon1 &&& bltcon1Fci ≠ 0) }
  word : ∀ r w, b.stateAt m r (w + 1) = b.areaSetup.word (b.stateAt m r w) w
  row : ∀ r, b.stateAt m (r + 1) 0 =
    { b.areaSetup.rowEnd (b.stateAt m r b.widthWords) with
      fillState := decide (b.bltcon1 &&& bltcon1Fci ≠ 0) }
  final : (b.executeLogged m).2.2 = (b.stateAt m b.heightRows 0).mem

/-- The words of a row in front of the fill, from the right. -/
def drawn (b : Blitter) (m : BlitRam) (r : Nat) : List Word :=
  (List.range b.widthWords).map fun w => b.areaSetup.mintermWord (b.stateAt m r w) w

/-- The words of a row behind the fill, from the right. -/
def filled (b : Blitter) (m : BlitRam) (r : Nat) : List Word :=
  (List.range b.widthWords).map fun w => (b.stateAt m r (w + 1)).lastD

/-! ## A word -/

theorem lowBits_eq_map {w : Nat} (v : BitVec w) :
    lowBits v = (List.range w).map fun i => v.getLsbD i := by
  refine List.ext_getElem (by simp) fun i h _ => ?_
  simp only [lowBits, List.getElem_ofFn, List.getElem_map, List.getElem_range]

theorem getLsbD_mask {i j : Nat} (hj : j < 16) :
    ((1 : Word) <<< i).getLsbD j = decide (j = i) := by
  by_cases hlt : j < i
  · simp [hj, hlt, Nat.ne_of_lt hlt]
  · simp only [BitVec.getLsbD_shiftLeft, hj, hlt, decide_true, decide_false, Bool.not_false,
      Bool.true_and]
    rw [show (1 : Word) = 1#16 from rfl, BitVec.getLsbD_one]
    simp only [Nat.zero_lt_succ, decide_true, Bool.true_and, decide_eq_decide]
    omega

theorem and_mask_ne_zero (d : Word) {i : Nat} (hi : i < 16) :
    d &&& ((1 : Word) <<< i) ≠ 0 ↔ d.getLsbD i = true := by
  constructor
  · intro h
    by_contra hbit
    refine h (BitVec.eq_of_getLsbD_eq fun j hj => ?_)
    rw [BitVec.getLsbD_and, getLsbD_mask hj]
    by_cases hji : j = i
    · rw [hji, Bool.eq_false_iff.mpr hbit, Bool.false_and]
      exact BitVec.getLsbD_zero.symm
    · simp [hji]
  · intro hbit hzero
    have hat := congrArg (fun v : Word => v.getLsbD i) hzero
    simp only [BitVec.getLsbD_and, getLsbD_mask hi, hbit] at hat
    simp at hat

/-- The fill of the first `k` bits of a word. -/
structure FilledTo (p : AreaSetup) (d : Word) (carry : Bool) (k : Nat) (s : Word × Bool) :
    Prop where
  below : ∀ j < k, s.1.getLsbD j =
    p.combine (d.getLsbD j) (xor carry (parity ((lowBits d).take j)))
  above : ∀ j, k ≤ j → s.1.getLsbD j = d.getLsbD j
  carry : s.2 = xor carry (parity ((lowBits d).take k))

variable {p : AreaSetup}

theorem filledTo_bit (hfill : p.fill = true) {d : Word} {carry : Bool} {k : Nat} (hk : k < 16)
    {s : Word × Bool} (h : FilledTo p d carry k s) :
    FilledTo p d carry (k + 1) (fillBit d p.ife p.efe s k) := by
  have hmode : p.ife = false → p.efe = true := by
    intro hife
    rw [AreaSetup.fill, hife, Bool.false_or, Bool.and_eq_true] at hfill
    exact hfill.2
  have hout (j : Nat) (hj : j < 16) : (fillBit d p.ife p.efe s k).1.getLsbD j =
      if j = k then p.combine (s.1.getLsbD j) s.2 else s.1.getLsbD j := by
    unfold fillBit AreaSetup.combine
    cases hs : s.2 with
    | false => simp
    | true =>
      cases hife : p.ife with
      | true =>
        simp only [if_true, BitVec.getLsbD_or, getLsbD_mask hj]
        by_cases hjk : j = k <;> simp [hjk]
      | false =>
        simp only [hmode hife, if_true, Bool.false_eq_true, if_false, BitVec.getLsbD_xor,
          getLsbD_mask hj]
        by_cases hjk : j = k <;> simp [hjk]
  have htake : (lowBits d).take (k + 1) = (lowBits d).take k ++ [d.getLsbD k] := by
    rw [lowBits_eq_map, List.take_add_one, List.getElem?_map, List.getElem?_range hk]
    rfl
  refine ⟨?_, ?_, ?_⟩
  · intro j hj
    rw [hout j (by omega)]
    split
    · rename_i hjk
      rw [hjk, h.above k (Nat.le_refl k), h.carry]
    · exact h.below j (by omega)
  · intro j hj
    by_cases h16 : j < 16
    · rw [hout j h16, if_neg (by omega)]
      exact h.above j (by omega)
    · rw [BitVec.getLsbD_of_ge _ _ (by omega), BitVec.getLsbD_of_ge _ _ (by omega)]
  · rw [htake, parity_append, parity_cons, parity_nil, Bool.xor_false, ← Bool.xor_assoc,
      ← h.carry]
    unfold fillBit
    simp only [and_mask_ne_zero d hk]
    cases d.getLsbD k <;> simp

/-- **The fill of a word.** -/
theorem fill_word (hfill : p.fill = true) (d : Word) (carry : Bool) :
    lowBits (applyFill d carry p.ife p.efe).1 = fill p.combine carry (lowBits d) ∧
      (applyFill d carry p.ife p.efe).2 = xor carry (parity (lowBits d)) := by
  have hbits (k : Nat) (hk : k ≤ 16) : FilledTo p d carry k
      ((List.range k).foldl (fillBit d p.ife p.efe) (d, carry)) := by
    induction k with
    | zero => exact ⟨fun _ hj => absurd hj (Nat.not_lt_zero _), fun _ _ => rfl, by simp⟩
    | succ k ih =>
      rw [List.range_succ, List.foldl_append]
      exact filledTo_bit hfill hk (ih (by omega))
  have h := hbits 16 (Nat.le_refl 16)
  refine ⟨List.ext_getElem? fun j => ?_, ?_⟩
  · rw [getElem?_fill]
    by_cases hj : j < 16
    · rw [lowBits_eq_map, lowBits_eq_map, List.getElem?_map, List.getElem?_map,
        List.getElem?_range hj, ← lowBits_eq_map]
      simp only [Option.map_some]
      exact congrArg some (h.below j hj)
    · rw [List.getElem?_eq_none (by simp; omega), List.getElem?_eq_none (by simp; omega)]
      rfl
  · have hall : (lowBits d).take 16 = lowBits d := List.take_of_length_le (by simp)
    rw [← hall]
    exact h.carry

/-! ## A row -/

variable {b : Blitter} {m : BlitRam} {r : Nat}

theorem fillState_channels (p : AreaSetup) (s : AreaState) (w : Nat) :
    (p.channelC (p.channelB (p.channelA s w).2).2).2.fillState = s.fillState := by
  unfold AreaSetup.channelC AreaSetup.channelB AreaSetup.channelA
  dsimp only
  split <;> split <;> rfl

/-- A step fills the word it has drawn, and stores it when channel D is on. -/
theorem word_fill (hfill : p.fill = true) (s : AreaState) (w : Nat) :
    (p.word s w).lastD = (applyFill (p.mintermWord s w) s.fillState p.ife p.efe).1 ∧
      (p.word s w).fillState = (applyFill (p.mintermWord s w) s.fillState p.ife p.efe).2 ∧
      (p.word s w).mem = if p.useD then s.mem.writeWord s.dpt (p.word s w).lastD else s.mem := by
  have hstate := fillState_channels p s w
  have hmem : (p.channelC (p.channelB (p.channelA s w).2).2).2.mem = s.mem := by
    rw [mem_channelC, mem_channelB]
    rfl
  have hdpt : (p.channelC (p.channelB (p.channelA s w).2).2).2.dpt = s.dpt := by
    unfold AreaSetup.channelC AreaSetup.channelB AreaSetup.channelA
    dsimp only
    split <;> split <;> rfl
  unfold AreaSetup.word AreaSetup.mintermWord AreaSetup.channelD
  dsimp only
  rw [hfill, hstate]
  simp only [if_true]
  split
  · rw [hmem, hdpt]
    exact ⟨rfl, rfl, rfl⟩
  · exact ⟨rfl, rfl, hmem⟩

theorem stateAt_succ (b : Blitter) (m : BlitRam) (r w : Nat) :
    b.stateAt m r (w + 1) = b.areaSetup.word (b.stateAt m r w) w := by
  unfold stateAt
  rw [List.range_succ, List.foldl_append]
  rfl

/-- A row is its words, from a fill carry set anew, and its end. -/
theorem row_eq_rowEnd (b : Blitter) (m : BlitRam) (r : Nat) :
    b.areaSetup.row^[r + 1] (b.started.areaStart m) =
      b.areaSetup.rowEnd (b.stateAt m r b.widthWords) := by
  rw [Function.iterate_succ_apply']
  rfl

theorem sequenced (m : BlitRam) (hpending : b.pending = true)
    (hline : b.bltcon1 &&& bltcon1Line = 0) : b.Sequenced m where
  start := rfl
  word := b.stateAt_succ m
  row := by
    intro r
    rw [← row_eq_rowEnd]
    rfl
  final := by
    unfold executeLogged
    rw [if_neg (by simp [hpending])]
    show (if b.bltcon1 &&& bltcon1Line ≠ 0 then _ else _ : Blitter × BlitRam).2 = _
    rw [if_neg (not_not.mpr hline)]
    rfl

/-- **The fill of a row.** -/
theorem fill_words (hfill : b.areaSetup.fill = true) (m : BlitRam) (r k : Nat) :
    rowBits ((List.range k).map fun w => (b.stateAt m r (w + 1)).lastD) =
        fill b.areaSetup.combine b.areaSetup.fci
          (rowBits ((List.range k).map fun w => b.areaSetup.mintermWord (b.stateAt m r w) w)) ∧
      (b.stateAt m r k).fillState = xor b.areaSetup.fci
        (parity (rowBits ((List.range k).map fun w =>
          b.areaSetup.mintermWord (b.stateAt m r w) w))) := by
  induction k with
  | zero => exact ⟨rfl, (Bool.xor_false _).symm⟩
  | succ k ih =>
    obtain ⟨hlast, hstate, -⟩ := word_fill hfill (b.stateAt m r k) k
    obtain ⟨hword, hcarry⟩ := fill_word hfill
      (b.areaSetup.mintermWord (b.stateAt m r k) k) (b.stateAt m r k).fillState
    simp only [List.range_succ, List.map_append, List.map_singleton, rowBits_append,
      rowBits_singleton]
    rw [fill_append, parity_append, ← Bool.xor_assoc, ← ih.1, ← ih.2, ← hword, ← hcarry,
      stateAt_succ, hlast, hstate]
    exact ⟨rfl, rfl⟩

/-- **A filled row is its prefix parity.** Bit `p` from the right edge is the drawn bit combined
with the parity of those to its right and of the row's fill carry, and the blit stores the words so
filled. -/
theorem fill_is_prefix_parity (b : Blitter) (m : BlitRam) (hpending : b.pending = true)
    (hline : b.bltcon1 &&& bltcon1Line = 0) (hdesc : b.bltcon1 &&& bltcon1Desc ≠ 0)
    (hfill : b.bltcon1 &&& bltcon1Ife ≠ 0 ∨ b.bltcon1 &&& bltcon1Efe ≠ 0) :
    (∀ r < b.heightRows, ∀ p < 16 * b.widthWords,
      let d := rowBits (b.drawn m r)
      let carry := xor (decide (b.bltcon1 &&& bltcon1Fci ≠ 0)) (parity (d.take p))
      (rowBits (b.filled m r))[p]? = some
        (if b.bltcon1 &&& bltcon1Ife ≠ 0 then d.getD p false || carry
        else xor (d.getD p false) carry)) ∧
    (∀ r < b.heightRows, ∀ w < b.widthWords, (b.stateAt m r (w + 1)).mem =
      if b.bltcon0 &&& bltcon0Used ≠ 0 then
        (b.stateAt m r w).mem.writeWord (b.stateAt m r w).dpt (b.stateAt m r (w + 1)).lastD
      else (b.stateAt m r w).mem) ∧
    b.Sequenced m := by
  have hon : b.areaSetup.fill = true := by
    show (decide _ && (decide _ || decide _)) = true
    simp only [Bool.and_eq_true, Bool.or_eq_true, decide_eq_true_eq]
    exact ⟨hdesc, hfill⟩
  refine ⟨?_, ?_, sequenced m hpending hline⟩
  · intro r _ p hp d carry
    have hrow := (fill_words hon m r b.widthWords).1
    have hlen : p < d.length := by
      show p < (rowBits (b.drawn m r)).length
      rw [length_rowBits]
      unfold drawn
      rw [List.length_map, List.length_range]
      exact hp
    show (rowBits (b.filled m r))[p]? = _
    unfold filled
    rw [hrow, getElem?_fill]
    show d[p]?.map (fun bit => b.areaSetup.combine bit carry) = _
    rw [List.getD_eq_getElem?_getD, List.getElem?_eq_getElem hlen, Option.map_some,
      Option.getD_some]
    show some (if decide (b.bltcon1 &&& bltcon1Ife ≠ 0) = true then _ else _) = _
    simp only [decide_eq_true_eq]
  · intro r _ w _
    have hmem := (word_fill hon (b.stateAt m r w) w).2.2
    rw [← stateAt_succ] at hmem
    rw [hmem]
    show (if decide (b.bltcon0 &&& bltcon0Used ≠ 0) = true then _ else _) = _
    simp only [decide_eq_true_eq]

/-- Two rows of two words, filled inclusively and stored in place. -/
theorem fill_is_prefix_parity_rows :
    let b : Blitter :=
      { Blitter.new with
        bltcon0 := 0x09F0, bltcon1 := 0x000A, bltafwm := 0xFFFF, bltalwm := 0xFFFF
        pt := fun _ => 0x1006, widthWords := 2, heightRows := 2, pending := true }
    let m : BlitRam :=
      ⟨fun i => if i.val = 0x1006 then 0x01 else if i.val = 0x1005 then 0x10 else 0, none⟩
    (rowBits (b.filled m 0))[12]? = some true ∧ (rowBits (b.filled m 1))[12]? = some false ∧
      (b.executeLogged m).2.2.readWord 0x1006 = 0xFF00 := by
  intro b m
  obtain ⟨hbits, -, -⟩ := fill_is_prefix_parity b m rfl (by decide) (by decide) (.inl (by decide))
  have hfirst := hbits 0 (by decide) 12 (by decide)
  have hsecond := hbits 1 (by decide) 12 (by decide)
  exact ⟨hfirst.trans (by decide), hsecond.trans (by decide), by decide⟩

end Blitter

end M68kMachine
