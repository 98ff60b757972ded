import M68kMachine.Cards.CheckedBlit

/-!
# The rectangle of a blit

Where a byte of the destination goes, as an integer, against the address it is stored at. Row starts
stop at address zero, so the first byte of a row that starts below it is stored there.

* `BlitSetup.target` — the place of a byte in the rectangle
* `stores` — the address a byte is stored at
* `StaysInRectangle` — every stored byte goes to its place, and nothing else changes
* `stays_in_rectangle_iff`
-/

namespace M68kMachine

open Cirrus

namespace Cirrus542x

/-! ## Places and addresses -/

/-- The place of byte `x` of row `y`, which may lie below address zero. -/
def BlitSetup.target (p : BlitSetup) (y x : Nat) : Int :=
  if p.backwards then (p.dstStart : Int) - y * p.dstPitch - x
  else (p.dstStart : Int) + y * p.dstPitch + x

/-- The address that byte `x` of row `y` is stored at, in the state before it. -/
def stores (c : Cirrus542x) (p : BlitSetup) (s : BlitState) (y x : Nat) : Option Nat :=
  match p.along (p.lineStart p.dstStart p.dstPitch y) x with
  | none => none
  | some dst => if dst < s.vram.size ∧ (c.blitSource p s y x).2 = false then some dst else none

/-- A row that starts below address zero. -/
def BlitSetup.Below (p : BlitSetup) (y : Nat) : Prop :=
  p.backwards = true ∧ p.dstStart < y * p.dstPitch

instance (p : BlitSetup) (y : Nat) : Decidable (p.Below y) := inferInstanceAs (Decidable (_ ∧ _))

variable {c : Cirrus542x} {p : BlitSetup} {y x : Nat}

/-- A row that starts above address zero is stored where it belongs. -/
theorem along_eq_target {dst : Nat} (hrow : ¬p.Below y)
    (h : p.along (p.lineStart p.dstStart p.dstPitch y) x = some dst) :
    (dst : Int) = p.target y x := by
  unfold BlitSetup.along BlitSetup.lineStart at h
  unfold BlitSetup.target
  cases hback : p.backwards with
  | false =>
    simp only [hback, Bool.false_eq_true, if_false, Option.some.injEq] at h ⊢
    rw [← h]
    push_cast
    rfl
  | true =>
    have hle : y * p.dstPitch ≤ p.dstStart := Nat.le_of_not_lt fun hlt => hrow ⟨hback, hlt⟩
    simp only [hback, if_true] at h ⊢
    split at h
    case isFalse => cases h
    case isTrue hx =>
      cases h
      rw [← Int.natCast_mul]
      omega

/-- Of a row that starts below it, the first byte goes to address zero and the others nowhere. -/
theorem along_of_below (hrow : p.Below y) (x : Nat) :
    p.along (p.lineStart p.dstStart p.dstPitch y) x = if x = 0 then some 0 else none := by
  unfold BlitSetup.along BlitSetup.lineStart
  rw [if_pos hrow.1, if_pos hrow.1, Nat.sub_eq_zero_of_le (Nat.le_of_lt hrow.2)]
  rcases Nat.eq_zero_or_pos x with rfl | hx
  · rfl
  · rw [if_neg (by omega), if_neg (by omega)]

theorem target_neg_of_below (hrow : p.Below y) (x : Nat) : p.target y x < 0 := by
  unfold BlitSetup.target
  rw [if_pos hrow.1]
  have hlt : (p.dstStart : Int) < y * p.dstPitch := by exact_mod_cast hrow.2
  omega

/-! ## The states of a transfer -/

theorem blitByte_vram (s : BlitState) (y x : Nat) :
    (c.blitByte p y s x).vram = match c.stores p s y x with
      | none => s.vram
      | some dst => s.vram.set dst
          (applyRop (reg c.gr Idx.grBlitRop) (c.blitSource p s y x).1
            ((s.vram.get? dst).getD 0)) := by
  have hstep : (p.stepExpand s).vram = s.vram := by
    unfold BlitSetup.stepExpand
    split
    · split <;> rfl
    · rfl
  unfold blitByte stores
  cases p.along (p.lineStart p.dstStart p.dstPitch y) x with
  | none => exact hstep
  | some dst =>
    dsimp only
    by_cases hin : dst < s.vram.size
    · have hget : s.vram.get? dst = some (s.vram.bytes ⟨dst, hin⟩) := Buffer.get?_eq_some hin
      rw [hget]
      dsimp only
      cases hheld : (c.blitSource p s y x).2 with
      | true => simp [hstep]
      | false => simp [hstep, hin, hget]
    · rw [get?_eq_none hin]
      simp [hstep, hin]

/-- The state before row `y`. -/
def rowStart (c : Cirrus542x) (p : BlitSetup) (y : Nat) : BlitState :=
  (List.range y).foldl (c.blitRow p) ⟨c.vram, BitVec.ofNat 64 p.srcStart, 0⟩

/-- The state before byte `x` of row `y`. -/
def stateAt (c : Cirrus542x) (p : BlitSetup) (y x : Nat) : BlitState :=
  (List.range x).foldl (c.blitByte p y) (c.rowStart p y)

theorem stateAt_succ (y x : Nat) :
    c.stateAt p y (x + 1) = c.blitByte p y (c.stateAt p y x) x := by
  simp only [stateAt, List.range_succ, List.foldl_append, List.foldl_cons, List.foldl_nil]

theorem rowStart_succ_vram (y : Nat) :
    (c.rowStart p (y + 1)).vram = (c.stateAt p y p.width).vram := by
  have hrow : c.rowStart p (y + 1) = c.blitRow p (c.rowStart p y) y := by
    simp only [rowStart, List.range_succ, List.foldl_append, List.foldl_cons, List.foldl_nil]
  rw [hrow]
  unfold blitRow
  dsimp only
  split <;> rfl

/-- What every byte that is transferred leaves alone, the whole transfer does. -/
theorem stateAt_vram_invariant {P : ByteSlice → Prop} (hstart : P c.vram)
    (hbyte : ∀ y < p.height, ∀ x < p.width,
      P (c.stateAt p y x).vram → P (c.stateAt p y (x + 1)).vram) :
    ∀ y ≤ p.height, P (c.rowStart p y).vram ∧
      (y < p.height → ∀ x ≤ p.width, P (c.stateAt p y x).vram) := by
  have hrow (y : Nat) (hy : y < p.height) (h : P (c.rowStart p y).vram) :
      ∀ x ≤ p.width, P (c.stateAt p y x).vram := by
    intro x
    induction x with
    | zero => exact fun _ => h
    | succ x ih => exact fun hx => hbyte y hy x hx (ih (Nat.le_of_succ_le hx))
  intro y
  induction y with
  | zero => exact fun _ => ⟨hstart, fun hy => hrow 0 hy hstart⟩
  | succ y ih =>
    intro hy
    have hnext : P (c.rowStart p (y + 1)).vram := by
      rw [rowStart_succ_vram]
      exact (ih (Nat.le_of_succ_le hy)).2 hy p.width (Nat.le_refl _)
    exact ⟨hnext, fun hlt => hrow (y + 1) hlt hnext⟩

theorem blitByte_size (s : BlitState) (y x : Nat) :
    (c.blitByte p y s x).vram.size = s.vram.size := by
  rw [blitByte_vram]
  split <;> rfl

theorem stateAt_size (hy : y < p.height) (hx : x ≤ p.width) :
    (c.stateAt p y x).vram.size = c.vram.size := by
  refine ((stateAt_vram_invariant (P := fun v => v.size = c.vram.size) rfl ?_) y
    (Nat.le_of_lt hy)).2 hy x hx
  intro y _ x _ h
  rw [stateAt_succ, blitByte_size]
  exact h

/-! ## The rectangle -/

/-- `at'` is the place of some byte of the blit. -/
def BlitSetup.InRectangle (p : BlitSetup) (at' : Nat) : Prop :=
  ∃ y < p.height, ∃ x < p.width, (at' : Int) = p.target y x

/-- Every byte that is stored goes to its place, and what is no place of a byte is unchanged. -/
structure StaysInRectangle (c : Cirrus542x) (system : Option (List Byte)) : Prop where
  placed : ∀ y < (c.blitSetup system).height, ∀ x < (c.blitSetup system).width, ∀ dst,
    c.stores (c.blitSetup system) (c.stateAt (c.blitSetup system) y x) y x = some dst →
      (dst : Int) = (c.blitSetup system).target y x
  framed : ∀ at', ¬(c.blitSetup system).InRectangle at' →
    (c.executeBlit system).vram.get? at' = c.vram.get? at'

/-- The first byte of every row that starts below address zero is not stored. -/
def NothingFolded (c : Cirrus542x) (system : Option (List Byte)) : Prop :=
  ∀ y < (c.blitSetup system).height, (c.blitSetup system).Below y →
    c.vram.size = 0 ∨
      (c.blitSource (c.blitSetup system) (c.stateAt (c.blitSetup system) y 0) y 0).2 = true

theorem width_pos (c : Cirrus542x) (system : Option (List Byte)) :
    0 < (c.blitSetup system).width := by
  refine Nat.lt_min.mpr ⟨Nat.succ_pos _, ?_⟩
  exact Nat.lt_of_lt_of_le Nat.one_pos (Nat.le_max_right _ _)

/-- A byte is stored at its place, or is the first of a row that starts below address zero. -/
theorem stores_cases {s : BlitState} {dst : Nat} (h : c.stores p s y x = some dst) :
    (dst : Int) = p.target y x ∨
      p.Below y ∧ x = 0 ∧ dst = 0 ∧ 0 < s.vram.size ∧ (c.blitSource p s y x).2 = false := by
  unfold stores at h
  cases halong : p.along (p.lineStart p.dstStart p.dstPitch y) x with
  | none => rw [halong] at h; cases h
  | some at' =>
    rw [halong] at h
    dsimp only at h
    split at h
    case isFalse => cases h
    case isTrue hin =>
      cases h
      by_cases hrow : p.Below y
      · rw [along_of_below hrow] at halong
        split at halong
        case isFalse => cases halong
        case isTrue hx =>
          cases halong
          exact .inr ⟨hrow, hx, rfl, hin.1, hin.2⟩
      · exact .inl (along_eq_target hrow halong)

theorem placed_iff (c : Cirrus542x) (system : Option (List Byte)) :
    (∀ y < (c.blitSetup system).height, ∀ x < (c.blitSetup system).width, ∀ dst,
      c.stores (c.blitSetup system) (c.stateAt (c.blitSetup system) y x) y x = some dst →
        (dst : Int) = (c.blitSetup system).target y x) ↔ NothingFolded c system := by
  constructor
  · intro hplaced y hy hrow
    by_contra hnot
    rw [not_or, Bool.not_eq_true] at hnot
    have hsize := stateAt_size (c := c) hy (Nat.zero_le (c.blitSetup system).width)
    have hstores : c.stores (c.blitSetup system) (c.stateAt (c.blitSetup system) y 0) y 0 =
        some 0 := by
      unfold stores
      rw [along_of_below hrow, if_pos rfl]
      exact if_pos ⟨by omega, hnot.2⟩
    have htarget := hplaced y hy 0 (width_pos c system) 0 hstores
    have hneg := target_neg_of_below hrow 0
    omega
  · intro hfolded y hy x hx dst hstores
    rcases stores_cases hstores with hplace | ⟨hrow, rfl, -, hsome, hheld⟩
    · exact hplace
    · rw [stateAt_size hy (Nat.zero_le _)] at hsome
      rcases hfolded y hy hrow with hempty | hback
      · omega
      · rw [hback] at hheld
        cases hheld

/-- What is stored only at its place changes nothing else. -/
theorem framed_of_placed {system : Option (List Byte)}
    (hplaced : ∀ y < (c.blitSetup system).height, ∀ x < (c.blitSetup system).width, ∀ dst,
      c.stores (c.blitSetup system) (c.stateAt (c.blitSetup system) y x) y x = some dst →
        (dst : Int) = (c.blitSetup system).target y x)
    {at' : Nat} (hout : ¬(c.blitSetup system).InRectangle at') :
    (c.executeBlit system).vram.get? at' = c.vram.get? at' := by
  refine ((stateAt_vram_invariant (c := c) (P := fun v => v.get? at' = c.vram.get? at') rfl ?_)
    (c.blitSetup system).height (Nat.le_refl _)).1
  intro y hy x hx hsame
  rw [stateAt_succ, blitByte_vram]
  cases hstores : c.stores (c.blitSetup system) (c.stateAt (c.blitSetup system) y x) y x with
  | none => exact hsame
  | some dst =>
    have hne : at' ≠ dst := by
      rintro rfl
      exact hout ⟨y, hy, x, hx, hplaced y hy x hx _ hstores⟩
    refine (Buffer.get?_set _ _ _ _).trans ?_
    rw [if_neg fun h => hne h.1]
    exact hsame

/-- **When a blit stays in its rectangle.** It never panics, and stores to its rectangle alone
exactly when the first byte of no row that starts below address zero is stored. -/
theorem stays_in_rectangle_iff (c : Cirrus542x) (system : Option (List Byte)) :
    c.executeBlitChecked system = some (c.executeBlit system) ∧
      (StaysInRectangle c system ↔ NothingFolded c system) := by
  refine ⟨c.executeBlitChecked_eq system, fun h => (placed_iff c system).mp h.placed, fun h => ?_⟩
  have hplaced := (placed_iff c system).mpr h
  exact ⟨hplaced, fun _ hout => framed_of_placed hplaced hout⟩

/-! ## A folded row -/

/-- Two rows of one byte, backwards from address one; the second starts at minus one. -/
def foldingCirrus : Cirrus542x :=
  { Cirrus542x.new .gd5428 ⟨2, fun i => if i.val = 1 then 0xAA else 0⟩ with
    gr := ((((((Vector.replicate 64 0).setIfInBounds Idx.grBlitHeightLo 1).setIfInBounds
      Idx.grBlitDstPitchLo 2).setIfInBounds Idx.grBlitDstAddrLo 1).setIfInBounds
      Idx.grBlitSrcAddrLo 1).setIfInBounds Idx.grBlitMode BlitMode.backwards).setIfInBounds
      Idx.grBlitRop 0x0D }

/-- Its byte is stored at address zero, which is no place of the blit, and changes it. -/
theorem below_zero_is_folded : ¬StaysInRectangle foldingCirrus none := by
  intro h
  have hout : ¬(foldingCirrus.blitSetup none).InRectangle 0 := by
    rintro ⟨y, hy, x, hx, htarget⟩
    have hheight : (foldingCirrus.blitSetup none).height = 2 := by decide
    have hwidth : (foldingCirrus.blitSetup none).width = 1 := by decide
    rw [hheight] at hy
    rw [hwidth] at hx
    obtain rfl : x = 0 := by omega
    rcases (by omega : y = 0 ∨ y = 1) with rfl | rfl
    · revert htarget
      decide
    · revert htarget
      decide
  have hsame := h.framed 0 hout
  revert hsame
  decide

end Cirrus542x

end M68kMachine
