import Mathlib.Data.List.Basic
import Mathlib.Tactic.Common

/-!
# Words as a stream of bits

A sequence of words read from the most significant bit of the first on. A barrel shifter that takes
its high bits from the word before it, word after word, shifts the whole stream: `stream_shiftWords`
says so for any first neighbour.
-/

namespace BitStream

variable {w : Nat} {n : Nat}

/-- The bits of a word, the most significant first. -/
def bits (v : BitVec w) : List Bool := List.ofFn fun i : Fin w => v.getLsbD (w - 1 - i)

/-- The words one after the other. -/
def stream (ws : List (BitVec w)) : List Bool := ws.flatMap bits

/-- A stream moved right by `n`, of the same length, zeros coming in. -/
def shiftRight (n : Nat) (s : List Bool) : List Bool := (List.replicate n false ++ s).take s.length

/-- A word moved right by `n`, its neighbour's low bits coming in. -/
def carryShift (n : Nat) (prev cur : BitVec w) : BitVec w := ((prev ++ cur) >>> n).setWidth w

/-- Every word shifted with the one before it, the first with `prev`. -/
def shiftWords (n : Nat) (prev : BitVec w) : List (BitVec w) → List (BitVec w)
  | [] => []
  | v :: ws => carryShift n prev v :: shiftWords n v ws

@[simp] theorem length_bits (v : BitVec w) : (bits v).length = w := List.length_ofFn

@[simp] theorem stream_nil : stream ([] : List (BitVec w)) = [] := rfl

@[simp] theorem stream_cons (v : BitVec w) (ws : List (BitVec w)) :
    stream (v :: ws) = bits v ++ stream ws := rfl

theorem getElem_bits (v : BitVec w) {i : Nat} (hi : i < (bits v).length) :
    (bits v)[i] = v.getLsbD (w - 1 - i) := by
  simp [bits]

theorem bits_zero : bits (0 : BitVec w) = List.replicate w false := by
  refine List.ext_getElem (by simp) fun i hi _ => ?_
  rw [getElem_bits]
  simp

theorem getLsbD_carryShift (prev cur : BitVec w) {i : Nat} (hi : i < w) :
    (carryShift n prev cur).getLsbD i =
      if n + i < w then cur.getLsbD (n + i) else prev.getLsbD (n + i - w) := by
  unfold carryShift
  simp only [BitVec.getLsbD_setWidth, BitVec.getLsbD_ushiftRight, BitVec.getLsbD_append, hi,
    decide_true, Bool.true_and]

/-- A shifted word is the end of its neighbour and the beginning of its own. -/
theorem bits_carryShift (hn : n ≤ w) (prev cur : BitVec w) :
    bits (carryShift n prev cur) = (bits prev).drop (w - n) ++ (bits cur).take (w - n) := by
  refine List.ext_getElem (by simp) fun i hi _ => ?_
  rw [length_bits] at hi
  rw [getElem_bits, getLsbD_carryShift prev cur (by omega), List.getElem_append]
  simp only [List.length_drop, length_bits]
  by_cases hprev : i < n
  · rw [dif_pos (by omega), if_neg (by omega), List.getElem_drop, getElem_bits]
    congr 1
    omega
  · rw [dif_neg (by omega), if_pos (by omega), List.getElem_take, getElem_bits]
    congr 1
    omega

theorem take_add_append {α : Type} {s t : List α} {k : Nat} (h : s.length = k) :
    (s ++ t).take (k + n) = s ++ t.take n := by
  subst h
  rw [List.take_append, List.take_of_length_le (Nat.le_add_right _ _), Nat.add_sub_cancel_left]

/-- **Shifting word by word shifts the stream.** -/
theorem stream_shiftWords (hn : n ≤ w) (ws : List (BitVec w)) : ∀ prev : BitVec w,
    stream (shiftWords n prev ws) =
      ((bits prev).drop (w - n) ++ stream ws).take (stream ws).length := by
  induction ws with
  | nil =>
    intro prev
    simp [shiftWords]
  | cons v ws ih =>
    intro prev
    have hsplit : bits v = (bits v).take (w - n) ++ (bits v).drop (w - n) :=
      (List.take_append_drop _ _).symm
    have hlength : ((bits prev).drop (w - n) ++ (bits v).take (w - n)).length = w := by
      simp
    have hstream : (bits prev).drop (w - n) ++ (bits v ++ stream ws) =
        ((bits prev).drop (w - n) ++ (bits v).take (w - n)) ++
          ((bits v).drop (w - n) ++ stream ws) := by
      conv_lhs => rw [hsplit]
      simp only [List.append_assoc]
    show bits (carryShift n prev v) ++ stream (shiftWords n v ws) = _
    rw [bits_carryShift hn, ih v, stream_cons, hstream, List.length_append, length_bits,
      take_add_append hlength]

/-- With nothing before it the stream moves right. -/
theorem stream_shiftWords_zero (hn : n ≤ w) (ws : List (BitVec w)) :
    stream (shiftWords n 0 ws) = shiftRight n (stream ws) := by
  rw [stream_shiftWords hn, bits_zero, List.drop_replicate, Nat.sub_sub_self hn]
  rfl

/-- One word more. -/
theorem shiftWords_append (n : Nat) (v : BitVec w) (ws : List (BitVec w)) : ∀ prev : BitVec w,
    shiftWords n prev (ws ++ [v]) =
      shiftWords n prev ws ++ [carryShift n (ws.getLastD prev) v] := by
  induction ws with
  | nil =>
    intro prev
    rfl
  | cons u ws ih =>
    intro prev
    have hlast : (u :: ws).getLastD prev = ws.getLastD u := by
      cases ws with
      | nil => rfl
      | cons x xs => rfl
    show carryShift n prev u :: shiftWords n u (ws ++ [v]) = _
    rw [ih u, hlast]
    rfl

/-- The stream is zero where its words are. -/
theorem stream_eq_zero (ws : List (BitVec w)) :
    (∀ bit ∈ stream ws, bit = false) ↔ ∀ v ∈ ws, v = 0 := by
  have hword (v : BitVec w) : (∀ bit ∈ bits v, bit = false) ↔ v = 0 := by
    constructor
    · intro h
      refine BitVec.eq_of_getLsbD_eq fun i hi => ?_
      have hmem : v.getLsbD i ∈ bits v := by
        refine List.mem_ofFn.mpr ⟨⟨w - 1 - i, by omega⟩, ?_⟩
        rw [show w - 1 - (w - 1 - i) = i by omega]
      rw [h _ hmem]
      simp
    · rintro rfl bit hbit
      rw [bits_zero] at hbit
      exact List.eq_of_mem_replicate hbit
  unfold stream
  constructor
  · intro h v hv
    exact (hword v).mp fun bit hbit => h bit (List.mem_flatMap.mpr ⟨v, hv, hbit⟩)
  · intro h bit hbit
    obtain ⟨v, hv, hmem⟩ := List.mem_flatMap.mp hbit
    exact (hword v).mpr (h v hv) bit hmem

end BitStream
