import Mathlib.Data.List.Basic
import Mathlib.Data.List.Nodup

/-!
# A cursor over a list that changes

A reader keeps the number of elements it has passed, of a list that may be replaced under it. As
long as no element that stays crosses the cursor, one that is there all the time is read exactly
once.

* `SameSide` — the two lists agree on which of their common elements the cursor has passed
* `sameSide_erase_iff` — when an element may be taken out, or put in
* `Reads` — what a cursor reads until it has passed the last element
* `Reads.count` — exactly once
-/

namespace ListCursor

variable {α : Type*} {l : List α} {c : Nat}

/-- An element of both lists is before the cursor in both or in neither. -/
def SameSide (c : Nat) (l l' : List α) : Prop :=
  ∀ x, x ∈ l → x ∈ l' → (x ∈ l.take c ↔ x ∈ l'.take c)

theorem SameSide.symm {c : Nat} {l l' : List α} (h : SameSide c l l') : SameSide c l' l :=
  fun x hx hx' => (h x hx' hx).symm

theorem mem_take_succ {a : α} (h : l[c]? = some a) (x : α) :
    x ∈ l.take (c + 1) ↔ x ∈ l.take c ∨ x = a := by
  rw [List.take_add_one, h, List.mem_append]
  simp

/-- In a list without repetitions the element under the cursor has not been passed. -/
theorem not_mem_take (hl : l.Nodup) {a : α} (h : l[c]? = some a) : a ∉ l.take c := by
  intro hmem
  rcases List.mem_take_iff_getElem.mp hmem with ⟨i, hi, heq⟩
  rcases List.getElem?_eq_some_iff.mp h with ⟨hc, hget⟩
  have hsame := (List.Nodup.getElem_inj_iff hl).mp (heq.trans hget.symm)
  omega

/-- **Taking out what has been passed** moves the rest over the cursor, while there is more. -/
theorem sameSide_erase_iff [DecidableEq α] (hl : l.Nodup) {b : α} :
    SameSide c l (l.erase b) ↔ (b ∈ l.take c → l.length ≤ c) := by
  have hsplit : l.erase b = (l.take c ++ l.drop c).erase b := by rw [List.take_append_drop]
  by_cases hb : b ∈ l.take c
  · rw [List.erase_append_left _ hb] at hsplit
    constructor
    · intro hside _
      by_contra hlt
      have hlt := Nat.lt_of_not_le hlt
      -- The element under the cursor moves to the place before it.
      have hdrop : l.drop c = l[c] :: l.drop (c + 1) := List.drop_eq_getElem_cons hlt
      have hlen : ((l.take c).erase b).length = c - 1 := by
        rw [List.length_erase_of_mem hb, List.length_take, Nat.min_eq_left (Nat.le_of_lt hlt)]
      have hpos : 0 < c := by
        rcases Nat.eq_zero_or_pos c with rfl | hpos
        · simp at hb
        · exact hpos
      have hmem : l[c] ∈ (l.erase b).take c := by
        rw [hsplit, hdrop, List.take_append, List.mem_append, hlen,
          show c - (c - 1) = 1 by omega]
        exact .inr List.mem_cons_self
      have hpassed := (hside _ (List.getElem_mem hlt) (List.mem_of_mem_take hmem)).mpr hmem
      exact not_mem_take hl (List.getElem?_eq_getElem hlt) hpassed
    · intro hle x hx hx'
      have hshort : (l.erase b).length ≤ c := Nat.le_trans (List.length_erase_le) (hle hb)
      rw [List.take_of_length_le (hle hb), List.take_of_length_le hshort]
      exact ⟨fun _ => hx', fun _ => hx⟩
  · rw [List.erase_append_right _ hb] at hsplit
    refine ⟨fun _ h => absurd h hb, fun _ x _ _ => ?_⟩
    have htake : (l.erase b).take c = l.take c := by
      rw [hsplit, List.take_append, List.take_take, Nat.min_self, List.length_take]
      rcases Nat.le_total c l.length with hle | hle
      · rw [Nat.min_eq_left hle, Nat.sub_self, List.take_zero, List.append_nil]
      · rw [List.drop_eq_nil_of_le hle, List.erase_nil, List.take_nil, List.append_nil]
    rw [htake]

/-- What a cursor reads of lists in `I`: its element, or another list takes the place of this
one. -/
inductive Reads (I : List α → Prop) : List α → Nat → List α → Prop
  | stop {l : List α} {c : Nat} : I l → l.length ≤ c → Reads I l c []
  | next {l as : List α} {c : Nat} {a : α} :
      I l → l[c]? = some a → Reads I l (c + 1) as → Reads I l c (a :: as)
  | change {l l' as : List α} {c : Nat} :
      I l → SameSide c l l' → Reads I l' c as → Reads I l c as

theorem Reads.first {I : List α → Prop} {as : List α} (h : Reads I l c as) : I l := by
  cases h with
  | stop h | next h | change h => exact h

/-- **An element that is in every list is read exactly once**, unless it has been passed. -/
theorem Reads.count [DecidableEq α] {x : α} {as : List α}
    (h : Reads (fun l => l.Nodup ∧ x ∈ l) l c as) : as.count x = if x ∈ l.take c then 0 else 1 := by
  induction h with
  | stop hl hc =>
    rw [List.take_of_length_le hc, if_pos hl.2]
    rfl
  | @next l as c a hl ha _ ih =>
    have hpassed := mem_take_succ ha x
    have hnew := not_mem_take hl.1 ha
    rw [List.count_cons, ih]
    by_cases hx : x = a
    · subst hx
      rw [if_pos (hpassed.mpr (.inr rfl)), if_neg hnew]
      simp
    · have hbeq : (a == x) = false := by
        rw [beq_eq_false_iff_ne]
        exact Ne.symm hx
      rw [hbeq]
      simp only [hpassed, hx, or_false, Bool.false_eq_true, if_false, Nat.add_zero]
  | change hl hside h ih =>
    rw [ih]
    simp only [hside x hl.2 h.first.2]

end ListCursor
