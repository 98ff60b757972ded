import Mathlib.Data.List.Basic
import Mathlib.Data.List.Range
import Mathlib.Tactic.Common

/-!
# Ring buffers

A fixed array with a head cursor and a length, read as a FIFO queue.

The invariant (`head` is a valid index, `len` never passes the capacity) is a field, so no operation
can index outside the array. `toList` is the abstract queue, across the wrap point; every operation
has one theorem that says what it does to it, and clients use only these.

* `push` / `pop` / `peek` — append, remove and look at the head
* `overwrite` — replace one entry in place (`List.set`)
* `remove` — take one entry out of the middle (`List.eraseIdx`)
-/

/-- A FIFO of capacity `n` stored in an array with a head cursor and a length. -/
structure RingBuffer (α : Type) (n : Nat) where
  buf : Vector α n
  head : Nat
  len : Nat
  head_lt : head < n
  len_le : len ≤ n

namespace RingBuffer

variable {α : Type} {n : Nat} (r : RingBuffer α n) (value : α) {i : Nat}

theorem pos (r : RingBuffer α n) : 0 < n := Nat.zero_lt_of_lt r.head_lt

/-- The empty ring, every cell holding the default value. -/
def new [Inhabited α] (hn : 0 < n) : RingBuffer α n where
  buf := Vector.replicate n default
  head := 0
  len := 0
  head_lt := hn
  len_le := Nat.zero_le n

def isFull (r : RingBuffer α n) : Bool := r.len == n

/-- The array index of the entry `logical` places behind the head. -/
def physical (r : RingBuffer α n) (logical : Nat) : Fin n :=
  ⟨(r.head + logical) % n, Nat.mod_lt _ r.pos⟩

/-- The entry `logical` places behind the head. -/
def slot (r : RingBuffer α n) (logical : Nat) : α := r.buf.get (r.physical logical)

/-- The queue the ring stands for, oldest entry first. -/
def toList (r : RingBuffer α n) : List α := (List.range r.len).map r.slot

/-- Append `value`; `false` and no change when the ring is full. -/
def push (r : RingBuffer α n) (value : α) : Bool × RingBuffer α n :=
  if h : r.len = n then (false, r)
  else
    (true,
      { r with
        buf := r.buf.set (r.physical r.len) value (r.physical r.len).isLt
        len := r.len + 1
        len_le := by have := r.len_le; omega })

/-- Take the oldest entry off the ring. -/
def pop (r : RingBuffer α n) : Option α × RingBuffer α n :=
  if r.len = 0 then (none, r)
  else
    (some (r.slot 0),
      { r with
        head := (r.head + 1) % n
        len := r.len - 1
        head_lt := Nat.mod_lt _ r.pos
        len_le := by have := r.len_le; omega })

/-- The oldest entry, left where it is. -/
def peek (r : RingBuffer α n) : Option α :=
  if r.len = 0 then none else some (r.slot 0)

/-- Replace the entry at `logical` in place. -/
def overwrite (r : RingBuffer α n) (logical : Nat) (value : α) : RingBuffer α n :=
  { r with buf := r.buf.set (r.physical logical) value (r.physical logical).isLt }

/-- Copy the entry at `i + 1` over the entry at `i`. -/
def shiftOne (r : RingBuffer α n) (i : Nat) : RingBuffer α n :=
  r.overwrite i (r.slot (i + 1))

/-- Remove the entry at `index`, moving every later entry one place towards the head. -/
def remove (r : RingBuffer α n) (index : Nat) : RingBuffer α n :=
  let shifted := (List.range' index (r.len - 1 - index)).foldl shiftOne r
  { shifted with
    len := shifted.len - 1
    len_le := by have := shifted.len_le; omega }

/-! ## The abstract queue -/

@[simp] theorem length_toList : r.toList.length = r.len := by
  simp [toList]

theorem getElem?_toList (i : Nat) : r.toList[i]? = if i < r.len then some (r.slot i) else none := by
  unfold toList
  by_cases h : i < r.len
  · simp [h]
  · simp [h]

@[simp] theorem toList_new [Inhabited α] (hn : 0 < n) : (new hn : RingBuffer α n).toList = [] := rfl

theorem isFull_iff : r.isFull = true ↔ r.toList.length = n := by
  simp [isFull]

theorem length_toList_le : r.toList.length ≤ n := by
  rw [length_toList]; exact r.len_le

theorem toList_eq_nil : r.toList = [] ↔ r.len = 0 := by
  rw [← List.length_eq_zero_iff, length_toList]

/-- Distinct logical places below the capacity are distinct cells of the array. -/
theorem physical_inj {j : Nat} (hi : i < n) (hj : j < n)
    (h : (r.physical i).val = (r.physical j).val) : i = j := by
  have hh : r.head < n := r.head_lt
  simp only [physical] at h
  rcases Nat.lt_or_ge (r.head + i) n with h1 | h1 <;>
    rcases Nat.lt_or_ge (r.head + j) n with h2 | h2
  · rw [Nat.mod_eq_of_lt h1, Nat.mod_eq_of_lt h2] at h; omega
  · rw [Nat.mod_eq_of_lt h1, Nat.mod_eq_sub_mod h2, Nat.mod_eq_of_lt (by omega)] at h; omega
  · rw [Nat.mod_eq_sub_mod h1, Nat.mod_eq_of_lt (by omega), Nat.mod_eq_of_lt h2] at h; omega
  · rw [Nat.mod_eq_sub_mod h1, Nat.mod_eq_of_lt (by omega), Nat.mod_eq_sub_mod h2,
      Nat.mod_eq_of_lt (by omega)] at h
    omega

theorem slot_overwrite {j : Nat} (hi : i < n) (hj : j < n) :
    (r.overwrite i value).slot j = if j = i then value else r.slot j := by
  have hphys : (r.overwrite i value).physical j = r.physical j := rfl
  unfold slot
  rw [hphys]
  unfold overwrite Vector.get
  by_cases h : j = i
  · subst h
    simp only [if_true]
    show (r.buf.set (r.physical j) value _)[(r.physical j).val] = value
    rw [Vector.getElem_set_self]
  · have hne : (r.physical i).val ≠ (r.physical j).val := fun he => h (r.physical_inj hi hj he).symm
    simp only [if_neg h]
    show (r.buf.set (r.physical i) value _)[(r.physical j).val] = r.buf[(r.physical j).val]
    rw [Vector.getElem_set_ne _ _ hne]

/-! ## What each operation does to the queue -/

theorem push_full {r : RingBuffer α n} (h : r.toList.length = n) : r.push value = (false, r) := by
  rw [length_toList] at h
  simp [push, h]

theorem push_fst : (r.push value).1 = decide (r.toList.length < n) := by
  have := r.len_le
  unfold push
  split <;> simp <;> omega

theorem toList_push {r : RingBuffer α n} (h : r.toList.length < n) :
    (r.push value).2.toList = r.toList ++ [value] := by
  rw [length_toList] at h
  have hne : ¬ r.len = n := by omega
  unfold push
  rw [dif_neg hne]
  unfold toList
  rw [List.range_succ, List.map_append]
  congr 1
  · apply List.map_congr_left
    intro j hj
    have hj' : j < r.len := List.mem_range.mp hj
    have := r.slot_overwrite value h (show j < n by omega)
    rw [if_neg (by omega)] at this
    exact this
  · have := r.slot_overwrite value h h
    rw [if_pos rfl] at this
    exact congrArg (fun v => [v]) this

theorem peek_eq : r.peek = r.toList.head? := by
  unfold peek
  rw [List.head?_eq_getElem?, getElem?_toList]
  by_cases h : r.len = 0
  · simp [h]
  · rw [if_neg h, if_pos (by omega)]

theorem pop_fst : r.pop.1 = r.toList.head? := by
  rw [← peek_eq]
  unfold pop peek
  split <;> rfl

theorem toList_pop : r.pop.2.toList = r.toList.tail := by
  unfold pop
  split
  · rename_i h
    rw [(toList_eq_nil r).mpr h]; rfl
  · rename_i h
    obtain ⟨k, hk⟩ : ∃ k, r.len = k + 1 := ⟨r.len - 1, by omega⟩
    unfold toList
    simp only [hk, Nat.add_sub_cancel, List.range_succ_eq_map, List.map_cons, List.tail_cons,
      List.map_map]
    apply List.map_congr_left
    intro j _
    simp only [slot, physical, Function.comp]
    congr 2
    rw [Nat.mod_add_mod]
    congr 1
    omega

theorem toList_overwrite (hi : i < r.toList.length) :
    (r.overwrite i value).toList = r.toList.set i value := by
  rw [length_toList] at hi
  have hlen : (r.overwrite i value).len = r.len := rfl
  have hn := r.len_le
  apply List.ext_getElem?
  intro j
  rw [getElem?_toList, hlen, List.getElem?_set, getElem?_toList, length_toList]
  by_cases hj : j < r.len
  · rw [if_pos hj, slot_overwrite r value (show i < n by omega) (show j < n by omega)]
    by_cases hji : j = i
    · subst hji; simp [hj]
    · simp [hj, hji, Ne.symm hji]
  · have hij : i ≠ j := by omega
    simp [hj, hij]

/-! ### Removing from the middle

The loop copies each later entry one place down. `foldl_shiftOne` is its invariant: after
`count` rounds from `index`, the places `index … index + count - 1` hold their old successors
and every other place is untouched. -/

theorem foldl_shiftOne (count : Nat) : ∀ (r : RingBuffer α n) (index : Nat),
    index + count < n →
    let s := (List.range' index count).foldl shiftOne r
    s.len = r.len ∧
      ∀ j, j < n → s.slot j =
        if index ≤ j ∧ j < index + count then r.slot (j + 1) else r.slot j := by
  induction count with
  | zero =>
    intro r index _
    refine ⟨rfl, fun j _ => ?_⟩
    rw [if_neg (by omega)]
    rfl
  | succ count ih =>
    intro r index hlt
    obtain ⟨hlen, hslot⟩ := ih (r.shiftOne index) (index + 1) (by omega)
    refine ⟨hlen, fun j hj => ?_⟩
    have hone : ∀ i, i < n → (r.shiftOne index).slot i
        = if i = index then r.slot (index + 1) else r.slot i :=
      fun i hi => slot_overwrite r _ (by omega) hi
    show ((List.range' (index + 1) count).foldl shiftOne (r.shiftOne index)).slot j = _
    rw [hslot j hj]
    by_cases h1 : index + 1 ≤ j ∧ j < index + 1 + count
    · rw [if_pos h1, if_pos (by omega), hone _ (by omega), if_neg (by omega)]
    · rw [if_neg h1, hone j hj]
      by_cases h2 : j = index
      · rw [if_pos h2, if_pos (by omega), h2]
      · rw [if_neg h2, if_neg (by omega)]

theorem toList_remove {index : Nat} (hi : index < r.toList.length) :
    (r.remove index).toList = r.toList.eraseIdx index := by
  rw [length_toList] at hi
  have hn := r.len_le
  obtain ⟨hlen, hslot⟩ := foldl_shiftOne (r.len - 1 - index) r index (by omega)
  have hlen' : (r.remove index).len = r.len - 1 := by
    show _ - 1 = r.len - 1
    rw [hlen]
  apply List.ext_getElem?
  intro j
  rw [getElem?_toList, hlen', List.getElem?_eraseIdx]
  have hs : j < n → (r.remove index).slot j
      = if index ≤ j ∧ j < index + (r.len - 1 - index) then r.slot (j + 1) else r.slot j :=
    hslot j
  by_cases hj : j < r.len - 1
  · rw [if_pos hj, hs (by omega)]
    by_cases hji : j < index
    · rw [if_neg (by omega), if_pos hji, getElem?_toList, if_pos (by omega)]
    · rw [if_pos (by omega), if_neg hji, getElem?_toList, if_pos (by omega)]
  · rw [if_neg hj]
    by_cases hji : j < index
    · omega
    · rw [if_neg hji, getElem?_toList, if_neg (by omega)]

theorem length_remove {index : Nat} (hi : index < r.toList.length) :
    (r.remove index).toList.length + 1 = r.toList.length := by
  rw [toList_remove r hi, List.length_eraseIdx_of_lt hi]
  omega

end RingBuffer
