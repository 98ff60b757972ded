import Mathlib.Data.BitVec
import Mathlib.Data.List.Range
import Mathlib.Tactic.Common

/-!
# Rings indexed by free-running counters

A producer and a consumer share an array of `size` slots. Each owns a counter of `w` bits that it
only ever increments, and the counter modulo `size` is its slot. When `size` divides `2 ^ w` the
ring is a FIFO queue.

* `contents` — the queue, from the consumer's counter up to the producer's
* `contents_push`, `contents_pop` — what the two parties do to it
* `Between` — a snapshot of the producer's counter that the consumer works up to
-/

namespace WrapRing

variable {α : Type*} {w : ℕ} {size : Nat} {head : BitVec w}

/-- The slot a counter names. -/
def pos (size : Nat) (c : BitVec w) : Nat := c.toNat % size

/-- The slots from the consumer's counter `head` up to the producer's counter `tail`. -/
def contents (slot : Nat → α) (size : Nat) (head tail : BitVec w) : List α :=
  (List.range (tail - head).toNat).map fun j => slot (pos size (head + BitVec.ofNat w j))

/-! ### Counters -/

theorem toNat_succ {x : BitVec w} (h : x.toNat + 1 < 2 ^ w) : (x + 1).toNat = x.toNat + 1 := by
  have hone : (1 : BitVec w).toNat = 1 := by
    have : (1 : BitVec w).toNat = 1 % 2 ^ w := BitVec.toNat_ofNat 1 w
    rw [this, Nat.mod_eq_of_lt (by omega)]
  rw [BitVec.toNat_add, hone, Nat.mod_eq_of_lt h]

theorem toNat_pred {x : BitVec w} (h : x ≠ 0) : x.toNat = (x - 1).toNat + 1 := by
  have hback : x - 1 + 1 = x := BitVec.sub_add_cancel x 1
  by_cases hlt : (x - 1).toNat + 1 < 2 ^ w
  · rw [← toNat_succ hlt, hback]
  · -- The predecessor is the largest value, so its successor wraps to zero.
    refine absurd ?_ h
    have hbound := (x - 1).isLt
    have hzero : (x - 1 + 1).toNat = 0 := by
      have hmod : (1 : BitVec w).toNat = 1 % 2 ^ w := BitVec.toNat_ofNat 1 w
      rw [BitVec.toNat_add, hmod, Nat.add_mod_mod, show (x - 1).toNat + 1 = 2 ^ w by omega,
        Nat.mod_self]
    rw [hback] at hzero
    exact BitVec.eq_of_toNat_eq (hzero.trans BitVec.toNat_zero.symm)

theorem pos_lt (h : 0 < size) (c : BitVec w) : pos size c < size := Nat.mod_lt _ h

/-- Past the wrap the slots go on in turn. -/
theorem pos_add (hsize : size ∣ 2 ^ w) (c : BitVec w) (j : Nat) :
    pos size (c + BitVec.ofNat w j) = (c.toNat + j) % size := by
  unfold pos
  rw [BitVec.toNat_add, BitVec.toNat_ofNat, Nat.add_mod_mod, Nat.mod_mod_of_dvd _ hsize]

/-- Counters less than `size` apart name different slots. -/
theorem pos_ne (hsize : size ∣ 2 ^ w) (c : BitVec w) {i j : Nat} (hij : i < j) (hj : j < i + size) :
    pos size (c + BitVec.ofNat w i) ≠ pos size (c + BitVec.ofNat w j) := by
  rw [pos_add hsize, pos_add hsize]
  intro heq
  have hdvd : size ∣ c.toNat + j - (c.toNat + i) :=
    Nat.dvd_of_mod_eq_zero (Nat.sub_mod_eq_zero_of_mod_eq heq.symm)
  have := Nat.le_of_dvd (by omega) hdvd
  omega

/-! ### The queue -/

@[simp] theorem length_contents (slot : Nat → α) (size : Nat) (head tail : BitVec w) :
    (contents slot size head tail).length = (tail - head).toNat := by
  simp [contents]

theorem contents_self (slot : Nat → α) (size : Nat) (c : BitVec w) :
    contents slot size c c = [] := by
  simp [contents]

theorem contents_congr {slot slot' : Nat → α} (hpos : 0 < size) (h : ∀ k < size, slot' k = slot k)
    (head tail : BitVec w) : contents slot' size head tail = contents slot size head tail :=
  List.map_congr_left fun _ _ => h _ (pos_lt hpos _)

/-- **The consumer takes the oldest entry.** -/
theorem contents_pop (slot : Nat → α) (size : Nat) {tail : BitVec w} (h : head ≠ tail) :
    contents slot size head tail =
      slot (pos size head) :: contents slot size (head + 1) tail := by
  have hne : tail - head ≠ 0 := sub_ne_zero.mpr h.symm
  have hsub : tail - (head + 1) = tail - head - 1 := (sub_sub tail head 1).symm
  unfold contents
  rw [toNat_pred hne, List.range_succ_eq_map, List.map_cons, List.map_map, hsub]
  congr 1
  · simp
  · refine List.map_congr_left fun j _ => ?_
    simp only [Function.comp_apply]
    congr 2
    rw [BitVec.add_assoc, Nat.succ_eq_one_add, BitVec.ofNat_add]
    rfl

/-- **The producer appends an entry** to a ring that is not full. -/
theorem contents_push {slot slot' : Nat → α} (hsize : size ∣ 2 ^ w) (hlt : size < 2 ^ w)
    {tail : BitVec w} (hroom : (contents slot size head tail).length < size)
    (hsame : ∀ k < size, k ≠ pos size tail → slot' k = slot k) :
    contents slot' size head (tail + 1) =
      contents slot size head tail ++ [slot' (pos size tail)] := by
  rw [length_contents] at hroom
  have hpos : 0 < size := by omega
  have htail : head + BitVec.ofNat w (tail - head).toNat = tail := by
    rw [BitVec.ofNat_toNat, BitVec.setWidth_eq, BitVec.add_comm, BitVec.sub_add_cancel]
  have hsub : tail + 1 - head = tail - head + 1 := add_sub_right_comm tail 1 head
  unfold contents
  rw [hsub, toNat_succ (by omega), List.range_succ, List.map_append, List.map_singleton, htail]
  congr 1
  refine List.map_congr_left fun j hj => ?_
  have hj' := List.mem_range.mp hj
  refine hsame _ (pos_lt hpos _) ?_
  have hne := pos_ne hsize head hj' (by omega)
  rwa [htail] at hne

/-! ### Snapshots of the producer's counter -/

/-- `mid` is a value the producer's counter has had since it was `head`. -/
def Between (head mid tail : BitVec w) : Prop := (mid - head).toNat ≤ (tail - head).toNat

theorem Between.tail (head tail : BitVec w) : Between head tail tail := Nat.le_refl _

theorem Between.push {mid tail : BitVec w} (h : Between head mid tail)
    (hlt : (tail - head).toNat + 1 < 2 ^ w) : Between head mid (tail + 1) := by
  have hsub : tail + 1 - head = tail - head + 1 := add_sub_right_comm tail 1 head
  unfold Between at h ⊢
  rw [hsub, toNat_succ hlt]
  omega

/-- Short of the snapshot there is an entry, and taking it keeps the snapshot ahead. -/
theorem Between.pop {mid tail : BitVec w} (h : Between head mid tail) (hne : head ≠ mid) :
    head ≠ tail ∧ Between (head + 1) mid tail := by
  unfold Between at h ⊢
  have hmid := toNat_pred (sub_ne_zero.mpr hne.symm)
  have htail : head ≠ tail := by
    rintro rfl
    rw [hmid] at h
    simp at h
  have hpred := toNat_pred (sub_ne_zero.mpr htail.symm)
  refine ⟨htail, ?_⟩
  rw [← sub_sub, ← sub_sub]
  omega

end WrapRing
