import Mathlib.Tactic.Common

/-!
# Flat images

A flat image of cells read and written in stretches, and the blocks these travel in. A block that is
read, changed in a part and written back changes just that part of the image.

* `window`, `splice` — a stretch of an image, and an image with a stretch replaced
* `cut`, `patch` — the same of a block
* `splice_patch` — read, modify, write
* `Served` — what a store that may fail is allowed to answer, and to become
-/

namespace FlatImage

variable {α : Type} {m n : Nat} (img : Nat → α) {off : Nat}

/-- The `n` cells from `off` on. -/
def window (img : Nat → α) (off n : Nat) : Vector α n := Vector.ofFn fun j => img (off + j)

/-- The image with `v` stored from `off` on. -/
def splice (img : Nat → α) (off : Nat) (v : Vector α n) : Nat → α := fun i =>
  if off ≤ i then (v[i - off]?).getD (img i) else img i

/-- `v` filled from a block, from its cell `off` on. -/
def cut (v : Vector α n) (block : Vector α m) (off : Nat) : Vector α n :=
  Vector.ofFn fun j => (block[off + j]?).getD v[j]

/-- The block with `v` stored from its cell `off` on. -/
def patch (block : Vector α m) (off : Nat) (v : Vector α n) : Vector α m :=
  Vector.ofFn fun j => if off ≤ j then (v[j - off]?).getD block[j] else block[j]

theorem getElem_window (off n : Nat) {j : Nat} (h : j < n) :
    (window img off n)[j] = img (off + j) := by
  simp [window]

theorem splice_inside {i : Nat} (v : Vector α n) (h : off ≤ i) (hi : i - off < n) :
    splice img off v i = v[i - off] := by
  simp [splice, h, hi]

theorem splice_outside {i : Nat} (v : Vector α n) (h : i < off ∨ off + n ≤ i) :
    splice img off v i = img i := by
  unfold splice
  split
  · rw [Vector.getElem?_eq_none (by omega), Option.getD_none]
  · rfl

/-- A stretch of a part of an image. -/
theorem window_part (base off n : Nat) :
    window (fun i => img (base + i)) off n = window img (base + off) n := by
  ext j hj
  rw [getElem_window _ _ _ hj, getElem_window _ _ _ hj, Nat.add_assoc]

theorem splice_part (base off : Nat) (v : Vector α n) :
    splice (fun i => img (base + i)) off v = fun i => splice img (base + off) v (base + i) := by
  funext i
  unfold splice
  by_cases hi : off ≤ i
  · rw [if_pos hi, if_pos (Nat.add_le_add_left hi base), Nat.add_sub_add_left]
  · rw [if_neg hi, if_neg fun h => hi (Nat.le_of_add_le_add_left h)]

/-- A part of a block that was read is a stretch of the image. -/
theorem cut_window (base : Nat) (v : Vector α n) (h : off + n ≤ m) :
    cut v (window img base m) off = window img (base + off) n := by
  unfold cut
  ext j hj
  have hlt : off + j < m := by omega
  simp [getElem_window, hlt, Nat.add_assoc]

/-- **Read, modify, write**: what changes is the part that was modified. -/
theorem splice_patch (base : Nat) (v : Vector α n) (h : off + n ≤ m) :
    splice img base (patch (window img base m) off v) = splice img (base + off) v := by
  funext i
  by_cases hblock : base ≤ i ∧ i - base < m
  · obtain ⟨hle, hlt⟩ := hblock
    rw [splice_inside img _ hle hlt]
    by_cases hpart : off ≤ i - base ∧ i - base - off < n
    · obtain ⟨hoff, hn⟩ := hpart
      have hsub : i - (base + off) = i - base - off := by omega
      rw [splice_inside img v (by omega) (by omega)]
      simp [patch, hoff, hn, hsub]
    · have hback : base + (i - base) = i := by omega
      have hout : (i < base + off ∨ base + off + n ≤ i) := by omega
      rw [splice_outside img v hout]
      by_cases hoff : off ≤ i - base
      · have hn : ¬i - base - off < n := fun hn => hpart ⟨hoff, hn⟩
        simp [patch, getElem_window, hoff, hn, hback]
      · simp [patch, getElem_window, hoff, hback]
  · rw [splice_outside img _ (by omega), splice_outside img v (by omega)]

/-! ## A store that may fail -/

/-- What is asked of a store of blocks of `n` cells. -/
inductive Request (α : Type) (n : Nat)
  | read (block : Nat)
  | write (block : Nat) (v : Vector α n)

def Request.block : Request α n → Nat
  | read block => block
  | write block _ => block

inductive Answer (α : Type) (n : Nat)
  | data (v : Vector α n)
  | stored
  | failed

/-- What a store of `count` blocks may answer. A write that fails may spoil the units it shares. -/
inductive Serves (count unit : Nat) : (Nat → α) → Request α n → Answer α n → (Nat → α) → Prop
  | data {img : Nat → α} {block : Nat} (h : block < count) :
      Serves count unit img (.read block) (.data (window img (block * n) n)) img
  | noData {img : Nat → α} {block : Nat} : Serves count unit img (.read block) .failed img
  | stored {img : Nat → α} {block : Nat} {v : Vector α n} (h : block < count) :
      Serves count unit img (.write block v) .stored (splice img (block * n) v)
  | damaged {img img' : Nat → α} {block : Nat} {v : Vector α n} (h : block < count)
      (hkeeps : ∀ i, i / unit ≠ block * n / unit → img' i = img i) :
      Serves count unit img (.write block v) .failed img'
  | refused {img : Nat → α} {block : Nat} {v : Vector α n} (h : count ≤ block) :
      Serves count unit img (.write block v) .failed img

/-- The answers of a run, one for each request. -/
inductive Served (count unit : Nat) :
    (Nat → α) → List (Request α n × Answer α n) → (Nat → α) → Prop
  | nil (img : Nat → α) : Served count unit img [] img
  | cons {img img' img'' : Nat → α} {req : Request α n} {ans : Answer α n}
      {rest : List (Request α n × Answer α n)} (h : Serves count unit img req ans img')
      (hrest : Served count unit img' rest img'') : Served count unit img ((req, ans) :: rest) img''

end FlatImage
