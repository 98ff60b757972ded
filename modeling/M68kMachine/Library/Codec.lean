import Mathlib.Data.List.Basic
import Mathlib.Data.Vector.Basic
import Mathlib.Tactic.Common

/-!
# Reading back what was written

`Reads r w a` says that the reader `r` takes `a` off the word `w` whatever follows it, and fails on
every proper prefix of `w`. It composes along `bind`, so a format without any framing is read back
field by field.

* `Reads.bind` — one reader after the other
* `Reads.vector` — a fixed number of equal fields
* `bytesBE`, `ofBytesBE` — big-endian integers
* `readAll` — records up to the end of the input
* `readAll_take` — a truncated input gives the records wholly inside it
-/

/-- A reader of sequences of `β`, with the errors `ε`. -/
abbrev Reader (β ε α : Type) := StateT (List β) (Except ε) α

namespace Reader

variable {β ε α γ : Type} {r : Reader β ε α} {w : List β} {a : α}

/-- The next `n` elements, or `eof` where there are fewer. -/
def takeExact (eof : ε) (n : Nat) : Reader β ε (List β) := fun input =>
  if n ≤ input.length then .ok (input.take n, input.drop n) else .error eof

/-- `n` values, one after the other. -/
def vector (r : Reader β ε α) : (n : Nat) → Reader β ε (Vector α n)
  | 0 => pure #v[]
  | n + 1 => do
    let xs ← vector r n
    let x ← r
    pure (xs.push x)

/-! ## What a reader takes off a word -/

/-- `r` takes `a` off `w`: it leaves what follows, and fails where `w` is cut short. -/
structure Reads (r : Reader β ε α) (w : List β) (a : α) : Prop where
  whole : ∀ rest, r.run (w ++ rest) = .ok (a, rest)
  cut : ∀ n < w.length, ∃ e, r.run (w.take n) = .error e

theorem Reads.pure (a : α) : Reads (pure a : Reader β ε α) [] a where
  whole _ := rfl
  cut _ hn := absurd hn (Nat.not_lt_zero _)

theorem Reads.bind {k : α → Reader β ε γ} {w' : List β} {c : γ} (h : Reads r w a)
    (h' : Reads (k a) w' c) : Reads (r >>= k) (w ++ w') c where
  whole rest := by
    rw [StateT.run_bind, List.append_assoc, h.whole]
    exact h'.whole rest
  cut n hn := by
    rw [StateT.run_bind, List.take_append]
    rcases Nat.lt_or_ge n w.length with hlt | hge
    · -- the cut lies in the first word
      obtain ⟨e, he⟩ := h.cut n hlt
      rw [Nat.sub_eq_zero_of_le (Nat.le_of_lt hlt), List.take_zero, List.append_nil, he]
      exact ⟨e, rfl⟩
    · rw [List.length_append] at hn
      obtain ⟨e, he⟩ := h'.cut (n - w.length) (by omega)
      rw [List.take_of_length_le hge, h.whole]
      exact ⟨e, he⟩

/-- The last field of a record. -/
theorem Reads.bind_pure (h : Reads r w a) (f : α → γ) :
    Reads (r >>= fun a => Pure.pure (f a)) w (f a) := by
  have hbind := h.bind (k := fun a => Pure.pure (f a)) (Reads.pure (f a))
  rwa [List.append_nil] at hbind

theorem Reads.map (h : Reads r w a) (f : α → γ) : Reads (f <$> r) w (f a) := by
  rw [map_eq_pure_bind]
  exact h.bind_pure f

theorem reads_takeExact (eof : ε) {n : Nat} (h : w.length = n) :
    Reads (takeExact eof n) w w where
  whole rest := by
    show (if n ≤ (w ++ rest).length then _ else _) = _
    rw [if_pos (by rw [List.length_append]; omega), List.take_left' h, List.drop_left' h]
  cut m hm := by
    refine ⟨eof, ?_⟩
    show (if n ≤ (w.take m).length then _ else _) = _
    rw [if_neg (by rw [List.length_take]; omega)]

/-- The word of `n` values is the words of the values. -/
theorem Reads.vector {r : Reader β ε α} {enc : α → List β} (h : ∀ a, Reads r (enc a) a) :
    ∀ {n : Nat} (xs : Vector α n), Reads (Reader.vector r n) (xs.toList.flatMap enc) xs
  | 0, xs => by
    have hxs : xs = #v[] := Vector.eq_empty
    rw [hxs]
    exact Reads.pure #v[]
  | n + 1, xs => by
    have hlast : xs.pop.push xs.back = xs := Vector.push_pop_back xs
    have hword : xs.toList.flatMap enc = xs.pop.toList.flatMap enc ++ enc xs.back := by
      rw [← congrArg Vector.toList hlast, Vector.toList_push, List.flatMap_append]
      simp
    have hread : Reads (Reader.vector r (n + 1)) _ (xs.pop.push xs.back) :=
      (Reads.vector h xs.pop).bind ((h xs.back).bind_pure _)
    rwa [← hword, hlast] at hread

/-! ## Readers take, and never put back -/

/-- What is left is no longer than what there was. -/
def Shrinks (r : Reader β ε α) : Prop :=
  ∀ input a rest, r.run input = .ok (a, rest) → rest.length ≤ input.length

theorem Shrinks.pure (a : α) : Shrinks (pure a : Reader β ε α) := by
  rintro input b rest ⟨⟩
  exact Nat.le_refl _

theorem Shrinks.bind {k : α → Reader β ε γ} (h : Shrinks r) (h' : ∀ a, Shrinks (k a)) :
    Shrinks (r >>= k) := by
  intro input c rest heq
  rw [StateT.run_bind] at heq
  cases hr : r.run input with
  | error e => rw [hr] at heq; cases heq
  | ok p => rw [hr] at heq; exact Nat.le_trans (h' p.1 _ _ _ heq) (h _ _ _ hr)

theorem Shrinks.map (h : Shrinks r) (f : α → γ) : Shrinks (f <$> r) := by
  rw [map_eq_pure_bind]
  exact h.bind fun a => Shrinks.pure (f a)

theorem shrinks_takeExact (eof : ε) (n : Nat) : Shrinks (takeExact eof n : Reader β ε _) := by
  intro input a rest h
  change (if n ≤ input.length then _ else _) = _ at h
  split at h
  · cases h
    rw [List.length_drop]
    exact Nat.sub_le _ _
  · cases h

theorem Shrinks.vector {r : Reader β ε α} (h : Shrinks r) : ∀ n, Shrinks (Reader.vector r n)
  | 0 => Shrinks.pure _
  | n + 1 => (Shrinks.vector h n).bind fun _ => h.bind fun _ => Shrinks.pure _

end Reader

/-! ## Big-endian integers -/

/-- The low `n` bytes of `v`, most significant first. -/
def bytesBE {w : Nat} : Nat → BitVec w → List (BitVec 8)
  | 0, _ => []
  | n + 1, v => bytesBE n (v >>> 8) ++ [v.setWidth 8]

/-- The integer whose bytes these are, most significant first. -/
def ofBytesBE (w : Nat) (bytes : List (BitVec 8)) : BitVec w :=
  bytes.foldl (fun v b => (v <<< 8) ||| b.setWidth w) 0

@[simp] theorem length_bytesBE {w : Nat} : ∀ (n : Nat) (v : BitVec w), (bytesBE n v).length = n
  | 0, _ => rfl
  | n + 1, v => by rw [bytesBE, List.length_append, length_bytesBE n]; rfl

theorem ofBytesBE_bytesBE {w : Nat} : ∀ (n : Nat) (v : BitVec w), v.toNat < 2 ^ (8 * n) →
    ofBytesBE w (bytesBE n v) = v
  | 0, v, h => by
    have hv : v = 0 := BitVec.eq_of_toNat_eq (by simpa using h)
    rw [hv]
    rfl
  | n + 1, v, h => by
    have hshift : (v >>> 8).toNat < 2 ^ (8 * n) := by
      rw [BitVec.toNat_ushiftRight, Nat.shiftRight_eq_div_pow]
      refine Nat.div_lt_of_lt_mul ?_
      rwa [← Nat.pow_add, Nat.add_comm]
    have ih := ofBytesBE_bytesBE n (v >>> 8) hshift
    unfold ofBytesBE at ih ⊢
    rw [bytesBE, List.foldl_append, ih]
    -- the low byte comes back below the others
    refine BitVec.eq_of_getLsbD_eq fun i hi => ?_
    rcases Nat.lt_or_ge i 8 with hlt | hge
    · simp [hlt, hi]
    · have hadd : 8 + (i - 8) = i := by omega
      have hnot : ¬ i < 8 := by omega
      simp [hnot, hi, hadd]

/-! ## Records up to the end -/

/-- How reading ended: at the end of the input, or at an error. -/
inductive Ending (ε : Type)
  | clean
  | failed (error : ε)
  deriving DecidableEq

section Records

variable {β ε α : Type} {next : List β → Except ε (Option (α × List β))}

/-- Every record takes something off the input. -/
def Progresses (next : List β → Except ε (Option (α × List β))) : Prop :=
  ∀ input a rest, next input = .ok (some (a, rest)) → rest.length < input.length

/-- Read records until there is none or one fails. -/
def readAll (next : List β → Except ε (Option (α × List β))) (hnext : Progresses next)
    (input : List β) : List α × Ending ε :=
  match _h : next input with
  | .error e => ([], .failed e)
  | .ok none => ([], .clean)
  | .ok (some (a, rest)) =>
    let (as, ending) := readAll next hnext rest
    (a :: as, ending)
  termination_by input.length
  decreasing_by exact hnext input a rest _h

/-- `next` reads the record `a` off `w`, fails where `w` is cut, and ends with it. -/
structure ReadsRecord (next : List β → Except ε (Option (α × List β))) (w : List β) (a : α) :
    Prop where
  nonempty : 0 < w.length
  whole : ∀ rest, next (w ++ rest) = .ok (some (a, rest))
  cut : ∀ n, 0 < n → n < w.length → ∃ e, next (w.take n) = .error e

variable {hnext : Progresses next} {input : List β}

theorem readAll_none (h : next input = .ok none) : readAll next hnext input = ([], .clean) := by
  rw [readAll]
  split <;> simp_all

theorem readAll_error {e : ε} (h : next input = .error e) :
    readAll next hnext input = ([], .failed e) := by
  rw [readAll]
  split <;> simp_all

theorem readAll_some {rest : List β} {a : α} (h : next input = .ok (some (a, rest))) :
    readAll next hnext input =
      (a :: (readAll next hnext rest).1, (readAll next hnext rest).2) := by
  rw [readAll]
  split <;> simp_all

/-- What was written is read back. -/
theorem readAll_flatMap {enc : α → List β} (hend : next [] = .ok none) :
    ∀ {as : List α}, (∀ a ∈ as, ReadsRecord next (enc a) a) →
      readAll next hnext (as.flatMap enc) = (as, .clean)
  | [], _ => readAll_none hend
  | a :: as, h => by
    have ih := readAll_flatMap hend fun b hb => h b (List.mem_cons_of_mem a hb)
    rw [List.flatMap_cons, readAll_some ((h a List.mem_cons_self).whole _), ih]

/-- Of the first `n` elements the whole records are read, cleanly where the last one ends. -/
theorem readAll_take {enc : α → List β} (hend : next [] = .ok none) :
    ∀ {as : List α} {n : Nat}, (∀ a ∈ as, ReadsRecord next (enc a) a) →
      n < (as.flatMap enc).length →
      ∃ k < as.length,
        ((as.take k).flatMap enc).length ≤ n ∧ n < ((as.take (k + 1)).flatMap enc).length ∧
        (readAll next hnext ((as.flatMap enc).take n)).1 = as.take k ∧
        ((readAll next hnext ((as.flatMap enc).take n)).2 = .clean ↔
          n = ((as.take k).flatMap enc).length)
  | [], n, _, hn => absurd hn (Nat.not_lt_zero n)
  | a :: as, n, h, hn => by
    have ha := h a List.mem_cons_self
    rw [List.flatMap_cons, List.length_append] at hn
    rw [List.flatMap_cons, List.take_append]
    rcases Nat.lt_or_ge n (enc a).length with hlt | hge
    · -- the cut lies in the first record
      rw [Nat.sub_eq_zero_of_le (Nat.le_of_lt hlt), List.take_zero, List.append_nil]
      refine ⟨0, Nat.succ_pos _, Nat.zero_le _, by simpa using hlt, ?_⟩
      rcases Nat.eq_zero_or_pos n with rfl | hpos
      · rw [List.take_zero, readAll_none hend]
        simp
      · obtain ⟨e, he⟩ := ha.cut n hpos hlt
        rw [readAll_error he]
        refine ⟨rfl, ?_⟩
        simp only [reduceCtorEq, false_iff, List.take_zero, List.flatMap_nil, List.length_nil]
        omega
    · have htail := readAll_take hend (fun b hb => h b (List.mem_cons_of_mem a hb))
        (show n - (enc a).length < (as.flatMap enc).length by omega)
      obtain ⟨k, hk, hle, hlt, hread, hclean⟩ := htail
      rw [List.take_of_length_le hge, readAll_some (ha.whole _)]
      refine ⟨k + 1, Nat.succ_lt_succ hk, ?_, ?_, ?_, ?_⟩
      · rw [List.take_succ_cons, List.flatMap_cons, List.length_append]
        omega
      · rw [List.take_succ_cons, List.flatMap_cons, List.length_append]
        omega
      · rw [List.take_succ_cons, hread]
      · rw [List.take_succ_cons, List.flatMap_cons, List.length_append]
        refine hclean.trans ?_
        omega

end Records
