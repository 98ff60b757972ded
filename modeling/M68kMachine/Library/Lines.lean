import Mathlib.Data.List.DropRight

/-!
# Lines of a stream

A stream cut into lines at a separator, and where a line reaches a limit, and the end of a stream
that is kept in a buffer of bounded length.

* `Cut.text_feed`, `Cut.Within.feed` — what a cut keeps of the stream, and the shape of its lines
* `Cut.lines_feed_separator` — a separator starts over
* `keepLast_rtake` — the buffer holds the end of the stream
-/

namespace Lines

variable {α : Type}

/-- The lines of a stream so far, and the unfinished one. -/
structure Cut (α : Type) where
  lines : List (List α)
  held : List α

namespace Cut

def nil : Cut α := ⟨[], []⟩

/-- The unfinished line is finished, if there is something in it. -/
def flush [DecidableEq α] (c : Cut α) : Cut α :=
  if c.held = [] then c else ⟨c.lines ++ [c.held], []⟩

variable [DecidableEq α] (sep : α) (cap : Nat) (c : Cut α)

def next (c : Cut α) (a : α) : Cut α :=
  if a = sep then c.flush
  else
    let c : Cut α := ⟨c.lines, c.held ++ [a]⟩
    if cap ≤ c.held.length then c.flush else c

def feed (c : Cut α) (as : List α) : Cut α := as.foldl (next sep cap) c

/-- All there is of the stream. -/
def text (c : Cut α) : List α := c.lines.flatten ++ c.held

/-! ## Nothing is lost -/

theorem text_flush : c.flush.text = c.text := by
  unfold flush
  split
  · rfl
  · unfold text
    rw [List.flatten_concat, List.append_nil]

theorem text_next (a : α) : (c.next sep cap a).text = c.text ++ [a].filter (· ≠ sep) := by
  unfold next
  by_cases ha : a = sep
  · rw [if_pos ha, text_flush]
    simp [ha]
  · have htext : (⟨c.lines, c.held ++ [a]⟩ : Cut α).text = c.text ++ [a] := by
      unfold text
      exact (List.append_assoc _ _ _).symm
    have hkeep : [a].filter (· ≠ sep) = [a] := by simp [ha]
    rw [if_neg ha, hkeep, ← htext]
    dsimp only
    split
    · exact text_flush _
    · rfl

/-- **Nothing is lost** but the separators. -/
theorem text_feed (as : List α) : (c.feed sep cap as).text = c.text ++ as.filter (· ≠ sep) := by
  unfold feed
  induction as generalizing c with
  | nil => simp
  | cons a as ih =>
    rw [List.foldl_cons, ih, text_next, List.append_assoc, ← List.filter_append]
    rfl

theorem lines_flush_flatten : c.flush.lines.flatten = c.text := by
  unfold flush
  by_cases hheld : c.held = []
  · rw [if_pos hheld]
    unfold text
    rw [hheld, List.append_nil]
  · rw [if_neg hheld]
    exact List.flatten_concat

/-! ## The shape of the lines -/

/-- No line is empty or longer than the limit, and none has a separator in it. -/
structure Within (c : Cut α) : Prop where
  lines : ∀ l ∈ c.lines, l ≠ [] ∧ l.length ≤ cap ∧ sep ∉ l
  held : c.held.length < cap ∧ sep ∉ c.held

variable {sep cap}

theorem lines_flush {c : Cut α} (hlines : ∀ l ∈ c.lines, l ≠ [] ∧ l.length ≤ cap ∧ sep ∉ l)
    (hlength : c.held.length ≤ cap) (hsep : sep ∉ c.held) :
    ∀ l ∈ c.flush.lines, l ≠ [] ∧ l.length ≤ cap ∧ sep ∉ l := by
  unfold flush
  split
  case isTrue => exact hlines
  case isFalse hheld =>
    intro l hl
    rcases List.mem_append.mp hl with hl | hl
    · exact hlines l hl
    · rw [List.mem_singleton.mp hl]
      exact ⟨hheld, hlength, hsep⟩

theorem held_flush : c.flush.held = [] := by
  unfold flush
  split
  · assumption
  · rfl

theorem Within.flush {c : Cut α} (h : Within sep cap c) : Within sep cap c.flush := by
  refine ⟨lines_flush h.lines h.held.1.le h.held.2, ?_⟩
  rw [held_flush]
  exact ⟨(Nat.zero_le _).trans_lt h.held.1, List.not_mem_nil⟩

theorem Within.next {c : Cut α} (h : Within sep cap c) (a : α) :
    Within sep cap (c.next sep cap a) := by
  unfold Cut.next
  by_cases ha : a = sep
  · rw [if_pos ha]
    exact h.flush
  · have hlength : (c.held ++ [a]).length ≤ cap := by
      rw [List.length_append]
      exact h.held.1
    have hsep : sep ∉ c.held ++ [a] := by
      intro hmem
      rcases List.mem_append.mp hmem with hmem | hmem
      · exact h.held.2 hmem
      · exact ha (List.mem_singleton.mp hmem).symm
    rw [if_neg ha]
    dsimp only
    split
    case isTrue =>
      refine ⟨lines_flush h.lines hlength hsep, ?_⟩
      rw [held_flush]
      exact ⟨(Nat.zero_le _).trans_lt h.held.1, List.not_mem_nil⟩
    case isFalse hshort => exact ⟨h.lines, Nat.lt_of_not_le hshort, hsep⟩

theorem Within.feed {c : Cut α} (h : Within sep cap c) (as : List α) :
    Within sep cap (c.feed sep cap as) := by
  unfold Cut.feed
  induction as generalizing c with
  | nil => exact h
  | cons a as ih => exact ih (h.next a)

omit [DecidableEq α] in
theorem within_nil (hcap : 0 < cap) : Within sep cap (nil : Cut α) :=
  ⟨fun _ hl => absurd hl List.not_mem_nil, hcap, List.not_mem_nil⟩

/-! ## Starting over -/

variable (sep cap)

/-- A cut after lines that are finished. -/
def after (ls : List (List α)) (c : Cut α) : Cut α := ⟨ls ++ c.lines, c.held⟩

theorem flush_after (ls : List (List α)) (c : Cut α) :
    (c.after ls).flush = c.flush.after ls := by
  unfold flush after
  dsimp only
  split
  · rfl
  · rw [List.append_assoc]

theorem next_after (ls : List (List α)) (c : Cut α) (a : α) :
    (c.after ls).next sep cap a = (c.next sep cap a).after ls := by
  unfold next
  by_cases ha : a = sep
  · rw [if_pos ha, if_pos ha, flush_after]
  · rw [if_neg ha, if_neg ha]
    have hpush : (⟨(c.after ls).lines, (c.after ls).held ++ [a]⟩ : Cut α) =
        (⟨c.lines, c.held ++ [a]⟩ : Cut α).after ls := rfl
    rw [hpush]
    by_cases hfull : cap ≤ (c.held ++ [a]).length
    · refine (if_pos hfull).trans ?_
      rw [flush_after]
      exact congrArg (after ls) (if_pos hfull).symm
    · exact (if_neg hfull).trans (congrArg (after ls) (if_neg hfull).symm)

theorem feed_after (ls : List (List α)) (c : Cut α) (as : List α) :
    (c.after ls).feed sep cap as = (c.feed sep cap as).after ls := by
  unfold feed
  induction as generalizing c with
  | nil => rfl
  | cons a as ih => rw [List.foldl_cons, List.foldl_cons, next_after, ih]

/-- **A separator starts over**: after it the stream is cut as a new one. -/
theorem lines_feed_separator (before rest : List α) :
    (c.feed sep cap (before ++ sep :: rest)).flush.lines =
      (c.feed sep cap before).flush.lines ++ (nil.feed sep cap rest).flush.lines := by
  have hover : (c.feed sep cap before).flush = nil.after (c.feed sep cap before).flush.lines := by
    unfold nil after
    rw [List.append_nil, ← held_flush (c.feed sep cap before)]
  have hsplit : c.feed sep cap (before ++ sep :: rest) =
      (c.feed sep cap before).flush.feed sep cap rest := by
    unfold feed
    rw [List.foldl_append, List.foldl_cons, next, if_pos rfl]
  rw [hsplit, hover, feed_after, flush_after, ← hover]
  rfl

end Cut

/-! ## The end of the stream -/

/-- A buffer that drops its oldest element when it is over its length. -/
def keepLast (cap : Nat) (buffer : List α) (a : α) : List α :=
  let buffer := buffer ++ [a]
  if cap < buffer.length then buffer.tail else buffer

theorem keepLast_rtake (cap : Nat) (as : List α) (a : α) :
    keepLast cap (as.rtake cap) a = (as ++ [a]).rtake cap := by
  unfold keepLast List.rtake
  have hlength : (as ++ [a]).length = as.length + 1 := List.length_append
  by_cases hfull : cap ≤ as.length
  · have hbuffer : as.drop (as.length - cap) ++ [a] = (as ++ [a]).drop (as.length - cap) :=
      (List.drop_append_of_le_length (Nat.sub_le _ _)).symm
    have hsub : as.length + 1 - cap = as.length - cap + 1 := by omega
    dsimp only
    rw [hbuffer, if_pos (by rw [List.length_drop]; omega), hlength, hsub, List.tail_drop]
  · have hall : as.drop (as.length - cap) = as := by
      rw [Nat.sub_eq_zero_of_le (by omega), List.drop_zero]
    dsimp only
    rw [hall, if_neg (by omega), Nat.sub_eq_zero_of_le (by omega), List.drop_zero]

theorem foldl_keepLast (cap : Nat) (as bs : List α) :
    bs.foldl (keepLast cap) (as.rtake cap) = (as ++ bs).rtake cap := by
  induction bs generalizing as with
  | nil => rw [List.foldl_nil, List.append_nil]
  | cons b bs ih =>
    rw [List.foldl_cons, keepLast_rtake, ih, List.append_assoc, List.singleton_append]

end Lines
