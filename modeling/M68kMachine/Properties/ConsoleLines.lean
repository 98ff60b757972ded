import M68kMachine.Hosted.Console
import M68kMachine.Library.Lines

/-!
# What the console prints

However the runner's diagnostics fall between the guest's bytes, the guest's lines are its output
cut at the newlines and at the limit, and the diagnostics are printed as they came.

* `fromUtf8Lossy_encode`, `length_lossyText` — what turning bytes into text does
* `script_guestByte`, `script_diag` — the console that a script sees
* `Shows`, `shows_run` — the lines of a run are those of the cut of the guest's bytes
* `guestTailContains_iff` — what a `WAIT` finds
-/

namespace M68kMachine

open Lines SerialScript

/-- What happens to a console. -/
inductive ConsoleOp (τ : Type)
  | guest (byte : Byte)
  | diag (line : τ)

namespace ConsoleOp

variable {τ : Type}

def byte? : ConsoleOp τ → Option Byte
  | guest byte => some byte
  | diag _ => none

def line? : ConsoleOp τ → Option τ
  | guest _ => none
  | diag line => some line

end ConsoleOp

/-- The guest's output in a run, and the runner's. -/
def guestOutput {τ : Type} (ops : List (ConsoleOp τ)) : List Byte := ops.filterMap ConsoleOp.byte?

def diagnostics {τ : Type} (ops : List (ConsoleOp τ)) : List τ := ops.filterMap ConsoleOp.line?

/-! ## Text -/

/-- What a turn takes is a character, or is replaced by one that has no newline in it. -/
theorem lossyText_turn (turns : Nat) (first : Byte) (rest : List Byte) :
    ∃ n text, lossyText (turns + 1) (first :: rest) = text ++ lossyText turns (rest.drop n) ∧
      (text = first :: rest.take n ∨ text = Utf8.replacementCharacter) := by
  cases hchar : Utf8.charFrom first rest with
  | mk n whole =>
    refine ⟨n, if whole then first :: rest.take n else Utf8.replacementCharacter, ?_, ?_⟩
    · simp only [lossyText, hchar]
    · cases whole with
      | true => exact .inl rfl
      | false => exact .inr rfl

theorem lossyText_mem : ∀ (turns : Nat) {bytes : List Byte} {b : Byte},
    b ∈ lossyText turns bytes → b ∈ bytes ∨ b ∈ Utf8.replacementCharacter
  | 0, _, _, h => nomatch h
  | _ + 1, [], _, h => nomatch h
  | turns + 1, first :: rest, b, h => by
    obtain ⟨n, text, hturn, htext⟩ := lossyText_turn turns first rest
    rw [hturn, List.mem_append] at h
    rcases h with h | h
    · rcases htext with rfl | rfl
      · rcases List.mem_cons.mp h with rfl | h
        · exact .inl List.mem_cons_self
        · exact .inl (List.mem_cons_of_mem _ (List.mem_of_mem_take h))
      · exact .inr h
    · rcases lossyText_mem turns h with h | h
      · exact .inl (List.mem_cons_of_mem _ (List.mem_of_mem_drop h))
      · exact .inr h

theorem length_lossyText : ∀ (turns : Nat) (bytes : List Byte),
    (lossyText turns bytes).length ≤ 3 * bytes.length
  | 0, _ => Nat.zero_le _
  | _ + 1, [] => Nat.zero_le _
  | turns + 1, first :: rest => by
    obtain ⟨n, text, hturn, htext⟩ := lossyText_turn turns first rest
    have hrest := length_lossyText turns (rest.drop n)
    rw [hturn, List.length_append, List.length_cons]
    rw [List.length_drop] at hrest
    rcases htext with rfl | rfl
    · rw [List.length_cons, List.length_take]
      omega
    · simp only [Utf8.replacementCharacter, List.length_cons, List.length_nil]
      omega

namespace Utf8

/-- The bytes of a character. -/
def encode (c : Char) : List Byte := (String.utf8EncodeChar c).map UInt8.toBitVec

theorem isContinuation_tail : ∀ n < 64, isContinuation (BitVec.ofNat 8 (n + 0x80)) = true := by
  decide

theorem secondFits_three : ∀ a < 16, ∀ b < 64, (a = 0 → 32 ≤ b) → (a = 13 → b < 32) →
    secondFits (BitVec.ofNat 8 (a + 0xE0)) (BitVec.ofNat 8 (b + 0x80)) = true := by
  decide

theorem secondFits_four : ∀ a < 5, ∀ b < 64, (a = 0 → 16 ≤ b) → (a = 4 → b < 16) →
    secondFits (BitVec.ofNat 8 (a + 0xF0)) (BitVec.ofNat 8 (b + 0x80)) = true := by
  decide

theorem charWidth_one : ∀ n < 128, charWidth (BitVec.ofNat 8 n) = 1 := by decide

theorem charWidth_two : ∀ a < 32, 2 ≤ a → charWidth (BitVec.ofNat 8 (a + 0xC0)) = 2 := by decide

theorem charWidth_three : ∀ a < 16, charWidth (BitVec.ofNat 8 (a + 0xE0)) = 3 := by decide

theorem charWidth_four : ∀ a < 5, charWidth (BitVec.ofNat 8 (a + 0xF0)) = 4 := by decide

/-- A character is met as a whole. -/
theorem charFrom_encode (c : Char) (rest : List Byte) :
    ∃ first tail, encode c = first :: tail ∧
      charFrom first (tail ++ rest) = (tail.length, true) := by
  have hvalid : c.val.toNat < 0xD800 ∨ 0xDFFF < c.val.toNat ∧ c.val.toNat < 0x110000 := c.valid
  unfold encode String.utf8EncodeChar
  generalize c.val.toNat = v at hvalid
  dsimp only
  split
  · refine ⟨BitVec.ofNat 8 v, [], rfl, ?_⟩
    unfold charFrom
    rw [charWidth_one v (by omega)]
    rfl
  split
  · refine ⟨BitVec.ofNat 8 (v / 64 % 0x20 + 0xC0), [BitVec.ofNat 8 (v % 0x40 + 0x80)], rfl, ?_⟩
    have hcont := isContinuation_tail (v % 0x40) (by omega)
    unfold charFrom
    rw [charWidth_two _ (by omega) (by omega)]
    exact if_pos hcont
  split
  · refine ⟨BitVec.ofNat 8 (v / 4096 % 0x10 + 0xE0), [BitVec.ofNat 8 (v / 64 % 0x40 + 0x80),
      BitVec.ofNat 8 (v % 0x40 + 0x80)], rfl, ?_⟩
    have hsecond := secondFits_three (v / 4096 % 0x10) (by omega) (v / 64 % 0x40) (by omega)
      (by omega) (by omega)
    have hcont := isContinuation_tail (v % 0x40) (by omega)
    unfold charFrom
    rw [charWidth_three _ (by omega)]
    simp only [List.cons_append, List.getD_cons_zero, List.getD_cons_succ, hsecond, hcont]
    rfl
  · refine ⟨BitVec.ofNat 8 (v / 262144 % 0x08 + 0xF0), [BitVec.ofNat 8 (v / 4096 % 0x40 + 0x80),
      BitVec.ofNat 8 (v / 64 % 0x40 + 0x80), BitVec.ofNat 8 (v % 0x40 + 0x80)], rfl, ?_⟩
    have hsecond := secondFits_four (v / 262144 % 0x08) (by omega) (v / 4096 % 0x40) (by omega)
      (by omega) (by omega)
    have hthird := isContinuation_tail (v / 64 % 0x40) (by omega)
    have hcont := isContinuation_tail (v % 0x40) (by omega)
    unfold charFrom
    rw [charWidth_four _ (by omega)]
    simp only [List.cons_append, List.getD_cons_zero, List.getD_cons_succ, hsecond, hthird, hcont]
    rfl

end Utf8

theorem lossyText_encode : ∀ (turns : Nat) (text : List Char),
    (text.flatMap Utf8.encode).length ≤ turns →
      lossyText turns (text.flatMap Utf8.encode) = text.flatMap Utf8.encode
  | 0, text, h => by
    rw [List.length_eq_zero_iff.mp (Nat.le_zero.mp h)]
    rfl
  | _ + 1, [], _ => rfl
  | turns + 1, c :: text, h => by
    obtain ⟨first, tail, hc, hchar⟩ := Utf8.charFrom_encode c (text.flatMap Utf8.encode)
    have hbytes : (c :: text).flatMap Utf8.encode =
        first :: (tail ++ text.flatMap Utf8.encode) := by
      rw [List.flatMap_cons, hc, List.cons_append]
    rw [hbytes] at h ⊢
    have hrest := lossyText_encode turns text (by
      rw [List.length_cons, List.length_append] at h
      omega)
    simp only [lossyText, hchar, if_true, List.take_left, List.drop_left, hrest, List.cons_append]

/-- **What is UTF-8 is printed as it is.** -/
theorem fromUtf8Lossy_encode (text : List Char) :
    fromUtf8Lossy (text.flatMap Utf8.encode) = text.flatMap Utf8.encode :=
  lossyText_encode _ text (Nat.le_refl _)

theorem fromUtf8Lossy_ne_nil {bytes : List Byte} (h : bytes ≠ []) : fromUtf8Lossy bytes ≠ [] := by
  cases bytes with
  | nil => exact absurd rfl h
  | cons first rest =>
    obtain ⟨n, text, hturn, htext⟩ := lossyText_turn rest.length first rest
    intro hnil
    have hempty := (List.append_eq_nil_iff.mp (hturn.symm.trans hnil)).1
    rcases htext with rfl | rfl
    · cases hempty
    · cases hempty

theorem newline_notMem_fromUtf8Lossy {bytes : List Byte} (h : LineConsole.newline ∉ bytes) :
    LineConsole.newline ∉ fromUtf8Lossy bytes := by
  intro hmem
  rcases lossyText_mem _ hmem with hmem | hmem
  · exact h hmem
  · exact absurd hmem (by decide)

/-- The byte of a Latin-1 `é`, and the character in UTF-8. -/
example : fromUtf8Lossy [0x63, 0xE9, 0xC3, 0xA9] = [0x63, 0xEF, 0xBF, 0xBD, 0xC3, 0xA9] := by
  decide

namespace ConsoleLine

variable {τ : Type}

def text? : ConsoleLine τ → Option (List Byte)
  | guest text => some text
  | host _ => none

def line? : ConsoleLine τ → Option τ
  | guest _ => none
  | host line => some line

end ConsoleLine

namespace LineConsole

variable {τ : Type} (c : LineConsole τ)

def step (c : LineConsole τ) : ConsoleOp τ → LineConsole τ
  | .guest byte => c.guestByte byte
  | .diag line => c.diag line

def run (c : LineConsole τ) (ops : List (ConsoleOp τ)) : LineConsole τ := ops.foldl step c

def guestLines (c : LineConsole τ) : List (List Byte) := c.printed.filterMap ConsoleLine.text?

def hostLines (c : LineConsole τ) : List τ := c.printed.filterMap ConsoleLine.line?

/-- The console holds the unfinished line of a cut and has printed the text of the others. -/
structure Shows (c : LineConsole τ) (cut : Cut Byte) : Prop where
  held : c.guestLine = cut.held
  lines : c.guestLines = cut.lines.map fromUtf8Lossy

theorem shows_new : Shows (new : LineConsole τ) .nil := ⟨rfl, rfl⟩

/-! ## One operation -/

theorem Shows.flush {c : LineConsole τ} {cut : Cut Byte} (h : c.Shows cut) :
    c.flushGuestLine.Shows cut.flush := by
  unfold flushGuestLine Cut.flush
  rw [← h.held]
  by_cases hline : c.guestLine = []
  · rw [if_pos hline, if_pos hline]
    exact h
  · rw [if_neg hline, if_neg hline]
    refine ⟨rfl, ?_⟩
    unfold writeLine guestLines
    rw [List.filterMap_append, List.map_append, ← h.lines]
    rfl

theorem hostLines_flushGuestLine : c.flushGuestLine.hostLines = c.hostLines := by
  unfold flushGuestLine
  split
  · rfl
  · unfold writeLine hostLines
    rw [List.filterMap_append]
    exact List.append_nil _

theorem guestTail_flushGuestLine : c.flushGuestLine.guestTail = c.guestTail := by
  unfold flushGuestLine
  split <;> rfl

theorem Shows.guestByte {c : LineConsole τ} {cut : Cut Byte} (h : c.Shows cut) (byte : Byte) :
    (c.guestByte byte).Shows (cut.next newline guestLineCap byte) := by
  unfold LineConsole.guestByte Cut.next
  dsimp only
  split
  · exact Shows.flush ⟨h.held, h.lines⟩
  · rw [← h.held]
    split
    · exact Shows.flush ⟨rfl, h.lines⟩
    · exact ⟨rfl, h.lines⟩

theorem hostLines_guestByte (byte : Byte) : (c.guestByte byte).hostLines = c.hostLines := by
  unfold guestByte
  dsimp only
  split
  · exact hostLines_flushGuestLine _
  · split
    · exact hostLines_flushGuestLine _
    · rfl

theorem guestTail_guestByte (byte : Byte) :
    (c.guestByte byte).guestTail = keepLast guestTailCap c.guestTail byte := by
  unfold guestByte
  dsimp only
  split
  · exact guestTail_flushGuestLine _
  · split
    · exact guestTail_flushGuestLine _
    · rfl

theorem hostLines_diag (line : τ) : (c.diag line).hostLines = c.hostLines ++ [line] := by
  unfold diag writeLine hostLines
  exact List.filterMap_append

theorem Shows.diag {c : LineConsole τ} {cut : Cut Byte} (h : c.Shows cut) (line : τ) :
    (c.diag line).Shows cut := by
  refine ⟨h.held, ?_⟩
  unfold LineConsole.diag writeLine guestLines
  rw [List.filterMap_append]
  exact (List.append_nil _).trans h.lines

/-! ## The console of the scripts -/

theorem script_eq (c : LineConsole Diag) : c.script = ⟨c.guestTail, c.hostLines⟩ := by
  unfold script hostLines
  refine congrArg (Console.mk c.guestTail) (congrArg (List.filterMap · c.printed) ?_)
  funext line
  cases line <;> rfl

/-- A script sees the guest's bytes. -/
theorem script_guestByte (c : LineConsole Diag) (byte : Byte) :
    (c.guestByte byte).script = c.script.guestByte byte := by
  rw [script_eq, script_eq, guestTail_guestByte, hostLines_guestByte]
  rfl

theorem script_diag (c : LineConsole Diag) (line : Diag) :
    (c.diag line).script = c.script.diag line := by
  rw [script_eq, script_eq, hostLines_diag]
  rfl

/-! ## A run -/

theorem shows_run {c : LineConsole τ} {cut : Cut Byte} (h : c.Shows cut)
    (ops : List (ConsoleOp τ)) :
    (c.run ops).Shows (cut.feed newline guestLineCap (guestOutput ops)) := by
  unfold run guestOutput
  induction ops generalizing c cut with
  | nil => exact h
  | cons op ops ih =>
    cases op with
    | guest byte => exact ih (h.guestByte byte)
    | diag line => exact ih (h.diag line)

theorem hostLines_run (ops : List (ConsoleOp τ)) :
    (c.run ops).hostLines = c.hostLines ++ diagnostics ops := by
  unfold run diagnostics
  induction ops generalizing c with
  | nil => exact (List.append_nil _).symm
  | cons op ops ih =>
    rw [List.foldl_cons, ih]
    cases op with
    | guest byte => exact congrArg (· ++ _) (hostLines_guestByte c byte)
    | diag line =>
      refine (congrArg (· ++ _) (hostLines_diag c line)).trans ?_
      rw [List.append_assoc]
      rfl

theorem guestTail_run (ops : List (ConsoleOp τ)) :
    (c.run ops).guestTail = (guestOutput ops).foldl (keepLast guestTailCap) c.guestTail := by
  unfold run guestOutput
  induction ops generalizing c with
  | nil => rfl
  | cons op ops ih =>
    rw [List.foldl_cons, ih]
    cases op with
    | guest byte =>
      exact congrArg (List.foldl (keepLast guestTailCap) · _) (guestTail_guestByte c byte)
    | diag line => rfl

/-! ## What a `WAIT` finds -/

/-- Some window is the needle where the needle lies in the tail. -/
theorem guestTailContains_iff (needle : List Byte) :
    c.guestTailContains needle = true ↔ needle ≠ [] ∧ needle <:+: c.guestTail := by
  unfold guestTailContains Console.guestTailContains
  dsimp only
  split
  case isTrue hshort =>
    refine ⟨fun h => absurd h Bool.false_ne_true, fun ⟨hne, hin⟩ => ?_⟩
    exact absurd hin.length_le (Nat.not_le.mpr (hshort.resolve_left hne))
  case isFalse hroom =>
    rw [not_or, Nat.not_lt] at hroom
    rw [List.any_eq_true]
    constructor
    · rintro ⟨i, -, hwindow⟩
      rw [← beq_iff_eq.mp hwindow] at hroom ⊢
      exact ⟨hroom.1, (List.take_prefix _ _).isInfix.trans (List.drop_suffix _ _).isInfix⟩
    · rintro ⟨-, before, rest, htail⟩
      have hlength := congrArg List.length htail
      rw [List.length_append, List.length_append] at hlength
      refine ⟨before.length, List.mem_range.mpr (by omega), beq_iff_eq.mpr ?_⟩
      rw [← htail, List.append_assoc, List.drop_left, List.take_left]

/-! ## The output -/

/-- The lines of a guest's output. -/
def linesOf (bytes : List Byte) : List (List Byte) :=
  (Cut.nil.feed newline guestLineCap bytes).flush.lines

theorem guestLines_drop_run (ops : List (ConsoleOp τ)) :
    ((new.run ops).drop).guestLines = (linesOf (guestOutput ops)).map fromUtf8Lossy :=
  (shows_run shows_new ops).flush.lines

theorem linesOf_shape (bytes : List Byte) :
    ∀ l ∈ linesOf bytes, l ≠ [] ∧ l.length ≤ guestLineCap ∧ newline ∉ l :=
  ((Cut.within_nil (by decide)).feed bytes).flush.lines

theorem linesOf_newline (before rest : List Byte) :
    linesOf (before ++ newline :: rest) = linesOf before ++ linesOf rest :=
  Cut.lines_feed_separator newline guestLineCap _ _ _

theorem flatten_linesOf (bytes : List Byte) :
    (linesOf bytes).flatten = bytes.filter (· ≠ newline) := by
  unfold linesOf
  rw [Cut.lines_flush_flatten, Cut.text_feed]
  rfl

theorem guestOutput_bytes (bytes : List Byte) :
    guestOutput (bytes.map (ConsoleOp.guest : Byte → ConsoleOp τ)) = bytes := by
  unfold guestOutput
  rw [List.filterMap_map]
  exact List.filterMap_some

theorem guestOutput_newline (ops rest : List (ConsoleOp τ)) :
    guestOutput (ops ++ .guest newline :: rest) =
      guestOutput ops ++ newline :: guestOutput rest := by
  unfold guestOutput
  rw [List.filterMap_append]
  rfl

/-- **What the console prints.** Diagnostics are printed as they came. The guest's output is cut
into lines of at most the limit, all its bytes but the newlines, and the lines' texts are what is
printed of it; a line in UTF-8 is its own text, and no text is empty, over three times the limit or
has a newline. A `WAIT` finds what lies in the last bytes of the output. -/
theorem prints_output (ops : List (ConsoleOp τ)) :
    let out := (new.run ops).drop
    let lines := linesOf (guestOutput ops)
    out.hostLines = diagnostics ops ∧
    out.guestLines = lines.map fromUtf8Lossy ∧
    (new.run ((guestOutput ops).map .guest) : LineConsole τ).drop.guestLines = out.guestLines ∧
    lines.flatten = (guestOutput ops).filter (· ≠ newline) ∧
    (∀ l ∈ lines, l ≠ [] ∧ l.length ≤ guestLineCap ∧ newline ∉ l) ∧
    (∀ rest, linesOf (guestOutput (ops ++ .guest newline :: rest)) =
      lines ++ linesOf (guestOutput rest)) ∧
    (∀ l ∈ lines, ∀ text : List Char, l = text.flatMap Utf8.encode → fromUtf8Lossy l = l) ∧
    (∀ text ∈ out.guestLines, text ≠ [] ∧ text.length ≤ 3 * guestLineCap ∧ newline ∉ text) ∧
    ∀ needle, (new.run ops).guestTailContains needle = true ↔
      needle ≠ [] ∧ needle <:+: (guestOutput ops).rtake guestTailCap := by
  intro out lines
  have hprinted : out.guestLines = lines.map fromUtf8Lossy := guestLines_drop_run ops
  have hshape := linesOf_shape (guestOutput ops)
  refine ⟨?_, hprinted, ?_, flatten_linesOf _, hshape, fun rest => ?_, ?_, ?_, fun needle => ?_⟩
  · exact (hostLines_flushGuestLine _).trans (hostLines_run new ops)
  · rw [hprinted, guestLines_drop_run, guestOutput_bytes]
  · rw [guestOutput_newline]
    exact linesOf_newline _ _
  · rintro l - text rfl
    exact fromUtf8Lossy_encode text
  · intro text htext
    rw [hprinted] at htext
    obtain ⟨l, hl, rfl⟩ := List.mem_map.mp htext
    obtain ⟨hne, hlength, hnewline⟩ := hshape l hl
    have hlong := length_lossyText l.length l
    refine ⟨fromUtf8Lossy_ne_nil hne, ?_, newline_notMem_fromUtf8Lossy hnewline⟩
    exact hlong.trans (Nat.mul_le_mul_left 3 hlength)
  · rw [guestTailContains_iff, guestTail_run]
    have htail := foldl_keepLast guestTailCap ([] : List Byte) (guestOutput ops)
    rw [List.nil_append] at htail
    exact iff_of_eq (congrArg (fun tail => needle ≠ [] ∧ needle <:+: tail) htail)

end LineConsole

end M68kMachine
