import M68kMachine.Core.Registers

/-!
# The text of a script

What `input_script.rs` and `serial_script.rs` ask of `str`: lines, trimming, splitting at white
space and reading integers. A text is a list of characters.

* `lines`, `trim`, `splitOnce`, `rsplitOnce`, `splitWhitespace`
* `parseUnsigned`, `parseSigned` — the integers of `parse` and `from_str_radix`
* `numbered` — the loop over the lines of a script
-/

namespace M68kMachine

namespace ScriptText

/-- `char::is_whitespace`. -/
def isWhitespace (c : Char) : Bool :=
  let n := c.toNat
  (0x09 ≤ n && n ≤ 0x0D) || n == 0x20 || n == 0x85 || n == 0xA0 || n == 0x1680 ||
    (0x2000 ≤ n && n ≤ 0x200A) || n == 0x2028 || n == 0x2029 || n == 0x202F || n == 0x205F ||
    n == 0x3000

/-! ## Splitting -/

def trimStart (text : List Char) : List Char := text.dropWhile isWhitespace

def trimEnd (text : List Char) : List Char := (text.reverse.dropWhile isWhitespace).reverse

def trim (text : List Char) : List Char := trimEnd (trimStart text)

/-- What stands before and after the first white space. -/
def splitOnce : List Char → Option (List Char × List Char)
  | [] => none
  | c :: text =>
    if isWhitespace c then some ([], text)
    else (splitOnce text).map fun (before, after) => (c :: before, after)

/-- What stands before and after the last white space. -/
def rsplitOnce : List Char → Option (List Char × List Char)
  | [] => none
  | c :: text =>
    match rsplitOnce text with
    | some (before, after) => some (c :: before, after)
    | none => if isWhitespace c then some ([], text) else none

/-- The words of a text. `word` is the one being read, backwards. -/
def wordsFrom : List Char → List Char → List (List Char)
  | word, [] => if word = [] then [] else [word.reverse]
  | word, c :: text =>
    if isWhitespace c then
      if word = [] then wordsFrom [] text else word.reverse :: wordsFrom [] text
    else wordsFrom (c :: word) text

def splitWhitespace (text : List Char) : List (List Char) := wordsFrom [] text

/-- A line without the carriage return before its line feed. `line` is read backwards. -/
def endLine : List Char → List Char
  | '\r' :: line => line.reverse
  | line => line.reverse

def linesFrom : List Char → List Char → List (List Char)
  | line, [] => if line = [] then [] else [line.reverse]
  | line, c :: text =>
    if c = '\n' then endLine line :: linesFrom [] text else linesFrom (c :: line) text

def lines (text : List Char) : List (List Char) := linesFrom [] text

/-! ## Integers -/

/-- `IntErrorKind`, as far as it occurs. -/
inductive ParseIntError
  | empty
  | invalidDigit
  | posOverflow
  | negOverflow
  deriving DecidableEq

/-- `char::to_digit`. -/
def toDigit (radix : Nat) (c : Char) : Option Nat :=
  let n := c.toNat
  let digit :=
    if 0x30 ≤ n ∧ n ≤ 0x39 then some (n - 0x30)
    else if 0x61 ≤ n ∧ n ≤ 0x7A then some (n - 0x61 + 10)
    else if 0x41 ≤ n ∧ n ≤ 0x5A then some (n - 0x41 + 10)
    else none
  digit.filter (· < radix)

/-- Digits from the left, up to a largest magnitude. -/
def parseDigits (radix limit : Nat) (overflow : ParseIntError) :
    Nat → List Char → Except ParseIntError Nat
  | value, [] => .ok value
  | value, c :: text =>
    match toDigit radix c with
    | none => .error .invalidDigit
    | some digit =>
      if limit < value * radix + digit then .error overflow
      else parseDigits radix limit overflow (value * radix + digit) text

/-- `from_str_radix` of an unsigned type. A plus sign is taken, a minus sign is no digit. -/
def parseUnsigned (radix limit : Nat) : List Char → Except ParseIntError Nat
  | [] => .error .empty
  | ['+'] => .error .invalidDigit
  | '+' :: text => parseDigits radix limit .posOverflow 0 text
  | text => parseDigits radix limit .posOverflow 0 text

/-- `parse::<i32>`. -/
def parseSigned (limit : Nat) : List Char → Except ParseIntError Int
  | [] => .error .empty
  | ['+'] => .error .invalidDigit
  | ['-'] => .error .invalidDigit
  | '+' :: text => (parseDigits 10 limit .posOverflow 0 text).map fun n => (n : Int)
  | '-' :: text => (parseDigits 10 (limit + 1) .negOverflow 0 text).map fun n => -(n : Int)
  | text => (parseDigits 10 limit .posOverflow 0 text).map fun n => (n : Int)

abbrev u8Max : Nat := 0xFF
abbrev u32Max : Nat := 0xFFFFFFFF
abbrev u64Max : Nat := 0xFFFFFFFFFFFFFFFF
abbrev i32Max : Nat := 0x7FFFFFFF

/-- `u64::saturating_add`. -/
def saturatingAdd (a b : Nat) : Nat := min (a + b) u64Max

/-- `strip_prefix("0x")`, in either case. -/
def hexDigits : List Char → Option (List Char)
  | '0' :: 'x' :: text => some text
  | '0' :: 'X' :: text => some text
  | _ => none

/-! ## Scripts -/

/-- The directives of a script, line by line. An error carries the number of its line. -/
def numbered {δ ε : Type} (parseLine : List Char → Except ε (List δ)) :
    Nat → List (List Char) → Except (Nat × ε) (List δ)
  | _, [] => .ok []
  | lineno, raw :: rest =>
    let line := trim raw
    if line = [] ∨ line.head? = some '#' then numbered parseLine (lineno + 1) rest
    else
      match parseLine line with
      | .error e => .error (lineno + 1, e)
      | .ok directives => (numbered parseLine (lineno + 1) rest).map (directives ++ ·)

/-! ## What parsing gives -/

variable {α β ε : Type}

theorem ok_of_map {f : α → β} {x : Except ε α} {b : β} (h : x.map f = .ok b) :
    ∃ a, x = .ok a ∧ f a = b := by
  cases x with
  | error e => cases h
  | ok a => exact ⟨a, rfl, Except.ok.inj h⟩

theorem ok_of_bind {f : α → Except ε β} {x : Except ε α} {b : β} (h : x >>= f = .ok b) :
    ∃ a, x = .ok a ∧ f a = .ok b := by
  cases x with
  | error e => cases h
  | ok a => exact ⟨a, rfl, h⟩

/-- What holds of every value a list is mapped to holds of all of them. -/
theorem mapM_forall {P : β → Prop} {f : α → Except ε β} (hf : ∀ a b, f a = .ok b → P b) :
    ∀ (as : List α) (bs : List β), as.mapM f = .ok bs → ∀ b ∈ bs, P b := by
  intro as
  induction as with
  | nil =>
    intro bs h b hb
    cases h
    exact absurd hb List.not_mem_nil
  | cons a as ih =>
    intro bs h b hb
    rw [List.mapM_cons] at h
    obtain ⟨first, hfirst, h⟩ := ok_of_bind h
    obtain ⟨others, hothers, h⟩ := ok_of_bind h
    cases h
    rcases List.mem_cons.mp hb with rfl | hin
    · exact hf a _ hfirst
    · exact ih others hothers b hin

/-- What holds of the directives of every line holds of the directives of a script. -/
theorem numbered_forall {δ : Type} {P : δ → Prop} {parseLine : List Char → Except ε (List δ)}
    (hline : ∀ line directives, parseLine line = .ok directives → ∀ d ∈ directives, P d) :
    ∀ (rest : List (List Char)) (lineno : Nat) (directives : List δ),
      numbered parseLine lineno rest = .ok directives → ∀ d ∈ directives, P d := by
  intro rest
  induction rest with
  | nil =>
    intro lineno directives h d hd
    cases h
    exact absurd hd List.not_mem_nil
  | cons raw rest ih =>
    intro lineno directives h
    unfold numbered at h
    dsimp only at h
    split at h
    · exact ih _ _ h
    · split at h
      · cases h
      · rename_i first hfirst
        obtain ⟨others, hothers, rfl⟩ := ok_of_map h
        intro d hd
        rcases List.mem_append.mp hd with hin | hin
        · exact hline _ _ hfirst d hin
        · exact ih _ _ hothers d hin

end ScriptText

end M68kMachine
