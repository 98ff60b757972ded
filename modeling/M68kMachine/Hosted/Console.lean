import M68kMachine.Hosted.SerialScript

/-!
# The console

`console.rs`: what the guest writes to its serial port, line by line, and what the runner has to say
itself. `SerialScript.Console` is the part of it that a script sees. A text is its bytes in UTF-8.

* `fromUtf8Lossy` — the text of any bytes
* `LineConsole` — the console
-/

namespace M68kMachine

open SerialScript

/-! ## Text -/

namespace Utf8

/-- `U+FFFD`, in UTF-8. -/
abbrev replacementCharacter : List Byte := [0xEF, 0xBF, 0xBD]

/-- The bytes of the character that a byte begins, 0 where it begins none. -/
def charWidth (first : Byte) : Nat :=
  if first < 0x80 then 1
  else if 0xC2 ≤ first ∧ first ≤ 0xDF then 2
  else if 0xE0 ≤ first ∧ first ≤ 0xEF then 3
  else if 0xF0 ≤ first ∧ first ≤ 0xF4 then 4
  else 0

def isContinuation (b : Byte) : Bool := b &&& 0xC0 = 0x80

/-- Whether `second` can come behind `first`: no overlong form, surrogate or code past
`U+10FFFF`. -/
def secondFits (first second : Byte) : Bool :=
  if first = 0xE0 then 0xA0 ≤ second ∧ second ≤ 0xBF
  else if first = 0xED then 0x80 ≤ second ∧ second ≤ 0x9F
  else if first = 0xF0 then 0x90 ≤ second ∧ second ≤ 0xBF
  else if first = 0xF4 then 0x80 ≤ second ∧ second ≤ 0x8F
  else 0x80 ≤ second ∧ second ≤ 0xBF

/-- How many bytes belong to the character that `first` begins, and whether it is whole. -/
def charFrom (first : Byte) (rest : List Byte) : Nat × Bool :=
  match charWidth first with
  | 1 => (0, true)
  | 2 => if isContinuation (rest.getD 0 0) then (1, true) else (0, false)
  | 3 =>
    if !secondFits first (rest.getD 0 0) then (0, false)
    else if !isContinuation (rest.getD 1 0) then (1, false)
    else (2, true)
  | 4 =>
    if !secondFits first (rest.getD 0 0) then (0, false)
    else if !isContinuation (rest.getD 1 0) then (1, false)
    else if !isContinuation (rest.getD 2 0) then (2, false)
    else (3, true)
  | _ => (0, false)

end Utf8

/-- The turns of `String::from_utf8_lossy`, of which there are no more than bytes. -/
def lossyText : Nat → List Byte → List Byte
  | 0, _ => []
  | _, [] => []
  | turns + 1, first :: rest =>
    let (n, whole) := Utf8.charFrom first rest
    (if whole then first :: rest.take n else Utf8.replacementCharacter) ++
      lossyText turns (rest.drop n)

/-- `String::from_utf8_lossy`: each stretch that is not UTF-8 becomes `U+FFFD`. -/
def fromUtf8Lossy (bytes : List Byte) : List Byte := lossyText bytes.length bytes

/-! ## The console -/

/-- A line that is printed, under `GUEST |` or under `host  |`. -/
inductive ConsoleLine (τ : Type)
  | guest (text : List Byte)
  | host (line : τ)

structure LineConsole (τ : Type) where
  guestLine : List Byte
  guestTail : List Byte
  printed : List (ConsoleLine τ)

namespace LineConsole

variable {τ : Type}

def new : LineConsole τ := ⟨[], [], []⟩

def writeLine (c : LineConsole τ) (line : ConsoleLine τ) : LineConsole τ :=
  { c with printed := c.printed ++ [line] }

def diag (c : LineConsole τ) (line : τ) : LineConsole τ := c.writeLine (.host line)

def flushGuestLine (c : LineConsole τ) : LineConsole τ :=
  if c.guestLine = [] then c
  else { c with guestLine := [] }.writeLine (.guest (fromUtf8Lossy c.guestLine))

abbrev newline : Byte := 0x0A

/-- The guard against a flood of bytes that no newline ends. -/
abbrev guestLineCap : Nat := 512

/-- A byte the guest wrote to `SERDAT`. -/
def guestByte (c : LineConsole τ) (byte : Byte) : LineConsole τ :=
  let guestTail := c.guestTail ++ [byte]
  let guestTail := if guestTailCap < guestTail.length then guestTail.tail else guestTail
  let c := { c with guestTail }
  if byte = newline then c.flushGuestLine
  else
    let c := { c with guestLine := c.guestLine ++ [byte] }
    if guestLineCap ≤ c.guestLine.length then c.flushGuestLine else c

def guestTailContains (c : LineConsole τ) (needle : List Byte) : Bool :=
  Console.guestTailContains ⟨c.guestTail, []⟩ needle

/-- What a script sees. -/
def script (c : LineConsole Diag) : Console :=
  ⟨c.guestTail, c.printed.filterMap fun | .host line => some line | .guest _ => none⟩

/-- `drop`. -/
def drop (c : LineConsole τ) : LineConsole τ := c.flushGuestLine

end LineConsole

end M68kMachine
