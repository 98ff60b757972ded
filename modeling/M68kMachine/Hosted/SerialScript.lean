import M68kMachine.Core.Chipset
import M68kMachine.Hosted.ScriptText
import M68kMachine.Library.Loop

/-!
# Serial scripts

`serial_script.rs`: bytes for the guest's serial receiver from a script that may wait for what the
guest prints. A frame boundary hands over one byte at most, and only into a queue that has room.

* `Console` — the tail of the guest's output, from `console.rs`
* `SerialScript.pass`, `SerialScript.tick` — one frame boundary
* `parseLine`, `unescape`, `SerialScript.parse` — the language
-/

namespace M68kMachine

open ScriptText

namespace SerialScript

/-! ## The console -/

/-- What a script reports. -/
inductive Diag
  /-- `WAIT already satisfied`. -/
  | alreadySatisfied (needle : List Byte)
  /-- `WAIT matched`. -/
  | matched (needle : List Byte)
  /-- `WAIT timed out`. -/
  | timedOut (needle : List Byte)
  deriving DecidableEq

abbrev guestTailCap : Nat := 4096

structure Console where
  guestTail : List Byte
  diags : List Diag

namespace Console

def new : Console := ⟨[], []⟩

def diag (c : Console) (line : Diag) : Console := { c with diags := c.diags ++ [line] }

/-- A byte the guest wrote to `SERDAT`. -/
def guestByte (c : Console) (byte : Byte) : Console :=
  let guestTail := c.guestTail ++ [byte]
  { c with guestTail := if guestTailCap < guestTail.length then guestTail.tail else guestTail }

/-- Whether one of the windows of the tail is the needle. -/
def guestTailContains (c : Console) (needle : List Byte) : Bool :=
  if needle = [] ∨ c.guestTail.length < needle.length then false
  else
    (List.range (c.guestTail.length - needle.length + 1)).any fun i =>
      (c.guestTail.drop i).take needle.length == needle

end Console

/-! ## Directives -/

abbrev defaultWaitFrames : Nat := 1000

inductive Directive
  | send (bytes : List Byte)
  | wait (needle : List Byte) (maxFrames : Nat)
  | sleep (frames : Nat)
  deriving DecidableEq

/-- A directive in progress. -/
inductive InFlight
  | send (bytes : List Byte)
  | wait (needle : List Byte) (deadlineFrame : Nat)
  | sleep (deadlineFrame : Nat)
  deriving DecidableEq

end SerialScript

open SerialScript

structure SerialScript where
  remaining : List Directive
  current : Option InFlight

namespace SerialScript

def isDone (s : SerialScript) : Bool := s.current.isNone && s.remaining.isEmpty

/-! ## Frames -/

/-- What `tick` works on. -/
structure Host where
  script : SerialScript
  chipset : Chipset
  console : Console

/-- A directive taken up; `none` for a `WAIT` that is satisfied already. -/
def Directive.takeUp (frame : Nat) (console : Console) : Directive → Option InFlight × Console
  | .send bytes => (some (.send bytes), console)
  | .wait needle maxFrames =>
    if needle.isEmpty || console.guestTailContains needle then
      (none, console.diag (.alreadySatisfied needle))
    else (some (.wait needle (saturatingAdd frame maxFrames)), console)
  | .sleep frames => (some (.sleep (saturatingAdd frame frames)), console)

/-- The second half of the loop's body: a directive in progress ends, or keeps the script. -/
def work (frame : Nat) (remaining : List Directive) (chipset : Chipset) (console : Console) :
    InFlight → Loop.Outcome Host
  | .send [] => .again ⟨⟨remaining, none⟩, chipset, console⟩
  | .send (b :: bytes) =>
    -- one byte per frame, whether or not there was room for it
    if chipset.serialInHasRoom then
      .done ⟨⟨remaining, if bytes.isEmpty then none else some (.send bytes)⟩,
        chipset.pushSerialInByte b, console⟩
    else .done ⟨⟨remaining, some (.send (b :: bytes))⟩, chipset, console⟩
  | .wait needle deadlineFrame =>
    if console.guestTailContains needle then
      .again ⟨⟨remaining, none⟩, chipset, console.diag (.matched needle)⟩
    else if deadlineFrame ≤ frame then
      .again ⟨⟨remaining, none⟩, chipset, console.diag (.timedOut needle)⟩
    else .done ⟨⟨remaining, some (.wait needle deadlineFrame)⟩, chipset, console⟩
  | .sleep deadlineFrame =>
    if deadlineFrame ≤ frame then .again ⟨⟨remaining, none⟩, chipset, console⟩
    else .done ⟨⟨remaining, some (.sleep deadlineFrame)⟩, chipset, console⟩

/-- The body of the loop of `tick`. -/
def pass (frame : Nat) (h : Host) : Loop.Outcome Host :=
  match h.script.current with
  | some flight => work frame h.script.remaining h.chipset h.console flight
  | none =>
    match h.script.remaining with
    | [] => .done h
    | directive :: remaining =>
      match directive.takeUp frame h.console with
      | (some flight, console) => work frame remaining h.chipset console flight
      | (none, console) => .again ⟨⟨remaining, none⟩, h.chipset, console⟩

/-- One frame boundary. Every pass but the last ends a directive, so the bound is not reached. -/
def tick (frame : Nat) (h : Host) : Option Host :=
  Loop.run (pass frame) (h.script.remaining.length + 2) h

/-! ## The language -/

/-- Why a line does not parse. -/
inductive ParseError
  /-- `unknown directive`, and the word. -/
  | unknownDirective (other : List Char)
  | sleep (e : ParseIntError)
  /-- `REPEAT: expected <n> <directive>`. -/
  | repeatExpected
  | repeatCount (e : ParseIntError)
  /-- `REPEAT: nesting REPEAT is not supported`. -/
  | repeatNesting
  | trailingBackslash
  /-- `truncated \xNN escape`. -/
  | truncatedEscape
  /-- `\x escape`. -/
  | escape (e : ParseIntError)
  /-- `unknown escape`. -/
  | unknownEscape (other : Byte)
  deriving DecidableEq

/-- The bytes of a text. -/
def asBytes (text : List Char) : List Byte :=
  text.flatMap fun c => (String.utf8EncodeChar c).map UInt8.toBitVec

/-- Whether a byte stands inside a character. -/
def isContinuation (b : Byte) : Bool := b &&& 0xC0 == 0x80

/-- `\r`, `\n`, `\t`, `\\` and `\xNN`, whose two bytes must end at a character boundary. -/
def unescape : List Byte → Except ParseError (List Byte)
  | [] => .ok []
  | byte :: text =>
    if byte ≠ 0x5C then (unescape text).map (byte :: ·)
    else
      match text with
      | [] => .error .trailingBackslash
      | next :: text =>
        if next = 0x72 then (unescape text).map (0x0D :: ·)
        else if next = 0x6E then (unescape text).map (0x0A :: ·)
        else if next = 0x74 then (unescape text).map (0x09 :: ·)
        else if next = 0x5C then (unescape text).map (0x5C :: ·)
        else if next = 0x78 then
          match text with
          | high :: low :: text =>
            if text.head?.any isContinuation then .error .truncatedEscape
            else
              match parseUnsigned 16 u8Max ([high, low].map fun b => Char.ofNat b.toNat) with
              | .error e => .error (.escape e)
              | .ok value => (unescape text).map (BitVec.ofNat 8 value :: ·)
          | _ => .error .truncatedEscape
        else .error (.unknownEscape next)

/-- The text may hold spaces; its last word is a bound if it reads as one. -/
def parseWait (rest : List Char) : Except ParseError Directive :=
  let unbounded := (unescape (asBytes rest)).map fun needle => .wait needle defaultWaitFrames
  match rsplitOnce rest with
  | none => unbounded
  | some (text, count) =>
    match parseUnsigned 10 u64Max (trim count) with
    | .ok maxFrames => (unescape (asBytes (trimEnd text))).map fun needle => .wait needle maxFrames
    | .error _ => unbounded

/-- The word of a line and what follows it. -/
def command (line : List Char) : List Char × List Char :=
  let (cmd, rest) := (splitOnce line).getD (line, [])
  (cmd, trimStart rest)

/-- A line that is no `REPEAT`. -/
def parseSingle (line : List Char) : Except ParseError (List Directive) :=
  let (cmd, rest) := command line
  if cmd = "SEND".toList then (unescape (asBytes rest)).map fun bytes => [.send bytes]
  else if cmd = "WAIT".toList then (parseWait rest).map fun directive => [directive]
  else if cmd = "SLEEP".toList then
    match parseUnsigned 10 u64Max (trim rest) with
    | .ok frames => .ok [.sleep frames]
    | .error e => .error (.sleep e)
  else .error (.unknownDirective cmd)

/-- `REPEAT <n> <directive>`. The directive is no `REPEAT`, so the parser calls itself once. -/
def parseRepeat (rest : List Char) : Except ParseError (List Directive) :=
  match splitOnce rest with
  | none => .error .repeatExpected
  | some (count, inner) =>
    match parseUnsigned 10 u64Max (trim count) with
    | .error e => .error (.repeatCount e)
    | .ok count =>
      let inner := trimStart inner
      if (splitOnce inner).map Prod.fst = some "REPEAT".toList ∨ inner = "REPEAT".toList then
        .error .repeatNesting
      else (parseSingle inner).map fun expanded => (List.replicate count expanded).flatten

def parseLine (line : List Char) : Except ParseError (List Directive) :=
  let (cmd, rest) := command line
  if cmd = "REPEAT".toList then parseRepeat rest else parseSingle line

def parse (text : List Char) : Except (Nat × ParseError) SerialScript :=
  (numbered parseLine 0 (lines text)).map fun remaining => ⟨remaining, none⟩

end SerialScript

end M68kMachine
