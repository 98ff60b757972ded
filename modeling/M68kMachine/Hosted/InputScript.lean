import M68kMachine.Cards.Input
import M68kMachine.Hosted.ScriptText

/-!
# Input scripts

`input_script.rs`: events from a script, played into the `input` card at frame boundaries. A
directive the card refuses is offered again at the next frame; a character of a `TYPE` is a press
and a release.

* `Directive.fire`, `InputScript.tick` — one frame boundary
* `parseLine`, `InputScript.parse` — the language
-/

namespace M68kMachine

open Input ScriptText

namespace InputScript

inductive Directive
  | keyDown (code : Byte)
  | keyUp (code : Byte)
  | move (x y : Long)
  | buttonDown (id : Byte)
  | buttonUp (id : Byte)
  | charDown (ch : Char)
  | charUp (ch : Char)
  | sleep (frames : Nat)
  deriving DecidableEq

end InputScript

open InputScript

structure InputScript where
  remaining : List Directive
  sleepDeadline : Option Nat

namespace InputScript

def isDone (s : InputScript) : Bool := s.sleepDeadline.isNone && s.remaining.isEmpty

/-! ## Frames -/

/-- One directive at a frame: whether it is accepted, the deadline it sets, and the card. -/
def Directive.fire (frame : Nat) (input : NativeInput) :
    Directive → (Bool × NativeInput) × Option Nat
  | .keyDown code => (input.pushKey code true 0, none)
  | .keyUp code => (input.pushKey code false 0, none)
  | .move x y => (input.pushPointerMotion x y 0, none)
  | .buttonDown id => (input.pushButton id true 0, none)
  | .buttonUp id => (input.pushButton id false 0, none)
  | .charDown ch => (input.pushChar ch true, none)
  | .charUp ch => (input.pushChar ch false, none)
  | .sleep frames => ((true, input), some (saturatingAdd frame frames))

/-- Whether a deadline is still to come. -/
def sleeping (frame : Nat) (sleepDeadline : Option Nat) : Bool :=
  sleepDeadline.any (frame < ·)

/-- The loop of `tick`, up to a later deadline, the end or a directive put back. -/
def loop (frame : Nat) : Option Nat → List Directive → NativeInput → InputScript × NativeInput
  | sleepDeadline, [], input =>
    (⟨[], if sleeping frame sleepDeadline then sleepDeadline else none⟩, input)
  | sleepDeadline, directive :: remaining, input =>
    if sleeping frame sleepDeadline then (⟨directive :: remaining, sleepDeadline⟩, input)
    else
      match directive.fire frame input with
      | ((true, input), sleepDeadline) => loop frame sleepDeadline remaining input
      | ((false, input), _) => (⟨directive :: remaining, none⟩, input)

def tick (s : InputScript) (frame : Nat) (input : NativeInput) : InputScript × NativeInput :=
  loop frame s.sleepDeadline s.remaining input

/-! ## The language -/

/-- Why a line does not parse. -/
inductive ParseError
  /-- `unknown directive`, and the word. -/
  | unknownDirective (other : List Char)
  | keyCode (e : ParseIntError)
  /-- `key code … exceeds MAX_RAW_KEYCODE`. -/
  | keyCodeRange (code : Nat)
  /-- `MOVE: expected <x> <y>`. -/
  | moveExpected
  | moveX (e : ParseIntError)
  | moveY (e : ParseIntError)
  /-- `MOVE: too many arguments`. -/
  | moveArguments
  /-- `MOVE: x … out of i16 range (InputEvent::ie_X)`. -/
  | moveRangeX (x : Int)
  | moveRangeY (y : Int)
  | button (e : ParseIntError)
  /-- `button id … exceeds MAX_BUTTON`. -/
  | buttonRange (id : Nat)
  | charCode (e : ParseIntError)
  /-- `is not a valid Unicode scalar value`. -/
  | charScalar (code : Nat)
  /-- `char: expected a character or 0x<codepoint>`. -/
  | charExpected
  /-- `char: expected exactly one character`. -/
  | charOne (text : List Char)
  /-- `has no Latin-1 representation`; `inType` where a `TYPE` holds it. -/
  | notLatin1 (ch : Char) (inType : Bool)
  /-- `TYPE: expected a double-quoted string`. -/
  | typeQuotes
  /-- `TYPE: unescaped '"' inside the string`. -/
  | typeUnescaped
  /-- `TYPE: unknown escape`. -/
  | typeEscape (other : Char)
  /-- `TYPE: trailing backslash`. -/
  | typeBackslash
  | sleep (e : ParseIntError)
  deriving DecidableEq

/-- An integer, with the error its caller makes of a failure. -/
def orError {α : Type} (e : ParseIntError → ParseError) :
    Except ParseIntError α → Except ParseError α :=
  Except.mapError e

def parseNumeric (text : List Char) : Except ParseIntError Nat :=
  match hexDigits text with
  | some hex => parseUnsigned 16 u32Max hex
  | none => parseUnsigned 10 u32Max text

def parseKeycode (text : List Char) : Except ParseError Byte := do
  let code ← orError .keyCode (parseNumeric text)
  if maxRawKeycode.toNat < code then .error (.keyCodeRange code) else .ok (BitVec.ofNat 8 code)

def parseButton (text : List Char) : Except ParseError Byte :=
  let upper := text.map Char.toUpper
  if upper = "LEFT".toList then .ok Button.left
  else if upper = "RIGHT".toList then .ok Button.right
  else if upper = "MIDDLE".toList then .ok Button.middle
  else do
    let n ← orError .button (parseNumeric upper)
    if maxButton.toNat < n then .error (.buttonRange n) else .ok (BitVec.ofNat 8 n)

def latin1CharOrErr (inType : Bool) (ch : Char) : Except ParseError Char :=
  if (latin1FromChar ch).isSome then .ok ch else .error (.notLatin1 ch inType)

/-- `char::from_u32`. -/
def charFromU32 (code : Nat) : Option Char :=
  if code.isValidChar then some (Char.ofNat code) else none

def parseChar (text : List Char) : Except ParseError Char :=
  match hexDigits text with
  | some hex => do
    let code ← orError .charCode (parseUnsigned 16 u32Max hex)
    match charFromU32 code with
    | none => .error (.charScalar code)
    | some ch => latin1CharOrErr false ch
  | none =>
    match text with
    | [] => .error .charExpected
    | [ch] => latin1CharOrErr false ch
    | text => .error (.charOne text)

/-- The inside of a quoted string. `\n` is a carriage return: the Return key of this platform. -/
def unquote : List Char → Except ParseError (List Char)
  | [] => .ok []
  | '"' :: _ => .error .typeUnescaped
  | ['\\'] => .error .typeBackslash
  | '\\' :: c :: text =>
    match c with
    | '"' => (unquote text).map ('"' :: ·)
    | '\\' => (unquote text).map ('\\' :: ·)
    | 'n' => (unquote text).map ('\r' :: ·)
    | 't' => (unquote text).map ('\t' :: ·)
    | other => .error (.typeEscape other)
  | c :: text => (unquote text).map (c :: ·)

def parseQuoted (text : List Char) : Except ParseError (List Char) :=
  if text.length < 2 ∨ text.head? ≠ some '"' ∨ text.getLast? ≠ some '"' then .error .typeQuotes
  else unquote text.tail.dropLast

/-- A press and a release for each character. -/
def parseType (text : List Char) : Except ParseError (List Directive) := do
  let s ← parseQuoted text
  let pairs ← s.mapM fun ch => do
    let ch ← latin1CharOrErr true ch
    .ok [Directive.charDown ch, Directive.charUp ch]
  .ok pairs.flatten

/-- Whether an `i32` fits the `i16` of `InputEvent`. -/
def fitsI16 (v : Int) : Bool := -32768 ≤ v && v ≤ 32767

def parseMove (text : List Char) : Except ParseError Directive :=
  match splitWhitespace text with
  | [] => .error .moveExpected
  | [x] => do
    let _ ← orError .moveX (parseSigned i32Max x)
    .error .moveExpected
  | x :: y :: rest => do
    let x ← orError .moveX (parseSigned i32Max x)
    let y ← orError .moveY (parseSigned i32Max y)
    if rest ≠ [] then .error .moveArguments
    else if !fitsI16 x then .error (.moveRangeX x)
    else if !fitsI16 y then .error (.moveRangeY y)
    else .ok (.move (BitVec.ofInt 32 x) (BitVec.ofInt 32 y))

def parseLine (line : List Char) : Except ParseError (List Directive) :=
  let (cmd, rest) := (splitOnce line).getD (line, [])
  let rest := trim rest
  if cmd = "KEYDOWN".toList then (parseKeycode rest).map fun code => [.keyDown code]
  else if cmd = "KEYUP".toList then (parseKeycode rest).map fun code => [.keyUp code]
  else if cmd = "MOVE".toList then (parseMove rest).map fun directive => [directive]
  else if cmd = "BUTTONDOWN".toList then (parseButton rest).map fun id => [.buttonDown id]
  else if cmd = "BUTTONUP".toList then (parseButton rest).map fun id => [.buttonUp id]
  else if cmd = "CHARDOWN".toList then (parseChar rest).map fun ch => [.charDown ch]
  else if cmd = "CHARUP".toList then (parseChar rest).map fun ch => [.charUp ch]
  else if cmd = "TYPE".toList then parseType rest
  else if cmd = "SLEEP".toList then
    (orError .sleep (parseUnsigned 10 u64Max rest)).map fun frames => [.sleep frames]
  else .error (.unknownDirective cmd)

def parse (text : List Char) : Except (Nat × ParseError) InputScript :=
  (numbered parseLine 0 (lines text)).map fun remaining => ⟨remaining, none⟩

end InputScript

end M68kMachine
