import M68kMachine.Hosted.SerialScript
import M68kMachine.Properties.SerialReceiver

/-!
# A serial script is lossless and paced

A script takes its directives up one after the other. The payload still to be sent, the receive
queue and what the guest read are the payload of the script at any time. A directive that waits
keeps the ones behind it back for a bounded number of frames.

* `textSends`, `payload_of_parse` — the bytes a text asks to be sent
* `Turn`, `tick_spec` — what a frame boundary does
* `toGo`, `tick_toGo` — how much closer to its end a frame boundary brings a script
* `Kept`, `rank_round`, `serial_script_lossless` — every run
-/

namespace M68kMachine.SerialScript

open Loop ScriptText Chipset

/-! ## Payloads -/

def Directive.bytes : Directive → List Byte
  | .send bytes => bytes
  | _ => []

def InFlight.bytes : InFlight → List Byte
  | .send bytes => bytes
  | _ => []

/-- The bytes of the `SEND`s. -/
def payload (script : List Directive) : List Byte := script.flatMap Directive.bytes

/-- The bytes not pushed yet. -/
def pending (s : SerialScript) : List Byte :=
  (s.current.map InFlight.bytes).getD [] ++ payload s.remaining

@[simp] theorem payload_nil : payload [] = [] := rfl

@[simp] theorem payload_cons (d : Directive) (script : List Directive) :
    payload (d :: script) = d.bytes ++ payload script := rfl

@[simp] theorem payload_append (script script' : List Directive) :
    payload (script ++ script') = payload script ++ payload script' := List.flatMap_append

@[simp] theorem pending_none (remaining : List Directive) :
    pending ⟨remaining, none⟩ = payload remaining := rfl

@[simp] theorem pending_some (remaining : List Directive) (f : InFlight) :
    pending ⟨remaining, some f⟩ = f.bytes ++ payload remaining := rfl

theorem payload_replicate (n : Nat) (script : List Directive) :
    payload (List.replicate n script).flatten = (List.replicate n (payload script)).flatten := by
  induction n with
  | zero => rfl
  | succ n ih => simp [List.replicate_succ, ih]

variable {directives : List Directive}

/-- A `REPEAT` sends what its directive sends, that many times. -/
theorem payload_repeat {rest : List Char} (h : parseRepeat rest = .ok directives) :
    ∃ count inner n expanded, splitOnce rest = some (count, inner) ∧
      parseUnsigned 10 ScriptText.u64Max (trim count) = .ok n ∧
      parseSingle (trimStart inner) = .ok expanded ∧
      payload directives = (List.replicate n (payload expanded)).flatten := by
  unfold parseRepeat at h
  split at h
  · cases h
  · rename_i count inner hsplit
    split at h
    · cases h
    · rename_i n hn
      dsimp only at h
      split at h
      · cases h
      · obtain ⟨expanded, hexpanded, rfl⟩ := ok_of_map h
        exact ⟨count, inner, n, expanded, hsplit, hn, hexpanded, payload_replicate n expanded⟩

/-! ## Texts -/

/-- The bytes of a line that is no `REPEAT`. -/
def singleSends (line : List Char) : List Byte :=
  let (cmd, rest) := command line
  if cmd = "SEND".toList then (unescape (asBytes rest)).toOption.getD [] else []

/-- The bytes of a line, a `REPEAT` written out. -/
def lineSends (line : List Char) : List Byte :=
  let (cmd, rest) := command line
  if cmd = "REPEAT".toList then
    match splitOnce rest with
    | none => []
    | some (count, inner) =>
      let n := (parseUnsigned 10 ScriptText.u64Max (trim count)).toOption.getD 0
      (List.replicate n (singleSends (trimStart inner))).flatten
  else singleSends line

/-- The bytes a text asks to be sent: line by line, but for blank lines and comments. -/
def textSends (text : List Char) : List Byte :=
  ((lines text).map trim).flatMap fun line =>
    if line = [] ∨ line.head? = some '#' then [] else lineSends line

variable {d : Directive}

theorem wait_of_parse {rest : List Char} (h : parseWait rest = .ok d) :
    ∃ needle maxFrames, d = .wait needle maxFrames := by
  unfold parseWait at h
  dsimp only at h
  split at h
  · obtain ⟨needle, -, rfl⟩ := ok_of_map h
    exact ⟨needle, _, rfl⟩
  · split at h
    · obtain ⟨needle, -, rfl⟩ := ok_of_map h
      exact ⟨needle, _, rfl⟩
    · obtain ⟨needle, -, rfl⟩ := ok_of_map h
      exact ⟨needle, _, rfl⟩

theorem payload_single {line : List Char} (h : parseSingle line = .ok directives) :
    payload directives = singleSends line := by
  unfold parseSingle at h
  unfold singleSends
  rcases hcommand : command line with ⟨cmd, rest⟩
  rw [hcommand] at h
  dsimp only at h ⊢
  split at h
  · rename_i hsend
    obtain ⟨bytes, hbytes, rfl⟩ := ok_of_map h
    rw [if_pos hsend, hbytes]
    simp [Directive.bytes, Except.toOption]
  · rename_i hsend
    rw [if_neg hsend]
    split at h
    · obtain ⟨d, hd, rfl⟩ := ok_of_map h
      obtain ⟨needle, maxFrames, rfl⟩ := wait_of_parse hd
      rfl
    · split at h
      · split at h
        · cases h
          rfl
        · cases h
      · cases h

theorem payload_line {line : List Char} (h : parseLine line = .ok directives) :
    payload directives = lineSends line := by
  unfold parseLine at h
  unfold lineSends
  rcases hcommand : command line with ⟨cmd, rest⟩
  rw [hcommand] at h
  dsimp only at h ⊢
  split at h
  · rename_i hrepeat
    obtain ⟨count, inner, n, expanded, hsplit, hn, hexpanded, hpayload⟩ := payload_repeat h
    rw [if_pos hrepeat, hsplit, hpayload, payload_single hexpanded]
    dsimp only
    rw [hn]
    rfl
  · rename_i hrepeat
    rw [if_neg hrepeat]
    exact payload_single h

theorem payload_numbered : ∀ (raws : List (List Char)) {lineno : Nat}
    {directives : List Directive}, numbered parseLine lineno raws = .ok directives →
    payload directives = (raws.map trim).flatMap fun line =>
      if line = [] ∨ line.head? = some '#' then [] else lineSends line
  | [], _, _, h => by
    cases h
    rfl
  | raw :: raws, lineno, directives, h => by
    unfold numbered at h
    dsimp only at h
    rw [List.map_cons, List.flatMap_cons]
    split at h
    · rename_i hskip
      rw [if_pos hskip, List.nil_append]
      exact payload_numbered raws h
    · rename_i hskip
      rw [if_neg hskip]
      split at h
      · cases h
      · rename_i first hfirst
        obtain ⟨others, hothers, rfl⟩ := ok_of_map h
        rw [payload_append, payload_line hfirst, payload_numbered raws hothers]

variable {s : SerialScript}

/-- **A script that was read sends what its text asks for**, and has nothing in progress. -/
theorem payload_of_parse {text : List Char} (h : parse text = .ok s) :
    payload s.remaining = textSends text ∧ s.current = none := by
  obtain ⟨remaining, hnumbered, rfl⟩ := ok_of_map h
  exact ⟨payload_numbered _ hnumbered, rfl⟩

/-! ## The end of a directive -/

/-- Its text was seen, or its frames have passed since it was taken up. -/
def Directive.Over (since frame : Nat) (console : Console) : Directive → Prop
  | .send _ => True
  | .wait needle maxFrames =>
    needle = [] ∨ console.guestTailContains needle = true ∨ saturatingAdd since maxFrames ≤ frame
  | .sleep frames => saturatingAdd since frames ≤ frame

/-- Whether a directive holds back what follows it. -/
def Directive.pauses : Directive → Bool
  | .send _ => false
  | _ => true

/-- The same of a directive in progress. -/
def InFlight.Ended (frame : Nat) (console : Console) : InFlight → Prop
  | .send _ => True
  | .wait needle deadlineFrame =>
    console.guestTailContains needle = true ∨ deadlineFrame ≤ frame
  | .sleep deadlineFrame => deadlineFrame ≤ frame

/-- Why a frame boundary leaves a directive in progress. -/
def InFlight.Waits (frame : Nat) (chipset : Chipset) : InFlight → Prop
  | .send _ => chipset.serialInHasRoom = false
  | .wait _ deadlineFrame => frame < deadlineFrame
  | .sleep deadlineFrame => frame < deadlineFrame

/-- A directive in progress comes from one taken up at a frame. -/
def InFlight.Of (d : Directive) (since : Nat) : InFlight → Prop
  | .send _ => d.pauses = false
  | .wait needle deadlineFrame =>
    ∃ maxFrames, d = .wait needle maxFrames ∧ deadlineFrame = saturatingAdd since maxFrames
  | .sleep deadlineFrame => ∃ frames, d = .sleep frames ∧ deadlineFrame = saturatingAdd since frames

variable {f : InFlight} {since frame : Nat}

theorem InFlight.Of.over {console : Console} (h : f.Of d since) (hended : f.Ended frame console) :
    d.Over since frame console := by
  cases f with
  | send bytes =>
    cases d with
    | send _ => trivial
    | wait _ _ => cases h
    | sleep _ => cases h
  | wait needle deadlineFrame =>
    obtain ⟨maxFrames, rfl, rfl⟩ := h
    exact .inr hended
  | sleep deadlineFrame =>
    obtain ⟨frames, rfl, rfl⟩ := h
    exact hended

theorem InFlight.Of.bytes_eq_nil (h : f.Of d since) (hpauses : d.pauses = true) : f.bytes = [] := by
  cases f with
  | send bytes =>
    rw [show d.pauses = false from h] at hpauses
    cases hpauses
  | wait needle deadlineFrame => rfl
  | sleep deadlineFrame => rfl

theorem Directive.bytes_eq_nil (h : d.pauses = true) : d.bytes = [] := by
  cases d with
  | send bytes => cases h
  | wait needle maxFrames => rfl
  | sleep frames => rfl

variable {c c' : Console}

theorem guestTailContains_congr (h : c.guestTail = c'.guestTail) (needle : List Byte) :
    c.guestTailContains needle = c'.guestTailContains needle := by
  unfold Console.guestTailContains
  rw [h]

theorem Directive.Over.congr (h : d.Over since frame c) (htail : c.guestTail = c'.guestTail) :
    d.Over since frame c' := by
  cases d with
  | send bytes => trivial
  | wait needle maxFrames =>
    simpa only [Directive.Over, guestTailContains_congr htail] using h
  | sleep frames => exact h

/-! ## One pass -/

/-- What a frame boundary does to the directives of a script. -/
inductive Turn (frame : Nat) (console : Console) (s t : SerialScript) : Prop
  /-- It gets to the end of a directive. -/
  | idle (took : List Directive) : s.remaining = took ++ t.remaining → t.current = none →
      (∀ f, s.current = some f → f.Ended frame console) →
      (∀ d ∈ took, d.Over frame frame console) → Turn frame console s t
  /-- It stays with the directive in progress. -/
  | stays (f f' : InFlight) : s.current = some f → t.current = some f' →
      s.remaining = t.remaining → (∀ d since, f.Of d since → f'.Of d since) →
      Turn frame console s t
  /-- It takes a directive up and stays with that. -/
  | takes (took : List Directive) (d : Directive) (f : InFlight) :
      s.remaining = took ++ d :: t.remaining → t.current = some f → f.Of d frame →
      (∀ f, s.current = some f → f.Ended frame console) →
      (∀ d ∈ took, d.Over frame frame console) → Turn frame console s t

/-- What a frame boundary does to the receive queue: a byte moves into it at most. -/
def Pushes (h t : Host) : Prop :=
  (t.chipset = h.chipset ∧ t.script.pending = h.script.pending) ∨
    ∃ b, h.chipset.serialInHasRoom = true ∧ t.chipset = h.chipset.pushSerialInByte b ∧
      h.script.pending = b :: t.script.pending

/-- A pass that ends the directive in progress, or one over as soon as it is taken up. -/
structure Ends (frame : Nat) (h u : Host) : Prop where
  current : u.script.current = none
  chipset : u.chipset = h.chipset
  guestTail : u.console.guestTail = h.console.guestTail
  pending : u.script.pending = h.script.pending
  script : (∃ f, h.script.current = some f ∧ f.Ended frame h.console ∧
      h.script.remaining = u.script.remaining) ∨
    ∃ d, h.script.current = none ∧ d.Over frame frame h.console ∧
      h.script.remaining = d :: u.script.remaining

/-- A pass that returns. -/
structure Returns (frame : Nat) (h t : Host) : Prop where
  turn : Turn frame h.console h.script t.script
  guestTail : t.console.guestTail = h.console.guestTail
  pushes : Pushes h t

theorem takeUp_cases (frame : Nat) (console : Console) (d : Directive) :
    (∃ f, d.takeUp frame console = (some f, console) ∧ f.Of d frame ∧ f.bytes = d.bytes) ∨
      ∃ console', d.takeUp frame console = (none, console') ∧
        console'.guestTail = console.guestTail ∧ d.Over frame frame console ∧ d.bytes = [] := by
  cases d with
  | send bytes => exact .inl ⟨.send bytes, rfl, rfl, rfl⟩
  | wait needle maxFrames =>
    by_cases hseen : needle.isEmpty || console.guestTailContains needle
    · refine .inr ⟨console.diag (.alreadySatisfied needle), if_pos hseen, rfl, ?_, rfl⟩
      rcases Bool.or_eq_true_iff.mp hseen with hempty | hcontains
      · exact .inl (List.isEmpty_iff.mp hempty)
      · exact .inr (.inl hcontains)
    · exact .inl ⟨.wait needle (saturatingAdd frame maxFrames), if_neg hseen,
        ⟨maxFrames, rfl, rfl⟩, rfl⟩
  | sleep frames => exact .inl ⟨.sleep (saturatingAdd frame frames), rfl, ⟨frames, rfl, rfl⟩, rfl⟩

/-- A directive in progress ends, stays as it is, or loses a byte to the queue. -/
theorem work_cases (frame : Nat) (remaining : List Directive) (chipset : Chipset)
    (console : Console) (f : InFlight) :
    (∃ console', work frame remaining chipset console f =
        .again ⟨⟨remaining, none⟩, chipset, console'⟩ ∧
      console'.guestTail = console.guestTail ∧ f.Ended frame console ∧ f.bytes = []) ∨
    (work frame remaining chipset console f = .done ⟨⟨remaining, some f⟩, chipset, console⟩ ∧
      f.Waits frame chipset) ∨
    ∃ b bytes, f = .send (b :: bytes) ∧ chipset.serialInHasRoom = true ∧
      work frame remaining chipset console f =
        .done ⟨⟨remaining, if bytes.isEmpty then none else some (.send bytes)⟩,
          chipset.pushSerialInByte b, console⟩ := by
  cases f with
  | send bytes =>
    cases bytes with
    | nil => exact .inl ⟨console, rfl, rfl, trivial, rfl⟩
    | cons b bytes =>
      by_cases hroom : chipset.serialInHasRoom = true
      · exact .inr (.inr ⟨b, bytes, rfl, hroom, if_pos hroom⟩)
      · exact .inr (.inl ⟨if_neg hroom, Bool.eq_false_iff.mpr hroom⟩)
  | wait needle deadlineFrame =>
    by_cases hseen : console.guestTailContains needle = true
    · exact .inl ⟨console.diag (.matched needle), if_pos hseen, rfl, .inl hseen, rfl⟩
    · by_cases hlate : deadlineFrame ≤ frame
      · exact .inl ⟨console.diag (.timedOut needle), by simp [work, hseen, hlate], rfl,
          .inr hlate, rfl⟩
      · exact .inr (.inl ⟨by simp [work, hseen, hlate], Nat.not_le.mp hlate⟩)
  | sleep deadlineFrame =>
    by_cases hlate : deadlineFrame ≤ frame
    · exact .inl ⟨console, if_pos hlate, rfl, hlate, rfl⟩
    · exact .inr (.inl ⟨if_neg hlate, Nat.not_le.mp hlate⟩)

/-- The directive in progress after a byte was pushed. -/
theorem pending_sent (remaining : List Directive) (b : Byte) (bytes : List Byte) :
    pending ⟨remaining, some (.send (b :: bytes))⟩ =
      b :: pending ⟨remaining, if bytes.isEmpty then none else some (.send bytes)⟩ := by
  cases bytes with
  | nil => rfl
  | cons c bytes => rfl

/-- **A pass ends a directive and goes round again, or returns.** -/
theorem pass_cases (frame : Nat) (h : Host) :
    (∃ u, pass frame h = .again u ∧ Ends frame h u) ∨
      ∃ t, pass frame h = .done t ∧ Returns frame h t := by
  obtain ⟨⟨remaining, current⟩, chipset, console⟩ := h
  cases current with
  | some f =>
    rcases work_cases frame remaining chipset console f with
      ⟨console', hwork, htail, hended, hbytes⟩ | ⟨hwork, -⟩ | ⟨b, bytes, rfl, hroom, hwork⟩
    · refine .inl ⟨_, hwork, rfl, rfl, htail, ?_, .inl ⟨f, rfl, hended, rfl⟩⟩
      simp [hbytes]
    · exact .inr ⟨_, hwork, .stays f f rfl rfl rfl fun _ _ hof => hof, rfl, .inl ⟨rfl, rfl⟩⟩
    · refine .inr ⟨_, hwork, ?_, rfl, .inr ⟨b, hroom, rfl, pending_sent remaining b bytes⟩⟩
      cases bytes with
      | nil => exact .idle [] rfl rfl (by rintro f ⟨⟩; trivial) (by simp)
      | cons c bytes => exact .stays _ _ rfl rfl rfl fun _ _ hof => hof
  | none =>
    cases remaining with
    | nil =>
      exact .inr ⟨_, rfl, .idle [] rfl rfl (by simp) (by simp), rfl, .inl ⟨rfl, rfl⟩⟩
    | cons d remaining =>
      rcases takeUp_cases frame console d with
        ⟨f, htake, hof, hsame⟩ | ⟨console', htake, htail, hover, hbytes⟩
      · have hpass : pass frame ⟨⟨d :: remaining, none⟩, chipset, console⟩ =
            work frame remaining chipset console f := by
          simp only [pass, htake]
        rcases work_cases frame remaining chipset console f with
          ⟨console', hwork, htail, hended, hbytes⟩ | ⟨hwork, -⟩ | ⟨b, bytes, rfl, hroom, hwork⟩
        · refine .inl ⟨_, hpass.trans hwork, rfl, rfl, htail, ?_,
            .inr ⟨d, rfl, hof.over hended, rfl⟩⟩
          simp [← hsame, hbytes]
        · refine .inr ⟨_, hpass.trans hwork, .takes [] d f rfl rfl hof (by simp) (by simp), rfl,
            .inl ⟨rfl, ?_⟩⟩
          simp [hsame]
        · refine .inr ⟨_, hpass.trans hwork, ?_, rfl, .inr ⟨b, hroom, rfl, ?_⟩⟩
          · cases bytes with
            | nil => exact .idle [d] rfl rfl (by simp) (by simpa using hof.over trivial)
            | cons c bytes => exact .takes [] d _ rfl rfl hof (by simp) (by simp)
          · rw [← pending_sent]
            simp [hsame]
      · refine .inl ⟨⟨⟨remaining, none⟩, chipset, console'⟩, by simp only [pass, htake], rfl, rfl,
          htail, ?_, .inr ⟨d, rfl, hover, rfl⟩⟩
        simp [hbytes]

/-! ## One frame boundary -/

/-- How many directives a script has left, with the one in progress. -/
def left (s : SerialScript) : Nat := s.remaining.length + s.current.isSome.toNat

theorem Ends.left_lt {h u : Host} (hends : Ends frame h u) : left u.script < left h.script := by
  unfold left
  rw [hends.current]
  rcases hends.script with ⟨f, hcurrent, -, hremaining⟩ | ⟨d, hcurrent, -, hremaining⟩
  · simp [hcurrent, hremaining]
  · simp [hcurrent, hremaining]

/-- **A frame boundary ends**, whatever the script, the queue and the output are. -/
theorem run_returns (frame : Nat) (fuel : Nat) (h : Host) (hfuel : left h.script < fuel) :
    ∃ t, Loop.run (pass frame) fuel h = some t := by
  induction fuel generalizing h with
  | zero => omega
  | succ fuel ih =>
    rcases pass_cases frame h with ⟨u, hpass, hends⟩ | ⟨t, hpass, -⟩
    · obtain ⟨t, ht⟩ := ih u (by have := hends.left_lt; omega)
      exact ⟨t, by simpa only [Loop.run, hpass] using ht⟩
    · exact ⟨t, by simp only [Loop.run, hpass]⟩

theorem tick_returns (frame : Nat) (h : Host) : ∃ t, tick frame h = some t := by
  refine run_returns frame _ h ?_
  have : h.script.current.isSome.toNat ≤ 1 := Bool.toNat_le _
  unfold left
  omega

/-- A pass that ended a directive, and what came after it. -/
theorem Ends.turn {h u : Host} {t : SerialScript} (hends : Ends frame h u)
    (hturn : Turn frame u.console u.script t) : Turn frame h.console h.script t := by
  have hover : ∀ took : List Directive, (∀ d ∈ took, d.Over frame frame u.console) →
      ∀ d ∈ took, d.Over frame frame h.console :=
    fun took hall d hd => (hall d hd).congr hends.guestTail
  rcases hends.script with ⟨f, hcurrent, hended, hremaining⟩ | ⟨d, hcurrent, hd, hremaining⟩
  · have hfirst : ∀ f, h.script.current = some f → f.Ended frame h.console := by
      intro f' hf'
      rw [hcurrent] at hf'
      cases hf'
      exact hended
    cases hturn with
    | idle took hsplit hnone _ hall =>
      exact .idle took (hremaining.trans hsplit) hnone hfirst (hover took hall)
    | stays f f' hf => rw [hends.current] at hf; cases hf
    | takes took d f hsplit hf hof _ hall =>
      exact .takes took d f (hremaining.trans hsplit) hf hof hfirst (hover took hall)
  · have hfirst : ∀ f, h.script.current = some f → f.Ended frame h.console := by
      intro f hf
      rw [hcurrent] at hf
      cases hf
    have hcons : ∀ took : List Directive, (∀ d ∈ took, d.Over frame frame u.console) →
        ∀ x ∈ d :: took, x.Over frame frame h.console := by
      intro took hall x hx
      rcases List.mem_cons.mp hx with rfl | hx
      · exact hd
      · exact hover took hall x hx
    cases hturn with
    | idle took hsplit hnone _ hall =>
      exact .idle (d :: took) (by rw [hremaining, hsplit]; rfl) hnone hfirst (hcons took hall)
    | stays f f' hf => rw [hends.current] at hf; cases hf
    | takes took d' f hsplit hf hof _ hall =>
      exact .takes (d :: took) d' f (by rw [hremaining, hsplit]; rfl) hf hof hfirst
        (hcons took hall)

variable {t : Host}

/-- **What a frame boundary does**: it ends directives, and pushes a byte at most. -/
theorem run_spec (fuel : Nat) {h : Host} (hrun : Loop.run (pass frame) fuel h = some t) :
    Returns frame h t := by
  induction fuel generalizing h with
  | zero => cases hrun
  | succ fuel ih =>
    rcases pass_cases frame h with ⟨u, hpass, hends⟩ | ⟨t', hpass, hreturns⟩
    · rw [Loop.run, hpass] at hrun
      obtain ⟨hturn, htail, hpushes⟩ := ih hrun
      refine ⟨hends.turn hturn, htail.trans hends.guestTail, ?_⟩
      unfold Pushes at hpushes ⊢
      rwa [hends.chipset, hends.pending] at hpushes
    · rw [Loop.run, hpass] at hrun
      cases hrun
      exact hreturns

theorem tick_spec {h : Host} (htick : tick frame h = some t) : Returns frame h t :=
  run_spec _ htick

/-! ## Progress -/

/-- How many frame boundaries a directive may take, and one more. -/
def Directive.cost : Directive → Nat
  | .send bytes => bytes.length + 1
  | .wait _ maxFrames => maxFrames + 2
  | .sleep frames => frames + 2

/-- The same of the directive in progress, from a frame on. -/
def InFlight.due (next : Nat) : InFlight → Nat
  | .send bytes => bytes.length + 1
  | .wait _ deadlineFrame => (deadlineFrame + 1 - next) + 1
  | .sleep deadlineFrame => (deadlineFrame + 1 - next) + 1

def cost (script : List Directive) : Nat := (script.map Directive.cost).sum

/-- The same of a script. -/
def toGo (next : Nat) (s : SerialScript) : Nat :=
  (s.current.map (InFlight.due next)).getD 0 + cost s.remaining

@[simp] theorem toGo_none (next : Nat) (remaining : List Directive) :
    toGo next ⟨remaining, none⟩ = cost remaining := Nat.zero_add _

@[simp] theorem toGo_some (next : Nat) (remaining : List Directive) (f : InFlight) :
    toGo next ⟨remaining, some f⟩ = f.due next + cost remaining := rfl

@[simp] theorem cost_cons (d : Directive) (script : List Directive) :
    cost (d :: script) = d.cost + cost script := by
  simp [cost]

theorem Directive.cost_pos (d : Directive) : 0 < d.cost := by
  cases d with
  | send bytes => exact Nat.succ_pos _
  | wait needle maxFrames => exact Nat.succ_pos _
  | sleep frames => exact Nat.succ_pos _

theorem InFlight.due_pos (next : Nat) (f : InFlight) : 0 < f.due next := by
  cases f with
  | send bytes => exact Nat.succ_pos _
  | wait needle deadlineFrame => exact Nat.succ_pos _
  | sleep deadlineFrame => exact Nat.succ_pos _

/-- Later there is less to wait for. -/
theorem InFlight.due_le {next : Nat} (h : next ≤ frame) (f : InFlight) :
    f.due frame ≤ f.due next := by
  cases f with
  | send bytes => exact Nat.le_refl _
  | wait needle deadlineFrame =>
    simp only [due]
    omega
  | sleep deadlineFrame =>
    simp only [due]
    omega

theorem toGo_le {next : Nat} (h : next ≤ frame) (s : SerialScript) :
    toGo frame s ≤ toGo next s := by
  obtain ⟨remaining, current⟩ := s
  cases current with
  | none => simp
  | some f =>
    have := f.due_le h
    simp only [toGo_some]
    omega

/-- A directive taken up is due no later than it costs. -/
theorem InFlight.Of.due_le (h : f.Of d frame) (hbytes : f.bytes = d.bytes) :
    f.due frame ≤ d.cost := by
  have hsum : ∀ n, saturatingAdd frame n ≤ frame + n := fun n => Nat.min_le_left _ _
  cases f with
  | send bytes =>
    cases d with
    | send bytes' =>
      obtain rfl : bytes = bytes' := hbytes
      exact Nat.le_refl _
    | wait _ _ => cases h
    | sleep _ => cases h
  | wait needle deadlineFrame =>
    obtain ⟨maxFrames, rfl, rfl⟩ := h
    have := hsum maxFrames
    simp only [due, Directive.cost]
    omega
  | sleep deadlineFrame =>
    obtain ⟨frames, rfl, rfl⟩ := h
    have := hsum frames
    simp only [due, Directive.cost]
    omega

/-- Nothing is left to do for a script that is done only. -/
theorem eq_of_toGo {next : Nat} (h : toGo next s = 0) : s = ⟨[], none⟩ := by
  obtain ⟨remaining, current⟩ := s
  cases current with
  | some f =>
    have := f.due_pos next
    simp only [toGo_some] at h
    omega
  | none =>
    cases remaining with
    | nil => rfl
    | cons d remaining =>
      have := d.cost_pos
      simp only [toGo_none, cost_cons] at h
      omega

/-- With room for a byte, a directive in progress brings the script forward. -/
theorem work_toGo (frame : Nat) (remaining : List Directive) (chipset : Chipset)
    (console : Console) (f : InFlight) :
    (∃ u, work frame remaining chipset console f = .again u ∧ u.chipset = chipset ∧
      toGo frame u.script = cost remaining) ∨
    ∃ t, work frame remaining chipset console f = .done t ∧
      toGo (frame + 1) t.script ≤ f.due frame + cost remaining ∧
      (chipset.serialInHasRoom = true →
        toGo (frame + 1) t.script < f.due frame + cost remaining) := by
  rcases work_cases frame remaining chipset console f with
    ⟨console', hwork, -, -, -⟩ | ⟨hwork, hwaits⟩ | ⟨b, bytes, rfl, -, hwork⟩
  · exact .inl ⟨_, hwork, rfl, toGo_none _ _⟩
  · refine .inr ⟨_, hwork, ?_, fun hroom => ?_⟩
    · have : f.due (frame + 1) ≤ f.due frame := f.due_le (Nat.le_succ frame)
      simp only [toGo_some]
      omega
    · -- with room, it is a deadline that is still to come
      simp only [toGo_some]
      refine Nat.add_lt_add_right ?_ _
      cases f with
      | send bytes =>
        rw [show chipset.serialInHasRoom = false from hwaits] at hroom
        cases hroom
      | wait needle deadlineFrame =>
        have : frame < deadlineFrame := hwaits
        simp only [InFlight.due]
        omega
      | sleep deadlineFrame =>
        have : frame < deadlineFrame := hwaits
        simp only [InFlight.due]
        omega
  · have hless : toGo (frame + 1)
        ⟨remaining, if bytes.isEmpty then none else some (.send bytes)⟩ <
          (InFlight.send (b :: bytes)).due frame + cost remaining := by
      cases bytes with
      | nil =>
        show toGo (frame + 1) ⟨remaining, none⟩ < 2 + cost remaining
        rw [toGo_none]
        omega
      | cons c bytes =>
        show bytes.length + 1 + 1 + cost remaining < bytes.length + 1 + 1 + 1 + cost remaining
        omega
    exact .inr ⟨_, hwork, Nat.le_of_lt hless, fun _ => hless⟩

/-- A pass that ends a directive brings the script forward, and any does with room for a byte. -/
theorem pass_toGo (frame : Nat) (h : Host) :
    (∃ u, pass frame h = .again u ∧ u.chipset = h.chipset ∧
      toGo frame u.script < toGo frame h.script) ∨
    ∃ t, pass frame h = .done t ∧ toGo (frame + 1) t.script ≤ toGo frame h.script ∧
      (h.chipset.serialInHasRoom = true →
        toGo (frame + 1) t.script ≤ toGo frame h.script - 1) := by
  obtain ⟨⟨remaining, current⟩, chipset, console⟩ := h
  cases current with
  | some f =>
    have hpos := f.due_pos frame
    simp only [toGo_some]
    rcases work_toGo frame remaining chipset console f with
      ⟨u, hwork, hchipset, hgo⟩ | ⟨t, hwork, hle, hlt⟩
    · exact .inl ⟨u, hwork, hchipset, by omega⟩
    · refine .inr ⟨t, hwork, hle, fun hroom => ?_⟩
      have := hlt hroom
      omega
  | none =>
    cases remaining with
    | nil => exact .inr ⟨_, rfl, Nat.le_refl _, fun _ => Nat.le_refl _⟩
    | cons d remaining =>
      have hpos := d.cost_pos
      simp only [toGo_none, cost_cons]
      rcases takeUp_cases frame console d with
        ⟨f, htake, hof, hsame⟩ | ⟨console', htake, -, -, -⟩
      · have hdue := hof.due_le hsame
        have hpass : pass frame ⟨⟨d :: remaining, none⟩, chipset, console⟩ =
            work frame remaining chipset console f := by
          simp only [pass, htake]
        rcases work_toGo frame remaining chipset console f with
          ⟨u, hwork, hchipset, hgo⟩ | ⟨t, hwork, hle, hlt⟩
        · exact .inl ⟨u, hpass.trans hwork, hchipset, by omega⟩
        · refine .inr ⟨t, hpass.trans hwork, by omega, fun hroom => ?_⟩
          have := hlt hroom
          omega
      · refine .inl ⟨⟨⟨remaining, none⟩, chipset, console'⟩, by simp only [pass, htake], rfl, ?_⟩
        rw [toGo_none]
        omega

theorem run_toGo (fuel : Nat) {h : Host} (hrun : Loop.run (pass frame) fuel h = some t) :
    toGo (frame + 1) t.script ≤ toGo frame h.script ∧
      (h.chipset.serialInHasRoom = true →
        toGo (frame + 1) t.script ≤ toGo frame h.script - 1) := by
  induction fuel generalizing h with
  | zero => cases hrun
  | succ fuel ih =>
    rcases pass_toGo frame h with ⟨u, hpass, hchipset, hlt⟩ | ⟨t', hpass, hreturns⟩
    · rw [Loop.run, hpass] at hrun
      obtain ⟨hle, hless⟩ := ih hrun
      rw [hchipset] at hless
      exact ⟨by omega, fun hroom => by have := hless hroom; omega⟩
    · rw [Loop.run, hpass] at hrun
      cases hrun
      exact hreturns

/-- **A frame boundary with room for a byte brings a script closer to its end.** -/
theorem tick_toGo {next : Nat} {h : Host} (hnext : next ≤ frame) (htick : tick frame h = some t) :
    toGo (frame + 1) t.script ≤ toGo next h.script ∧
      (h.chipset.serialInHasRoom = true →
        toGo (frame + 1) t.script ≤ toGo next h.script - 1) := by
  obtain ⟨hle, hless⟩ := run_toGo _ htick
  have hmono := toGo_le hnext h.script
  exact ⟨by omega, fun hroom => by have := hless hroom; omega⟩

/-! ## Sessions -/

/-- A frame boundary that was serviced. -/
structure Tick where
  frame : Nat
  before : Host
  after : Host

/-- What else happens to the chipset, where only the script pushes bytes. -/
structure Elsewhere where
  apply : Chipset → Chipset
  serialInBuf : ∀ c, (apply c).serialInBuf = c.serialInBuf
  serialInOverrun : ∀ c, (apply c).serialInOverrun = c.serialInOverrun

inductive Step
  | frame (n : Nat)
  /-- The guest reads `SERDATR`. -/
  | serdatr
  /-- The guest's output reaches the console. -/
  | output (byte : Byte)
  | elsewhere (f : Elsewhere)

structure Session where
  host : Host
  /-- What the reads of `SERDATR` returned. -/
  reads : List Word
  ticks : List Tick

namespace Session

def start (script : SerialScript) : Session :=
  ⟨⟨script, Chipset.new, Console.new⟩, [], []⟩

def step (s : Session) : Step → Session
  | .frame n =>
    match tick n s.host with
    | some t => { s with host := t, ticks := s.ticks ++ [⟨n, s.host, t⟩] }
    | none => s
  | .serdatr =>
    let (value, chipset) := s.host.chipset.read Reg.serdatr
    { s with host := { s.host with chipset := chipset }, reads := s.reads ++ [value] }
  | .output byte => { s with host := { s.host with console := s.host.console.guestByte byte } }
  | .elsewhere f => { s with host := { s.host with chipset := f.apply s.host.chipset } }

end Session

/-- The bytes of the reads that have `RBF` set. -/
def received (reads : List Word) : List Byte :=
  reads.filterMap fun value => if value.getLsbD 14 then some (value.setWidth 8) else none

section Paced

variable (script : List Directive)

/-- How many directives of the script were taken up. -/
def taken (s : SerialScript) : Nat := script.length - s.remaining.length

/-- How many of them are over. -/
def finished (s : SerialScript) : Nat := taken script s - s.current.isSome.toNat

/-- How many bytes of the payload were pushed. -/
def pushed (s : SerialScript) : Nat := (payload script).length - s.pending.length

/-- The frame boundary takes the directive at a position up. -/
def Tick.Takes (t : Tick) (i : Nat) : Prop :=
  taken script t.before.script ≤ i ∧ i < taken script t.after.script

/-- A directive was taken up at a frame boundary, and over at that or a later one. -/
def Waited (ticks : List Tick) (i : Nat) (d : Directive) : Prop :=
  ∃ (m k : Nat) (c a : Tick), m ≤ k ∧ ticks[m]? = some c ∧ ticks[k]? = some a ∧
    c.Takes script i ∧ d.Over c.frame a.frame a.before.console

/-- No byte behind a pausing directive is pushed at a frame boundary before that is over. -/
def Paced (ticks : List Tick) : Prop :=
  ∀ before b after, ticks = before ++ b :: after → ∀ i d, script[i]? = some d →
    d.pauses = true → (payload (script.take i)).length < pushed script b.after.script →
    Waited script (before ++ [b]) i d

/-- Where a script stands, by the frame boundaries that were serviced. -/
structure Placed (s : SerialScript) (ticks : List Tick) : Prop where
  suffix : ∃ front, script = front ++ s.remaining
  current : ∀ f, s.current = some f → ∃ (i : Nat) (d : Directive) (c : Tick),
    taken script s = i + 1 ∧ script[i]? = some d ∧ c ∈ ticks ∧ c.Takes script i ∧ f.Of d c.frame
  ended : ∀ i d, script[i]? = some d → i < finished script s → Waited script ticks i d

/-- What a session keeps. -/
structure Kept (s : Session) : Prop where
  lossless : received s.reads ++ s.host.chipset.queued ++ s.host.script.pending = payload script
  overrun : s.host.chipset.serialInOverrun = false
  reads : ∀ value ∈ s.reads, value.getLsbD 15 = false
  single : ∀ t ∈ s.ticks, t.after.chipset.queued = t.before.chipset.queued ∨
    ∃ b, t.after.chipset.queued = t.before.chipset.queued ++ [b]
  placed : Placed script s.host.script s.ticks
  paced : Paced script s.ticks

end Paced

variable {script : List Directive} {ticks : List Tick} {i : Nat} {front : List Directive} {n : Nat}

theorem Waited.append (h : Waited script ticks i d) (more : List Tick) :
    Waited script (ticks ++ more) i d := by
  obtain ⟨m, k, c, a, hle, hc, ha, htakes, hover⟩ := h
  have hkeep : ∀ {n : Nat} {t : Tick}, ticks[n]? = some t → (ticks ++ more)[n]? = some t := by
    intro n t ht
    obtain ⟨hn, -⟩ := List.getElem?_eq_some_iff.mp ht
    rwa [List.getElem?_append_left hn]
  exact ⟨m, k, c, a, hle, hkeep hc, hkeep ha, htakes, hover⟩

theorem Paced.snoc {b : Tick} (h : Paced script ticks)
    (hlast : ∀ i d, script[i]? = some d → d.pauses = true →
      (payload (script.take i)).length < pushed script b.after.script →
      Waited script (ticks ++ [b]) i d) : Paced script (ticks ++ [b]) := by
  intro before b' after hsplit
  rcases List.eq_nil_or_concat after with rfl | ⟨after, last, rfl⟩
  · obtain ⟨rfl, hb⟩ := List.append_inj' hsplit rfl
    cases hb
    exact hlast
  · have hsplit' : ticks ++ [b] = (before ++ b' :: after) ++ [last] := by simpa using hsplit
    obtain ⟨rfl, -⟩ := List.append_inj' hsplit' rfl
    exact h before b' after rfl

theorem taken_of_suffix (h : script = front ++ s.remaining) : taken script s = front.length := by
  unfold taken
  rw [h, List.length_append, Nat.add_sub_cancel]

theorem pushed_of_suffix (h : script = front ++ s.remaining) :
    pushed script s =
      (payload front).length - ((s.current.map InFlight.bytes).getD []).length := by
  have hpayload : (payload script).length =
      (payload front).length + (payload s.remaining).length := by
    conv_lhs => rw [h]
    simp
  unfold pushed pending
  rw [hpayload, List.length_append]
  omega

theorem length_payload_take_le {rest : List Directive} (h : front.length ≤ i) :
    (payload front).length ≤ (payload ((front ++ rest).take i)).length := by
  rw [List.take_append, List.take_of_length_le h]
  simp

/-- A byte behind a directive that pauses is pushed only when that directive is over. -/
theorem finished_of_pushed (h : Placed script s ticks) (hd : script[i]? = some d)
    (hpauses : d.pauses = true) (hlt : (payload (script.take i)).length < pushed script s) :
    i < finished script s := by
  obtain ⟨front, hfront⟩ := h.suffix
  have htaken := taken_of_suffix hfront
  rw [pushed_of_suffix hfront] at hlt
  unfold finished
  by_contra hnot
  rcases Nat.lt_or_ge i front.length with hin | hge
  · -- it is the one in progress, and what came before it was sent
    cases hcurrent : s.current with
    | none =>
      rw [hcurrent] at hnot
      simp only [Option.isSome_none, Bool.toNat_false] at hnot
      omega
    | some f =>
      obtain ⟨j, d', c, hj, hd', -, -, hof⟩ := h.current f hcurrent
      rw [hcurrent] at hnot
      simp only [Option.isSome_some, Bool.toNat_true] at hnot
      obtain rfl : j = i := by omega
      rw [hd] at hd'
      cases hd'
      have hlast : front[j]? = some d := by rwa [hfront, List.getElem?_append_left hin] at hd
      have hsplit : front = front.take j ++ [d] := by
        obtain ⟨hj', hget⟩ := List.getElem?_eq_some_iff.mp hlast
        rw [← hget, List.take_concat_get' front j hj', List.take_of_length_le (by omega)]
      have htake : script.take j = front.take j := by
        rw [hfront, List.take_append_of_le_length (by omega)]
      rw [htake] at hlt
      have hsame : (payload front).length = (payload (front.take j)).length := by
        conv_lhs => rw [hsplit]
        simp [Directive.bytes_eq_nil hpauses]
      omega
  · have hle : (payload front).length ≤ (payload (script.take i)).length := by
      rw [hfront]
      exact length_payload_take_le hge
    omega

/-! ## One frame boundary of a session -/

/-- The directives up to the last one taken up are over. -/
theorem waited_of_took {h : Host} (hplaced : Placed script h.script ticks)
    {took rest : List Directive} (hsplit : h.script.remaining = took ++ rest)
    (hended : ∀ f, h.script.current = some f → f.Ended n h.console)
    (hover : ∀ d ∈ took, d.Over n n h.console)
    (hrest : taken script h.script + took.length ≤ taken script t.script) :
    ∀ i d, script[i]? = some d → i < taken script h.script + took.length →
      Waited script (ticks ++ [⟨n, h, t⟩]) i d := by
  intro i d hd hi
  obtain ⟨front, hfront⟩ := hplaced.suffix
  have htaken := taken_of_suffix hfront
  have hnew : (ticks ++ [(⟨n, h, t⟩ : Tick)])[ticks.length]? = some ⟨n, h, t⟩ := by
    simp
  rcases Nat.lt_or_ge i (finished script h.script) with hfin | hfin
  · exact (hplaced.ended i d hd hfin).append _
  · rcases Nat.lt_or_ge i (taken script h.script) with hold | hfresh
    · -- the one in progress
      unfold finished at hfin
      cases hcurrent : h.script.current with
      | none =>
        rw [hcurrent] at hfin
        simp only [Option.isSome_none, Bool.toNat_false] at hfin
        omega
      | some f =>
        obtain ⟨j, d', c, hj, hd', hc, htakes, hof⟩ := hplaced.current f hcurrent
        rw [hcurrent] at hfin
        simp only [Option.isSome_some, Bool.toNat_true] at hfin
        obtain rfl : j = i := by omega
        rw [hd] at hd'
        cases hd'
        obtain ⟨m, hm, hget⟩ := List.mem_iff_getElem.mp hc
        refine ⟨m, ticks.length, c, ⟨n, h, t⟩, by omega, ?_, hnew, htakes,
          hof.over (hended f hcurrent)⟩
        rw [List.getElem?_append_left hm, List.getElem?_eq_getElem hm, hget]
    · -- one taken up at this boundary
      have hmem : d ∈ took := by
        have hat : took[i - front.length]? = some d := by
          rw [hfront, List.getElem?_append_right (by omega), hsplit,
            List.getElem?_append_left (by omega)] at hd
          exact hd
        exact List.mem_of_getElem? hat
      exact ⟨ticks.length, ticks.length, ⟨n, h, t⟩, ⟨n, h, t⟩, Nat.le_refl _, hnew,
        hnew, ⟨hfresh, Nat.lt_of_lt_of_le hi hrest⟩, hover d hmem⟩

/-- What a frame boundary keeps of the directives. -/
theorem Placed.turn {h : Host} (hplaced : Placed script h.script ticks)
    (hturn : Turn n h.console h.script t.script) :
    Placed script t.script (ticks ++ [⟨n, h, t⟩]) := by
  obtain ⟨front, hfront⟩ := hplaced.suffix
  have htaken := taken_of_suffix hfront
  cases hturn with
  | idle took hsplit hnone hended hover =>
    have hall : script = (front ++ took) ++ t.script.remaining := by
      rw [List.append_assoc, ← hsplit]
      exact hfront
    have htaken' := taken_of_suffix hall
    rw [List.length_append] at htaken'
    refine ⟨⟨_, hall⟩, ?_, ?_⟩
    · intro f hf
      rw [hnone] at hf
      cases hf
    · intro i d hd hi
      unfold finished at hi
      exact waited_of_took hplaced hsplit hended hover (by omega) i d hd (by omega)
  | stays f f' hf hf' hsame hof =>
    have hall : script = front ++ t.script.remaining := by rwa [← hsame]
    have htaken' := taken_of_suffix hall
    refine ⟨⟨_, hall⟩, ?_, ?_⟩
    · intro g hg
      rw [hf'] at hg
      cases hg
      obtain ⟨i, d, c, hi, hd, hc, htakes, hold⟩ := hplaced.current f hf
      exact ⟨i, d, c, by omega, hd, List.mem_append_left _ hc, htakes, hof d c.frame hold⟩
    · intro i d hd hi
      refine (hplaced.ended i d hd ?_).append _
      unfold finished at hi ⊢
      rw [hf'] at hi
      rw [hf]
      simp only [Option.isSome_some, Bool.toNat_true] at hi ⊢
      omega
  | takes took d f hsplit hf hof hended hover =>
    have hall : script = (front ++ took ++ [d]) ++ t.script.remaining := by
      simp only [List.append_assoc, List.singleton_append]
      rw [← hsplit]
      exact hfront
    have htaken' := taken_of_suffix hall
    simp only [List.length_append, List.length_singleton] at htaken'
    refine ⟨⟨_, hall⟩, ?_, ?_⟩
    · intro g hg
      rw [hf] at hg
      cases hg
      refine ⟨front.length + took.length, d, ⟨n, h, t⟩, htaken', ?_, by simp, ?_, hof⟩
      · rw [hall, List.append_assoc, List.getElem?_append_right (by simp)]
        simp
      · exact ⟨by show taken script h.script ≤ _; omega,
          by show _ < taken script t.script; omega⟩
    · intro i d' hd' hi
      unfold finished at hi
      rw [hf] at hi
      simp only [Option.isSome_some, Bool.toNat_true] at hi
      exact waited_of_took hplaced hsplit hended hover (by omega) i d' hd' (by omega)

theorem hasRoom_iff (c : Chipset) :
    c.serialInHasRoom = true ↔ c.queued.length < serialInBufCap := by
  unfold serialInHasRoom queued
  rw [decide_eq_true_iff, RingBuffer.length_toList]

/-- What a frame boundary keeps of the bytes. -/
theorem queued_pushes {h : Host} (hpushes : Pushes h t) :
    t.chipset.queued ++ t.script.pending = h.chipset.queued ++ h.script.pending ∧
      t.chipset.serialInOverrun = h.chipset.serialInOverrun ∧
      (t.chipset.queued = h.chipset.queued ∨
        ∃ b, t.chipset.queued = h.chipset.queued ++ [b]) := by
  rcases hpushes with ⟨hchipset, hpending⟩ | ⟨b, hroom, hchipset, hpending⟩
  · rw [hchipset, hpending]
    exact ⟨rfl, rfl, .inl rfl⟩
  · obtain ⟨hqueue, -, hoverrun⟩ := pushSerialInByte_of_room ((hasRoom_iff _).mp hroom) b
    rw [hchipset, hqueue, hpending]
    exact ⟨by simp, hoverrun, .inr ⟨b, rfl⟩⟩

theorem kept_frame {s : Session} (h : Kept script s) (n : Nat) :
    Kept script (s.step (.frame n)) := by
  obtain ⟨t, htick⟩ := tick_returns n s.host
  have hstep : s.step (.frame n) =
      { s with host := t, ticks := s.ticks ++ [⟨n, s.host, t⟩] } := by
    simp only [Session.step, htick]
  obtain ⟨hturn, -, hpushes⟩ := tick_spec htick
  obtain ⟨hbytes, hoverrun, hsingle⟩ := queued_pushes hpushes
  have hplaced := h.placed.turn hturn
  rw [hstep]
  refine ⟨?_, hoverrun.trans h.overrun, h.reads, ?_, hplaced, ?_⟩
  · show received s.reads ++ t.chipset.queued ++ t.script.pending = payload script
    rw [List.append_assoc, hbytes, ← List.append_assoc]
    exact h.lossless
  · intro b hb
    rcases List.mem_append.mp hb with hold | hnew
    · exact h.single b hold
    · obtain rfl := List.mem_singleton.mp hnew
      exact hsingle
  · exact h.paced.snoc fun i d hd hpauses hlt =>
      hplaced.ended i d hd (finished_of_pushed hplaced hd hpauses hlt)

/-! ## Runs -/

theorem received_snoc (reads : List Word) (value : Word) :
    received (reads ++ [value]) = received reads ++
      (if value.getLsbD 14 then some (value.setWidth 8) else none : Option Byte).toList := by
  unfold received
  rw [List.filterMap_append, List.filterMap_cons, List.filterMap_nil]
  cases (if value.getLsbD 14 then some (value.setWidth 8) else none : Option Byte) <;> rfl

theorem kept_serdatr {s : Session} (h : Kept script s) : Kept script (s.step .serdatr) := by
  have hlossless := h.lossless
  have hreads : ∀ value, value.getLsbD 15 = false →
      ∀ v ∈ s.reads ++ [value], v.getLsbD 15 = false := by
    intro value hvalue v hv
    rcases List.mem_append.mp hv with hold | hnew
    · exact h.reads v hold
    · obtain rfl := List.mem_singleton.mp hnew
      exact hvalue
  have hovrun : (s.host.chipset.read Reg.serdatr).1.getLsbD 15 = false := by
    cases hqueue : s.host.chipset.queued with
    | nil =>
      rw [(read_serdatr_nil hqueue).1]
      rfl
    | cons b rest => exact (read_serdatr_cons hqueue).2.2.1.trans h.overrun
  refine ⟨?_, overrun_read_serdatr _, hreads _ hovrun, h.single, h.placed, h.paced⟩
  · show received (s.reads ++ [(s.host.chipset.read Reg.serdatr).1]) ++
        (s.host.chipset.read Reg.serdatr).2.queued ++ s.host.script.pending = payload script
    rw [received_snoc]
    cases hqueue : s.host.chipset.queued with
    | nil =>
      obtain ⟨hvalue, hrest⟩ := read_serdatr_nil hqueue
      rw [hqueue] at hlossless
      rw [hvalue, hrest]
      exact (by simpa using hlossless)
    | cons b rest =>
      obtain ⟨hrbf, hbyte, -, hrest⟩ := read_serdatr_cons hqueue
      rw [hqueue] at hlossless
      rw [hrest, if_pos hrbf, hbyte]
      simpa using hlossless

theorem kept_step {s : Session} (h : Kept script s) (op : Step) : Kept script (s.step op) := by
  cases op with
  | frame n => exact kept_frame h n
  | serdatr => exact kept_serdatr h
  | output byte => exact ⟨h.lossless, h.overrun, h.reads, h.single, h.placed, h.paced⟩
  | elsewhere f =>
    refine ⟨?_, (f.serialInOverrun _).trans h.overrun, h.reads, h.single, h.placed, h.paced⟩
    have hqueue : (f.apply s.host.chipset).queued = s.host.chipset.queued :=
      congrArg RingBuffer.toList (f.serialInBuf _)
    show received s.reads ++ (f.apply s.host.chipset).queued ++ _ = payload script
    rw [hqueue]
    exact h.lossless

theorem kept_start : Kept script (Session.start ⟨script, none⟩) where
  lossless := rfl
  overrun := rfl
  reads := by simp [Session.start]
  single := by simp [Session.start]
  placed := by
    refine ⟨⟨[], rfl⟩, by simp [Session.start], fun i d _ hi => ?_⟩
    simp [finished, taken, Session.start] at hi
  paced := by
    intro before b after hsplit
    simp [Session.start] at hsplit

/-! ## Rounds -/

/-- The frames of a schedule. -/
def frames (steps : List Step) : List Nat :=
  steps.filterMap fun
    | .frame n => some n
    | _ => none

/-- A part of a schedule with a frame boundary and a read of `SERDATR`. -/
def Round (steps : List Step) : Prop := (∃ n, .frame n ∈ steps) ∧ .serdatr ∈ steps

/-- The first frame that was not serviced yet. -/
def Session.next (s : Session) : Nat := (s.ticks.getLast?.map fun t => t.frame + 1).getD 0

/-- A frame boundary comes after those serviced before. -/
def Session.Later (s : Session) (op : Step) : Prop := ∀ n, op = .frame n → s.next ≤ n

/-- What is left to be done: a byte not pushed is to be pushed and read. -/
def rank (s : Session) : Nat := 2 * toGo s.next s.host.script + s.host.chipset.queued.length

theorem each_later : ∀ (steps : List Step) {s : Session}, (frames steps).Pairwise (· < ·) →
    (∀ n ∈ frames steps, s.next ≤ n) → Transition.Each Session.step Session.Later s steps
  | [], _, _, _ => Transition.each_nil
  | op :: steps, s, hpairs, hnext => by
    refine Transition.each_cons.mpr ?_
    cases op with
    | frame n =>
      obtain ⟨hlater, hpairs⟩ := List.pairwise_cons.mp hpairs
      obtain ⟨t, htick⟩ := tick_returns n s.host
      have hafter : (s.step (.frame n)).next = n + 1 := by
        simp [Session.step, htick, Session.next]
      refine ⟨fun m hm => ?_, each_later steps hpairs fun m hm => ?_⟩
      · cases hm
        exact hnext n List.mem_cons_self
      · rw [hafter]
        exact hlater m hm
    | serdatr => exact ⟨fun m hm => (by cases hm), each_later steps hpairs hnext⟩
    | output byte => exact ⟨fun m hm => (by cases hm), each_later steps hpairs hnext⟩
    | elsewhere f => exact ⟨fun m hm => (by cases hm), each_later steps hpairs hnext⟩

/-- A frame boundary brings the end closer, unless the queue is full or the script is done. -/
theorem rank_frame {s : Session} (hlater : s.next ≤ n) :
    rank (s.step (.frame n)) ≤ rank s ∧
      (s.host.chipset.serialInHasRoom = true → toGo s.next s.host.script ≠ 0 →
        rank (s.step (.frame n)) < rank s) ∧
      (s.host.chipset.queued ≠ [] → (s.step (.frame n)).host.chipset.queued ≠ []) := by
  obtain ⟨t, htick⟩ := tick_returns n s.host
  obtain ⟨hle, hless⟩ := tick_toGo hlater htick
  have hstep : s.step (.frame n) =
      { s with host := t, ticks := s.ticks ++ [⟨n, s.host, t⟩] } := by
    simp only [Session.step, htick]
  have hrank : rank (s.step (.frame n)) =
      2 * toGo (n + 1) t.script + t.chipset.queued.length := by
    simp [hstep, rank, Session.next]
  have hhost : (s.step (.frame n)).host = t := by rw [hstep]
  rw [hrank, hhost]
  unfold rank
  rcases (tick_spec htick).pushes with ⟨hchipset, -⟩ | ⟨b, hroom, hchipset, hpending⟩
  · rw [hchipset]
    refine ⟨by omega, fun hroom hgo => ?_, id⟩
    have := hless hroom
    omega
  · have hgo : toGo s.next s.host.script ≠ 0 := by
      intro hgo
      rw [eq_of_toGo hgo] at hpending
      cases hpending
    have hqueue := (pushSerialInByte_of_room ((hasRoom_iff _).mp hroom) b).1
    have hlower := hless hroom
    rw [hchipset, hqueue, List.length_append, List.length_singleton]
    exact ⟨by omega, fun _ _ => by omega, fun _ => by simp⟩

/-- A read of `SERDATR` brings the end closer, unless nothing is queued. -/
theorem rank_serdatr (s : Session) : rank (s.step .serdatr) ≤ rank s ∧
    (s.host.chipset.queued ≠ [] → rank (s.step .serdatr) < rank s) := by
  show 2 * toGo s.next s.host.script + (s.host.chipset.read Reg.serdatr).2.queued.length ≤ _ ∧
    (_ → 2 * toGo s.next s.host.script + (s.host.chipset.read Reg.serdatr).2.queued.length < _)
  unfold rank
  cases hqueue : s.host.chipset.queued with
  | nil =>
    rw [(read_serdatr_nil hqueue).2]
    exact ⟨Nat.le_refl _, fun h => absurd rfl h⟩
  | cons b rest =>
    rw [(read_serdatr_cons hqueue).2.2.2, List.length_cons]
    exact ⟨by omega, fun _ => by omega⟩

theorem queued_elsewhere (f : Elsewhere) (c : Chipset) : (f.apply c).queued = c.queued :=
  congrArg RingBuffer.toList (f.serialInBuf c)

theorem rank_elsewhere (s : Session) (f : Elsewhere) :
    rank (s.step (.elsewhere f)) = rank s := by
  unfold rank
  show _ + (f.apply s.host.chipset).queued.length = _
  rw [queued_elsewhere]
  rfl

theorem rank_step {s : Session} {op : Step} (hlater : s.Later op) :
    rank (s.step op) ≤ rank s := by
  cases op with
  | frame n => exact (rank_frame (hlater n rfl)).1
  | serdatr => exact (rank_serdatr s).1
  | output byte => exact Nat.le_refl _
  | elsewhere f => exact Nat.le_of_eq (rank_elsewhere s f)

theorem rank_run : ∀ (steps : List Step) {s : Session},
    Transition.Each Session.step Session.Later s steps →
    rank (Transition.run Session.step s steps) ≤ rank s
  | [], _, _ => Nat.le_refl _
  | op :: steps, _, h => by
    obtain ⟨hop, hsteps⟩ := Transition.each_cons.mp h
    exact (rank_run steps hsteps).trans (rank_step hop)

/-- With a byte queued, the first read takes one. -/
theorem rank_of_read : ∀ (steps : List Step) {s : Session},
    Transition.Each Session.step Session.Later s steps → .serdatr ∈ steps →
    s.host.chipset.queued ≠ [] → rank (Transition.run Session.step s steps) < rank s
  | [], _, _, hread, _ => absurd hread List.not_mem_nil
  | op :: steps, s, h, hread, hqueue => by
    obtain ⟨hop, hsteps⟩ := Transition.each_cons.mp h
    rw [Transition.run_cons]
    have hmore : op ≠ .serdatr → .serdatr ∈ steps := by
      intro hne
      rcases List.mem_cons.mp hread with heq | hin
      · exact absurd heq.symm hne
      · exact hin
    cases op with
    | serdatr => exact Nat.lt_of_le_of_lt (rank_run steps hsteps) ((rank_serdatr s).2 hqueue)
    | frame n =>
      obtain ⟨hle, -, hkeeps⟩ := rank_frame (hop n rfl)
      exact Nat.lt_of_lt_of_le
        (rank_of_read steps hsteps (hmore (by simp)) (hkeeps hqueue)) hle
    | output byte => exact rank_of_read steps hsteps (hmore (by simp)) hqueue
    | elsewhere f =>
      have hkept : (s.step (.elsewhere f)).host.chipset.queued ≠ [] := by
        show (f.apply s.host.chipset).queued ≠ []
        rwa [queued_elsewhere]
      exact (rank_elsewhere s f) ▸ rank_of_read steps hsteps (hmore (by simp)) hkept

/-- With nothing queued, the first frame boundary finds room. -/
theorem rank_of_frame : ∀ (steps : List Step) {s : Session},
    Transition.Each Session.step Session.Later s steps → (∃ n, .frame n ∈ steps) →
    s.host.chipset.queued = [] → toGo s.next s.host.script ≠ 0 →
    rank (Transition.run Session.step s steps) < rank s
  | [], _, _, ⟨_, hframe⟩, _, _ => absurd hframe List.not_mem_nil
  | op :: steps, s, h, ⟨n, hframe⟩, hqueue, hgo => by
    obtain ⟨hop, hsteps⟩ := Transition.each_cons.mp h
    rw [Transition.run_cons]
    have hmore : op ≠ .frame n → ∃ n, .frame n ∈ steps := by
      intro hne
      rcases List.mem_cons.mp hframe with heq | hin
      · exact absurd heq.symm hne
      · exact ⟨n, hin⟩
    cases op with
    | frame m =>
      have hroom : s.host.chipset.serialInHasRoom = true := by
        rw [hasRoom_iff, hqueue]
        exact Nat.succ_pos _
      exact Nat.lt_of_le_of_lt (rank_run steps hsteps)
        ((rank_frame (hop m rfl)).2.1 hroom hgo)
    | serdatr =>
      have hempty : (s.step .serdatr).host.chipset.queued = [] := (read_serdatr_nil hqueue).2
      exact Nat.lt_of_lt_of_le (rank_of_frame steps hsteps (hmore (by simp)) hempty hgo)
        (rank_serdatr s).1
    | output byte => exact rank_of_frame steps hsteps (hmore (by simp)) hqueue hgo
    | elsewhere f =>
      have hempty : (s.step (.elsewhere f)).host.chipset.queued = [] :=
        (queued_elsewhere f _).trans hqueue
      exact (rank_elsewhere s f) ▸ rank_of_frame steps hsteps (hmore (by simp)) hempty hgo

/-- **A round brings the end closer**, by its read or by its frame boundary. -/
theorem rank_round (s : Session) (steps : List Step) (hround : Round steps)
    (h : Transition.Each Session.step Session.Later s steps) :
    rank (Transition.run Session.step s steps) ≤ rank s - 1 := by
  by_cases hqueue : s.host.chipset.queued = []
  · by_cases hgo : toGo s.next s.host.script = 0
    · have hrank : rank s = 0 := by
        unfold rank
        rw [hgo, hqueue]
        rfl
      have := rank_run steps h
      omega
    · have := rank_of_frame steps h hround.1 hqueue hgo
      omega
  · have := rank_of_read steps h hround.2 hqueue
    omega

/-- A session with nothing left to be done. -/
theorem Kept.received_of_rank {s : Session} (h : Kept script s) (hrank : rank s = 0) :
    received s.reads = payload script := by
  unfold rank at hrank
  have hscript := eq_of_toGo (show toGo s.next s.host.script = 0 by omega)
  have hqueue : s.host.chipset.queued = [] := List.length_eq_zero_iff.mp (by omega)
  have hlossless := h.lossless
  rw [hscript, hqueue] at hlossless
  simpa using hlossless

/-- **A serial script is lossless and paced.** Whatever the frames, the reads of `SERDATR` and what
the guest prints, the bytes read, queued and still to be sent are the `SEND`s of the text with its
`REPEAT`s written out, and enough rounds of a frame and a read bring all across; nothing is overrun;
a frame boundary pushes a byte at most, and none from behind a `WAIT` or a `SLEEP` before that was
matched or its deadline reached; and it always ends. -/
theorem serial_script_lossless {text : List Char} {script : SerialScript}
    (h : parse text = .ok script) (steps : List Step) :
    let s := Transition.run Session.step (Session.start script) steps
    received s.reads ++ s.host.chipset.queued ++ s.host.script.pending = textSends text ∧
      (∀ rounds : List (List Step), steps = rounds.flatten → (∀ r ∈ rounds, Round r) →
        (frames steps).Pairwise (· < ·) → 2 * cost script.remaining ≤ rounds.length →
        received s.reads = textSends text) ∧
      (s.host.script.isDone = true → s.host.chipset.queued = [] →
        received s.reads = textSends text) ∧
      s.host.chipset.serialInOverrun = false ∧ (∀ value ∈ s.reads, value.getLsbD 15 = false) ∧
      (∀ t ∈ s.ticks, t.after.chipset.queued = t.before.chipset.queued ∨
        ∃ b, t.after.chipset.queued = t.before.chipset.queued ++ [b]) ∧
      Paced script.remaining s.ticks ∧
      ∀ frame h, ∃ t, tick frame h = some t := by
  intro s
  obtain ⟨remaining, current⟩ := script
  obtain ⟨hpayload, hcurrent⟩ := payload_of_parse h
  obtain rfl : current = none := hcurrent
  have hkept : Kept remaining s :=
    Transition.run_invariant (P := Kept remaining) (fun _ op hs => kept_step hs op) steps kept_start
  rw [← hpayload]
  refine ⟨hkept.lossless, fun rounds hrounds hround hframes henough => ?_, fun hdone hqueue => ?_,
    hkept.overrun, hkept.reads, hkept.single, hkept.paced, tick_returns⟩
  · refine hkept.received_of_rank (Nat.le_zero.mp ?_)
    have heach := each_later (s := Session.start ⟨remaining, none⟩) steps hframes
      fun n _ => Nat.zero_le n
    have hstart : rank (Session.start ⟨remaining, none⟩) = 2 * cost remaining := by
      unfold rank
      show 2 * toGo 0 ⟨remaining, none⟩ + 0 = _
      rw [toGo_none, Nat.add_zero]
    have hrank := Transition.run_rounds rank_round rounds hround (hrounds ▸ heach)
    rw [hstart, ← hrounds] at hrank
    have : 2 * cost remaining ≤ rounds.length := henough
    exact hrank.trans (by omega)
  · have hpending : s.host.script.pending = [] := by
      obtain ⟨hcurrent, hremaining⟩ := Bool.and_eq_true_iff.mp hdone
      unfold pending
      rw [Option.isNone_iff_eq_none.mp hcurrent, List.isEmpty_iff.mp hremaining]
      rfl
    have hlossless := hkept.lossless
    rwa [hqueue, hpending, List.append_nil, List.append_nil] at hlossless

/-- A repeated line, a prompt to wait for and a pause. -/
def boot : List Char := "REPEAT 2 SEND a\\r\nWAIT > 1\nSLEEP 1\n# run it\nSEND ok".toList

/-- A frame boundary and a read, over and over. -/
def readings : List (List Step) := (List.range 30).map fun n => [.frame n, .serdatr]

/-- The reads return the bytes of the text, though the prompt never comes. -/
theorem serial_script_lossless_boot : ∃ script, parse boot = .ok script ∧
    received (Transition.run Session.step (Session.start script) readings.flatten).reads =
      [0x61, 0x0D, 0x61, 0x0D, 0x6F, 0x6B] := by
  have hlines : numbered parseLine 0 (lines boot) = .ok [.send [0x61, 0x0D],
      .send [0x61, 0x0D], .wait [0x3E] 1, .sleep 1, .send [0x6F, 0x6B]] := by decide +kernel
  have hparse : parse boot = .ok ⟨[.send [0x61, 0x0D], .send [0x61, 0x0D], .wait [0x3E] 1,
      .sleep 1, .send [0x6F, 0x6B]], none⟩ := by
    unfold parse
    rw [hlines]
    rfl
  have hrounds : ∀ r ∈ readings, Round r := by
    intro r hr
    obtain ⟨n, -, rfl⟩ := List.mem_map.mp hr
    exact ⟨⟨n, List.mem_cons_self⟩, by simp⟩
  have hframes : (frames readings.flatten).Pairwise (· < ·) := by decide
  refine ⟨_, hparse, ?_⟩
  have hreads := (serial_script_lossless hparse readings.flatten).2.1 readings rfl hrounds hframes
    (by decide)
  exact hreads.trans (by decide +kernel)

end M68kMachine.SerialScript
