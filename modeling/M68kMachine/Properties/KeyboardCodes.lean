import M68kMachine.Library.EventTrace
import M68kMachine.Properties.CiaDeadline

/-!
# What the keyboard port does with a code

The events a run has at the keyboard port of `cia.rs`: codes offered, bytes landing in `SDR`, and
the guest's accesses to it.

* `landing` — the byte the next E-clock lands
* `KeyStep` — what a stretch of events says of the states before and after it
* `keyStep_apply`, `keyStep_run` — one operation, and from it every run
* `Awaits`, `queued_code_lands` — a code waiting at the head of the queue, and when it lands
-/

namespace M68kMachine

namespace Cia

open Transition

/-! ## Events -/

inductive KeyEvent
  /-- `queue_keycode` took the code. -/
  | accepted (raw : Byte)
  | dropped (raw : Byte)
  /-- The byte landed in `SDR`. -/
  | loaded (byte : Byte)
  | sdrRead (byte : Byte)
  | sdrWritten (byte : Byte)
  deriving DecidableEq

namespace KeyEvent

/-- What an accepted code is to be loaded as. -/
def enters : KeyEvent → Option Byte
  | accepted raw => some (encodeKeyboardByte raw)
  | _ => none

def loads : KeyEvent → Option Byte
  | loaded byte => some byte
  | _ => none

def isLoad : KeyEvent → Bool
  | loaded _ => true
  | _ => false

def isRead : KeyEvent → Bool
  | sdrRead _ => true
  | _ => false

/-- The contents of `SDR` after an event. -/
def sdrAfter (sdr : Byte) : KeyEvent → Byte
  | loaded byte | sdrWritten byte => byte
  | _ => sdr

end KeyEvent

/-- The state in which an E-clock reaches the keyboard. -/
def afterTimers (c : Cia) : Cia := c.tickTimerA.2.tickTimerB c.tickTimerA.1

/-- The countdown as `tick_keyboard` finds it, once a waiting code has started it. -/
def countdown (c : Cia) : Nat :=
  if c.kbdDelay = 0 ∧ c.kbdLoaded = false ∧ 0 < c.keyboardQueue.len then keyboardHandshakeTicks
  else c.kbdDelay

/-- The byte the next E-clock puts into `SDR`. -/
def landing (c : Cia) : Option Byte :=
  let t := c.afterTimers
  if t.id = .a ∧ t.cra &&& craSpmode = 0 ∧ t.countdown = 1 then
    t.nextKeycode.1.map encodeKeyboardByte
  else none

/-- The bytes that land during `n` E-clocks. -/
def clockEvents : Nat → Cia → List KeyEvent
  | 0, _ => []
  | n + 1, c => (c.landing.map KeyEvent.loaded).toList ++ clockEvents n c.tickOneEclock

/-- The events of an operation. -/
def keyEvents (c : Cia) : Op → List KeyEvent
  | .queueKeycode raw => [if (c.keyboardQueue.push raw).1 then .accepted raw else .dropped raw]
  | .tick m p => clockEvents ((c.carry + m) % 0x100000000 / p) c
  | .read reg => if reg % 16 = Reg.sdr then [.sdrRead (c.read reg).1] else []
  | .write reg value => if reg % 16 = Reg.sdr then [.sdrWritten value] else []
  | .todTick | .drive .. => []

theorem keyEvents_queueKeycode (c : Cia) (raw : Byte) :
    c.keyEvents (.queueKeycode raw) =
      if c.keyboardQueue.toList.length < keyboardQueueLen then [.accepted raw]
      else [.dropped raw] := by
  show [if (c.keyboardQueue.push raw).1 = true then KeyEvent.accepted raw else .dropped raw] = _
  rw [RingBuffer.push_fst]
  split <;> rename_i h
  · rw [if_pos (of_decide_eq_true h)]
  · rw [if_neg fun hroom => h (decide_eq_true hroom)]

/-! ## What stays as it is -/

/-- The keyboard port, left as it is. -/
structure SameKeys (c c' : Cia) : Prop where
  queue : c'.keyboardQueue = c.keyboardQueue
  delay : c'.kbdDelay = c.kbdDelay
  loaded : c'.kbdLoaded = c.kbdLoaded
  sdr : c'.sdr = c.sdr

theorem SameKeys.refl (c : Cia) : SameKeys c c := ⟨rfl, rfl, rfl, rfl⟩

theorem SameKeys.trans {c c' c'' : Cia} (h : SameKeys c c') (h' : SameKeys c' c'') :
    SameKeys c c'' :=
  ⟨h'.queue.trans h.queue, h'.delay.trans h.delay, h'.loaded.trans h.loaded, h'.sdr.trans h.sdr⟩

theorem sameKeys_tickTimerA (c : Cia) : SameKeys c c.tickTimerA.2 := by
  rcases tickTimerA_cases c with ⟨count, h⟩ | ⟨count, cra, -, h⟩
  · rw [h]
    exact ⟨rfl, rfl, rfl, rfl⟩
  · rw [h]
    exact ⟨rfl, rfl, rfl, rfl⟩

theorem sameKeys_tickTimerB (c : Cia) (underflow : Bool) :
    SameKeys c (c.tickTimerB underflow) := by
  rcases tickTimerB_cases c underflow with ⟨-, count, h⟩ | ⟨-, count, crb, -, h⟩
  · rw [h]
    exact ⟨rfl, rfl, rfl, rfl⟩
  · rw [h]
    exact ⟨rfl, rfl, rfl, rfl⟩

theorem sameKeys_afterTimers (c : Cia) : SameKeys c c.afterTimers :=
  (sameKeys_tickTimerA c).trans (sameKeys_tickTimerB _ _)

theorem sameKeys_todTick (c : Cia) : SameKeys c c.todTick := by
  obtain ⟨tod, matching, data, h⟩ := todTick_eq c
  rw [h]
  exact ⟨rfl, rfl, rfl, rfl⟩

variable {c : Cia} {reg : Nat}

/-- Only a read of `SDR` is noticed by the port. -/
theorem sameKeys_read (h : reg % 16 ≠ Reg.sdr) : SameKeys c (c.read reg).2 := by
  unfold read
  split <;> first
    | exact absurd ‹_› h
    | exact ⟨rfl, rfl, rfl, rfl⟩
    | (rw [readTod_snd]; exact ⟨rfl, rfl, rfl, rfl⟩)

theorem sameKeys_write (value : Byte) (h : reg % 16 ≠ Reg.sdr) :
    SameKeys c (c.write reg value) := by
  unfold write
  split <;> first
    | exact absurd ‹_› h
    | exact ⟨rfl, rfl, rfl, rfl⟩
    | (obtain ⟨tod, alarm, stopped, matching, data, h⟩ := writeTod_eq c _ value
       rw [h]
       exact ⟨rfl, rfl, rfl, rfl⟩)
    | (obtain ⟨latch, count, cra, h⟩ := writeTahi_eq c value
       rw [h]
       exact ⟨rfl, rfl, rfl, rfl⟩)
    | (obtain ⟨latch, count, crb, -, h⟩ := writeTbhi_eq c value
       rw [h]
       exact ⟨rfl, rfl, rfl, rfl⟩)

/-! ## One E-clock -/

/-- A code is on its way in only after the last byte was read. -/
def Unread (c : Cia) : Prop := 0 < c.kbdDelay → c.kbdLoaded = false

theorem unread_of_countdown (h : c.Unread) (hpos : 0 < c.countdown) : c.kbdLoaded = false := by
  unfold countdown at hpos
  split at hpos
  · rename_i hstart
    exact hstart.2.1
  · exact h hpos

/-- What an E-clock does at the port: it lands the byte `landing` names, or only counts. -/
structure Clocked (c c' : Cia) (landed : Option Byte) : Prop where
  queue : c.keyboardQueue.toList.map encodeKeyboardByte =
    landed.toList ++ c'.keyboardQueue.toList.map encodeKeyboardByte
  sdr : c'.sdr = landed.getD c.sdr
  loaded : c'.kbdLoaded = (c.kbdLoaded || landed.isSome)
  free : landed.isSome = true → c.kbdLoaded = false
  unread : c'.Unread

variable {c' : Cia}

theorem Clocked.of_sameKeys {t : Cia} {landed : Option Byte} (h : SameKeys c t)
    (ht : Clocked t c' landed) : Clocked c c' landed := by
  obtain ⟨hqueue, hsdr, hloaded, hfree, hunread⟩ := ht
  rw [h.queue] at hqueue
  rw [h.sdr] at hsdr
  rw [h.loaded] at hloaded hfree
  exact ⟨hqueue, hsdr, hloaded, hfree, hunread⟩

theorem clocked_none (h : SameKeys c c') (hunread : c'.Unread) : Clocked c c' none := by
  refine ⟨?_, h.sdr, ?_, nofun, hunread⟩
  · rw [h.queue]
    rfl
  · rw [h.loaded, Option.isSome_none, Bool.or_false]

theorem clocked_landKeycode (h : c.kbdLoaded = false) (hdelay : c.kbdDelay = 0) :
    Clocked c c.landKeycode (c.nextKeycode.1.map encodeKeyboardByte) := by
  have hpop := RingBuffer.toList_pop c.keyboardQueue
  have hhead := RingBuffer.pop_fst c.keyboardQueue
  have hidle : ∀ c' : Cia, c'.kbdDelay = c.kbdDelay → c'.Unread := by
    intro c' hsame hpos
    omega
  unfold landKeycode nextKeycode
  simp only
  cases hcode : c.keyboardQueue.pop.1 with
  | none =>
    rw [hcode] at hhead
    have hnil := List.head?_eq_none_iff.mp hhead.symm
    refine ⟨?_, rfl, ?_, nofun, hidle _ rfl⟩
    · show _ = [] ++ (c.keyboardQueue.pop.2).toList.map encodeKeyboardByte
      rw [hpop, hnil]
      rfl
    · exact (Bool.or_false _).symm
  | some raw =>
    rw [hcode] at hhead
    refine ⟨?_, rfl, ?_, fun _ => h, hidle _ rfl⟩
    · show _ = [encodeKeyboardByte raw] ++ (c.keyboardQueue.pop.2).toList.map encodeKeyboardByte
      rw [hpop, ← List.cons_head?_tail hhead.symm]
      rfl
    · exact (Bool.or_true _).symm

theorem clocked_tickKeyboard (h : c.Unread) :
    Clocked c c.tickKeyboard
      (if c.cra &&& craSpmode = 0 ∧ c.countdown = 1 then
        c.nextKeycode.1.map encodeKeyboardByte
      else none) := by
  have hfree := unread_of_countdown h
  have hdelay : c.tickKeyboard =
      if c.cra &&& craSpmode ≠ 0 then c
      else if c.countdown = 1 then { c with kbdDelay := c.countdown - 1 }.landKeycode
      else { c with kbdDelay := c.countdown - 1 } := rfl
  rw [hdelay]
  by_cases hmode : c.cra &&& craSpmode = 0
  · rw [if_neg (not_not_intro hmode)]
    by_cases hone : c.countdown = 1
    · rw [if_pos hone, if_pos ⟨hmode, hone⟩]
      have hland := clocked_landKeycode (c := { c with kbdDelay := c.countdown - 1 })
        (hfree (by omega)) (by rw [hone])
      exact ⟨hland.queue, hland.sdr, hland.loaded, hland.free, hland.unread⟩
    · rw [if_neg hone, if_neg fun hboth => hone hboth.2]
      refine ⟨rfl, rfl, (Bool.or_false _).symm, nofun, fun hpos => ?_⟩
      have hpos' : 0 < c.countdown - 1 := hpos
      exact hfree (by omega)
  · rw [if_pos hmode, if_neg fun hboth => hmode hboth.1]
    exact clocked_none (SameKeys.refl c) h

theorem Unread.of_sameKeys (h : c.Unread) (hsame : SameKeys c c') : c'.Unread := by
  unfold Unread
  rw [hsame.delay, hsame.loaded]
  exact h

/-- **One E-clock** lands the byte `landing` names, in its turn and into a free `SDR`. -/
theorem clocked_tickOneEclock (h : c.Unread) : Clocked c c.tickOneEclock c.landing := by
  have hsame := sameKeys_afterTimers c
  have ht := h.of_sameKeys hsame
  have hstep : c.tickOneEclock =
      if c.afterTimers.id = .a then c.afterTimers.tickKeyboard else c.afterTimers := rfl
  rw [hstep]
  unfold landing
  simp only
  by_cases hid : c.afterTimers.id = .a
  · rw [if_pos hid]
    simp only [hid, true_and]
    exact (clocked_tickKeyboard ht).of_sameKeys hsame
  · rw [if_neg hid, if_neg fun hall => hid hall.1]
    exact clocked_none hsame ht

/-! ## One operation -/

/-- Codes enter and bytes leave in order; a byte lands only in a free `SDR`, which keeps it. -/
structure KeyStep (c : Cia) (es : List KeyEvent) (c' : Cia) : Prop where
  queue : c.keyboardQueue.toList.map encodeKeyboardByte ++ es.filterMap KeyEvent.enters =
    es.filterMap KeyEvent.loads ++ c'.keyboardQueue.toList.map encodeKeyboardByte
  gated : Gated KeyEvent.isLoad KeyEvent.isRead c.kbdLoaded es
  loaded : es.foldl (gate KeyEvent.isLoad KeyEvent.isRead) c.kbdLoaded = c'.kbdLoaded
  sdr : es.foldl KeyEvent.sdrAfter c.sdr = c'.sdr
  unread : c'.Unread

theorem KeyStep.append {c'' : Cia} {es es' : List KeyEvent} (h : KeyStep c es c')
    (h' : KeyStep c' es' c'') : KeyStep c (es ++ es') c'' := by
  refine ⟨?_, ?_, ?_, ?_, h'.unread⟩
  · rw [List.filterMap_append, List.filterMap_append]
    exact fifo_append h.queue h'.queue
  · rw [gated_append, h.loaded]
    exact ⟨h.gated, h'.gated⟩
  · rw [List.foldl_append, h.loaded, h'.loaded]
  · rw [List.foldl_append, h.sdr, h'.sdr]

theorem keyStep_nil (h : SameKeys c c') (hunread : c.Unread) : KeyStep c [] c' := by
  refine ⟨?_, trivial, h.loaded.symm, h.sdr.symm, hunread.of_sameKeys h⟩
  rw [h.queue]
  exact List.append_nil _

theorem keyStep_clock (h : c.Unread) :
    KeyStep c (c.landing.map KeyEvent.loaded).toList c.tickOneEclock := by
  obtain ⟨hqueue, hsdr, hloaded, hfree, hunread⟩ := clocked_tickOneEclock h
  cases hland : c.landing with
  | none =>
    rw [hland] at hqueue hsdr hloaded
    refine ⟨?_, trivial, ?_, hsdr.symm, hunread⟩
    · rw [hqueue]
      exact List.append_nil _
    · rw [hloaded]
      exact (Bool.or_false _).symm
  | some byte =>
    rw [hland] at hqueue hsdr hloaded hfree
    refine ⟨?_, ⟨fun _ => hfree rfl, trivial⟩, ?_, hsdr.symm, hunread⟩
    · rw [hqueue]
      exact List.append_nil _
    · rw [hloaded]
      exact (Bool.or_true _).symm

theorem keyStep_clocks (n : Nat) : ∀ {c : Cia}, c.Unread →
    KeyStep c (clockEvents n c) (tickOneEclock^[n] c) := by
  induction n with
  | zero => exact fun {c} h => keyStep_nil (SameKeys.refl c) h
  | succ n ih => exact fun h => (keyStep_clock h).append (ih (clocked_tickOneEclock h).unread)

theorem keyStep_queueKeycode (h : c.Unread) (raw : Byte) :
    KeyStep c (c.keyEvents (.queueKeycode raw)) (c.queueKeycode raw) := by
  have hunread : (c.queueKeycode raw).Unread := h
  rw [keyEvents_queueKeycode]
  by_cases hroom : c.keyboardQueue.toList.length < keyboardQueueLen
  · rw [if_pos hroom]
    refine ⟨?_, ⟨nofun, trivial⟩, rfl, rfl, hunread⟩
    show _ ++ [encodeKeyboardByte raw] =
      [] ++ (c.keyboardQueue.push raw).2.toList.map encodeKeyboardByte
    rw [RingBuffer.toList_push raw hroom, List.map_append]
    rfl
  · rw [if_neg hroom]
    have hfull : c.keyboardQueue.toList.length = keyboardQueueLen := by
      have := c.keyboardQueue.length_toList_le
      omega
    refine ⟨?_, ⟨nofun, trivial⟩, rfl, rfl, hunread⟩
    show _ ++ [] = [] ++ (c.keyboardQueue.push raw).2.toList.map encodeKeyboardByte
    rw [RingBuffer.push_full raw hfull, List.append_nil]
    rfl

/-- Reading `SDR` frees it. -/
theorem keyStep_read (h : c.Unread) (reg : Nat) :
    KeyStep c (c.keyEvents (.read reg)) (c.read reg).2 := by
  show KeyStep c (if reg % 16 = Reg.sdr then [.sdrRead (c.read reg).1] else []) _
  by_cases hreg : reg % 16 = Reg.sdr
  · have hread : c.read reg = (c.sdr, { c with kbdLoaded := false }) := by
      unfold read
      rw [hreg]
      rfl
    rw [if_pos hreg, hread]
    exact ⟨List.append_nil _, ⟨nofun, trivial⟩, rfl, rfl, fun _ => rfl⟩
  · rw [if_neg hreg]
    exact keyStep_nil (sameKeys_read hreg) h

theorem keyStep_write (h : c.Unread) (reg : Nat) (value : Byte) :
    KeyStep c (c.keyEvents (.write reg value)) (c.write reg value) := by
  show KeyStep c (if reg % 16 = Reg.sdr then [.sdrWritten value] else []) _
  by_cases hreg : reg % 16 = Reg.sdr
  · have hwrite : c.write reg value = { c with sdr := value } := by
      unfold write
      rw [hreg]
      rfl
    rw [if_pos hreg, hwrite]
    exact ⟨List.append_nil _, ⟨nofun, trivial⟩, rfl, rfl, h⟩
  · rw [if_neg hreg]
    exact keyStep_nil (sameKeys_write value hreg) h

theorem keyStep_apply (h : c.Unread) (op : Op) : KeyStep c (c.keyEvents op) (c.apply op) := by
  cases op with
  | read reg => exact keyStep_read h reg
  | write reg value => exact keyStep_write h reg value
  | tick m p =>
    obtain ⟨hqueue, hgated, hloaded, hsdr, hunread⟩ :=
      keyStep_clocks ((c.carry + m) % 0x100000000 / p) h
    -- the rest of a tick is the carry, which is no part of the port
    show KeyStep c _ (c.tick m p).2
    rw [tick_eq]
    exact ⟨hqueue, hgated, hloaded, hsdr, hunread⟩
  | todTick => exact keyStep_nil (sameKeys_todTick c) h
  | queueKeycode raw => exact keyStep_queueKeycode h raw
  | drive praInput prbInput => exact keyStep_nil ⟨rfl, rfl, rfl, rfl⟩ h

/-! ## Runs -/

/-- The events of a run. -/
def keyHistory (c : Cia) (ops : List Op) : List KeyEvent := emitted apply keyEvents c ops

theorem keyStep_run (h : c.Unread) (ops : List Op) :
    KeyStep c (c.keyHistory ops) (run apply c ops) :=
  emitted_induction (R := fun c es c' => c.Unread → KeyStep c es c')
    (fun c h => keyStep_nil (SameKeys.refl c) h) (fun _ op h => keyStep_apply h op)
    (fun hes hes' h => (hes h).append (hes' (hes h).unread)) c ops h

theorem unread_new (id : CiaId) : (Cia.new id).Unread := fun _ => rfl

/-- **The keyboard loses no accepted code and repeats none.** In any run from power-on the bytes
that landed in `SDR`, then those of the codes queued, encode the accepted codes in order; between
two that land `SDR` is read; it holds the last one; and a full queue drops the code it is
offered. -/
theorem keyboard_delivers_once (id : CiaId) (ops : List Op) :
    let c := run apply (Cia.new id) ops
    let events := (Cia.new id).keyHistory ops
    events.filterMap KeyEvent.loads ++ c.keyboardQueue.toList.map encodeKeyboardByte =
        events.filterMap KeyEvent.enters ∧
      (∀ before byte mid byte' after,
        events = before ++ .loaded byte :: (mid ++ .loaded byte' :: after) →
          ∃ value, KeyEvent.sdrRead value ∈ mid) ∧
      c.sdr = events.foldl KeyEvent.sdrAfter 0 ∧
      ∀ raw, if c.keyboardQueue.toList.length = 16 then
          c.keyEvents (.queueKeycode raw) = [.dropped raw] ∧
            (c.queueKeycode raw).keyboardQueue = c.keyboardQueue
        else c.keyEvents (.queueKeycode raw) = [.accepted raw] := by
  have hrun := keyStep_run (unread_new id) ops
  simp only
  refine ⟨hrun.queue.symm, ?_, hrun.sdr.symm, fun raw => ?_⟩
  · intro before byte mid byte' after hsplit
    have hgated := hrun.gated
    rw [hsplit] at hgated
    obtain ⟨e, hmem, hread⟩ := hgated.between rfl rfl
    cases e with
    | sdrRead value => exact ⟨value, hmem⟩
    | _ => cases hread
  · generalize run apply (Cia.new id) ops = c
    have hle := c.keyboardQueue.length_toList_le
    have hlen : keyboardQueueLen = 16 := rfl
    rw [keyEvents_queueKeycode]
    split
    · rename_i hfull
      rw [if_neg (by omega)]
      refine ⟨rfl, ?_⟩
      show (c.keyboardQueue.push raw).2 = _
      rw [RingBuffer.push_full raw hfull]
    · rw [if_pos (by omega)]

/-! ## A waiting code lands -/

/-- The head of the queue is next: `SDR` has been read, and the serial port is an input. -/
structure Awaits (c : Cia) (raw : Byte) : Prop where
  id : c.id = .a
  input : c.cra &&& craSpmode = 0
  free : c.kbdLoaded = false
  head : c.keyboardQueue.toList.head? = some raw

/-- The operation leaves the serial port an input. -/
def Op.KeepsInput : Op → Prop
  | .write reg value => reg % 16 = Reg.cra → value &&& craSpmode = 0
  | _ => True

/-- The E-clocks an operation advances. -/
def eclocks (c : Cia) : Op → Nat
  | .tick m p => (c.carry + m) % 0x100000000 / p
  | _ => 0

/-- The direction of the serial port, left as it is. -/
structure SameInput (c c' : Cia) : Prop where
  id : c'.id = c.id
  mode : c.cra &&& craSpmode = 0 → c'.cra &&& craSpmode = 0

theorem sameInput_afterTimers (c : Cia) : SameInput c c.afterTimers := by
  obtain ⟨hid, -, -, hmode⟩ := tickTimerA_beside c
  obtain ⟨hid', hcra⟩ := tickTimerB_beside c.tickTimerA.2 c.tickTimerA.1
  refine ⟨hid'.trans hid, fun h => ?_⟩
  unfold afterTimers
  rw [hcra, hmode, h]

theorem sameInput_read (c : Cia) (reg : Nat) : SameInput c (c.read reg).2 := by
  unfold read
  split <;> first
    | exact ⟨rfl, fun h => h⟩
    | (rw [readTod_snd]; exact ⟨rfl, fun h => h⟩)

/-- Only a write to `CRA` can turn the port round. -/
theorem sameInput_write {value : Byte} (h : (Op.write reg value).KeepsInput) :
    SameInput c (c.write reg value) := by
  unfold write
  split <;> first
    | exact ⟨rfl, fun h => h⟩
    | (obtain ⟨tod, alarm, stopped, matching, data, h⟩ := writeTod_eq c _ value
       rw [h]
       exact ⟨rfl, fun h => h⟩)
    | (obtain ⟨latch, count, crb, -, h⟩ := writeTbhi_eq c value
       rw [h]
       exact ⟨rfl, fun h => h⟩)
    | skip
  · -- timer A may be started, which is another bit
    unfold writeTahi
    simp only
    split_ifs
    · refine ⟨rfl, fun hmode => ?_⟩
      show (c.cra ||| craStart) &&& craSpmode = 0
      have hother : craStart &&& craSpmode = 0 := by decide
      rw [BitVec.and_or_distrib_right, hmode, hother]
      rfl
    · exact ⟨rfl, fun h => h⟩
    · exact ⟨rfl, fun h => h⟩
  · rename_i hreg
    refine ⟨rfl, fun _ => ?_⟩
    show value &&& ~~~craLoad &&& craSpmode = 0
    have hother : ~~~craLoad &&& craSpmode = craSpmode := by decide
    rw [BitVec.and_assoc, hother, h hreg]

namespace Awaits

variable {c c' : Cia} {raw : Byte}

theorem of_same (h : Awaits c raw) (hinput : SameInput c c') (hkeys : SameKeys c c') :
    Awaits c' raw := by
  refine ⟨hinput.id.trans h.id, hinput.mode h.input, ?_, ?_⟩
  · rw [hkeys.loaded, h.free]
  · rw [hkeys.queue, h.head]

theorem queued (h : Awaits c raw) : 0 < c.keyboardQueue.len := by
  rw [← RingBuffer.length_toList]
  exact List.length_pos_of_mem (List.mem_of_mem_head? h.head)

theorem countdown_eq (h : Awaits c raw) :
    c.countdown = if c.kbdDelay = 0 then keyboardHandshakeTicks else c.kbdDelay := by
  unfold countdown
  simp only [h.free, h.queued, and_self, and_true]

theorem countdown_pos (h : Awaits c raw) : 0 < c.countdown := by
  rw [h.countdown_eq]
  split
  · decide
  · omega

theorem countdown_same (h : Awaits c raw) (h' : Awaits c' raw)
    (hdelay : c'.kbdDelay = c.kbdDelay) : c'.countdown = c.countdown := by
  rw [h.countdown_eq, h'.countdown_eq, hdelay]

/-! ### E-clocks -/

theorem afterTimers (h : Awaits c raw) : Awaits c.afterTimers raw :=
  h.of_same (sameInput_afterTimers c) (sameKeys_afterTimers c)

theorem countdown_afterTimers (h : Awaits c raw) : c.afterTimers.countdown = c.countdown :=
  h.countdown_same h.afterTimers (sameKeys_afterTimers c).delay

/-- The last E-clock of the countdown lands the code. -/
theorem landing_of_last (h : Awaits c raw) (hlast : c.countdown = 1) :
    c.landing = some (encodeKeyboardByte raw) := by
  have ht := h.afterTimers
  have hcode : c.afterTimers.nextKeycode.1 = some raw := by
    show c.afterTimers.keyboardQueue.pop.1 = some raw
    rw [RingBuffer.pop_fst, ht.head]
  unfold landing
  simp only
  rw [if_pos ⟨ht.id, ht.input, h.countdown_afterTimers.trans hlast⟩, hcode]
  rfl

/-- Any other one counts. -/
theorem tickOneEclock (h : Awaits c raw) (hmore : c.countdown ≠ 1) :
    c.landing = none ∧ Awaits c.tickOneEclock raw ∧
      c.tickOneEclock.countdown = c.countdown - 1 := by
  have ht := h.afterTimers
  have hcount := h.countdown_afterTimers
  have hpos := h.countdown_pos
  have hstep : c.tickOneEclock =
      { c.afterTimers with kbdDelay := c.afterTimers.countdown - 1 } := by
    have hone : c.tickOneEclock =
        if c.afterTimers.id = .a then c.afterTimers.tickKeyboard else c.afterTimers := rfl
    have hdelay : c.afterTimers.tickKeyboard =
        if c.afterTimers.cra &&& craSpmode ≠ 0 then c.afterTimers
        else if c.afterTimers.countdown = 1 then
          { c.afterTimers with kbdDelay := c.afterTimers.countdown - 1 }.landKeycode
        else { c.afterTimers with kbdDelay := c.afterTimers.countdown - 1 } := rfl
    rw [hone, if_pos ht.id, hdelay, if_neg (not_not_intro ht.input),
      if_neg (fun heq => hmore (hcount.symm.trans heq))]
  have hnext : Awaits c.tickOneEclock raw := by
    rw [hstep]
    exact ⟨ht.id, ht.input, ht.free, ht.head⟩
  refine ⟨?_, hnext, ?_⟩
  · unfold landing
    simp only
    rw [if_neg fun hall => hmore (hcount.symm.trans hall.2.2)]
  · have hdelay : c.tickOneEclock.kbdDelay = c.countdown - 1 := by
      rw [hstep, ← hcount]
    rw [hnext.countdown_eq, hdelay, if_neg (by omega)]

theorem clockEvents_of_lt {n : Nat} : ∀ {c : Cia}, Awaits c raw → n < c.countdown →
    clockEvents n c = [] ∧ Awaits (Cia.tickOneEclock^[n] c) raw ∧
      (Cia.tickOneEclock^[n] c).countdown = c.countdown - n := by
  induction n with
  | zero => exact fun {c} h _ => ⟨rfl, h, rfl⟩
  | succ n ih =>
    intro c h hn
    obtain ⟨hnone, hnext, hcount⟩ := h.tickOneEclock (by omega)
    obtain ⟨hevents, hlater, hcount'⟩ := ih hnext (by omega)
    rw [Function.iterate_succ_apply]
    refine ⟨?_, hlater, by omega⟩
    show (c.landing.map KeyEvent.loaded).toList ++ clockEvents n c.tickOneEclock = []
    rw [hnone, hevents]
    rfl

theorem clockEvents_of_le {n : Nat} : ∀ {c : Cia}, Awaits c raw → c.countdown ≤ n →
    ∃ es, clockEvents n c = .loaded (encodeKeyboardByte raw) :: es := by
  induction n with
  | zero =>
    intro c h hn
    have := h.countdown_pos
    omega
  | succ n ih =>
    intro c h hn
    have hcons : clockEvents (n + 1) c =
        (c.landing.map KeyEvent.loaded).toList ++ clockEvents n c.tickOneEclock := rfl
    rw [hcons]
    by_cases hlast : c.countdown = 1
    · rw [h.landing_of_last hlast]
      exact ⟨_, rfl⟩
    · obtain ⟨hnone, hnext, hcount⟩ := h.tickOneEclock hlast
      rw [hnone]
      exact ih hnext (by omega)

/-! ### Operations and runs -/

/-- **One operation** counts down by its E-clocks, and lands the code when there are enough. -/
theorem apply (h : Awaits c raw) {op : Op} (hop : op.KeepsInput) :
    (∃ es, c.keyEvents op = .loaded (encodeKeyboardByte raw) :: es) ∨
      (c.keyEvents op).filterMap KeyEvent.loads = [] ∧ Awaits (c.apply op) raw ∧
        (c.apply op).countdown = c.countdown - c.eclocks op := by
  -- An operation that the port does not notice.
  have hsame : ∀ {c' : Cia}, SameInput c c' → c'.kbdDelay = c.kbdDelay → c'.kbdLoaded = false →
      c'.keyboardQueue.toList.head? = some raw → Awaits c' raw ∧ c'.countdown = c.countdown := by
    intro c' hinput hdelay hfree hhead
    have h' : Awaits c' raw := ⟨hinput.id.trans h.id, hinput.mode h.input, hfree, hhead⟩
    exact ⟨h', h.countdown_same h' hdelay⟩
  cases op with
  | read reg =>
    refine .inr ⟨?_, ?_⟩
    · show (if reg % 16 = Reg.sdr then [KeyEvent.sdrRead (c.read reg).1] else []).filterMap _ = []
      split <;> rfl
    · obtain ⟨hdelay, hloaded, hqueue⟩ : (c.read reg).2.kbdDelay = c.kbdDelay ∧
          (c.read reg).2.kbdLoaded = false ∧ (c.read reg).2.keyboardQueue = c.keyboardQueue := by
        by_cases hreg : reg % 16 = Reg.sdr
        · have hread : c.read reg = (c.sdr, { c with kbdLoaded := false }) := by
            unfold read
            rw [hreg]
            rfl
          rw [hread]
          exact ⟨rfl, rfl, rfl⟩
        · have hkeys := sameKeys_read (c := c) hreg
          exact ⟨hkeys.delay, hkeys.loaded.trans h.free, hkeys.queue⟩
      exact hsame (sameInput_read c reg) hdelay hloaded (hqueue ▸ h.head)
  | write reg value =>
    refine .inr ⟨?_, ?_⟩
    · show (if reg % 16 = Reg.sdr then [KeyEvent.sdrWritten value] else []).filterMap _ = []
      split <;> rfl
    · obtain ⟨hdelay, hloaded, hqueue⟩ : (c.write reg value).kbdDelay = c.kbdDelay ∧
          (c.write reg value).kbdLoaded = false ∧
          (c.write reg value).keyboardQueue = c.keyboardQueue := by
        by_cases hreg : reg % 16 = Reg.sdr
        · have hwrite : c.write reg value = { c with sdr := value } := by
            unfold write
            rw [hreg]
            rfl
          rw [hwrite]
          exact ⟨rfl, h.free, rfl⟩
        · have hkeys := sameKeys_write (c := c) value hreg
          exact ⟨hkeys.delay, hkeys.loaded.trans h.free, hkeys.queue⟩
      exact hsame (sameInput_write hop) hdelay hloaded (hqueue ▸ h.head)
  | tick m p =>
    show (∃ es, clockEvents ((c.carry + m) % 0x100000000 / p) c = _ :: es) ∨
      (clockEvents ((c.carry + m) % 0x100000000 / p) c).filterMap _ = [] ∧
        Awaits (c.tick m p).2 raw ∧
          (c.tick m p).2.countdown = c.countdown - (c.carry + m) % 0x100000000 / p
    rw [tick_eq]
    simp only
    generalize (c.carry + m) % 0x100000000 / p = n
    by_cases hn : n < c.countdown
    · obtain ⟨hevents, hlater, hcount⟩ := h.clockEvents_of_lt hn
      rw [hevents]
      exact .inr ⟨rfl, ⟨hlater.id, hlater.input, hlater.free, hlater.head⟩, hcount⟩
    · exact .inl (h.clockEvents_of_le (by omega))
  | todTick =>
    have hkeys := sameKeys_todTick c
    obtain ⟨tod, matching, data, heq⟩ := todTick_eq c
    have hinput : SameInput c c.todTick := by
      rw [heq]
      exact ⟨rfl, fun hmode => hmode⟩
    exact .inr ⟨rfl, hsame hinput hkeys.delay (hkeys.loaded.trans h.free) (hkeys.queue ▸ h.head)⟩
  | queueKeycode added =>
    refine .inr ⟨?_, hsame ⟨rfl, fun hmode => hmode⟩ rfl h.free ?_⟩
    · rw [keyEvents_queueKeycode]
      split <;> rfl
    · show (c.keyboardQueue.push added).2.toList.head? = some raw
      by_cases hroom : c.keyboardQueue.toList.length < keyboardQueueLen
      · rw [RingBuffer.toList_push added hroom, List.head?_append, h.head]
        rfl
      · have hle := c.keyboardQueue.length_toList_le
        rw [RingBuffer.push_full added (by omega), h.head]
  | drive praInput prbInput => exact .inr ⟨rfl, hsame ⟨rfl, fun hmode => hmode⟩ rfl h.free h.head⟩

/-- **A run of so many E-clocks lands the code**, before any other. -/
theorem run (ops : List Op) : ∀ {c : Cia}, Awaits c raw → (∀ op ∈ ops, op.KeepsInput) →
    c.countdown ≤ (emitted Cia.apply (fun c op => [c.eclocks op]) c ops).sum →
    ∃ bytes, (c.keyHistory ops).filterMap KeyEvent.loads = encodeKeyboardByte raw :: bytes := by
  induction ops with
  | nil =>
    intro c h _ hclocks
    have hpos := h.countdown_pos
    simp only [emitted, List.sum_nil] at hclocks
    omega
  | cons op ops ih =>
    intro c h hops hclocks
    have hcons : c.keyHistory (op :: ops) = c.keyEvents op ++ (c.apply op).keyHistory ops := rfl
    rw [hcons, List.filterMap_append]
    rcases h.apply (hops op List.mem_cons_self) with ⟨es, hlands⟩ | ⟨hnone, hnext, hcount⟩
    · rw [hlands]
      exact ⟨_, rfl⟩
    · rw [hnone]
      refine ih hnext (fun op' hop' => hops op' (List.mem_cons_of_mem op hop')) ?_
      simp only [emitted, List.sum_append, List.sum_singleton] at hclocks
      omega

end Awaits

/-- **A queued code lands** in every state whose serial port is an input: once the guest reads `SDR`
and leaves the port an input, the handshake's E-clocks bring the head of the queue into `SDR`,
before any other, whatever else is done. -/
theorem queued_code_lands (h : c.Reachable) (hid : c.id = .a) (hinput : c.cra &&& craSpmode = 0)
    {raw : Byte} (hhead : c.keyboardQueue.toList.head? = some raw) {ops : List Op}
    (hops : ∀ op ∈ ops, op.KeepsInput)
    (hclocks : keyboardHandshakeTicks ≤
      (emitted apply (fun c op => [c.eclocks op]) (c.read Reg.sdr).2 ops).sum) :
    ∃ bytes, ((c.read Reg.sdr).2.keyHistory ops).filterMap KeyEvent.loads =
      encodeKeyboardByte raw :: bytes := by
  have hawaits : Awaits (c.read Reg.sdr).2 raw := ⟨hid, hinput, rfl, hhead⟩
  refine hawaits.run ops hops ?_
  have hdelay : (c.read Reg.sdr).2.kbdDelay ≤ keyboardHandshakeTicks := h.wf.delay
  have hcount := hawaits.countdown_eq
  split at hcount <;> omega

/-- A key that is pressed and waited for. -/
example : ∃ bytes, ((((Cia.new .a).queueKeycode 0x45).read Reg.sdr).2.keyHistory
    [.tick 8000 10]).filterMap KeyEvent.loads = encodeKeyboardByte 0x45 :: bytes := by
  have hreachable : Reachable ((Cia.new .a).apply (.queueKeycode 0x45)) :=
    Transition.Reachable.next _ (.start ⟨.a, rfl⟩)
  have hops : ∀ op ∈ [Op.tick 8000 10], op.KeepsInput := by
    intro op hop
    rw [List.mem_singleton.mp hop]
    trivial
  exact queued_code_lands hreachable rfl (by decide) rfl hops (by decide)

end Cia

end M68kMachine
