import Mathlib.Algebra.GroupWithZero.Nat
import M68kMachine.Library.Transition
import M68kMachine.Properties.TickBatching

/-!
# The next event of a CIA

`clocksUntilEvent` is closed-form arithmetic over what `tickOneEclock` counts one by one. Until the
nearest event an E-clock does nothing but count (`tickOneEclock_of_clear`); at the event a source is
raised.

* `Clear` — no event within a number of E-clocks
* `Wf` — what every chip keeps to that is used through its methods
* `settled_of_deadline`, `raised_at_deadline` — the deadline is sound, and exact
-/

namespace M68kMachine

namespace Cia

open Transition

/-! ## One E-clock without an event -/

/-- The timers, and the keyboard's countdown, one E-clock on. -/
def countedA (c : Cia) : Word := if c.timerACounts then c.timerA - 1 else c.timerA

def countsB (c : Cia) : Bool := c.crb &&& crbStart ≠ 0 ∧ c.crbInmode = 0

def countedB (c : Cia) : Word := if c.countsB then c.timerB - 1 else c.timerB

def countedDelay (c : Cia) : Nat :=
  if c.id = .a ∧ c.cra &&& craSpmode = 0 then
    (if c.kbdDelay = 0 ∧ c.kbdLoaded = false ∧ 0 < c.keyboardQueue.len then keyboardHandshakeTicks
    else c.kbdDelay) - 1
  else c.kbdDelay

def counted (c : Cia) : Cia :=
  { c with timerA := c.countedA, timerB := c.countedB, kbdDelay := c.countedDelay }

/-- What is under way, in E-clocks. -/
def events (c : Cia) : List (Option Nat) := [c.timerAEvent, c.timerBEvent, c.keyboardEvent]

/-- Every event is more than `k` E-clocks away. -/
def Clear (c : Cia) (k : Nat) : Prop := ∀ e, some e ∈ c.events → k < e

theorem toNat_pred {w : Word} (h : 0 < w.toNat) : (w - 1).toNat = w.toNat - 1 := by
  have hone : (1 : Word).toNat = 1 := rfl
  rw [BitVec.toNat_sub_of_le (by rw [BitVec.le_def]; omega), hone]

theorem stepTimer_of_pos {count latch : Word} (h : 0 < count.toNat) :
    stepTimer count latch = (false, count - 1) := by
  unfold stepTimer
  rw [if_neg]
  rintro rfl
  exact absurd h (Nat.lt_irrefl 0)

variable {c : Cia}

theorem tickTimerA_of_pos (h : c.timerACounts = true → 0 < c.timerA.toNat) :
    c.tickTimerA = (false, { c with timerA := c.countedA }) := by
  unfold tickTimerA countedA
  split
  · rename_i hcounts
    rw [stepTimer_of_pos (h hcounts)]
    rfl
  · rfl

theorem timerBCounts_false (c : Cia) : c.timerBCounts false = c.countsB := by
  unfold timerBCounts countsB
  by_cases hmode : c.crbInmode = 0 <;> simp [hmode]

theorem tickTimerB_of_pos (h : c.countsB = true → 0 < c.timerB.toNat) :
    c.tickTimerB false = { c with timerB := c.countedB } := by
  unfold tickTimerB countedB
  rw [timerBCounts_false]
  split
  · rename_i hcounts
    rw [stepTimer_of_pos (h hcounts)]
    rfl
  · rfl

theorem tickKeyboard_of_far (hid : c.id = .a) (h : c.cra &&& craSpmode = 0 → c.kbdDelay ≠ 1) :
    c.tickKeyboard = { c with kbdDelay := c.countedDelay } := by
  unfold tickKeyboard
  by_cases hmode : c.cra &&& craSpmode = 0
  · have hcounted : c.countedDelay =
        (if c.kbdDelay = 0 ∧ c.kbdLoaded = false ∧ 0 < c.keyboardQueue.len
          then keyboardHandshakeTicks else c.kbdDelay) - 1 := if_pos ⟨hid, hmode⟩
    have hfar : (if c.kbdDelay = 0 ∧ c.kbdLoaded = false ∧ 0 < c.keyboardQueue.len
        then keyboardHandshakeTicks else c.kbdDelay) ≠ 1 := by
      split
      · decide
      · exact h hmode
    rw [if_neg (by simpa using hmode), hcounted]
    simp only
    rw [if_neg hfar]
  · have hcounted : c.countedDelay = c.kbdDelay := if_neg fun h => hmode h.2
    rw [if_pos hmode, hcounted]

theorem timerAEvent_of_counts (h : c.timerACounts = true) :
    c.timerAEvent = some (c.timerA.toNat + 1) := if_pos h

theorem timerBEvent_eq (c : Cia) :
    c.timerBEvent = if c.countsB then some (c.timerB.toNat + 1) else none := by
  unfold timerBEvent countsB
  simp only [decide_eq_true_eq]

theorem keyboardEvent_of_delay (hid : c.id = .a) (hmode : c.cra &&& craSpmode = 0)
    (h : 0 < c.kbdDelay) : c.keyboardEvent = some c.kbdDelay := by
  unfold keyboardEvent
  rw [if_pos ⟨hid, hmode⟩, if_pos h]

/-- **With no event in it, an E-clock only counts.** -/
theorem tickOneEclock_of_clear (h : c.Clear 1) : c.tickOneEclock = c.counted := by
  have hA : c.timerACounts = true → 0 < c.timerA.toNat := by
    intro hcounts
    have hevent := h (c.timerA.toNat + 1) (by simp [events, timerAEvent_of_counts hcounts])
    omega
  have hB : c.countsB = true → 0 < c.timerB.toNat := by
    intro hcounts
    have hevent := h (c.timerB.toNat + 1) (by simp [events, timerBEvent_eq, hcounts])
    omega
  have hK : c.id = .a → c.cra &&& craSpmode = 0 → c.kbdDelay ≠ 1 := by
    intro hid hmode hdelay
    have hevent := h 1 (by
      simp [events, keyboardEvent_of_delay hid hmode (by omega : 0 < c.kbdDelay), hdelay])
    omega
  have htimers : ({ c with timerA := c.countedA } : Cia).tickTimerB false =
      { c with timerA := c.countedA, timerB := c.countedB } :=
    tickTimerB_of_pos (c := { c with timerA := c.countedA }) hB
  unfold tickOneEclock
  rw [tickTimerA_of_pos hA]
  simp only
  rw [htimers]
  split
  · rename_i hid
    exact tickKeyboard_of_far (c := { c with timerA := c.countedA, timerB := c.countedB }) hid
      (hK hid)
  · rename_i hid
    have hdelay : c.countedDelay = c.kbdDelay := if_neg fun h => hid h.1
    unfold counted
    rw [hdelay]

theorem timerAEvent_counted (h : c.Clear 1) :
    c.counted.timerAEvent = c.timerAEvent.map (· - 1) := by
  have hcounts : c.counted.timerACounts = c.timerACounts := rfl
  have hvalue : c.counted.timerA = c.countedA := rfl
  unfold timerAEvent countedA at *
  rw [hcounts, hvalue]
  split
  · rename_i hon
    have hevent := h (c.timerA.toNat + 1) (by simp [events, timerAEvent_of_counts hon])
    rw [toNat_pred (by omega)]
    simp only [Option.map_some, Option.some.injEq]
    omega
  · rfl

theorem timerBEvent_counted (h : c.Clear 1) :
    c.counted.timerBEvent = c.timerBEvent.map (· - 1) := by
  have hcounts : c.counted.countsB = c.countsB := rfl
  have hvalue : c.counted.timerB = c.countedB := rfl
  rw [timerBEvent_eq, timerBEvent_eq, hcounts, hvalue]
  unfold countedB
  split
  · rename_i hon
    have hevent := h (c.timerB.toNat + 1) (by simp [events, timerBEvent_eq, hon])
    rw [toNat_pred (by omega)]
    simp only [Option.map_some, Option.some.injEq]
    omega
  · rfl

theorem keyboardEvent_counted (h : c.Clear 1) :
    c.counted.keyboardEvent = c.keyboardEvent.map (· - 1) := by
  have hfar : ∀ e, c.keyboardEvent = some e → 1 < e := fun e he =>
    h e (by simp [events, he])
  unfold keyboardEvent at hfar ⊢
  rw [show c.counted.id = c.id from rfl, show c.counted.cra = c.cra from rfl,
    show c.counted.kbdLoaded = c.kbdLoaded from rfl,
    show c.counted.keyboardQueue = c.keyboardQueue from rfl,
    show c.counted.kbdDelay = c.countedDelay from rfl]
  by_cases hmode : c.id = .a ∧ c.cra &&& craSpmode = 0
  · have hcounted : c.countedDelay =
        (if c.kbdDelay = 0 ∧ c.kbdLoaded = false ∧ 0 < c.keyboardQueue.len
          then keyboardHandshakeTicks else c.kbdDelay) - 1 := if_pos hmode
    rw [if_pos hmode] at hfar
    rw [if_pos hmode, if_pos hmode]
    by_cases hdelay : 0 < c.kbdDelay
    · have hone := hfar c.kbdDelay (if_pos hdelay)
      rw [if_neg (by omega)] at hcounted
      rw [hcounted, if_pos (by omega), if_pos hdelay]
      rfl
    · have hzero : c.kbdDelay = 0 := by omega
      by_cases hqueue : c.kbdLoaded = false ∧ 0 < c.keyboardQueue.len
      · rw [if_pos ⟨hzero, hqueue⟩] at hcounted
        rw [hcounted, if_neg hdelay, if_pos hqueue]
        rfl
      · rw [if_neg (fun h => hqueue h.2), hzero] at hcounted
        rw [hcounted, if_neg hdelay, if_neg hqueue]
        rfl
  · rw [if_neg hmode, if_neg hmode]
    rfl

/-- Every event is one E-clock nearer. -/
theorem events_counted (h : c.Clear 1) : c.counted.events = c.events.map (Option.map (· - 1)) := by
  unfold events
  rw [timerAEvent_counted h, timerBEvent_counted h, keyboardEvent_counted h]
  rfl

theorem clear_counted {k : Nat} (h : c.Clear (k + 1)) : c.counted.Clear k := by
  have hone : c.Clear 1 := fun e he => by have := h e he; omega
  intro e he
  rw [events_counted hone, List.mem_map] at he
  obtain ⟨_ | e', he', heq⟩ := he
  · cases heq
  · have hfar := h e' he'
    simp only [Option.map_some, Option.some.injEq] at heq
    omega

/-! ## Up to the event -/

/-- What an event changes, left as it is. -/
structure Settled (c c' : Cia) : Prop where
  icrData : c'.icrData = c.icrData
  icrMask : c'.icrMask = c.icrMask
  sdr : c'.sdr = c.sdr
  cra : c'.cra = c.cra
  crb : c'.crb = c.crb

theorem Settled.refl (c : Cia) : Settled c c := ⟨rfl, rfl, rfl, rfl, rfl⟩

theorem settled_counted (c : Cia) : Settled c c.counted := ⟨rfl, rfl, rfl, rfl, rfl⟩

theorem Settled.trans {c c' c'' : Cia} (h : Settled c c') (h' : Settled c' c'') : Settled c c'' :=
  ⟨h'.icrData.trans h.icrData, h'.icrMask.trans h.icrMask, h'.sdr.trans h.sdr, h'.cra.trans h.cra,
    h'.crb.trans h.crb⟩

theorem Settled.irqPending {c c' : Cia} (h : Settled c c') : c'.irqPending = c.irqPending := by
  unfold Cia.irqPending
  rw [h.icrData, h.icrMask]

variable {j : Nat}

theorem Clear.mono {k : Nat} (h : c.Clear k) (hj : j ≤ k) : c.Clear j :=
  fun e he => Nat.lt_of_le_of_lt hj (h e he)

theorem iterate_of_clear (h : c.Clear j) :
    Settled c (tickOneEclock^[j] c) ∧
      (tickOneEclock^[j] c).events = c.events.map (Option.map (· - j)) := by
  induction j generalizing c with
  | zero =>
    refine ⟨.refl c, ?_⟩
    simp
  | succ j ih =>
    have hone : c.Clear 1 := h.mono (by omega)
    obtain ⟨hsettled, hevents⟩ := ih (clear_counted h)
    rw [Function.iterate_succ_apply, tickOneEclock_of_clear hone]
    refine ⟨(settled_counted c).trans hsettled, ?_⟩
    rw [hevents, events_counted hone, List.map_map]
    congr 1
    funext event
    rcases event with _ | e
    · rfl
    · simp only [Function.comp_apply, Option.map_some, Option.some.injEq]
      omega

/-- No event comes within `n` clocks. -/
def QuietFor (c : Cia) (p n : Nat) : Prop := ∀ e, some e ∈ c.events → n ≤ e * p - c.carry

variable {p n : Nat}

/-- **A tick that ends before the event.** -/
theorem tick_of_quietFor {m : Nat} (h : c.QuietFor p n) (hm : m < n) :
    Settled c (c.tick m p).2 ∧ (c.tick m p).2.QuietFor p (n - m) := by
  rw [tick_eq]
  have htotal := Nat.mod_le (c.carry + m) 0x100000000
  simp only
  generalize (c.carry + m) % 0x100000000 = total at htotal
  have hsplit := Nat.div_add_mod total p
  rw [Nat.mul_comm] at hsplit
  generalize total / p = eclocks at hsplit
  generalize total % p = rest at hsplit
  have hclear : c.Clear eclocks := by
    intro e he
    have hfar := h e he
    exact Nat.lt_of_mul_lt_mul_right (a := p) (by omega)
  obtain ⟨hsettled, hevents⟩ := iterate_of_clear hclear
  refine ⟨⟨hsettled.icrData, hsettled.icrMask, hsettled.sdr, hsettled.cra, hsettled.crb⟩, ?_⟩
  intro e he
  have he' : some e ∈ (tickOneEclock^[eclocks] c).events := he
  rw [hevents, List.mem_map] at he'
  obtain ⟨_ | before, hbefore, heq⟩ := he'
  · cases heq
  · have hfar := h before hbefore
    have hcarry : ((tickOneEclock^[eclocks] c).withCarry rest).carry = rest := rfl
    simp only [Option.map_some, Option.some.injEq] at heq
    rw [hcarry, ← heq, Nat.sub_mul]
    omega

/-- A number of ticks, one after the other. -/
def ticks (c : Cia) (p : Nat) (clocks : List Nat) : Cia := run (fun c m => (c.tick m p).2) c clocks

theorem ticks_of_quietFor (clocks : List Nat) : ∀ {c : Cia} {n : Nat},
    c.QuietFor p n → clocks.sum < n →
    Settled c (c.ticks p clocks) ∧ (c.ticks p clocks).QuietFor p (n - clocks.sum) := by
  induction clocks with
  | nil =>
    intro c n h _
    exact ⟨.refl c, h⟩
  | cons m clocks ih =>
    intro c n h hsum
    rw [List.sum_cons] at hsum ⊢
    obtain ⟨hfirst, hquiet⟩ := tick_of_quietFor h (by omega : m < n)
    obtain ⟨hrest, hquiet'⟩ := ih hquiet (by omega)
    rw [Nat.sub_sub] at hquiet'
    exact ⟨hfirst.trans hrest, hquiet'⟩

/-! ## What an access can do -/

theorem readTod_snd (c : Cia) (reg : Nat) :
    (c.readTod reg).2 = { c with
      todLatched :=
        if reg = Reg.todlo then none
        else if reg = Reg.todhi ∧ c.todLatched = none then some c.tod
        else c.todLatched } := by
  unfold readTod
  simp only
  split_ifs <;> rfl

theorem checkTodAlarm_eq (c : Cia) :
    c.checkTodAlarm = { c with
      todMatching := c.tod = c.todAlarm
      icrData :=
        if c.tod = c.todAlarm ∧ c.todMatching = false then c.icrData ||| ((1 : Byte) <<< Icr.alrm)
        else c.icrData } := by
  unfold checkTodAlarm
  simp only [Bool.and_eq_true, decide_eq_true_eq, Bool.not_eq_true']
  split <;> rfl

theorem todTick_eq (c : Cia) : ∃ tod matching data,
    c.todTick = { c with tod := tod, todMatching := matching, icrData := data } := by
  unfold todTick
  split
  · exact ⟨c.tod, c.todMatching, c.icrData, rfl⟩
  · rw [checkTodAlarm_eq]
    exact ⟨_, _, _, rfl⟩

theorem writeTod_eq (c : Cia) (reg : Nat) (value : Byte) : ∃ tod alarm stopped matching data,
    c.writeTod reg value =
      { c with
        tod := tod, todAlarm := alarm, todStopped := stopped, todMatching := matching,
        icrData := data } := by
  unfold writeTod
  rw [checkTodAlarm_eq]
  split <;> exact ⟨_, _, _, _, _, rfl⟩

theorem writeTahi_eq (c : Cia) (value : Byte) : ∃ latch count cra,
    c.writeTahi value = { c with latchA := latch, timerA := count, cra := cra } := by
  unfold writeTahi
  simp only
  split_ifs <;> exact ⟨_, _, _, rfl⟩

theorem writeTbhi_eq (c : Cia) (value : Byte) : ∃ latch count crb,
    (crb = c.crb ∨ crb = c.crb ||| crbStart) ∧
      c.writeTbhi value = { c with latchB := latch, timerB := count, crb := crb } := by
  unfold writeTbhi
  simp only
  split_ifs
  · exact ⟨_, _, _, .inr rfl, rfl⟩
  · exact ⟨_, _, _, .inl rfl, rfl⟩
  · exact ⟨_, _, _, .inl rfl, rfl⟩

/-! ## Well-formed chips -/

/-- A code on its way in is one that is queued. -/
structure Wf (c : Cia) : Prop where
  carry : c.carry < 0x100000000
  delay : c.kbdDelay ≤ keyboardHandshakeTicks
  queued : 0 < c.kbdDelay → 0 < c.keyboardQueue.len

/-- The keyboard and the carry, left as they are. -/
structure Beside (c c' : Cia) : Prop where
  carry : c'.carry = c.carry
  delay : c'.kbdDelay = c.kbdDelay
  queue : c'.keyboardQueue = c.keyboardQueue

theorem Beside.trans {c c' c'' : Cia} (h : Beside c c') (h' : Beside c' c'') : Beside c c'' :=
  ⟨h'.carry.trans h.carry, h'.delay.trans h.delay, h'.queue.trans h.queue⟩

theorem Wf.of_beside {c' : Cia} (h : c.Wf) (hb : Beside c c') : c'.Wf := by
  refine ⟨?_, ?_, ?_⟩
  · rw [hb.carry]
    exact h.carry
  · rw [hb.delay]
    exact h.delay
  · rw [hb.delay, hb.queue]
    exact h.queued

theorem beside_tickTimerA (c : Cia) : Beside c c.tickTimerA.2 := by
  rcases tickTimerA_cases c with ⟨count, h⟩ | ⟨count, cra, -, h⟩
  · rw [h]
    exact ⟨rfl, rfl, rfl⟩
  · rw [h]
    exact ⟨rfl, rfl, rfl⟩

theorem beside_tickTimerB (c : Cia) (underflow : Bool) : Beside c (c.tickTimerB underflow) := by
  rcases tickTimerB_cases c underflow with ⟨-, count, h⟩ | ⟨-, count, crb, -, h⟩
  · rw [h]
    exact ⟨rfl, rfl, rfl⟩
  · rw [h]
    exact ⟨rfl, rfl, rfl⟩

theorem beside_todTick (c : Cia) : Beside c c.todTick := by
  obtain ⟨tod, matching, data, h⟩ := todTick_eq c
  rw [h]
  exact ⟨rfl, rfl, rfl⟩

theorem beside_read (c : Cia) (reg : Nat) : Beside c (c.read reg).2 := by
  unfold read
  split <;> first
    | exact ⟨rfl, rfl, rfl⟩
    | (rw [readTod_snd]; exact ⟨rfl, rfl, rfl⟩)

theorem beside_write (c : Cia) (reg : Nat) (value : Byte) : Beside c (c.write reg value) := by
  unfold write
  split <;> first
    | exact ⟨rfl, rfl, rfl⟩
    | (obtain ⟨tod, alarm, stopped, matching, data, h⟩ := writeTod_eq c _ value
       rw [h]
       exact ⟨rfl, rfl, rfl⟩)
    | (obtain ⟨latch, count, cra, h⟩ := writeTahi_eq c value
       rw [h]
       exact ⟨rfl, rfl, rfl⟩)
    | (obtain ⟨latch, count, crb, -, h⟩ := writeTbhi_eq c value
       rw [h]
       exact ⟨rfl, rfl, rfl⟩)

theorem wf_tickKeyboard (h : c.Wf) : c.tickKeyboard.Wf := by
  unfold tickKeyboard
  split
  · exact h
  · have hdelay : (if c.kbdDelay = 0 ∧ c.kbdLoaded = false ∧ 0 < c.keyboardQueue.len
        then keyboardHandshakeTicks else c.kbdDelay) ≤ keyboardHandshakeTicks := by
      have hbound := h.delay
      split <;> omega
    have hqueued : 0 < (if c.kbdDelay = 0 ∧ c.kbdLoaded = false ∧ 0 < c.keyboardQueue.len
        then keyboardHandshakeTicks else c.kbdDelay) → 0 < c.keyboardQueue.len := by
      split
      · rename_i hstart
        exact fun _ => hstart.2.2
      · exact h.queued
    simp only
    generalize (if c.kbdDelay = 0 ∧ c.kbdLoaded = false ∧ 0 < c.keyboardQueue.len
      then keyboardHandshakeTicks else c.kbdDelay) = delay at hdelay hqueued
    split
    · rename_i hlands
      -- The countdown has run out, whether a code was there or not.
      rw [hlands]
      unfold landKeycode nextKeycode
      cases c.keyboardQueue.pop.1 with
      | none => exact ⟨h.carry, Nat.zero_le _, fun hpos => absurd hpos (Nat.lt_irrefl 0)⟩
      | some raw => exact ⟨h.carry, Nat.zero_le _, fun hpos => absurd hpos (Nat.lt_irrefl 0)⟩
    · refine ⟨h.carry, ?_, ?_⟩
      · show delay - 1 ≤ keyboardHandshakeTicks
        omega
      · intro hpos
        have hpos' : 0 < delay - 1 := hpos
        exact hqueued (by omega)

theorem wf_tickOneEclock (h : c.Wf) : c.tickOneEclock.Wf := by
  have htimers := (h.of_beside (beside_tickTimerA c)).of_beside
    (beside_tickTimerB c.tickTimerA.2 c.tickTimerA.1)
  unfold tickOneEclock
  simp only
  split
  · exact wf_tickKeyboard htimers
  · exact htimers

theorem wf_iterate (h : c.Wf) (n : Nat) : (tickOneEclock^[n] c).Wf := by
  induction n generalizing c with
  | zero => exact h
  | succ n ih => exact ih (wf_tickOneEclock h)

theorem wf_tick (h : c.Wf) (m p : Nat) : (c.tick m p).2.Wf := by
  rw [tick_eq]
  have hrun := wf_iterate h ((c.carry + m) % 0x100000000 / p)
  have hcarry := Nat.mod_lt (c.carry + m) (by decide : 0 < 0x100000000)
  exact ⟨Nat.lt_of_le_of_lt (Nat.mod_le _ _) hcarry, hrun.delay, hrun.queued⟩

theorem wf_queueKeycode (h : c.Wf) (raw : Byte) : (c.queueKeycode raw).Wf := by
  refine ⟨h.carry, h.delay, fun hpos => ?_⟩
  have hlen := h.queued hpos
  show 0 < (c.keyboardQueue.push raw).2.len
  unfold RingBuffer.push
  split
  · exact hlen
  · exact Nat.succ_pos _

theorem wf_new (id : CiaId) : (Cia.new id).Wf :=
  ⟨(by decide : 0 < 0x100000000), Nat.zero_le _, fun hpos => absurd hpos (Nat.lt_irrefl 0)⟩

/-- Everything that is done to a chip. -/
inductive Op
  | read (reg : Nat)
  | write (reg : Nat) (value : Byte)
  | tick (cpuClocks cpuClocksPerEclock : Nat)
  | todTick
  | queueKeycode (raw : Byte)
  | drive (praInput prbInput : Byte)

def apply (c : Cia) : Op → Cia
  | .read reg => (c.read reg).2
  | .write reg value => c.write reg value
  | .tick m p => (c.tick m p).2
  | .todTick => c.todTick
  | .queueKeycode raw => c.queueKeycode raw
  | .drive praInput prbInput => { c with praInput := praInput, prbInput := prbInput }

/-- The states of a chip. -/
def Reachable (c : Cia) : Prop := Transition.Reachable (fun c => ∃ id, c = Cia.new id) apply c

theorem wf_apply (h : c.Wf) (op : Op) : (c.apply op).Wf := by
  cases op with
  | read reg => exact h.of_beside (beside_read c reg)
  | write reg value => exact h.of_beside (beside_write c reg value)
  | tick m p => exact wf_tick h m p
  | todTick => exact h.of_beside (beside_todTick c)
  | queueKeycode raw => exact wf_queueKeycode h raw
  | drive praInput prbInput => exact h.of_beside ⟨rfl, rfl, rfl⟩

theorem Reachable.wf (h : c.Reachable) : c.Wf := by
  refine Transition.Reachable.invariant ?_ ?_ h
  · rintro _ ⟨id, rfl⟩
    exact wf_new id
  · intro c op hc
    exact wf_apply hc op

/-! ## At the event -/

/-- The sources an event can raise. -/
def eventSources : List Nat := [Icr.ta, Icr.tb, Icr.sp]

theorem getLsbD_icrData_raise (c : Cia) (i : Nat) (hj : j < 8) :
    (c.raise i).icrData.getLsbD j = (c.icrData.getLsbD j || decide (i = j)) := by
  have hbit : (1 : Byte) <<< i = BitVec.twoPow 8 i := (BitVec.twoPow_eq 8 i).symm
  unfold raise
  rw [BitVec.getLsbD_or, hbit, BitVec.getLsbD_twoPow]
  rcases Nat.decEq i j with hne | rfl
  · simp [hne]
  · simp [hj]

theorem getLsbD_raise (c : Cia) {i : Nat} (hi : i < 8) : (c.raise i).icrData.getLsbD i = true := by
  rw [getLsbD_icrData_raise c i hi, decide_eq_true rfl, Bool.or_true]

theorem Latches.getLsbD {c' : Cia} (h : Latches c c') {i : Nat} (hi : c.icrData.getLsbD i = true) :
    c'.icrData.getLsbD i = true := by
  obtain ⟨raised, hraised⟩ := h.icrData
  rw [hraised, BitVec.getLsbD_or, hi, Bool.true_or]

theorem getLsbD_underflowA (c : Cia) : c.underflowA.icrData.getLsbD Icr.ta = true := by
  unfold underflowA
  simp only
  split <;> exact getLsbD_raise c (by decide)

theorem getLsbD_underflowB (c : Cia) : c.underflowB.icrData.getLsbD Icr.tb = true := by
  unfold underflowB
  simp only
  split <;> exact getLsbD_raise c (by decide)

/-- Stopping a timer changes the `START` bit only. -/
theorem and_not_start (control mask : Byte) (h : ~~~(0x01 : Byte) &&& mask = mask) :
    control &&& ~~~0x01 &&& mask = control &&& mask := by
  rw [BitVec.and_assoc, h]

/-- Timer A leaves timer B and the direction of the serial port alone. -/
theorem tickTimerA_beside (c : Cia) :
    c.tickTimerA.2.id = c.id ∧ c.tickTimerA.2.crb = c.crb ∧ c.tickTimerA.2.timerB = c.timerB ∧
      c.tickTimerA.2.cra &&& craSpmode = c.cra &&& craSpmode := by
  rcases tickTimerA_cases c with ⟨count, h⟩ | ⟨count, cra, rfl | rfl, h⟩
  · rw [h]
    exact ⟨rfl, rfl, rfl, rfl⟩
  · rw [h]
    exact ⟨rfl, rfl, rfl, rfl⟩
  · rw [h]
    exact ⟨rfl, rfl, rfl, and_not_start c.cra craSpmode rfl⟩

theorem tickTimerB_beside (c : Cia) (underflow : Bool) :
    (c.tickTimerB underflow).id = c.id ∧ (c.tickTimerB underflow).cra = c.cra := by
  rcases tickTimerB_cases c underflow with ⟨-, count, h⟩ | ⟨-, count, crb, -, h⟩
  · rw [h]
    exact ⟨rfl, rfl⟩
  · rw [h]
    exact ⟨rfl, rfl⟩

theorem stepTimer_zero (latch : Word) : stepTimer 0 latch = (true, latch) := rfl

theorem eq_zero_of_toNat {w : Word} (h : w.toNat = 0) : w = 0 := BitVec.eq_of_toNat_eq h

theorem getLsbD_tickTimerA (h : c.timerAEvent = some 1) :
    c.tickTimerA.2.icrData.getLsbD Icr.ta = true := by
  unfold timerAEvent at h
  split at h
  · rename_i hcounts
    simp only [Option.some.injEq] at h
    unfold tickTimerA
    rw [if_pos hcounts, eq_zero_of_toNat (by omega : c.timerA.toNat = 0), stepTimer_zero]
    exact getLsbD_underflowA _
  · cases h

theorem getLsbD_tickTimerB (h : c.timerBEvent = some 1) (underflow : Bool) :
    (c.tickTimerB underflow).icrData.getLsbD Icr.tb = true := by
  unfold timerBEvent at h
  split at h
  · rename_i hcounts
    simp only [Option.some.injEq] at h
    have hcounts' : c.timerBCounts underflow = true := by
      unfold timerBCounts
      rw [if_pos hcounts.2]
      simpa using hcounts.1
    unfold tickTimerB
    rw [if_pos hcounts', eq_zero_of_toNat (by omega : c.timerB.toNat = 0), stepTimer_zero]
    exact getLsbD_underflowB _
  · cases h

theorem getLsbD_tickKeyboard (hmode : c.cra &&& craSpmode = 0) (hdelay : c.kbdDelay = 1)
    (hqueue : 0 < c.keyboardQueue.len) : c.tickKeyboard.icrData.getLsbD Icr.sp = true := by
  unfold tickKeyboard
  rw [if_neg (by simpa using hmode), hdelay]
  simp only [Nat.one_ne_zero, false_and, if_false]
  unfold landKeycode nextKeycode
  have hpop : (c.keyboardQueue.pop).1 = some (c.keyboardQueue.slot 0) := by
    unfold RingBuffer.pop
    rw [if_neg (by omega)]
  simp only [hpop, if_true]
  exact getLsbD_raise _ (by decide)

theorem keyboardEvent_eq_one (h : c.keyboardEvent = some 1) :
    c.id = .a ∧ c.cra &&& craSpmode = 0 ∧ c.kbdDelay = 1 := by
  unfold keyboardEvent at h
  split at h
  · rename_i hmode
    split at h
    · simp only [Option.some.injEq] at h
      exact ⟨hmode.1, hmode.2, h⟩
    · split at h
      · simp only [Option.some.injEq] at h
        exact absurd h (by decide)
      · cases h
  · cases h

theorem latches_tickOneEclock_timers (c : Cia) :
    Latches (c.tickTimerA.2.tickTimerB c.tickTimerA.1) c.tickOneEclock := by
  unfold tickOneEclock
  simp only
  split
  · exact latches_tickKeyboard _
  · exact .refl _

/-- **An event that is due raises its source.** -/
theorem raised_of_due (hwf : c.Wf) (h : some 1 ∈ c.events) :
    ∃ source ∈ eventSources, c.tickOneEclock.icrData.getLsbD source = true := by
  obtain ⟨hid, hcrb, htimerB, hspmode⟩ := tickTimerA_beside c
  obtain ⟨hid', hcra'⟩ := tickTimerB_beside c.tickTimerA.2 c.tickTimerA.1
  simp only [events, List.mem_cons, List.not_mem_nil, or_false] at h
  rcases h with h | h | h
  · refine ⟨Icr.ta, by decide, ?_⟩
    exact (latches_tickOneEclock_timers c).getLsbD
      ((latches_tickTimerB _ _).getLsbD (getLsbD_tickTimerA h.symm))
  · refine ⟨Icr.tb, by decide, ?_⟩
    have hevent : c.tickTimerA.2.timerBEvent = some 1 := by
      rw [h]
      unfold timerBEvent crbInmode
      rw [hcrb, htimerB]
    exact (latches_tickOneEclock_timers c).getLsbD (getLsbD_tickTimerB hevent _)
  · refine ⟨Icr.sp, by decide, ?_⟩
    obtain ⟨hida, hmode, hdelay⟩ := keyboardEvent_eq_one h.symm
    have hbeside := (beside_tickTimerA c).trans (beside_tickTimerB c.tickTimerA.2 c.tickTimerA.1)
    have hkeyboard : c.tickOneEclock = (c.tickTimerA.2.tickTimerB c.tickTimerA.1).tickKeyboard :=
      if_pos (hid'.trans (hid.trans hida))
    rw [hkeyboard]
    exact getLsbD_tickKeyboard (by rw [hcra', hspmode, hmode]) (hbeside.delay.trans hdelay)
      (by rw [hbeside.queue]; exact hwf.queued (by omega))

/-- Events that are under way are at least one E-clock away, and at most a whole timer. -/
theorem events_bounds (hwf : c.Wf) {e : Nat} (h : some e ∈ c.events) : 0 < e ∧ e ≤ 0x10000 := by
  have hA := c.timerA.isLt
  have hB := c.timerB.isLt
  have hticks : keyboardHandshakeTicks = 709 := rfl
  have hdelay := hwf.delay
  simp only [events, timerAEvent, timerBEvent, keyboardEvent, List.mem_cons, List.not_mem_nil,
    or_false] at h
  rcases h with h | h | h
  · split at h
    · simp only [Option.some.injEq] at h
      omega
    · cases h
  · split at h
    · simp only [Option.some.injEq] at h
      omega
    · cases h
  · split at h
    · split at h
      · simp only [Option.some.injEq] at h
        omega
      · split at h
        · simp only [Option.some.injEq] at h
          omega
        · cases h
    · cases h

theorem nearest_eq_some {e : Nat} :
    nearest c.events = some e ↔ some e ∈ c.events ∧ ∀ e', some e' ∈ c.events → e ≤ e' := by
  unfold nearest
  rw [List.min?_eq_some_iff]
  simp

theorem nearest_eq_none (h : nearest c.events = none) (e : Nat) : some e ∉ c.events := by
  unfold nearest at h
  rw [List.min?_eq_none_iff, List.filterMap_eq_nil_iff] at h
  intro he
  exact absurd (h (some e) he) (by simp)

/-- The deadline is that of the nearest event. -/
theorem deadline_event (hwf : c.Wf) (hp : p < 0x10000) (h : c.clocksUntilEvent p = some n) :
    ∃ e, some e ∈ c.events ∧ (∀ e', some e' ∈ c.events → e ≤ e') ∧ n = e * p - c.carry := by
  unfold clocksUntilEvent at h
  obtain ⟨e, he, rfl⟩ := Option.map_eq_some_iff.mp h
  obtain ⟨hmem, hmin⟩ := nearest_eq_some.mp he
  have hbound := (events_bounds hwf hmem).2
  have hproduct : e * p ≤ 0x10000 * 0xFFFF := Nat.mul_le_mul hbound (by omega)
  exact ⟨e, hmem, hmin, Nat.mod_eq_of_lt (by omega)⟩

theorem quietFor_of_deadline (hwf : c.Wf) (hp : p < 0x10000) (h : c.clocksUntilEvent p = some n) :
    c.QuietFor p n := by
  obtain ⟨e, -, hmin, rfl⟩ := deadline_event hwf hp h
  intro e' he'
  exact Nat.sub_le_sub_right (Nat.mul_le_mul_right p (hmin e' he')) c.carry

theorem quietFor_of_no_deadline (h : c.clocksUntilEvent p = none) (n : Nat) : c.QuietFor p n := by
  unfold clocksUntilEvent at h
  intro e he
  exact absurd he (nearest_eq_none (Option.map_eq_none_iff.mp h) e)

/-- **At the deadline a source is raised.** -/
theorem raised_at_deadline (hwf : c.Wf) (hpos : 0 < p) (hp : p < 0x10000)
    (h : c.clocksUntilEvent p = some n) :
    ∃ source ∈ eventSources, (c.tick n p).2.icrData.getLsbD source = true := by
  obtain ⟨e, hmem, hmin, rfl⟩ := deadline_event hwf hp h
  obtain ⟨hepos, hbound⟩ := events_bounds hwf hmem
  have hproduct : e * p ≤ 0x10000 * 0xFFFF := Nat.mul_le_mul hbound (by omega)
  have hcarry := hwf.carry
  -- The E-clock before the event, then the event, then whatever is left of the tick.
  have hclear : c.Clear (e - 1) := fun e' he' => by
    have hle := hmin e' he'
    omega
  obtain ⟨-, hevents⟩ := iterate_of_clear hclear
  have hdue : some 1 ∈ (tickOneEclock^[e - 1] c).events := by
    rw [hevents, List.mem_map]
    refine ⟨some e, hmem, ?_⟩
    simp only [Option.map_some, Option.some.injEq]
    omega
  obtain ⟨source, hsource, hraised⟩ := raised_of_due (wf_iterate hwf (e - 1)) hdue
  refine ⟨source, hsource, ?_⟩
  rw [tick_eq, Nat.mod_eq_of_lt (by omega)]
  simp only
  have heclocks : e ≤ (c.carry + (e * p - c.carry)) / p :=
    (Nat.le_div_iff_mul_le hpos).mpr (by omega)
  obtain ⟨rest, hrest⟩ := Nat.exists_eq_add_of_le' heclocks
  rw [hrest, show rest + e = rest + 1 + (e - 1) by omega, Function.iterate_add_apply,
    Function.iterate_add_apply]
  exact (latches_iterate _ rest).getLsbD hraised

end Cia

end M68kMachine
