import Mathlib.Tactic.IntervalCases
import M68kMachine.Properties.CiaTimers

/-!
# The time of day of a CIA

The counter is read and written a byte at a time while it ticks. What makes three accesses one value
is the latch between `TODHI` and `TODLO`, and the counter that stands still between them.

* `apply_cases` — an operation leaves counter and alarm alone, or sets one of them and compares
* `latched_run`, `undisturbed_run` — what lasts between two accesses
* `tod_is_coherent` — reads, writes and the alarm
-/

namespace M68kMachine

namespace Cia

open Transition

/-- A time as its three bytes. -/
def timeOf (hi mid lo : Byte) : Long := (hi ++ mid ++ lo).setWidth 32

def alarmPending (c : Cia) : Bool := c.icrData.getLsbD Icr.alrm

namespace Op

def reads (reg : Nat) : Op → Bool
  | .read r => r % 16 = reg
  | _ => false

def writes (reg : Nat) : Op → Bool
  | .write r _ => r % 16 = reg
  | _ => false

/-- A write of the counter, or of the mode that sends such writes to the alarm. -/
def setsTime (op : Op) : Bool :=
  op.writes Reg.todlo || op.writes Reg.todmid || op.writes Reg.todhi || op.writes Reg.crb

end Op

/-! ## What leaves the clock alone -/

/-- The clock, left as it is. -/
structure SameClock (c c' : Cia) : Prop where
  tod : c'.tod = c.tod
  todAlarm : c'.todAlarm = c.todAlarm
  todStopped : c'.todStopped = c.todStopped
  todMatching : c'.todMatching = c.todMatching

/-- The clock and all that belongs to it. -/
structure SameTod (c c' : Cia) : Prop extends SameClock c c' where
  todLatched : c'.todLatched = c.todLatched
  mode : c'.crb &&& crbAlarm = c.crb &&& crbAlarm
  pending : c'.alarmPending = c.alarmPending

theorem SameTod.refl (c : Cia) : SameTod c c := ⟨⟨rfl, rfl, rfl, rfl⟩, rfl, rfl, rfl⟩

theorem SameTod.trans {c c' c'' : Cia} (h : SameTod c c') (h' : SameTod c' c'') :
    SameTod c c'' :=
  ⟨⟨h'.tod.trans h.tod, h'.todAlarm.trans h.todAlarm, h'.todStopped.trans h.todStopped,
      h'.todMatching.trans h.todMatching⟩,
    h'.todLatched.trans h.todLatched, h'.mode.trans h.mode, h'.pending.trans h.pending⟩

/-- The other sources are not the alarm. -/
theorem alarmPending_raise (c : Cia) {i : Nat} (hi : i ≠ Icr.alrm) :
    (c.raise i).alarmPending = c.alarmPending := by
  unfold alarmPending
  rw [getLsbD_icrData_raise c i (by decide), decide_eq_false hi, Bool.or_false]

theorem sameTod_tickTimerA (c : Cia) : SameTod c c.tickTimerA.2 := by
  rcases tickTimerA_cases c with ⟨count, h⟩ | ⟨count, cra, -, h⟩
  · rw [h]
    exact ⟨⟨rfl, rfl, rfl, rfl⟩, rfl, rfl, rfl⟩
  · rw [h]
    exact ⟨⟨rfl, rfl, rfl, rfl⟩, rfl, rfl, alarmPending_raise c (by decide)⟩

theorem sameTod_tickTimerB (c : Cia) (underflow : Bool) : SameTod c (c.tickTimerB underflow) := by
  rcases tickTimerB_cases c underflow with ⟨-, count, h⟩ | ⟨-, count, crb, rfl | rfl, h⟩
  · rw [h]
    exact ⟨⟨rfl, rfl, rfl, rfl⟩, rfl, rfl, rfl⟩
  · rw [h]
    exact ⟨⟨rfl, rfl, rfl, rfl⟩, rfl, rfl, alarmPending_raise c (by decide)⟩
  · rw [h]
    exact ⟨⟨rfl, rfl, rfl, rfl⟩, rfl, and_not_start c.crb crbAlarm rfl,
      alarmPending_raise c (by decide)⟩

theorem sameTod_tickKeyboard (c : Cia) : SameTod c c.tickKeyboard := by
  rcases tickKeyboard_cases c with ⟨delay, queue, h⟩ | ⟨delay, queue, sdr, h⟩
  · rw [h]
    exact ⟨⟨rfl, rfl, rfl, rfl⟩, rfl, rfl, rfl⟩
  · rw [h]
    exact ⟨⟨rfl, rfl, rfl, rfl⟩, rfl, rfl, alarmPending_raise c (by decide)⟩

theorem sameTod_tickOneEclock (c : Cia) : SameTod c c.tickOneEclock := by
  have htimers := (sameTod_tickTimerA c).trans (sameTod_tickTimerB _ c.tickTimerA.1)
  unfold tickOneEclock
  simp only
  split
  · exact htimers.trans (sameTod_tickKeyboard _)
  · exact htimers

theorem sameTod_tick (c : Cia) (m p : Nat) : SameTod c (c.tick m p).2 := by
  have hrun : ∀ n, ∀ c : Cia, SameTod c (tickOneEclock^[n] c) := by
    intro n
    induction n with
    | zero => exact SameTod.refl
    | succ n ih => exact fun c => (sameTod_tickOneEclock c).trans (ih c.tickOneEclock)
  rw [tick_eq]
  obtain ⟨⟨htod, halarm, hstopped, hmatching⟩, hlatched, hmode, hpending⟩ :=
    hrun ((c.carry + m) % 0x100000000 / p) c
  exact ⟨⟨htod, halarm, hstopped, hmatching⟩, hlatched, hmode, hpending⟩

/-! ## Reads -/

/-- A read leaves the clock alone, latch and pending alarm apart. -/
theorem sameClock_read (c : Cia) (reg : Nat) :
    SameClock c (c.read reg).2 ∧ (c.read reg).2.crb = c.crb := by
  unfold read
  split <;> first
    | exact ⟨⟨rfl, rfl, rfl, rfl⟩, rfl⟩
    | (rw [readTod_snd]; exact ⟨⟨rfl, rfl, rfl, rfl⟩, rfl⟩)

theorem pending_read (c : Cia) (reg : Nat) :
    (c.read reg).2.alarmPending = (c.alarmPending && !decide (reg % 16 = Reg.icr)) := by
  by_cases hreg : reg % 16 = Reg.icr
  · have hread : (c.read reg).2 = { c with icrData := 0 } := by
      unfold read
      rw [hreg]
      rfl
    rw [hread, hreg]
    simp [alarmPending]
  · rw [decide_eq_false hreg, Bool.not_false, Bool.and_true]
    unfold read
    split <;> first
      | exact absurd ‹_› hreg
      | rfl
      | (rw [readTod_snd]; rfl)

variable {c : Cia} {reg : Nat}

theorem read_todhi (h : reg % 16 = Reg.todhi) : c.read reg = c.readTod Reg.todhi := by
  unfold read
  rw [h]
  rfl

theorem read_todlo (h : reg % 16 = Reg.todlo) : c.read reg = c.readTod Reg.todlo := by
  unfold read
  rw [h]
  rfl

/-- Only `TODHI` and `TODLO` move the latch. -/
theorem todLatched_read (hhi : reg % 16 ≠ Reg.todhi) (hlo : reg % 16 ≠ Reg.todlo) :
    (c.read reg).2.todLatched = c.todLatched := by
  unfold read
  split <;> first
    | exact absurd ‹_› hhi
    | exact absurd ‹_› hlo
    | rfl

/-! ## Writes -/

theorem write_tod (h : reg % 16 = Reg.todlo ∨ reg % 16 = Reg.todmid ∨ reg % 16 = Reg.todhi)
    (value : Byte) : c.write reg value = c.writeTod (reg % 16) value := by
  unfold write
  rcases h with h | h | h
  · rw [h]; rfl
  · rw [h]; rfl
  · rw [h]; rfl

theorem write_crb (h : reg % 16 = Reg.crb) (value : Byte) :
    c.write reg value = c.writeCrb value := by
  unfold write
  rw [h]
  rfl

theorem write_cases_of_setsTime {value : Byte} (h : (Op.write reg value).setsTime = true) :
    (reg % 16 = Reg.todlo ∨ reg % 16 = Reg.todmid ∨ reg % 16 = Reg.todhi) ∨ reg % 16 = Reg.crb := by
  simpa [Op.setsTime, Op.writes, or_assoc] using h

theorem start_alarm (crb : Byte) : (crb ||| crbStart) &&& crbAlarm = crb &&& crbAlarm := by
  rw [BitVec.and_or_distrib_right]
  exact BitVec.or_zero

/-- The other registers have nothing to do with the clock. -/
theorem sameTod_write (value : Byte) (h : (Op.write reg value).setsTime = false) :
    SameTod c (c.write reg value) := by
  unfold Op.setsTime Op.writes at h
  simp only [Bool.or_eq_false_iff, decide_eq_false_iff_not] at h
  obtain ⟨⟨⟨hlo, hmid⟩, hhi⟩, hcrb⟩ := h
  unfold write
  split <;> first
    | exact absurd ‹_› hlo
    | exact absurd ‹_› hmid
    | exact absurd ‹_› hhi
    | exact absurd ‹_› hcrb
    | exact ⟨⟨rfl, rfl, rfl, rfl⟩, rfl, rfl, rfl⟩
    | (obtain ⟨latch, count, cra, h⟩ := writeTahi_eq c value
       rw [h]
       exact ⟨⟨rfl, rfl, rfl, rfl⟩, rfl, rfl, rfl⟩)
    | (obtain ⟨latch, count, crb, rfl | rfl, h⟩ := writeTbhi_eq c value
       · rw [h]
         exact ⟨⟨rfl, rfl, rfl, rfl⟩, rfl, rfl, rfl⟩
       · rw [h]
         exact ⟨⟨rfl, rfl, rfl, rfl⟩, rfl, start_alarm c.crb, rfl⟩)

theorem alarmPending_checkTodAlarm (c : Cia) :
    c.checkTodAlarm.alarmPending =
      (c.alarmPending || decide (c.tod = c.todAlarm ∧ c.todMatching = false)) := by
  rw [checkTodAlarm_eq]
  unfold alarmPending
  simp only
  split
  · rename_i h
    rw [decide_eq_true h, Bool.or_true]
    exact (getLsbD_icrData_raise c Icr.alrm (by decide)).trans (Bool.or_true _)
  · rename_i h
    rw [decide_eq_false h, Bool.or_false]

variable {time : Long}

/-- A time keeps to 24 bits. -/
theorem setTodByte_lt (h : time.toNat < 2 ^ 24) (reg : Nat) (value : Byte) :
    (setTodByte time reg value).toNat < 2 ^ 24 := by
  have hvalue := value.isLt
  have hand : ∀ mask : Long, mask.toNat < 2 ^ 24 → (time &&& mask).toNat < 2 ^ 24 := by
    intro mask hmask
    rw [BitVec.toNat_and]
    exact Nat.lt_of_le_of_lt Nat.and_le_right hmask
  unfold setTodByte
  split
  · rw [BitVec.toNat_or]
    refine Nat.or_lt_two_pow (hand _ (by decide)) ?_
    rw [BitVec.toNat_setWidth]
    omega
  · rw [BitVec.toNat_or]
    refine Nat.or_lt_two_pow (hand _ (by decide)) ?_
    rw [BitVec.toNat_shiftLeft, BitVec.toNat_setWidth, Nat.shiftLeft_eq]
    omega
  · rw [BitVec.toNat_or]
    refine Nat.or_lt_two_pow (hand _ (by decide)) ?_
    rw [BitVec.toNat_shiftLeft, BitVec.toNat_setWidth, Nat.shiftLeft_eq]
    omega
  · exact h

/-! ## One operation -/

/-- **An operation leaves counter and alarm alone, or moves one and compares the two.** -/
theorem apply_cases (c : Cia) (op : Op) :
    (SameClock c (c.apply op) ∧
        (c.apply op).alarmPending = (c.alarmPending && !op.reads Reg.icr)) ∨
      op.reads Reg.icr = false ∧ ∃ moved : Cia, c.apply op = moved.checkTodAlarm ∧
        moved.alarmPending = c.alarmPending ∧ moved.todMatching = c.todMatching ∧
        (c.tod.toNat < 2 ^ 24 → moved.tod.toNat < 2 ^ 24) := by
  cases op with
  | read reg => exact .inl ⟨(sameClock_read c reg).1, pending_read c reg⟩
  | write reg value =>
    by_cases hsets : (Op.write reg value).setsTime = true
    · rcases write_cases_of_setsTime hsets with htod | hcrb
      · refine .inr ⟨rfl, _, write_tod htod value, ?_⟩
        split
        · exact ⟨rfl, rfl, fun h => h⟩
        · exact ⟨rfl, rfl, fun h => setTodByte_lt h _ value⟩
      · refine .inl ?_
        show SameClock c (c.write reg value) ∧ (c.write reg value).alarmPending = _
        rw [write_crb hcrb]
        exact ⟨⟨rfl, rfl, rfl, rfl⟩, (Bool.and_true _).symm⟩
    · have hsame := sameTod_write (c := c) value (Bool.eq_false_iff.mpr hsets)
      exact .inl ⟨hsame.toSameClock, hsame.pending.trans (Bool.and_true _).symm⟩
  | tick m p =>
    have hsame := sameTod_tick c m p
    exact .inl ⟨hsame.toSameClock, hsame.pending.trans (Bool.and_true _).symm⟩
  | todTick =>
    show (SameClock c c.todTick ∧ c.todTick.alarmPending = _) ∨ _ ∧ ∃ moved, c.todTick = _ ∧ _
    unfold todTick
    split
    · exact .inl ⟨⟨rfl, rfl, rfl, rfl⟩, (Bool.and_true _).symm⟩
    · refine .inr ⟨rfl, _, rfl, rfl, rfl, fun _ => ?_⟩
      show ((c.tod + 1) &&& 0x00FFFFFF).toNat < 2 ^ 24
      rw [BitVec.toNat_and]
      exact Nat.lt_of_le_of_lt Nat.and_le_right (by decide)
  | queueKeycode raw => exact .inl ⟨⟨rfl, rfl, rfl, rfl⟩, (Bool.and_true _).symm⟩
  | drive praInput prbInput => exact .inl ⟨⟨rfl, rfl, rfl, rfl⟩, (Bool.and_true _).symm⟩

/-- What every clock keeps to. -/
structure TodWf (c : Cia) : Prop where
  matching : c.todMatching = decide (c.tod = c.todAlarm)
  small : c.tod.toNat < 2 ^ 24

theorem todWf_apply (h : c.TodWf) (op : Op) : (c.apply op).TodWf := by
  rcases apply_cases c op with ⟨hsame, -⟩ | ⟨-, moved, hmoved, -, -, hsmall⟩
  · refine ⟨?_, ?_⟩
    · rw [hsame.todMatching, hsame.tod, hsame.todAlarm]
      exact h.matching
    · rw [hsame.tod]
      exact h.small
  · rw [hmoved, checkTodAlarm_eq]
    exact ⟨rfl, hsmall h.small⟩

theorem Reachable.todWf (h : c.Reachable) : c.TodWf := by
  refine Transition.Reachable.invariant ?_ ?_ h
  · rintro _ ⟨id, rfl⟩
    exact ⟨rfl, Nat.two_pow_pos 24⟩
  · intro c op hc
    exact todWf_apply hc op

/-- **`ALRM` is raised by a transition into equality, and by nothing else.** -/
theorem alarmPending_apply (h : c.TodWf) (op : Op) :
    (c.apply op).alarmPending = (c.alarmPending && !op.reads Reg.icr ||
      decide (c.tod ≠ c.todAlarm ∧ (c.apply op).tod = (c.apply op).todAlarm)) := by
  rcases apply_cases c op with ⟨hsame, hpending⟩ | ⟨hreads, moved, hmoved, hpending, hmatching, -⟩
  · rw [hsame.tod, hsame.todAlarm, hpending, decide_eq_false (fun h => h.1 h.2), Bool.or_false]
  · have htod : (c.apply op).tod = moved.tod := by rw [hmoved, checkTodAlarm_eq]
    have halarm : (c.apply op).todAlarm = moved.todAlarm := by rw [hmoved, checkTodAlarm_eq]
    rw [htod, halarm, hmoved, alarmPending_checkTodAlarm, hpending, hmatching, h.matching, hreads,
      Bool.not_false, Bool.and_true]
    simp only [decide_eq_false_iff_not, ne_eq, and_comm]

/-! ## Three reads -/

theorem timeOf_bytes (h : time.toNat < 2 ^ 24) :
    timeOf ((time >>> 16).setWidth 8) ((time >>> 8).setWidth 8) (time.setWidth 8) = time := by
  refine BitVec.eq_of_getLsbD_eq fun i hi => ?_
  unfold timeOf
  simp only [BitVec.getLsbD_setWidth, BitVec.getLsbD_append, BitVec.getLsbD_ushiftRight]
  rcases Nat.lt_or_ge i 24 with hlow | hhigh
  · interval_cases i <;> rfl
  · have hzero : time.getLsbD i = false :=
      Nat.testBit_lt_two_pow (Nat.lt_of_lt_of_le h (Nat.pow_le_pow_right (by decide) hhigh))
    rw [hzero]
    interval_cases i <;> simp

theorem todLatched_writeTod (c : Cia) (reg : Nat) (value : Byte) :
    (c.writeTod reg value).todLatched = c.todLatched := by
  obtain ⟨tod, alarm, stopped, matching, data, h⟩ := writeTod_eq c reg value
  rw [h]

theorem todLatched_todTick (c : Cia) : c.todTick.todLatched = c.todLatched := by
  obtain ⟨tod, matching, data, h⟩ := todTick_eq c
  rw [h]

variable {op : Op}

/-- Nothing but a read of `TODHI` or `TODLO` moves the latch. -/
theorem todLatched_apply (hhi : op.reads Reg.todhi = false) (hlo : op.reads Reg.todlo = false) :
    (c.apply op).todLatched = c.todLatched := by
  cases op with
  | read reg => exact todLatched_read (of_decide_eq_false hhi) (of_decide_eq_false hlo)
  | write reg value =>
    by_cases hsets : (Op.write reg value).setsTime = true
    · show (c.write reg value).todLatched = c.todLatched
      rcases write_cases_of_setsTime hsets with htod | hcrb
      · rw [write_tod htod, todLatched_writeTod]
      · rw [write_crb hcrb]
        rfl
    · exact (sameTod_write value (Bool.eq_false_iff.mpr hsets)).todLatched
  | tick m p => exact (sameTod_tick c m p).todLatched
  | todTick => exact todLatched_todTick c
  | queueKeycode raw => rfl
  | drive praInput prbInput => rfl

/-- A latched time stays until `TODLO` is read. -/
theorem latched_apply (h : c.todLatched = some time) (hlo : op.reads Reg.todlo = false) :
    (c.apply op).todLatched = some time := by
  by_cases hhi : op.reads Reg.todhi = true
  · cases op with
    | read reg =>
      show (c.read reg).2.todLatched = some time
      rw [read_todhi (of_decide_eq_true hhi), readTod_snd]
      simp [h]
    | _ => cases hhi
  · rw [todLatched_apply (Bool.eq_false_iff.mpr hhi) hlo, h]

/-- Without a latched time there is none until `TODHI` is read. -/
theorem unlatched_apply (h : c.todLatched = none) (hhi : op.reads Reg.todhi = false) :
    (c.apply op).todLatched = none := by
  by_cases hlo : op.reads Reg.todlo = true
  · cases op with
    | read reg =>
      show (c.read reg).2.todLatched = none
      rw [read_todlo (of_decide_eq_true hlo), readTod_snd]
      rfl
    | _ => cases hlo
  · rw [todLatched_apply hhi (Bool.eq_false_iff.mpr hlo), h]

variable {ops : List Op}

theorem latched_run (h : c.todLatched = some time) (hops : ∀ op ∈ ops, op.reads Reg.todlo = false) :
    (run apply c ops).todLatched = some time :=
  run_invariant_of_mem (P := fun c : Cia => c.todLatched = some time)
    (fun c op hc hop => show (apply c op).todLatched = _ from latched_apply hc hop) ops h hops

theorem unlatched_run (h : c.todLatched = none) (hops : ∀ op ∈ ops, op.reads Reg.todhi = false) :
    (run apply c ops).todLatched = none :=
  run_invariant_of_mem (P := fun c : Cia => c.todLatched = none)
    (fun c op hc hop => show (apply c op).todLatched = _ from unlatched_apply hc hop) ops h hops

theorem readTod_todhi (h : c.todLatched = none) :
    c.read Reg.todhi = ((c.tod >>> 16).setWidth 8, { c with todLatched := some c.tod }) := by
  show c.readTod Reg.todhi = _
  unfold readTod
  simp [h]

theorem readTod_todmid (h : c.todLatched = some time) :
    c.read Reg.todmid = ((time >>> 8).setWidth 8, c) := by
  show c.readTod Reg.todmid = _
  unfold readTod
  simp [h]

theorem readTod_todlo (h : c.todLatched = some time) :
    c.read Reg.todlo = (time.setWidth 8, { c with todLatched := none }) := by
  show c.readTod Reg.todlo = _
  unfold readTod
  simp [h]

variable {first second : List Op}

/-- **Three reads are one value,** whatever happens between them. -/
theorem reads_coherent (hsmall : c.tod.toNat < 2 ^ 24) (h : c.todLatched = none)
    (hfirst : ∀ op ∈ first, op.reads Reg.todlo = false)
    (hsecond : ∀ op ∈ second, op.reads Reg.todlo = false) :
    let hi := c.read Reg.todhi
    let mid := (run apply hi.2 first).read Reg.todmid
    let lo := (run apply mid.2 second).read Reg.todlo
    timeOf hi.1 mid.1 lo.1 = c.tod ∧ lo.2.todLatched = none := by
  simp only
  rw [readTod_todhi h]
  have hlatched := latched_run (c := { c with todLatched := some c.tod }) rfl hfirst
  rw [readTod_todmid hlatched, readTod_todlo (latched_run hlatched hsecond)]
  exact ⟨timeOf_bytes hsmall, rfl⟩

/-! ## Three writes -/

theorem timeOf_setTodByte (time : Long) (hi mid lo : Byte) :
    setTodByte (setTodByte (setTodByte time Reg.todhi hi) Reg.todmid mid) Reg.todlo lo =
      timeOf hi mid lo := by
  refine BitVec.eq_of_getLsbD_eq fun i hi => ?_
  unfold setTodByte timeOf
  simp only [BitVec.getLsbD_or, BitVec.getLsbD_and, BitVec.getLsbD_setWidth,
    BitVec.getLsbD_append, BitVec.getLsbD_shiftLeft]
  interval_cases i <;> simp

/-- What lasts as long as nothing is written: a counter that runs goes on. -/
structure Undisturbed (c c' : Cia) : Prop where
  mode : c'.crb &&& crbAlarm = c.crb &&& crbAlarm
  todAlarm : c'.todAlarm = c.todAlarm
  todStopped : c'.todStopped = c.todStopped
  tod : c.todStopped = true → c'.tod = c.tod

theorem Undisturbed.trans {c c' c'' : Cia} (h : Undisturbed c c') (h' : Undisturbed c' c'') :
    Undisturbed c c'' :=
  ⟨h'.mode.trans h.mode, h'.todAlarm.trans h.todAlarm, h'.todStopped.trans h.todStopped,
    fun hstopped => (h'.tod (h.todStopped.trans hstopped)).trans (h.tod hstopped)⟩

theorem SameTod.undisturbed {c' : Cia} (h : SameTod c c') : Undisturbed c c' :=
  ⟨h.mode, h.todAlarm, h.todStopped, fun _ => h.tod⟩

theorem undisturbed_todTick (c : Cia) : Undisturbed c c.todTick := by
  unfold todTick
  split
  · exact (SameTod.refl c).undisturbed
  · rename_i hruns
    rw [checkTodAlarm_eq]
    exact ⟨rfl, rfl, rfl, fun hstopped => absurd hstopped hruns⟩

theorem undisturbed_apply (c : Cia) (h : op.setsTime = false) : Undisturbed c (c.apply op) := by
  cases op with
  | read reg =>
    obtain ⟨hsame, hcrb⟩ := sameClock_read c reg
    exact ⟨congrArg (· &&& crbAlarm) hcrb, hsame.todAlarm, hsame.todStopped, fun _ => hsame.tod⟩
  | write reg value => exact (sameTod_write value h).undisturbed
  | tick m p => exact (sameTod_tick c m p).undisturbed
  | todTick => exact undisturbed_todTick c
  | queueKeycode raw => exact ⟨rfl, rfl, rfl, fun _ => rfl⟩
  | drive praInput prbInput => exact ⟨rfl, rfl, rfl, fun _ => rfl⟩

theorem undisturbed_run (hops : ∀ op ∈ ops, op.setsTime = false) :
    Undisturbed c (run apply c ops) :=
  run_invariant_of_mem (P := Undisturbed c)
    (fun c' op hc hop => show Undisturbed c (apply c' op) from hc.trans (undisturbed_apply c' hop))
    ops (SameTod.refl c).undisturbed hops

/-- A counter that stands still, and takes the writes. -/
structure Halted (c : Cia) (time alarm : Long) : Prop where
  mode : c.crb &&& crbAlarm = 0
  tod : c.tod = time
  todStopped : c.todStopped = true
  todAlarm : c.todAlarm = alarm

theorem Halted.undisturbed {c' : Cia} {alarm : Long} (h : c.Halted time alarm)
    (hsame : Undisturbed c c') : c'.Halted time alarm :=
  ⟨hsame.mode.trans h.mode, (hsame.tod h.todStopped).trans h.tod,
    hsame.todStopped.trans h.todStopped, hsame.todAlarm.trans h.todAlarm⟩

theorem halted_todhi (h : c.crb &&& crbAlarm = 0) (value : Byte) :
    (c.write Reg.todhi value).Halted (setTodByte c.tod Reg.todhi value) c.todAlarm := by
  show (c.writeTod Reg.todhi value).Halted _ _
  unfold writeTod
  rw [if_neg (not_not.mpr h), checkTodAlarm_eq]
  exact ⟨h, rfl, rfl, rfl⟩

theorem Halted.todmid {c : Cia} {time alarm : Long} (h : c.Halted time alarm) (value : Byte) :
    (c.write Reg.todmid value).Halted (setTodByte time Reg.todmid value) alarm := by
  show (c.writeTod Reg.todmid value).Halted _ _
  unfold writeTod
  rw [if_neg (not_not.mpr h.mode), checkTodAlarm_eq, h.tod]
  exact ⟨h.mode, rfl, h.todStopped, h.todAlarm⟩

theorem Halted.todlo {c : Cia} {time alarm : Long} (h : c.Halted time alarm) (value : Byte) :
    (c.write Reg.todlo value).tod = setTodByte time Reg.todlo value ∧
      (c.write Reg.todlo value).todAlarm = alarm ∧
      (c.write Reg.todlo value).todStopped = false := by
  rw [show c.write Reg.todlo value = c.writeTod Reg.todlo value from rfl]
  unfold writeTod
  rw [if_neg (not_not.mpr h.mode), checkTodAlarm_eq, h.tod]
  exact ⟨rfl, h.todAlarm, rfl⟩

/-- **Three writes of the counter are one value**: it stands still from the first to the last. -/
theorem writes_counter (h : c.crb &&& crbAlarm = 0) (hfirst : ∀ op ∈ first, op.setsTime = false)
    (hsecond : ∀ op ∈ second, op.setsTime = false) (hi mid lo : Byte) :
    let high := run apply (c.write Reg.todhi hi) first
    let middle := run apply (high.write Reg.todmid mid) second
    let after := middle.write Reg.todlo lo
    after.tod = timeOf hi mid lo ∧ after.todAlarm = c.todAlarm ∧ after.todStopped = false := by
  intro high middle after
  have hhigh : high.Halted _ _ := (halted_todhi h hi).undisturbed (undisturbed_run hfirst)
  have hmiddle : middle.Halted _ _ := (hhigh.todmid mid).undisturbed (undisturbed_run hsecond)
  obtain ⟨htod, halarm, hruns⟩ := hmiddle.todlo lo
  exact ⟨htod.trans (timeOf_setTodByte c.tod hi mid lo), halarm, hruns⟩

/-- A write in alarm mode. -/
theorem write_alarm (h : c.crb &&& crbAlarm ≠ 0)
    (hreg : reg = Reg.todlo ∨ reg = Reg.todmid ∨ reg = Reg.todhi) (value : Byte) :
    (c.write reg value).crb &&& crbAlarm ≠ 0 ∧
      (c.write reg value).todAlarm = setTodByte c.todAlarm reg value := by
  have hwrite : c.write reg value = c.writeTod reg value := by
    rcases hreg with rfl | rfl | rfl <;> rfl
  rw [hwrite]
  unfold writeTod
  rw [if_pos h, checkTodAlarm_eq]
  exact ⟨h, rfl⟩

/-- **Three writes of the alarm are one value.** -/
theorem writes_alarm (h : c.crb &&& crbAlarm ≠ 0) (hfirst : ∀ op ∈ first, op.setsTime = false)
    (hsecond : ∀ op ∈ second, op.setsTime = false) (hi mid lo : Byte) :
    let high := run apply (c.write Reg.todhi hi) first
    let middle := run apply (high.write Reg.todmid mid) second
    (middle.write Reg.todlo lo).todAlarm = timeOf hi mid lo := by
  intro high middle
  obtain ⟨hmode, hset⟩ := write_alarm h (.inr (.inr rfl)) hi
  have hhigh := undisturbed_run (c := c.write Reg.todhi hi) hfirst
  obtain ⟨hmode', hset'⟩ := write_alarm (c := high) (hhigh.mode ▸ hmode) (.inr (.inl rfl)) mid
  have hmiddle := undisturbed_run (c := high.write Reg.todmid mid) hsecond
  obtain ⟨-, hset''⟩ := write_alarm (c := middle) (hmiddle.mode ▸ hmode') (.inl rfl) lo
  rw [hset'', hmiddle.todAlarm, hset', hhigh.todAlarm, hset]
  exact timeOf_setTodByte c.todAlarm hi mid lo

/-! ## The clock -/

/-- **The time of day is coherent,** in every state of a chip. Reads of `TODHI`, `TODMID` and
`TODLO` that find nothing latched return the time at the first of them and leave nothing latched, as
long as what happens meanwhile does not read `TODHI` before or `TODLO` between them. Writes in that
order set the counter, or the alarm, as long as nothing else writes them or the mode. `ALRM` becomes
pending exactly when counter and alarm become equal; a read of `ICR` takes it back. -/
theorem tod_is_coherent {c : Cia} (h : c.Reachable) :
    (∀ before first second : List Op, c.todLatched = none →
      (∀ op ∈ before, op.reads Reg.todhi = false) →
      (∀ op ∈ first ++ second, op.reads Reg.todlo = false) →
        let start := run apply c before
        let hi := start.read Reg.todhi
        let mid := (run apply hi.2 first).read Reg.todmid
        let lo := (run apply mid.2 second).read Reg.todlo
        timeOf hi.1 mid.1 lo.1 = start.tod ∧ lo.2.todLatched = none) ∧
      (∀ (first second : List Op) (hi mid lo : Byte),
        (∀ op ∈ first ++ second, op.setsTime = false) →
          let high := run apply (c.write Reg.todhi hi) first
          let middle := run apply (high.write Reg.todmid mid) second
          let after := middle.write Reg.todlo lo
          if c.crb &&& crbAlarm = 0 then
            after.tod = timeOf hi mid lo ∧ after.todAlarm = c.todAlarm ∧ after.todStopped = false
          else after.todAlarm = timeOf hi mid lo) ∧
      ∀ op : Op, (c.apply op).alarmPending = (c.alarmPending && !op.reads Reg.icr ||
        decide (c.tod ≠ c.todAlarm ∧ (c.apply op).tod = (c.apply op).todAlarm)) := by
  refine ⟨?_, ?_, alarmPending_apply h.todWf⟩
  · intro before first second hlatched hbefore hbetween
    rw [List.forall_mem_append] at hbetween
    have hstart : (run apply c before).TodWf := Reachable.todWf (Transition.Reachable.run h before)
    exact reads_coherent hstart.small (unlatched_run hlatched hbefore) hbetween.1 hbetween.2
  · intro first second hi mid lo hbetween
    rw [List.forall_mem_append] at hbetween
    simp only
    split
    · rename_i hmode
      exact writes_counter hmode hbetween.1 hbetween.2 hi mid lo
    · rename_i hmode
      exact writes_alarm hmode hbetween.1 hbetween.2 hi mid lo

/-- `$1234FE` with a tick during the writes and between the reads: no carry into `TODMID` shows. -/
theorem tod_is_coherent_carry :
    let start := run apply (Cia.new .a)
      [.write Reg.todhi 0x12, .todTick, .write Reg.todmid 0x34, .write Reg.todlo 0xFE, .todTick]
    let hi := start.read Reg.todhi
    let mid := (run apply hi.2 [.todTick]).read Reg.todmid
    let lo := (run apply mid.2 [.todTick]).read Reg.todlo
    timeOf hi.1 mid.1 lo.1 = 0x1234FF ∧ lo.2.tod = 0x123501 ∧ lo.2.todLatched = none := by
  have hnew : (Cia.new .a).Reachable := .start ⟨.a, rfl⟩
  obtain ⟨htime, hlatch⟩ := (tod_is_coherent hnew).1
    [.write Reg.todhi 0x12, .todTick, .write Reg.todmid 0x34, .write Reg.todlo 0xFE, .todTick]
    [.todTick] [.todTick] rfl (by decide) (by decide)
  exact ⟨htime.trans (by decide), by decide, hlatch⟩

end Cia

end M68kMachine
