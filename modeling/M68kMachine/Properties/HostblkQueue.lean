import M68kMachine.Cards.Hostblk
import M68kMachine.Library.Pipeline

/-!
# `hostblk` completes every accepted request once and in order

The two rings of the card, driven by register writes, host calls and ticks in any order, refine a
`Pipeline`: a doorbell is an `offer`, a tick is a `serve`, `COMPLETION_ADVANCE` is a `retire`.

* `Log` — what an observer at the register file sees accepted, delivered and dropped
* `abs_step` — one operation of the card is one action of the pipeline
* `completes_once_in_order` — the accounting along every run, and that it drains
-/

namespace M68kMachine.Hostblk

open Transition

variable {δ μ : Type}

/-! ## Observing a run -/

/-- What can happen to the card. Every tick may find guest memory changed. -/
inductive Op (δ μ : Type)
  | write (offset : Nat) (value : Byte)
  | tick (mem : μ)
  | attachUnit (unit : Byte) (device : δ) (writeProtect : Bool)
  | notifyMediaChange (unit : Byte)

/-- The pointers accepted and retired, in order, and the doorbells that found the ring full. -/
structure Log where
  accepted : List Long
  delivered : List Long
  dropped : Nat

/-- The pointer a write to the low-order doorbell lane submits. -/
def doorbellPtr (h : Hostblk δ) (value : Byte) : Long := setByteOf h.doorbellAcc 3 value

/-- What one register write adds to the log. -/
def Log.record (h : Hostblk δ) (log : Log) (o : Nat) (value : Byte) : Log :=
  if o = Reg.doorbell + 3 then
    if h.submitQueue.isFull then { log with dropped := log.dropped + 1 }
    else { log with accepted := log.accepted ++ [h.doorbellPtr value] }
  else if o = Reg.completionAdvance + 3 then
    { log with delivered := log.delivered ++ (h.completionQueue.peek.map (·.ptr)).toList }
  else log

structure Observed (δ : Type) where
  card : Hostblk δ
  log : Log

namespace Observed

def start (diagRom : List Byte) : Observed δ := ⟨Hostblk.new diagRom, ⟨[], [], 0⟩⟩

def step [BlockDevice δ] [GuestMemory μ] (t : Observed δ) : Op δ μ → Observed δ
  | .write o value => ⟨t.card.write o value, t.log.record t.card o value⟩
  | .tick mem => ⟨(t.card.tick mem).1, t.log⟩
  | .attachUnit unit device wp => ⟨t.card.attachUnit unit device wp, t.log⟩
  | .notifyMediaChange unit => ⟨t.card.notifyMediaChange unit, t.log⟩

/-- The pipeline an observed card stands for. -/
def abs (t : Observed δ) : Pipeline Long where
  waiting := t.card.submitQueue.toList
  results := t.card.completionQueue.toList.map (·.ptr)
  accepted := t.log.accepted
  retired := t.log.delivered
  dropped := t.log.dropped

/-- The pipeline action of an operation. -/
def action (t : Observed δ) : Op δ μ → Pipeline.Op Long
  | .write o value =>
    if o = Reg.doorbell + 3 then .offer (t.card.doorbellPtr value)
    else if o = Reg.completionAdvance + 3 then .retire
    else .idle
  | .tick _ => .serve
  | .attachUnit .. => .idle
  | .notifyMediaChange _ => .idle

end Observed

/-! ## What the operations do to the queues -/

/-- The fields the queues live in agree. -/
structure SameQueues (h h' : Hostblk δ) : Prop where
  submit : h'.submitQueue = h.submitQueue
  completion : h'.completionQueue = h.completionQueue
  overflow : h'.submitOverflow = h.submitOverflow

theorem SameQueues.refl (h : Hostblk δ) : SameQueues h h := ⟨rfl, rfl, rfl⟩

theorem sameQueues_setUnit (h : Hostblk δ) (u : Fin unitCount) (a : AttachedUnit δ) :
    SameQueues h (h.setUnit u a) := ⟨rfl, rfl, rfl⟩

theorem sameQueues_attachUnit (h : Hostblk δ) (unit : Byte) (device : δ) (wp : Bool) :
    SameQueues h (h.attachUnit unit device wp) := by
  unfold attachUnit
  split
  · exact sameQueues_setUnit h _ _
  · exact SameQueues.refl h

theorem sameQueues_notifyMediaChange (h : Hostblk δ) (unit : Byte) :
    SameQueues h (h.notifyMediaChange unit) := by
  unfold notifyMediaChange
  split
  · split
    · exact sameQueues_setUnit h _ _
    · exact SameQueues.refl h
  · exact SameQueues.refl h

theorem sameQueues_transfer [BlockDevice δ] [GuestMemory μ] (h : Hostblk δ)
    (u : Fin unitCount) (unit : AttachedUnit δ) (desc : Descriptor) (mem : μ) (isWrite : Bool) :
    SameQueues h (h.transfer u unit desc mem isWrite).2.1 := by
  unfold transfer
  split
  · exact SameQueues.refl h
  split
  · exact SameQueues.refl h
  split
  · exact SameQueues.refl h
  dsimp only
  split
  · exact SameQueues.refl h
  split
  · exact SameQueues.refl h
  split
  · exact SameQueues.refl h
  · exact sameQueues_setUnit h _ _

/-- Executing a request touches the units and guest memory, never the queues. -/
theorem sameQueues_execute [BlockDevice δ] [GuestMemory μ] (h : Hostblk δ) (ptr : Long) (mem : μ) :
    SameQueues h (h.execute ptr mem).2.1 := by
  unfold execute
  split
  · exact SameQueues.refl h
  split
  · exact SameQueues.refl h
  split
  · exact sameQueues_transfer h _ _ _ mem false
  split
  · exact sameQueues_transfer h _ _ _ mem true
  split
  · exact SameQueues.refl h
  · exact SameQueues.refl h

/-! ### What a tick can do -/

theorem tickChecked_full [BlockDevice δ] [GuestMemory μ] {h : Hostblk δ} (mem : μ)
    (hfull : h.completionQueue.toList.length = completionQueueCapacity) :
    h.tickChecked mem = (none, h, mem) := by
  unfold tickChecked
  rw [if_pos (h.completionQueue.isFull_iff.mpr hfull)]

theorem tickChecked_idle [BlockDevice δ] [GuestMemory μ] {h : Hostblk δ} (mem : μ)
    (hempty : h.submitQueue.toList = []) : h.tickChecked mem = (none, h, mem) := by
  unfold tickChecked
  split
  · rfl
  · have hpop := h.submitQueue.pop_fst
    rw [hempty] at hpop
    rcases hp : h.submitQueue.pop with ⟨head, rest⟩
    rw [hp] at hpop
    simp only [List.head?_nil] at hpop
    subst hpop
    rfl

/-- With room for its result the oldest request runs, and its completion is pushed. -/
theorem tickChecked_serve [BlockDevice δ] [GuestMemory μ] {h : Hostblk δ} (mem : μ) {ptr : Long}
    {queued : List Long} (hroom : h.completionQueue.toList.length < completionQueueCapacity)
    (hq : h.submitQueue.toList = ptr :: queued) :
    ∃ error actual h' mem', h.tickChecked mem = (some true, h', mem')
      ∧ h'.submitQueue.toList = queued
      ∧ h'.completionQueue.toList = h.completionQueue.toList ++ [⟨ptr, error, actual⟩]
      ∧ h'.submitOverflow = h.submitOverflow := by
  have hfull : ¬ h.completionQueue.isFull = true := fun hf =>
    Nat.ne_of_lt hroom (h.completionQueue.isFull_iff.mp hf)
  have hpop := h.submitQueue.pop_fst
  have hrest := h.submitQueue.toList_pop
  unfold tickChecked
  rw [if_neg hfull]
  rcases hp : h.submitQueue.pop with ⟨head, rest⟩
  rw [hp, hq] at hpop hrest
  simp only [List.head?_cons, List.tail_cons] at hpop hrest
  subst hpop
  -- the engine leaves the completion ring as it was checked, so the push finds its room
  have hsame := sameQueues_execute { h with submitQueue := rest } ptr mem
  rcases hx : execute { h with submitQueue := rest } ptr mem with ⟨⟨error, actual⟩, h', mem'⟩
  rw [hx] at hsame
  have hc : h'.completionQueue = h.completionQueue := hsame.completion
  have hpush := h.completionQueue.push_fst ⟨ptr, error, actual⟩
  have hlist := RingBuffer.toList_push (⟨ptr, error, actual⟩ : CompletionEntry) hroom
  rcases hq' : h.completionQueue.push ⟨ptr, error, actual⟩ with ⟨pushed, queue⟩
  rw [hq'] at hpush hlist
  simp only [hroom, decide_true] at hpush hlist
  refine ⟨error, actual, { h' with completionQueue := queue }, mem', ?_, ?_, hlist, hsame.overflow⟩
  · simp only [hx, hc, hq', hpush]
  · rw [← hrest]
    exact congrArg RingBuffer.toList hsame.submit

/-! ### What a register write can do -/

/-- A register write outside the two trigger lanes leaves the queues alone. -/
theorem sameQueues_write (h : Hostblk δ) {o : Nat} (value : Byte)
    (hd : o ≠ Reg.doorbell + 3) (ha : o ≠ Reg.completionAdvance + 3) :
    SameQueues h (h.write o value) := by
  unfold write
  simp only [inSlot_iff, Reg.unitSelect, Reg.doorbell, Reg.completionAdvance, Reg.intEnable]
    at hd ha ⊢
  split
  · split <;> exact ⟨rfl, rfl, rfl⟩
  split
  · rw [if_neg (by omega)]
    exact ⟨rfl, rfl, rfl⟩
  split
  · rw [if_neg (by omega)]
    exact SameQueues.refl h
  split
  · split <;> exact ⟨rfl, rfl, rfl⟩
  · exact SameQueues.refl h

/-- A write to the low-order doorbell lane submits the accumulated pointer. -/
theorem write_doorbell (h : Hostblk δ) (value : Byte) :
    h.write (Reg.doorbell + 3) value
      = { h with doorbellAcc := h.doorbellPtr value }.submit (h.doorbellPtr value) := rfl

theorem write_completionAdvance (h : Hostblk δ) (value : Byte) :
    h.write (Reg.completionAdvance + 3) value
      = { h with completionQueue := h.completionQueue.pop.2 } := rfl

/-- The head of the completion queue is what the four lanes of `COMPLETION_PTR` read. -/
theorem read_completionPtr [BlockDevice δ] (h : Hostblk δ) {lane : Nat} (hl : lane < 4) :
    h.read (Reg.completionPtr + lane)
      = byteOf ((h.completionQueue.peek.map (·.ptr)).getD 0) lane := by
  unfold read
  simp only [Reg.unitSelect, Reg.unitPresent, Reg.unitWriteProtect, Reg.unitChangeCount,
    Reg.unitSectorsHi, Reg.unitSectorsLo, Reg.submitOverflow, Reg.completionPtr]
  rw [if_neg (not_inSlot (by omega)), if_neg (not_inSlot (by omega)),
    if_neg (not_inSlot (by omega)), if_neg (not_inSlot (by omega)),
    if_neg (not_inSlot (by omega)), if_neg (not_inSlot (by omega)),
    if_neg (not_inSlot (by omega)), if_pos (inSlot_iff.mpr (by omega)), Nat.add_sub_cancel_left]

/-! ## One operation is one pipeline action -/

theorem abs_doorbell [BlockDevice δ] [GuestMemory μ] (t : Observed δ) (value : Byte) :
    (t.step (.write (Reg.doorbell + 3) value : Op δ μ)).abs
      = t.abs.offer submitQueueCapacity (t.card.doorbellPtr value) := by
  unfold Pipeline.offer Observed.step Observed.abs Log.record
  simp only [write_doorbell, if_true]
  by_cases hfull : t.card.submitQueue.toList.length = submitQueueCapacity
  · have hf : t.card.submitQueue.isFull = true := t.card.submitQueue.isFull_iff.mpr hfull
    rw [if_pos hf, if_neg (by omega)]
    unfold submit
    rw [RingBuffer.push_full _ hfull]
  · have hlt : t.card.submitQueue.toList.length < submitQueueCapacity :=
      Nat.lt_of_le_of_ne t.card.submitQueue.length_toList_le hfull
    have hf : ¬ t.card.submitQueue.isFull = true := fun h =>
      hfull (t.card.submitQueue.isFull_iff.mp h)
    have htrue := t.card.submitQueue.push_fst (t.card.doorbellPtr value)
    have hlist := RingBuffer.toList_push (t.card.doorbellPtr value) hlt
    rw [if_neg hf, if_pos hlt]
    unfold submit
    cases hp : t.card.submitQueue.push (t.card.doorbellPtr value) with
    | mk ok queue =>
      rw [hp] at htrue hlist
      simp only [hlt, decide_true] at htrue
      subst htrue
      simp only [hlist]

theorem abs_completionAdvance [BlockDevice δ] [GuestMemory μ] (t : Observed δ) (value : Byte) :
    (t.step (.write (Reg.completionAdvance + 3) value : Op δ μ)).abs = t.abs.retire := by
  have hlog : t.log.record t.card (Reg.completionAdvance + 3) value = { t.log with
      delivered := t.log.delivered ++ (t.card.completionQueue.peek.map (·.ptr)).toList } := by
    unfold Log.record
    rw [if_neg (by decide), if_pos rfl]
  simp only [Observed.step, Observed.abs, write_completionAdvance, hlog, Pipeline.retire,
    RingBuffer.toList_pop, RingBuffer.peek_eq]
  cases t.card.completionQueue.toList with
  | nil => simp
  | cons e rest => simp

theorem abs_tick [BlockDevice δ] [GuestMemory μ] (t : Observed δ) (mem : μ) :
    (t.step (.tick mem : Op δ μ)).abs = t.abs.serve completionQueueCapacity := by
  have hres : t.abs.results.length = t.card.completionQueue.toList.length := List.length_map _
  simp only [Observed.step, tick]
  unfold Pipeline.serve
  rw [hres]
  by_cases hroom : t.card.completionQueue.toList.length < completionQueueCapacity
  · rw [if_pos hroom]
    cases hq : t.card.submitQueue.toList with
    | nil => simp only [tickChecked_idle mem hq, Observed.abs, hq]
    | cons ptr queued =>
      obtain ⟨error, actual, h', mem', htick, hsub, hcomp, _⟩ := tickChecked_serve mem hroom hq
      simp only [htick, Observed.abs, hq, hsub, hcomp, List.map_append, List.map_cons,
        List.map_nil]
  · have hfull : t.card.completionQueue.toList.length = completionQueueCapacity :=
      Nat.le_antisymm t.card.completionQueue.length_toList_le (Nat.not_lt.mp hroom)
    rw [if_neg hroom, tickChecked_full mem hfull]

theorem abs_idle {t t' : Observed δ} (h : SameQueues t.card t'.card) (hl : t'.log = t.log) :
    t'.abs = t.abs := by
  unfold Observed.abs
  rw [h.submit, h.completion, hl]

/-- **The observed card refines the pipeline**, operation by operation. -/
theorem abs_step [BlockDevice δ] [GuestMemory μ] (t : Observed δ) (op : Op δ μ) :
    (t.step op).abs
      = t.abs.step submitQueueCapacity completionQueueCapacity (t.action op) := by
  cases op with
  | write o value =>
    simp only [Observed.action]
    by_cases hd : o = Reg.doorbell + 3
    · subst hd
      rw [if_pos rfl]
      exact abs_doorbell t value
    · rw [if_neg hd]
      by_cases ha : o = Reg.completionAdvance + 3
      · subst ha
        rw [if_pos rfl]
        exact abs_completionAdvance t value
      · rw [if_neg ha]
        refine abs_idle (sameQueues_write t.card value hd ha) ?_
        simp only [Observed.step, Log.record, if_neg hd, if_neg ha]
  | tick mem => exact abs_tick t mem
  | attachUnit unit device wp => exact abs_idle (sameQueues_attachUnit t.card unit device wp) rfl
  | notifyMediaChange unit => exact abs_idle (sameQueues_notifyMediaChange t.card unit) rfl

/-! ## Runs -/

/-- The overflow register is the number of dropped doorbells, modulo `2 ^ 32`. -/
def OverflowCounts (t : Observed δ) : Prop :=
  t.card.submitOverflow = BitVec.ofNat 32 t.log.dropped

theorem OverflowCounts.step [BlockDevice δ] [GuestMemory μ] {t : Observed δ}
    (h : OverflowCounts t) (op : Op δ μ) : OverflowCounts (t.step op) := by
  unfold OverflowCounts at h ⊢
  cases op with
  | write o value =>
    simp only [Observed.step]
    by_cases hd : o = Reg.doorbell + 3
    · subst hd
      rw [write_doorbell]
      unfold submit Log.record
      rw [if_pos rfl]
      by_cases hfull : t.card.submitQueue.toList.length = submitQueueCapacity
      · rw [if_pos (t.card.submitQueue.isFull_iff.mpr hfull), RingBuffer.push_full _ hfull]
        simp only [h, BitVec.ofNat_add]
        rfl
      · rw [if_neg fun hf => hfull (t.card.submitQueue.isFull_iff.mp hf)]
        have hok := t.card.submitQueue.push_fst (t.card.doorbellPtr value)
        have hlt := Nat.lt_of_le_of_ne t.card.submitQueue.length_toList_le hfull
        rcases hp : t.card.submitQueue.push (t.card.doorbellPtr value) with ⟨ok, queue⟩
        rw [hp] at hok
        simp only [hlt, decide_true] at hok
        subst hok
        exact h
    · by_cases ha : o = Reg.completionAdvance + 3
      · subst ha
        rw [write_completionAdvance]
        unfold Log.record
        rw [if_neg (by decide), if_pos rfl]
        exact h
      · rw [(sameQueues_write t.card value hd ha).overflow]
        unfold Log.record
        rw [if_neg hd, if_neg ha]
        exact h
  | tick mem =>
    simp only [Observed.step, tick]
    by_cases hroom : t.card.completionQueue.toList.length < completionQueueCapacity
    · cases hq : t.card.submitQueue.toList with
      | nil => rw [tickChecked_idle mem hq]; exact h
      | cons ptr queued =>
        obtain ⟨error, actual, h', mem', htick, _, _, hov⟩ := tickChecked_serve mem hroom hq
        simp only [htick, hov, h]
    · have hfull := Nat.le_antisymm t.card.completionQueue.length_toList_le (Nat.not_lt.mp hroom)
      rw [tickChecked_full mem hfull]
      exact h
  | attachUnit unit device wp =>
    exact (sameQueues_attachUnit t.card unit device wp).overflow.trans h
  | notifyMediaChange unit => exact (sameQueues_notifyMediaChange t.card unit).overflow.trans h

/-- A completion is only made when there is room for it, so its push never fails. -/
theorem tickChecked_ne_false [BlockDevice δ] [GuestMemory μ] (h : Hostblk δ) (mem : μ) :
    (h.tickChecked mem).1 ≠ some false := by
  by_cases hroom : h.completionQueue.toList.length < completionQueueCapacity
  · cases hq : h.submitQueue.toList with
    | nil => rw [tickChecked_idle mem hq]; simp
    | cons ptr queued =>
      obtain ⟨error, actual, h', mem', htick, _⟩ := tickChecked_serve mem hroom hq
      rw [htick]; simp
  · have hfull := Nat.le_antisymm h.completionQueue.length_toList_le (Nat.not_lt.mp hroom)
    rw [tickChecked_full mem hfull]; simp

theorem accounted_run [BlockDevice δ] [GuestMemory μ] (diagRom : List Byte) (ops : List (Op δ μ)) :
    (run Observed.step (Observed.start diagRom) ops).abs.Accounted :=
  run_invariant (P := fun t : Observed δ => t.abs.Accounted)
    (fun t op h => by rw [abs_step]; exact Pipeline.accounted_step _ _ _ _ h) ops rfl

/-- One tick over `mem` followed by one `COMPLETION_ADVANCE`. -/
def drainRound (mem : μ) : List (Op δ μ) := [.tick mem, .write (Reg.completionAdvance + 3) 0]

theorem abs_drain [BlockDevice δ] [GuestMemory μ] : ∀ (mems : List μ) (t : Observed δ),
    (run Observed.step t (mems.flatMap drainRound)).abs
      = (Pipeline.round completionQueueCapacity)^[mems.length] t.abs
  | [], _ => rfl
  | mem :: mems, t => by
    rw [List.flatMap_cons, run_append, abs_drain mems]
    show (Pipeline.round _)^[mems.length]
      ((t.step (.tick mem : Op δ μ)).step (.write (Reg.completionAdvance + 3) 0 : Op δ μ)).abs = _
    rw [abs_completionAdvance, abs_tick]
    rfl

/-- **`hostblk` completes every accepted request exactly once and in order.** After any interleaving
of register writes, host calls and ticks, over any guest memory: the pointers accepted are those
retired, then those completed, then those still submitted, in order; `COMPLETION_PTR` reads the next
one; a tick never fails to push its completion; the overflow register counts the dropped doorbells;
and as many tick/advance rounds as requests are pending retire all. -/
theorem completes_once_in_order [BlockDevice δ] [GuestMemory μ] (diagRom : List Byte)
    (ops : List (Op δ μ)) :
    let t := run Observed.step (Observed.start diagRom) ops
    let completed := t.card.completionQueue.toList.map (·.ptr)
    let submitted := t.card.submitQueue.toList
    t.log.delivered <+: t.log.accepted
      ∧ t.log.accepted = t.log.delivered ++ completed ++ submitted
      ∧ (∀ lane < 4, t.card.read (Reg.completionPtr + lane)
          = byteOf (completed.head?.getD 0) lane)
      ∧ (∀ mem : μ, (t.card.tickChecked mem).1 ≠ some false)
      ∧ t.card.submitOverflow = BitVec.ofNat 32 t.log.dropped
      ∧ (∀ mems : List μ, completed.length + submitted.length ≤ mems.length →
          (run Observed.step t (mems.flatMap drainRound)).log.delivered = t.log.accepted) := by
  intro t completed submitted
  have hacc : t.abs.Accounted := accounted_run diagRom ops
  have hsplit : t.log.accepted = t.log.delivered ++ completed ++ submitted := hacc
  refine ⟨?_, hsplit, ?_, tickChecked_ne_false t.card, ?_, ?_⟩
  · rw [hsplit, List.append_assoc]
    exact List.prefix_append _ _
  · intro lane hl
    rw [read_completionPtr t.card hl, RingBuffer.peek_eq]
    show _ = byteOf ((List.map _ _).head?.getD 0) lane
    rw [List.head?_map]
  · exact run_invariant (P := OverflowCounts) (fun _ (op : Op δ μ) h => h.step op) ops rfl
  · intro mems hlen
    have hdrain := abs_drain (δ := δ) (μ := μ) mems t
    have hpend : t.abs.pending ≤ mems.length := hlen
    have := Pipeline.retired_drain (m := completionQueueCapacity) (by decide) mems.length hacc hpend
    rw [← hdrain] at this
    exact this

end M68kMachine.Hostblk
