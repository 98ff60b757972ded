import M68kMachine.Cards.Input
import M68kMachine.Library.CoalescingQueue

/-!
# The `input` card keeps every discrete event

The card's event queue, driven by pushes and register writes in any order, refines a
`CoalescingQueue` in which motions are soft: an accepted push is an `offer`, a write to
`EVENT_ADVANCE` a `pop`.

* `pushDiscrete_spec`, `pushPointerMotion_spec` — what a push does to the queue, as lists
* `abs_step` — one operation of the card is one action of the coalescing queue
* `keeps_discrete_events` — order, loss and the interrupt latch, along every run
-/

namespace M68kMachine.NativeInput

open Input Transition

/-! ## Observing a run -/

/-- What can happen to the card. -/
inductive Op
  | pushKey (keycode : Byte) (down : Bool) (qualifier : Word)
  | pushButton (button : Byte) (down : Bool) (qualifier : Word)
  | pushChar (ch : Char) (down : Bool)
  | pushPointerMotion (x y : Long) (qualifier : Word)
  | write (offset : Nat) (value : Byte)

/-- The result and the card after an operation; a register write has no result. -/
def apply (c : NativeInput) : Op → Bool × NativeInput
  | .pushKey keycode down qualifier => c.pushKey keycode down qualifier
  | .pushButton button down qualifier => c.pushButton button down qualifier
  | .pushChar ch down => c.pushChar ch down
  | .pushPointerMotion x y qualifier => c.pushPointerMotion x y qualifier
  | .write o value => (false, c.write o value)

/-- The event a valid push carries; `none` for a register write or an invalid push. -/
def Op.event : Op → Option QueuedEvent
  | .pushKey keycode down qualifier =>
    if keycode ≤ maxRawKeycode then
      some ⟨if down then Ev.keyDown else Ev.keyUp, keycode, qualifier, 0, 0⟩
    else none
  | .pushButton button down qualifier =>
    if button ≤ maxButton then
      some ⟨if down then Ev.buttonDown else Ev.buttonUp, button, qualifier, 0, 0⟩
    else none
  | .pushChar ch down =>
    (latin1FromChar ch).map fun byte => ⟨if down then Ev.charDown else Ev.charUp, byte, 0, 0, 0⟩
  | .pushPointerMotion x y qualifier =>
    if fitsWord x && fitsWord y then some ⟨Ev.pointerMotion, 0, qualifier, x, y⟩ else none
  | .write .. => none

/-- Whether an operation retires the oldest event. -/
def Op.advances : Op → Bool
  | .write o _ => o == Reg.eventAdvance + 3
  | _ => false

/-- The card with the events it has accepted and those the driver has popped, in order. -/
structure Observed where
  card : NativeInput
  accepted : List QueuedEvent
  popped : List QueuedEvent

namespace Observed

def start (diagRom : List Byte) : Observed := ⟨NativeInput.new diagRom, [], []⟩

def step (t : Observed) (op : Op) : Observed where
  card := (t.card.apply op).2
  accepted := if (t.card.apply op).1 then t.accepted ++ op.event.toList else t.accepted
  popped := if op.advances then t.popped ++ t.card.queue.peek.toList else t.popped

def abs (t : Observed) : CoalescingQueue QueuedEvent where
  queue := t.card.queue.toList
  accepted := t.accepted
  delivered := t.popped

end Observed

/-! ## What a push does -/

theorem tailMotionIndex_eq (q : EventQueue) :
    EventQueue.tailMotionIndex q
      = if q.toList.getLast?.any QueuedEvent.isMotion then some (q.toList.length - 1)
        else none := by
  unfold EventQueue.tailMotionIndex
  rw [List.getLast?_eq_getElem?, RingBuffer.getElem?_toList, RingBuffer.length_toList]
  by_cases h : q.len = 0
  · simp [h]
  · rw [if_neg h, if_pos (show q.len - 1 < q.len by omega)]
    rfl

theorem motionIndex_eq (q : EventQueue) :
    EventQueue.motionIndex q = q.toList.findIdx? QueuedEvent.isMotion := by
  unfold EventQueue.motionIndex RingBuffer.toList
  rw [List.findIdx?_map]
  cases hf : (List.range q.len).findIdx? (QueuedEvent.isMotion ∘ q.slot) with
  | none =>
    rw [List.findIdx?_eq_none_iff] at hf
    rw [List.find?_eq_none]
    intro i hi
    have := hf i hi
    simpa using this
  | some i =>
    obtain ⟨hi, hm, hbefore⟩ := List.findIdx?_eq_some_iff_getElem.mp hf
    rw [List.find?_range_eq_some]
    simp only [List.length_range] at hi
    simp only [List.getElem_range, Function.comp] at hm hbefore
    refine ⟨hm, List.mem_range.mpr hi, fun j hj => ?_⟩
    have := hbefore j hj
    simpa using this

/-- The part of the card no push touches, and the latch every accepted push sets. -/
theorem pushDiscrete_spec (c : NativeInput) (event : QueuedEvent) :
    let r := CoalescingQueue.pushHard QueuedEvent.isMotion queueCapacity c.queue.toList event
    (c.pushDiscrete event).1 = r.1
      ∧ (c.pushDiscrete event).2.queue.toList = r.2
      ∧ (c.pushDiscrete event).2.overflow = (if r.1 then c.overflow else c.overflow + 1)
      ∧ (c.pushDiscrete event).2.intStatus = 1 := by
  intro r
  have hr : r = CoalescingQueue.pushHard QueuedEvent.isMotion queueCapacity c.queue.toList event :=
    rfl
  unfold CoalescingQueue.pushHard at hr
  unfold pushDiscrete
  by_cases hroom : c.queue.toList.length < queueCapacity
  · rw [if_pos hroom] at hr
    have hok := c.queue.push_fst event
    have hlist := RingBuffer.toList_push event hroom
    rcases hp : c.queue.push event with ⟨ok, queue⟩
    rw [hp] at hok hlist
    simp only [hroom, decide_true] at hok
    subst hok
    rw [hr]
    exact ⟨rfl, hlist, rfl, rfl⟩
  · rw [if_neg hroom] at hr
    have hfull : c.queue.toList.length = queueCapacity :=
      Nat.le_antisymm c.queue.length_toList_le (Nat.not_lt.mp hroom)
    rw [RingBuffer.push_full event hfull]
    simp only [motionIndex_eq]
    cases hf : c.queue.toList.findIdx? QueuedEvent.isMotion with
    | some i =>
      obtain ⟨hi, _⟩ := List.findIdx?_eq_some_iff_getElem.mp hf
      rw [hf] at hr
      have hlen := c.queue.length_remove hi
      have hlist := RingBuffer.toList_push (r := c.queue.remove i) event (by omega)
      rw [RingBuffer.toList_remove c.queue hi] at hlist
      rw [hr]
      exact ⟨rfl, hlist, rfl, rfl⟩
    | none =>
      rw [hf] at hr
      rw [hr]
      exact ⟨rfl, rfl, rfl, rfl⟩

theorem pushMotion_spec (c : NativeInput) {x y : Long} (qualifier : Word)
    (hx : fitsWord x = true) (hy : fitsWord y = true) :
    let event : QueuedEvent := ⟨Ev.pointerMotion, 0, qualifier, x, y⟩
    let r := CoalescingQueue.pushSoft QueuedEvent.isMotion queueCapacity c.queue.toList event
    let p := c.pushPointerMotion x y qualifier
    p.1 = r.1 ∧ p.2.queue.toList = r.2 ∧ p.2.overflow = c.overflow
      ∧ p.2.intStatus = (if r.1 then 1 else c.intStatus) := by
  intro event r p
  have hp : p = c.pushPointerMotion x y qualifier := rfl
  have hr : r = CoalescingQueue.pushSoft QueuedEvent.isMotion queueCapacity c.queue.toList event :=
    rfl
  unfold CoalescingQueue.pushSoft at hr
  unfold pushPointerMotion at hp
  rw [if_neg (by simp [hx, hy])] at hp
  rw [tailMotionIndex_eq] at hp
  by_cases htail : c.queue.toList.getLast?.any QueuedEvent.isMotion = true
  · rw [if_pos htail] at hr hp
    have hne : c.queue.toList ≠ [] := by
      intro h
      rw [h] at htail
      simp at htail
    have hpos : 0 < c.queue.toList.length := List.length_pos_iff.mpr hne
    rw [hp, hr]
    refine ⟨rfl, ?_, rfl, rfl⟩
    show (c.queue.overwrite _ event).toList = _
    rw [RingBuffer.toList_overwrite _ _ (by omega)]
    obtain ⟨kept, last, hk⟩ : ∃ kept last, c.queue.toList = kept ++ [last] :=
      ⟨_, _, (List.dropLast_append_getLast hne).symm⟩
    rw [hk, List.dropLast_concat]
    simp
  · rw [if_neg htail] at hr hp
    simp only at hp
    by_cases hroom : c.queue.toList.length < queueCapacity
    · rw [if_pos hroom] at hr
      have hok := c.queue.push_fst event
      have hlist := RingBuffer.toList_push event hroom
      rcases hq : c.queue.push event with ⟨ok, queue⟩
      rw [hq] at hok hlist hp
      simp only [hroom, decide_true] at hok
      subst hok
      rw [hp, hr]
      exact ⟨rfl, hlist, rfl, rfl⟩
    · rw [if_neg hroom] at hr
      have hfull := Nat.le_antisymm c.queue.length_toList_le (Nat.not_lt.mp hroom)
      rw [RingBuffer.push_full event hfull] at hp
      rw [hp, hr]
      exact ⟨rfl, rfl, rfl, rfl⟩

/-! ## One operation, one action -/

variable {op : Op} {e : QueuedEvent}

/-- A valid push, by the kind of its event: result, queue, overflow count and latch. -/
theorem push_spec (c : NativeInput) (h : op.event = some e) :
    let r := CoalescingQueue.push QueuedEvent.isMotion queueCapacity c.queue.toList e
    (c.apply op).1 = r.1
      ∧ (c.apply op).2.queue.toList = r.2
      ∧ (c.apply op).2.overflow
          = (if r.1 || e.isMotion then c.overflow else c.overflow + 1)
      ∧ (c.apply op).2.intStatus = (if r.1 || !e.isMotion then 1 else c.intStatus) := by
  intro r
  -- the three discrete pushes reach `pushDiscrete` once their argument is in range
  have discrete : ∀ event : QueuedEvent, event.isMotion = false →
      c.apply op = c.pushDiscrete event →
      event = e → (c.apply op).1 = r.1 ∧ (c.apply op).2.queue.toList = r.2
        ∧ (c.apply op).2.overflow = (if r.1 || e.isMotion then c.overflow else c.overflow + 1)
        ∧ (c.apply op).2.intStatus = (if r.1 || !e.isMotion then 1 else c.intStatus) := by
    intro event hm happly he
    subst he
    have hr : r =
        CoalescingQueue.pushHard QueuedEvent.isMotion queueCapacity c.queue.toList event := by
      show CoalescingQueue.push _ _ _ _ = _
      unfold CoalescingQueue.push
      rw [if_neg (by simp [hm])]
    have hs := c.pushDiscrete_spec event
    rw [happly, hr]
    simpa [hm] using hs
  cases op with
  | pushKey keycode down qualifier =>
    simp only [Op.event] at h
    split at h
    · rename_i hle
      simp only [Option.some.injEq] at h
      refine discrete ⟨if down then Ev.keyDown else Ev.keyUp, keycode, qualifier, 0, 0⟩ ?_ ?_ h
      · cases down <;> rfl
      · unfold apply pushKey
        simp only
        rw [if_neg (BitVec.not_lt.mpr hle)]
    · cases h
  | pushButton button down qualifier =>
    simp only [Op.event] at h
    split at h
    · rename_i hle
      simp only [Option.some.injEq] at h
      refine discrete ⟨if down then Ev.buttonDown else Ev.buttonUp, button, qualifier, 0, 0⟩ ?_ ?_ h
      · cases down <;> rfl
      · unfold apply pushButton
        simp only
        rw [if_neg (BitVec.not_lt.mpr hle)]
    · cases h
  | pushChar ch down =>
    simp only [Op.event] at h
    cases hl : latin1FromChar ch with
    | none => rw [hl] at h; cases h
    | some byte =>
      rw [hl] at h
      simp only [Option.map_some, Option.some.injEq] at h
      refine discrete ⟨if down then Ev.charDown else Ev.charUp, byte, 0, 0, 0⟩ ?_ ?_ h
      · cases down <;> rfl
      · unfold apply pushChar
        simp only [hl]
  | pushPointerMotion x y qualifier =>
    simp only [Op.event] at h
    split at h
    · rename_i hfit
      simp only [Bool.and_eq_true] at hfit
      simp only [Option.some.injEq] at h
      subst h
      have hs := c.pushMotion_spec qualifier hfit.1 hfit.2
      have hr : r = CoalescingQueue.pushSoft QueuedEvent.isMotion queueCapacity c.queue.toList
          ⟨Ev.pointerMotion, 0, qualifier, x, y⟩ := rfl
      rw [hr]
      simpa [apply, QueuedEvent.isMotion] using hs
    · cases h
  | write o value => cases h

/-- An invalid push touches nothing. -/
theorem apply_invalid (c : NativeInput) (h : op.event = none)
    (hw : ∀ o value, op ≠ .write o value) : c.apply op = (false, c) := by
  cases op with
  | pushKey keycode down qualifier =>
    simp only [Op.event] at h
    split at h
    · cases h
    · unfold apply pushKey
      simp only
      rw [if_pos (BitVec.not_le.mp ‹_›)]
  | pushButton button down qualifier =>
    simp only [Op.event] at h
    split at h
    · cases h
    · unfold apply pushButton
      simp only
      rw [if_pos (BitVec.not_le.mp ‹_›)]
  | pushChar ch down =>
    simp only [Op.event, Option.map_eq_none_iff] at h
    unfold apply pushChar
    simp only [h]
  | pushPointerMotion x y qualifier =>
    simp only [Op.event] at h
    split at h
    · cases h
    · rename_i hfit
      unfold apply pushPointerMotion
      simp only
      rw [if_pos]
      cases hx : fitsWord x <;> cases hy : fitsWord y <;> simp_all
  | write o value => exact absurd rfl (hw o value)

/-- A write pops the head or leaves the queue alone, and clears the latch only of an empty queue. -/
theorem write_spec (c : NativeInput) (o : Nat) (value : Byte) :
    (c.write o value).queue.toList
        = (if o = Reg.eventAdvance + 3 then c.queue.toList.tail else c.queue.toList)
      ∧ (c.queue.toList ≠ [] → (c.write o value).intStatus = c.intStatus)
      ∧ (c.write o value).overflow = c.overflow := by
  by_cases ho : o = Reg.eventAdvance + 3
  · subst ho
    rw [if_pos rfl]
    exact ⟨c.queue.toList_pop, fun _ => rfl, rfl⟩
  rw [if_neg ho]
  unfold write
  simp only [inSlot_iff, Reg.eventAdvance, Reg.intStatus, Reg.intEnable] at ho ⊢
  split
  · rw [if_neg (by omega)]
    exact ⟨rfl, fun _ => rfl, rfl⟩
  split
  · split
    · rename_i h
      exact ⟨rfl, fun hne => absurd ((RingBuffer.toList_eq_nil _).mpr h.2.2) hne, rfl⟩
    · exact ⟨rfl, fun _ => rfl, rfl⟩
  split
  · split <;> exact ⟨rfl, fun _ => rfl, rfl⟩
  · exact ⟨rfl, fun _ => rfl, rfl⟩

/-- The action of an operation on the abstract queue. -/
def Op.action (op : Op) : CoalescingQueue.Op QueuedEvent :=
  match op.event with
  | some e => .offer e
  | none => if op.advances then .pop else .idle

theorem advances_of_event (h : op.event = some e) : op.advances = false := by
  cases op <;> first | rfl | cases h

/-- **The observed card refines the coalescing queue**, operation by operation. -/
theorem abs_step (t : Observed) (op : Op) :
    (t.step op).abs = t.abs.step QueuedEvent.isMotion queueCapacity op.action := by
  unfold Op.action
  cases he : op.event with
  | some e =>
    obtain ⟨hok, hqueue, _, _⟩ := push_spec t.card he
    have hadv := advances_of_event he
    simp only [CoalescingQueue.step, CoalescingQueue.offer, Observed.abs, Observed.step, hqueue,
      hok, hadv, he]
    have hrefused := @CoalescingQueue.push_refused_snd _ QueuedEvent.isMotion queueCapacity
      t.card.queue.toList e
    rcases hp : CoalescingQueue.push QueuedEvent.isMotion queueCapacity t.card.queue.toList e
      with ⟨ok, queue⟩
    rw [hp] at hrefused
    cases ok with
    | true => simp
    | false => simp [show queue = t.card.queue.toList from hrefused rfl]
  | none =>
    by_cases hw : ∃ o value, op = .write o value
    · obtain ⟨o, value, rfl⟩ := hw
      obtain ⟨hqueue, _, _⟩ := t.card.write_spec o value
      by_cases ho : o = Reg.eventAdvance + 3
      · simp only [Op.advances, ho, beq_self_eq_true, if_true, CoalescingQueue.step,
          CoalescingQueue.pop, Observed.abs, Observed.step, apply, RingBuffer.peek_eq]
        rw [← ho, hqueue, if_pos ho]
        simp
      · rw [if_neg ho] at hqueue
        have hadv : (Op.write o value).advances = false := by simp [Op.advances, ho]
        simp only [hadv, CoalescingQueue.step, Observed.abs, Observed.step, apply, hqueue]
        simp
    · have hw' : ∀ o value, op ≠ .write o value := fun o value h => hw ⟨o, value, h⟩
      have hadv : op.advances = false := by
        cases op with
        | write o value => exact absurd rfl (hw' o value)
        | _ => rfl
      simp only [hadv, CoalescingQueue.step, Observed.abs, Observed.step, apply_invalid _ he hw']
      simp

/-! ## The interrupt latch -/

/-- A nonempty queue has `INT_STATUS` set. -/
def Latched (c : NativeInput) : Prop := c.queue.toList ≠ [] → c.intStatus = 1

theorem Latched.apply {c : NativeInput} (h : Latched c) (op : Op) : Latched (c.apply op).2 := by
  unfold Latched at h ⊢
  cases he : op.event with
  | some e =>
    obtain ⟨_, hqueue, _, hstatus⟩ := push_spec c he
    rw [hqueue, hstatus]
    intro hne
    by_cases hok : (CoalescingQueue.push QueuedEvent.isMotion queueCapacity c.queue.toList e).1
    · simp [hok]
    · have hsame := CoalescingQueue.push_refused_snd (Bool.not_eq_true _ ▸ hok)
      rw [hsame] at hne
      split
      · rfl
      · exact h hne
  | none =>
    by_cases hw : ∃ o value, op = .write o value
    · obtain ⟨o, value, rfl⟩ := hw
      obtain ⟨hqueue, hstatus, _⟩ := c.write_spec o value
      intro hne
      have hbefore : c.queue.toList ≠ [] := by
        intro hnil
        apply hne
        show (c.write o value).queue.toList = []
        rw [hqueue, hnil]
        split <;> rfl
      exact (hstatus hbefore).trans (h hbefore)
    · rw [apply_invalid c he fun o value hop => hw ⟨o, value, hop⟩]
      exact h

/-! ## The claim about runs -/

/-- What one operation may do to the queue, where `newest` is the last event accepted. An entry
leaves only by `popped` (the oldest), `overwritten` (the newest, a motion, by a motion) or `evicted`
(a motion, by a discrete event pushed into a full queue). -/
inductive QueueChange (q : List QueuedEvent) (newest : Option QueuedEvent) (op : Op) :
    List QueuedEvent → Prop
  | kept : QueueChange q newest op q
  | popped : op.advances = true → QueueChange q newest op q.tail
  | appended {e : QueuedEvent} : op.event = some e → QueueChange q newest op (q ++ [e])
  | overwritten {e m : QueuedEvent} {rest : List QueuedEvent} :
    op.event = some e → e.isMotion = true → q = rest ++ [m] → m.isMotion = true →
      newest = some m → QueueChange q newest op (rest ++ [e])
  | evicted {e m : QueuedEvent} {i : Nat} :
    op.event = some e → e.isMotion = false → q.length = queueCapacity → q[i]? = some m →
      m.isMotion = true → QueueChange q newest op (q.eraseIdx i ++ [e])

theorem queueChange (t : Observed) (op : Op) (hnew : t.abs.Newest) :
    QueueChange t.card.queue.toList t.accepted.getLast? op (t.step op).card.queue.toList := by
  cases he : op.event with
  | some e =>
    have hqueue : (t.step op).card.queue.toList
        = (CoalescingQueue.push QueuedEvent.isMotion queueCapacity t.card.queue.toList e).2 :=
      (push_spec t.card he).2.1
    have hle := t.card.queue.length_toList_le
    unfold CoalescingQueue.push CoalescingQueue.pushSoft CoalescingQueue.pushHard at hqueue
    rw [hqueue]
    split
    · rename_i hm
      split
      · rename_i htail
        obtain ⟨m, hlast, hsoft⟩ := (Option.any_eq_true _ _).mp htail
        obtain ⟨rest, hrest⟩ := List.getLast?_eq_some_iff.mp hlast
        have hne : t.abs.queue ≠ [] := by
          intro hnil
          have hnil' : t.card.queue.toList = [] := hnil
          rw [hnil'] at hlast
          cases hlast
        have hacc : t.accepted.getLast? = some m := (hnew hne).symm.trans hlast
        simp only [hrest, List.dropLast_concat]
        exact .overwritten he hm rfl hsoft hacc
      split
      · exact .appended he
      · exact .kept
    · rename_i hm
      split
      · exact .appended he
      rename_i hroom
      cases hf : t.card.queue.toList.findIdx? QueuedEvent.isMotion with
      | some i =>
        obtain ⟨hi, hs, _⟩ := List.findIdx?_eq_some_iff_getElem.mp hf
        exact .evicted he (by simpa using hm) (by omega) (List.getElem?_eq_getElem hi) hs
      | none => exact .kept
  | none =>
    by_cases hw : ∃ o value, op = .write o value
    · obtain ⟨o, value, rfl⟩ := hw
      have hqueue : (t.step (.write o value)).card.queue.toList = _ :=
        (t.card.write_spec o value).1
      rw [hqueue]
      split
      · rename_i ho
        exact .popped (by simp [Op.advances, ho])
      · exact .kept
    · have hsame : (t.step op).card = t.card := by
        show (t.card.apply op).2 = t.card
        rw [apply_invalid t.card he fun o value hop => hw ⟨o, value, hop⟩]
      rw [hsame]
      exact .kept

/-- A discrete push is refused exactly by a queue full of discrete events, and counted. -/
theorem discrete_refused (c : NativeInput) (he : op.event = some e) (hd : e.isMotion = false) :
    ((c.apply op).1 = false ↔
        c.queue.toList.length = queueCapacity ∧ ∀ d ∈ c.queue.toList, d.isMotion = false)
      ∧ (c.apply op).2.overflow
          = (if (c.apply op).1 = false then c.overflow + 1 else c.overflow) := by
  obtain ⟨hok, _, hover, _⟩ := push_spec c he
  have hle := c.queue.length_toList_le
  have hpush : CoalescingQueue.push QueuedEvent.isMotion queueCapacity c.queue.toList e
      = CoalescingQueue.pushHard QueuedEvent.isMotion queueCapacity c.queue.toList e := by
    unfold CoalescingQueue.push
    rw [if_neg (by simp [hd])]
  constructor
  · rw [hok, hpush, CoalescingQueue.pushHard_refused]
    exact and_congr_left fun _ => ⟨fun h => by omega, fun h => by omega⟩
  · rw [hover, hok, hd]
    simp only [Bool.or_false]
    split <;> split <;> simp_all

/-- **The card never loses, duplicates or reorders a discrete event it accepted.** After any pushes
and register writes the discrete events popped and queued are the accepted ones in order, with the
motions what is there keeps the order of acceptance, and a nonempty queue has `INT_STATUS` set. A
valid discrete push is refused exactly when 16 discrete events are queued, `EVENT_OVERFLOW` counts
the refusals, and the queue changes as `QueueChange` says. -/
theorem keeps_discrete_events (diagRom : List Byte) (ops : List Op) :
    let t := run Observed.step (Observed.start diagRom) ops
    let queued := t.card.queue.toList
    let discrete := fun e : QueuedEvent => !e.isMotion
    (t.popped ++ queued).filter discrete = t.accepted.filter discrete
      ∧ (t.popped ++ queued).Sublist t.accepted
      ∧ (queued ≠ [] → t.card.intStatus = 1)
      ∧ (∀ op e, op.event = some e → e.isMotion = false →
          ((t.card.apply op).1 = false ↔
              queued.length = queueCapacity ∧ ∀ d ∈ queued, d.isMotion = false)
            ∧ (t.card.apply op).2.overflow
                = (if (t.card.apply op).1 = false then t.card.overflow + 1 else t.card.overflow))
      ∧ ∀ op, QueueChange queued t.accepted.getLast? op (t.step op).card.queue.toList := by
  intro t queued discrete
  have hfaithful : t.abs.Faithful QueuedEvent.isMotion :=
    run_invariant (P := fun t : Observed => t.abs.Faithful QueuedEvent.isMotion)
      (fun t op h => by rw [abs_step]; exact CoalescingQueue.faithful_step _ _ _ h) ops
      ⟨List.Sublist.refl _, rfl⟩
  have hnewest : t.abs.Newest :=
    run_invariant (P := fun t : Observed => t.abs.Newest)
      (fun t op h => by rw [abs_step]; exact CoalescingQueue.newest_step _ _ _ _ h) ops
      (fun h => absurd rfl h)
  have hlatched : Latched t.card :=
    run_invariant (P := fun t : Observed => Latched t.card)
      (fun _ op h => h.apply op) ops (fun h => absurd rfl h)
  exact ⟨hfaithful.hard, hfaithful.order, hlatched, fun _ _ he hd => discrete_refused t.card he hd,
    fun op => queueChange t op hnewest⟩

end M68kMachine.NativeInput
