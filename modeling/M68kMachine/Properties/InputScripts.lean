import M68kMachine.Hosted.InputScript
import M68kMachine.Library.CoalescingLosses
import M68kMachine.Properties.InputQueue

/-!
# An input script is delivered in order

The script offers its directives one after the other and repeats what is refused, so the card's
queue is a coalescing queue of directives. Key, button and character events reach the driver each
once and in order. A pointer position a button depends on does too, unless a later discrete event
found the queue full and took its place.

* `Delivery` — script, card and driver, with the directives the script got rid of
* `Mirrors`, `mirrors_loop` — one frame boundary
* `Delivered`, `script_delivered` — every run
-/

namespace M68kMachine.InputScript

open Input Transition NativeInput ScriptText

/-! ## Directives as offers -/

/-- The push a directive makes. -/
def Directive.op : Directive → Option NativeInput.Op
  | .keyDown code => some (.pushKey code true 0)
  | .keyUp code => some (.pushKey code false 0)
  | .move x y => some (.pushPointerMotion x y 0)
  | .buttonDown id => some (.pushButton id true 0)
  | .buttonUp id => some (.pushButton id false 0)
  | .charDown ch => some (.pushChar ch true)
  | .charUp ch => some (.pushChar ch false)
  | .sleep _ => none

/-- The event a directive pushes. -/
def Directive.event (d : Directive) : Option QueuedEvent := d.op.bind Op.event

def eventAt (script : List Directive) (i : Nat) : QueuedEvent :=
  (script[i]?.bind Directive.event).getD default

/-- Whether a position holds a pointer position. -/
abbrev softAt (script : List Directive) : Nat → Bool := QueuedEvent.isMotion ∘ eventAt script

/-- The positions from `p` to `p'` that push something. -/
def pushing (script : List Directive) (p p' : Nat) : List Nat :=
  (List.range' p (p' - p)).filter fun i => (script[i]?.bind Directive.event).isSome

/-- A directive at work. -/
inductive Step
  /-- A frame boundary. -/
  | frame (n : Nat)
  /-- The driver writes a register. -/
  | write (offset : Nat) (value : Byte)

structure Delivery where
  script : InputScript
  card : NativeInput
  popped : List QueuedEvent
  /-- What happened to the queue, by the positions of the directives. -/
  history : List (CoalescingQueue.Op Nat)

namespace Delivery

variable (script : List Directive)

def start (diagRom : List Byte) : Delivery := ⟨⟨script, none⟩, NativeInput.new diagRom, [], []⟩

/-- The position of the next directive. -/
def next (t : Delivery) : Nat := script.length - t.script.remaining.length

def step (t : Delivery) : Step → Delivery
  | .frame n =>
    let r := t.script.tick n t.card
    let next' := script.length - r.1.remaining.length
    { t with
      script := r.1
      card := r.2
      history := t.history ++ (pushing script (t.next script) next').map .offer }
  | .write o value =>
    { t with
      card := t.card.write o value
      popped := if o = Reg.eventAdvance + 3 then t.popped ++ t.card.queue.peek.toList else t.popped
      history := t.history ++ [if o = Reg.eventAdvance + 3 then .pop else .idle] }

/-- The queue of positions. -/
def positions (t : Delivery) : CoalescingQueue Nat :=
  .after (softAt script) queueCapacity t.history

end Delivery

/-! ## Scripts that parse -/

/-- The card takes it, room provided. -/
def Directive.Pushable (d : Directive) : Prop := d.op.isSome → d.event.isSome

variable {text : List Char}

theorem keycode_le {code : Byte} (h : parseKeycode text = .ok code) : code ≤ maxRawKeycode := by
  obtain ⟨n, -, h⟩ := ok_of_bind h
  split at h
  · cases h
  · rename_i hle
    cases h
    have hmax : maxRawKeycode.toNat = 127 := rfl
    rw [BitVec.le_def, BitVec.toNat_ofNat]
    omega

theorem button_le {id : Byte} (h : parseButton text = .ok id) : id ≤ maxButton := by
  unfold parseButton at h
  dsimp only at h
  split_ifs at h with hleft hright hmiddle
  · cases h
    decide
  · cases h
    decide
  · cases h
    decide
  · obtain ⟨n, -, h⟩ := ok_of_bind h
    split at h
    · cases h
    · rename_i hle
      cases h
      have hmax : maxButton.toNat = 2 := rfl
      rw [BitVec.le_def, BitVec.toNat_ofNat]
      omega

theorem latin1_of_ok {inType : Bool} {ch ch' : Char} (h : latin1CharOrErr inType ch = .ok ch') :
    (latin1FromChar ch').isSome := by
  unfold latin1CharOrErr at h
  split at h
  · cases h
    assumption
  · cases h

theorem latin1_of_parseChar {ch : Char} (h : parseChar text = .ok ch) :
    (latin1FromChar ch).isSome := by
  unfold parseChar at h
  split at h
  · obtain ⟨code, -, h⟩ := ok_of_bind h
    split at h
    · cases h
    · exact latin1_of_ok h
  · split at h
    · cases h
    · exact latin1_of_ok h
    · cases h

theorem fitsWord_ofInt {v : Int} (h : fitsI16 v = true) : fitsWord (BitVec.ofInt 32 v) = true := by
  unfold fitsI16 at h
  have hbounds : -32768 ≤ v ∧ v ≤ 32767 := by simpa using h
  unfold fitsWord
  rw [BitVec.toInt_ofInt, Int.bmod_eq_of_le (by omega) (by omega)]
  simpa using hbounds

theorem pushable_of_parseMove {d : Directive} (h : parseMove text = .ok d) : d.Pushable := by
  unfold parseMove at h
  split at h
  · cases h
  · obtain ⟨_, _, h⟩ := ok_of_bind h
    cases h
  · obtain ⟨x, -, h⟩ := ok_of_bind h
    obtain ⟨y, -, h⟩ := ok_of_bind h
    split_ifs at h with hrest hx hy
    cases h
    have hfitx : fitsWord (BitVec.ofInt 32 x) = true := fitsWord_ofInt (by simpa using hx)
    have hfity : fitsWord (BitVec.ofInt 32 y) = true := fitsWord_ofInt (by simpa using hy)
    intro _
    simp [Directive.event, Directive.op, Op.event, hfitx, hfity]

theorem pushable_of_parseType {directives : List Directive} (h : parseType text = .ok directives) :
    ∀ d ∈ directives, d.Pushable := by
  obtain ⟨inner, -, h⟩ := ok_of_bind h
  obtain ⟨pairs, hpairs, h⟩ := ok_of_bind h
  cases h
  intro d hd
  obtain ⟨pair, hpair, hd⟩ := List.mem_flatten.mp hd
  refine mapM_forall (P := fun pair => ∀ d ∈ pair, d.Pushable) (fun ch pair h => ?_) inner pairs
    hpairs pair hpair d hd
  obtain ⟨ch', hch, h⟩ := ok_of_bind h
  cases h
  have hlatin := latin1_of_ok hch
  intro d hd _
  rcases List.mem_pair.mp hd with rfl | rfl <;>
    simpa [Directive.event, Directive.op, Op.event] using hlatin

/-- **A directive of a script that parses can be taken**: only a full queue refuses it. -/
theorem pushable_of_parse {s : InputScript} (h : parse text = .ok s) :
    ∀ d ∈ s.remaining, d.Pushable := by
  obtain ⟨directives, hdirectives, rfl⟩ := ok_of_map h
  refine numbered_forall (fun line directives hline => ?_) _ _ _ hdirectives
  unfold parseLine at hline
  dsimp only at hline
  split_ifs at hline
  · obtain ⟨code, hcode, rfl⟩ := ok_of_map hline
    intro d hd _
    cases List.mem_singleton.mp hd
    exact Option.isSome_iff_exists.mpr ⟨_, if_pos (keycode_le hcode)⟩
  · obtain ⟨code, hcode, rfl⟩ := ok_of_map hline
    intro d hd _
    cases List.mem_singleton.mp hd
    exact Option.isSome_iff_exists.mpr ⟨_, if_pos (keycode_le hcode)⟩
  · obtain ⟨d', hmove, rfl⟩ := ok_of_map hline
    intro d hd
    cases List.mem_singleton.mp hd
    exact pushable_of_parseMove hmove
  · obtain ⟨id, hid, rfl⟩ := ok_of_map hline
    intro d hd _
    cases List.mem_singleton.mp hd
    exact Option.isSome_iff_exists.mpr ⟨_, if_pos (button_le hid)⟩
  · obtain ⟨id, hid, rfl⟩ := ok_of_map hline
    intro d hd _
    cases List.mem_singleton.mp hd
    exact Option.isSome_iff_exists.mpr ⟨_, if_pos (button_le hid)⟩
  · obtain ⟨ch, hch, rfl⟩ := ok_of_map hline
    intro d hd _
    cases List.mem_singleton.mp hd
    simpa [Directive.event, Directive.op, Op.event] using latin1_of_parseChar hch
  · obtain ⟨ch, hch, rfl⟩ := ok_of_map hline
    intro d hd _
    cases List.mem_singleton.mp hd
    simpa [Directive.event, Directive.op, Op.event] using latin1_of_parseChar hch
  · exact pushable_of_parseType hline
  · obtain ⟨frames, -, rfl⟩ := ok_of_map hline
    intro d hd hop
    cases List.mem_singleton.mp hd
    cases hop

/-! ## One frame boundary -/

/-- The queue of the card is the image of a queue of positions. -/
def Mirrors (script : List Directive) (c : NativeInput) (s : CoalescingQueue Nat) : Prop :=
  c.queue.toList = s.queue.map (eventAt script)

section

variable {script : List Directive} {d : Directive} {i p p' : Nat}

theorem fire_op {op : NativeInput.Op} (h : d.op = some op) (frame : Nat) (c : NativeInput) :
    d.fire frame c = (c.apply op, none) := by
  cases d <;> cases h <;> rfl

/-- A directive that is accepted and pushes something is accepted by the queue of positions. -/
theorem mirrors_offer {c : NativeInput} {s : CoalescingQueue Nat} (h : Mirrors script c s)
    {op : NativeInput.Op} (hd : script[i]? = some d) (hop : d.op = some op)
    (haccepted : (c.apply op).1 = true) :
    ∃ e, d.event = some e ∧ eventAt script i = e ∧
      Mirrors script (c.apply op).2 (s.offer (softAt script) queueCapacity i) ∧
      (s.offer (softAt script) queueCapacity i).accepted = s.accepted ++ [i] ∧
      (s.offer (softAt script) queueCapacity i).delivered = s.delivered := by
  have hevent : d.event = op.event := by
    unfold Directive.event
    rw [hop]
    rfl
  cases he : op.event with
  | none =>
    have hw : ∀ o value, op ≠ .write o value := by
      rintro o value rfl
      cases d <;> cases hop
    rw [apply_invalid c he hw] at haccepted
    exact absurd haccepted Bool.false_ne_true
  | some e =>
    have hat : eventAt script i = e := by
      unfold eventAt
      rw [hd, Option.bind_some, hevent, he]
      rfl
    obtain ⟨hok, hqueue, -⟩ := push_spec c he
    have hmap : CoalescingQueue.push QueuedEvent.isMotion queueCapacity _ _ = _ :=
      CoalescingQueue.push_map (eventAt script) s.queue i
    rw [hat, ← h] at hmap
    rw [hmap] at hok hqueue
    unfold CoalescingQueue.offer
    rcases hp : CoalescingQueue.push (softAt script) queueCapacity s.queue i with ⟨ok, queue⟩
    rw [hp] at hok hqueue
    obtain rfl : ok = true := hok.symm.trans haccepted
    exact ⟨e, hevent.trans he, hat, hqueue, rfl, rfl⟩

/-! ## One frame boundary -/

theorem pushing_self (p : Nat) : pushing script p p = [] := by
  simp [pushing]

theorem pushing_succ (h : p < p') : pushing script p p' =
    if (script[p]?.bind Directive.event).isSome then p :: pushing script (p + 1) p'
    else pushing script (p + 1) p' := by
  have hlen : p' - p = p' - (p + 1) + 1 := by omega
  unfold pushing
  rw [hlen, List.range'_succ, List.filter_cons]

/-- A refused directive leaves the queue alone. -/
theorem mirrors_refused {c : NativeInput} {s : CoalescingQueue Nat} (h : Mirrors script c s)
    {op : NativeInput.Op} (hw : ∀ o value, op ≠ .write o value)
    (hrefused : (c.apply op).1 = false) : Mirrors script (c.apply op).2 s := by
  cases he : op.event with
  | none =>
    rw [apply_invalid c he hw]
    exact h
  | some e =>
    obtain ⟨hok, hqueue, -⟩ := push_spec c he
    rw [hrefused] at hok
    exact (hqueue.trans (CoalescingQueue.push_refused_snd hok.symm)).trans h

/-- The queue of positions once the positions from `p` to `p'` were offered. -/
abbrev offered (script : List Directive) (s : CoalescingQueue Nat) (p p' : Nat) :
    CoalescingQueue Nat :=
  run (CoalescingQueue.step (softAt script) queueCapacity) s ((pushing script p p').map .offer)

/-- Only events that exist are passed over. -/
def Valid (script : List Directive) (p p' : Nat) : Prop :=
  ∀ i, p ≤ i ∧ i < p' → ∀ d, script[i]? = some d → d.op.isSome → d.event.isSome

theorem Valid.cons {p p' : Nat} {d : Directive} (h : Valid script (p + 1) p')
    (hd : script[p]? = some d) (hfirst : d.op.isSome → d.event.isSome) : Valid script p p' := by
  intro i hi d' hd' hop
  rcases Nat.eq_or_lt_of_le hi.1 with rfl | hlt
  · cases Option.some.inj (hd.symm.trans hd')
    exact hfirst hop
  · exact h i ⟨hlt, hi.2⟩ d' hd' hop

theorem Valid.trans {p'' : Nat} (h : Valid script p p') (h' : Valid script p' p'') :
    Valid script p p'' := by
  intro i hi
  rcases Nat.lt_or_ge i p' with hlt | hge
  · exact h i ⟨hi.1, hlt⟩
  · exact h' i ⟨hge, hi.2⟩

/-- A frame boundary that took the script from position `p` to `p'`. -/
structure Advanced (script : List Directive) (s : CoalescingQueue Nat) (p p' : Nat)
    (r : InputScript × NativeInput) : Prop where
  le : p ≤ p'
  bound : p' ≤ script.length
  valid : Valid script p p'
  remaining : r.1.remaining = script.drop p'
  mirrors : Mirrors script r.2 (offered script s p p')
  accepted : (offered script s p p').accepted = s.accepted ++ pushing script p p'
  delivered : (offered script s p p').delivered = s.delivered

theorem Advanced.stay {s : CoalescingQueue Nat} {p : Nat} {r : InputScript × NativeInput}
    (hp : p ≤ script.length) (hremaining : r.1.remaining = script.drop p)
    (h : Mirrors script r.2 s) :
    Advanced script s p p r := by
  have hsame : offered script s p p = s := by simp [offered, pushing_self]
  exact ⟨Nat.le_refl p, hp, fun i hi => absurd hi.2 (Nat.not_lt.mpr hi.1), hremaining,
    by rw [hsame]; exact h, by rw [hsame, pushing_self]; simp,
    by rw [hsame]⟩

/-- **A frame boundary** offers the directives it takes off the script, and all are accepted. -/
theorem advanced_loop (frame : Nat) : ∀ (remaining : List Directive) (sleepDeadline : Option Nat)
    (c : NativeInput) (s : CoalescingQueue Nat) (p : Nat), p ≤ script.length →
    remaining = script.drop p → Mirrors script c s →
    ∃ p', Advanced script s p p' (loop frame sleepDeadline remaining c) := by
  intro remaining
  induction remaining with
  | nil =>
    intro sleepDeadline c s p hp hdrop h
    exact ⟨p, .stay hp hdrop h⟩
  | cons d remaining ih =>
    intro sleepDeadline c s p hp hdrop h
    have hlt : p < script.length := by
      have hlen := congrArg List.length hdrop
      simp only [List.length_cons, List.length_drop] at hlen
      omega
    have hd : script[p]? = some d := by
      rw [← List.head?_drop, ← hdrop]
      rfl
    have htail : remaining = script.drop (p + 1) := by
      rw [← List.tail_drop, ← hdrop]
      rfl
    unfold loop
    by_cases hsleep : sleeping frame sleepDeadline = true
    · rw [if_pos hsleep]
      exact ⟨p, .stay hp hdrop h⟩
    rw [if_neg hsleep]
    cases hop : d.op with
    | none =>
      obtain ⟨frames, rfl⟩ : ∃ frames, d = .sleep frames := by
        cases d <;> first | exact ⟨_, rfl⟩ | cases hop
      obtain ⟨p', hadvanced⟩ := ih (some (saturatingAdd frame frames)) c s (p + 1) hlt htail h
      have hle := hadvanced.le
      have hsame : pushing script p p' = pushing script (p + 1) p' := by
        rw [pushing_succ (by omega), hd]
        rfl
      have hoffered : offered script s p p' = offered script s (p + 1) p' := by
        unfold offered
        rw [hsame]
      exact ⟨p', by omega, hadvanced.bound, hadvanced.valid.cons hd fun hop => (nomatch hop),
        hadvanced.remaining, hoffered ▸ hadvanced.mirrors,
        by rw [hoffered, hsame]; exact hadvanced.accepted, hoffered ▸ hadvanced.delivered⟩
    | some op =>
      rw [fire_op hop]
      cases haccepted : (c.apply op).1 with
      | false =>
        have hw : ∀ o value, op ≠ .write o value := by
          rintro o value rfl
          cases d <;> cases hop
        have hkept := mirrors_refused h hw haccepted
        rw [← Prod.eta (c.apply op), haccepted]
        exact ⟨p, .stay hp hdrop hkept⟩
      | true =>
        obtain ⟨e, hevent, -, hmirrors, hacc, hdel⟩ := mirrors_offer h hd hop haccepted
        obtain ⟨p', hadvanced⟩ := ih none (c.apply op).2 _ (p + 1) hlt htail hmirrors
        have hle := hadvanced.le
        have hcons : pushing script p p' = p :: pushing script (p + 1) p' := by
          rw [pushing_succ (by omega), hd, Option.bind_some, hevent]
          rfl
        have hoffered : offered script s p p' =
            offered script (s.offer (softAt script) queueCapacity p) (p + 1) p' := by
          unfold offered
          rw [hcons]
          rfl
        rw [← Prod.eta (c.apply op), haccepted]
        refine ⟨p', by omega, hadvanced.bound, hadvanced.valid.cons hd fun _ => by rw [hevent]; rfl,
          hadvanced.remaining, ?_, ?_, ?_⟩
        · rw [hoffered]
          exact hadvanced.mirrors
        · rw [hoffered, hadvanced.accepted, hacc, hcons, List.append_assoc]
          rfl
        · rw [hoffered, hadvanced.delivered, hdel]

/-! ## Runs -/

theorem pushing_append (h : p ≤ p') :
    pushing script 0 p ++ pushing script p p' = pushing script 0 p' := by
  unfold pushing
  rw [← List.filter_append, Nat.sub_zero, Nat.sub_zero]
  have hrange := List.range'_append_1 (s := 0) (m := p) (n := p' - p)
  rw [Nat.zero_add, Nat.add_sub_cancel' h] at hrange
  rw [hrange]

/-- The script and the history of the queue agree. -/
structure Tracked (script : List Directive) (t : Delivery) : Prop where
  remaining : t.script.remaining = script.drop (t.next script)
  valid : Valid script 0 (t.next script)
  mirrors : Mirrors script t.card (t.positions script)
  accepted : (t.positions script).accepted = pushing script 0 (t.next script)
  popped : t.popped = (t.positions script).delivered.map (eventAt script)

theorem Tracked.start (diagRom : List Byte) : Tracked script (Delivery.start script diagRom) := by
  have hnext : (Delivery.start script diagRom).next script = 0 := Nat.sub_self _
  refine ⟨by rw [hnext]; rfl, ?_, rfl, ?_, rfl⟩
  · rw [hnext]
    exact fun i hi => absurd hi.2 (Nat.not_lt_zero i)
  · rw [hnext, pushing_self]
    rfl

theorem Tracked.step {t : Delivery} (h : Tracked script t) (st : Step) :
    Tracked script (t.step script st) := by
  cases st with
  | frame n =>
    obtain ⟨p', hadvanced⟩ := advanced_loop n t.script.remaining t.script.sleepDeadline t.card
      (t.positions script) (t.next script) (Nat.sub_le ..) h.remaining h.mirrors
    have hnext : (t.step script (.frame n)).next script = p' := by
      show script.length - (t.script.tick n t.card).1.remaining.length = p'
      have hlen := congrArg List.length hadvanced.remaining
      rw [List.length_drop] at hlen
      have hbound := hadvanced.bound
      have hloop : (t.script.tick n t.card).1.remaining.length = script.length - p' := hlen
      omega
    have hpositions : (t.step script (.frame n)).positions script =
        offered script (t.positions script) (t.next script) p' := by
      show CoalescingQueue.after _ _ (t.history ++ _) = _
      unfold CoalescingQueue.after
      rw [run_append]
      exact congrArg (offered script (t.positions script) (t.next script)) hnext
    refine ⟨?_, ?_, ?_, ?_, ?_⟩
    · rw [hnext]
      exact hadvanced.remaining
    · rw [hnext]
      exact h.valid.trans hadvanced.valid
    · rw [hpositions]
      exact hadvanced.mirrors
    · rw [hpositions, hnext, hadvanced.accepted, h.accepted, pushing_append hadvanced.le]
    · rw [hpositions, hadvanced.delivered]
      exact h.popped
  | write o value =>
    have hpositions : (t.step script (.write o value)).positions script =
        (t.positions script).step (softAt script) queueCapacity
          (if o = Reg.eventAdvance + 3 then .pop else .idle) :=
      CoalescingQueue.after_snoc t.history _
    have hqueue := (t.card.write_spec o value).1
    refine ⟨h.remaining, h.valid, ?_, ?_, ?_⟩
    · rw [hpositions]
      show (t.card.write o value).queue.toList = _
      rw [hqueue]
      split
      · rw [h.mirrors, ← List.map_tail]
        rfl
      · exact h.mirrors
    · rw [hpositions]
      split <;> exact h.accepted
    · rw [hpositions]
      show (if o = Reg.eventAdvance + 3 then t.popped ++ t.card.queue.peek.toList
        else t.popped) = _
      split
      · rw [RingBuffer.peek_eq, h.mirrors, h.popped, List.head?_map]
        show _ = ((t.positions script).delivered ++ (t.positions script).queue.head?.toList).map _
        rw [List.map_append]
        cases (t.positions script).queue.head? <;> rfl
      · exact h.popped

theorem Tracked.run (script : List Directive) (diagRom : List Byte) (steps : List Step) :
    Tracked script (run (Delivery.step script) (Delivery.start script diagRom) steps) :=
  run_invariant (fun _ st h => h.step st) steps (.start diagRom)

/-! ## Every run -/

theorem pushing_sorted (script : List Directive) (p p' : Nat) :
    (pushing script p p').Pairwise (· < ·) :=
  List.Pairwise.filter _ List.pairwise_lt_range'

theorem mem_pushing : i ∈ pushing script 0 p ↔
    i < p ∧ (script[i]?.bind Directive.event).isSome := by
  simp [pushing, List.mem_range']

theorem map_pushing : ∀ p ≤ script.length,
    (pushing script 0 p).map (eventAt script) = (script.take p).filterMap Directive.event := by
  intro p
  induction p with
  | zero => exact fun _ => rfl
  | succ p ih =>
    intro hp
    have hlast : pushing script p (p + 1) =
        if (script[p]?.bind Directive.event).isSome then [p] else [] := by
      rw [pushing_succ (Nat.lt_succ_self p), pushing_self]
    rw [← pushing_append (Nat.le_succ p), List.map_append, ih (by omega), hlast,
      List.take_succ_eq_append_getElem hp, List.filterMap_append]
    congr 1
    have hget : script[p]? = some script[p] := List.getElem?_eq_getElem hp
    rw [hget, Option.bind_some]
    cases he : script[p].event with
    | none => simp [he]
    | some e => simp [he, eventAt, hget]

def IsMove (script : List Directive) (i : Nat) : Prop := ∃ x y, script[i]? = some (.move x y)

def IsButton (script : List Directive) (i : Nat) : Prop :=
  ∃ id, script[i]? = some (.buttonDown id) ∨ script[i]? = some (.buttonUp id)

/-- What is delivered of a script, at any moment of a run. -/
structure Delivered (script : List Directive) (t : Delivery) : Prop where
  /-- What the driver popped are directives, in the order of the script and each once. -/
  popped : t.popped = (t.positions script).delivered.map (eventAt script)
  order : (t.positions script).delivered.Pairwise (· < ·)
  /-- Once the script is done and the queue is drained, no discrete one is missing. -/
  discrete (hdone : t.script.isDone = true) (hdrained : t.card.queue.len = 0) :
    t.popped.filter (fun e => !e.isMotion) =
      (script.filterMap Directive.event).filter fun e => !e.isMotion
  /-- A pointer position comes before the button behind it, unless it was evicted. -/
  positioned (i j : Nat) (hi : IsMove script i) (hj : IsButton script j) (hij : i < j)
    (hbetween : ∀ k, i < k → k < j → ¬ IsMove script k)
    (hpopped : j ∈ (t.positions script).delivered) :
    i ∈ (t.positions script).delivered ∨
      CoalescingQueue.Evicted (softAt script) queueCapacity t.history i
  /-- Of a script that was read from a text every directive but a `SLEEP` has its event. -/
  whole {text : List Char} {s : InputScript} (hparse : parse text = .ok s)
    (hscript : s.remaining = script) : ∀ d ∈ script, d.Pushable

/-- Pointer motions come from `MOVE` only. -/
theorem move_of_isMotion {e : QueuedEvent} (h : d.event = some e) (hmotion : e.isMotion = true) :
    ∃ x y, d = .move x y := by
  cases d with
  | move x y => exact ⟨x, y, rfl⟩
  | sleep frames => cases h
  | charDown ch =>
    obtain ⟨byte, -, rfl⟩ := Option.map_eq_some_iff.mp h
    exact absurd hmotion (by simp [QueuedEvent.isMotion])
  | charUp ch =>
    obtain ⟨byte, -, rfl⟩ := Option.map_eq_some_iff.mp h
    exact absurd hmotion (by simp [QueuedEvent.isMotion])
  | _ =>
    obtain ⟨-, h⟩ := Option.ite_none_right_eq_some.mp h
    cases h
    exact absurd hmotion (by simp [QueuedEvent.isMotion])

/-- Behind a pointer position that a button follows, what is accepted next is no position. -/
theorem not_superseded {j : Nat} (hi : IsMove script i) (hj : IsButton script j) (hij : i < j)
    (hbetween : ∀ k, i < k → k < j → ¬ IsMove script k) (hmem : j ∈ pushing script 0 p) :
    ¬ CoalescingQueue.Superseded (softAt script) (pushing script 0 p) i := by
  rintro ⟨earlier, y, later, hsplit, hsoft⟩
  have hsorted := pushing_sorted script 0 p
  rw [hsplit] at hsorted hmem
  have htail := (List.pairwise_append.mp hsorted).2.1
  obtain ⟨hiy, hrest⟩ := List.pairwise_cons.mp htail
  have hy : i < y := hiy y List.mem_cons_self
  have hyj : y ≤ j := by
    rcases List.mem_append.mp hmem with hearlier | hlater
    · have := (List.pairwise_append.mp hsorted).2.2 j hearlier i List.mem_cons_self
      omega
    · rcases List.mem_cons.mp hlater with rfl | hlater
      · exact absurd hij (Nat.lt_irrefl _)
      · rcases List.mem_cons.mp hlater with rfl | hlater
        · exact Nat.le_refl _
        · exact ((List.pairwise_cons.mp hrest).1 j hlater).le
  have hmove : IsMove script y := by
    have hin : y ∈ pushing script 0 p := by rw [hsplit]; simp
    obtain ⟨e, he⟩ := Option.isSome_iff_exists.mp (mem_pushing.mp hin).2
    obtain ⟨d, hd, hevent⟩ := Option.bind_eq_some_iff.mp he
    have hat : eventAt script y = e := by
      unfold eventAt
      rw [he]
      rfl
    have hmotion : e.isMotion = true := hat ▸ hsoft
    obtain ⟨x, z, rfl⟩ := move_of_isMotion hevent hmotion
    exact ⟨x, z, hd⟩
  rcases Nat.eq_or_lt_of_le hyj with rfl | hlt
  · obtain ⟨x, y', hd⟩ := hmove
    obtain ⟨id, hbutton | hbutton⟩ := hj <;> exact Directive.noConfusion
      (Option.some.inj (hd.symm.trans hbutton))
  · exact hbetween y hy hlt hmove

/-- **A script is delivered in order**, whatever the frames and the driver do. -/
theorem script_delivered (script : List Directive) (diagRom : List Byte) (steps : List Step) :
    Delivered script (run (Delivery.step script) (Delivery.start script diagRom) steps) := by
  have h := Tracked.run script diagRom steps
  generalize run (Delivery.step script) (Delivery.start script diagRom) steps = t at h
  have hfaithful : CoalescingQueue.Faithful (softAt script) (t.positions script) :=
    CoalescingQueue.faithful_run (softAt script) queueCapacity t.history
  have hsorted : ((t.positions script).delivered ++ (t.positions script).queue).Pairwise (· < ·) :=
    (h.accepted ▸ pushing_sorted script 0 (t.next script)).sublist hfaithful.order
  refine ⟨h.popped, (List.pairwise_append.mp hsorted).1, fun hdone hdrained => ?_, ?_,
    fun hparse hscript => hscript ▸ pushable_of_parse hparse⟩
  · have hnext : t.next script = script.length := by
      have hnil : t.script.remaining = [] := by
        unfold isDone at hdone
        simpa using (Bool.and_eq_true_iff.mp hdone).2
      unfold Delivery.next
      rw [hnil]
      rfl
    have hempty : (t.positions script).queue = [] := by
      have hlist : t.card.queue.toList = [] := (RingBuffer.toList_eq_nil _).mpr hdrained
      rw [h.mirrors] at hlist
      exact List.map_eq_nil_iff.mp hlist
    have hhard := hfaithful.hard
    rw [hempty, List.append_nil, h.accepted, hnext] at hhard
    have hmap := map_pushing script.length (Nat.le_refl _)
    rw [List.take_length] at hmap
    rw [h.popped, ← hmap, List.filter_map, List.filter_map]
    exact congrArg (List.map (eventAt script)) hhard
  · intro i j hi hj hij hbetween hpopped
    have hjmem : j ∈ pushing script 0 (t.next script) :=
      h.accepted ▸ hfaithful.order.subset (List.mem_append_left _ hpopped)
    have himem : i ∈ (t.positions script).accepted := by
      rw [h.accepted, mem_pushing]
      have hlt := (mem_pushing.mp hjmem).1
      obtain ⟨x, y, hd⟩ := hi
      refine ⟨hij.trans hlt, ?_⟩
      rw [hd, Option.bind_some]
      exact h.valid i ⟨Nat.zero_le i, hij.trans hlt⟩ _ hd rfl
    rcases CoalescingQueue.kept_or_lost t.history himem with hkept | hevicted | hsuperseded
    · rcases List.mem_append.mp hkept with hdelivered | hqueued
      · exact .inl hdelivered
      · have hji := (List.pairwise_append.mp hsorted).2.2 j hpopped i hqueued
        omega
    · exact .inr hevicted
    · refine absurd ?_ (not_superseded hi hj hij hbetween hjmem)
      rw [← h.accepted]
      exact hsuperseded

end

/-- A pointer position, a click, and fifteen characters more than the queue then has room for. -/
def crowded : List Directive :=
  [.move 100 50, .buttonDown Button.left] ++ List.replicate 15 (.charDown 'a')

/-- One frame, and a driver that takes everything the queue holds. -/
def drained : Delivery :=
  run (Delivery.step crowded) (Delivery.start crowded [])
    (.frame 0 :: List.replicate 16 (.write (Reg.eventAdvance + 3) 0))

/-- **A position that a click depends on can be lost**: the last character evicted it. -/
theorem crowded_click_unpositioned : drained.script.isDone = true ∧ drained.card.queue.len = 0 ∧
    drained.popped.head?.map QueuedEvent.ty = some Ev.buttonDown ∧
    drained.popped.filter QueuedEvent.isMotion = [] := by decide

end M68kMachine.InputScript
