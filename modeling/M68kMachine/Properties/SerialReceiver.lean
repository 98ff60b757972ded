import M68kMachine.Library.EventTrace
import M68kMachine.Properties.CustomBytes

/-!
# The serial receiver and an interrupt-driven reader

Bytes the host pushes wait in the receive queue of `chipset.rs`; `SERDATR` hands them out, and each
accepted one sets `INTREQ.RBF`. The guest's handler acknowledges `RBF` and then reads `SERDATR`
once. `INTREQ` is a latch: two bytes pushed while `RBF` stays set are one interrupt.

* `SerialReader.step` — host and guest, taking turns in any order
* `serialStep_run` — what no order of steps can break: the bytes and their overruns
* `never_strands_iff` — when every queued byte has an interrupt to fetch it
-/

namespace M68kMachine

namespace Chipset

/-- `INTREQ.RBF`. -/
def rbf (c : Chipset) : Bool := c.intreq.getLsbD Intbit.rbf

/-- The bytes not read yet. -/
def queued (c : Chipset) : List Byte := c.serialInBuf.toList

theorem serdatr_some : ∀ (overrun : Bool) (byte : Byte),
    let value : Word := 0x3800 ||| (1 <<< 14) ||| byte.setWidth 16 |||
      (if overrun then 1 <<< 15 else 0)
    value.getLsbD 14 = true ∧ value.setWidth 8 = byte ∧ value.getLsbD 15 = overrun := by
  decide

variable {c : Chipset}

/-- `SERDATR` with a byte queued: `RBF`, the byte, and whether bytes were lost. -/
theorem read_serdatr_cons {byte : Byte} {rest : List Byte} (h : c.queued = byte :: rest) :
    (c.read Reg.serdatr).1.getLsbD 14 = true ∧ (c.read Reg.serdatr).1.setWidth 8 = byte ∧
      (c.read Reg.serdatr).1.getLsbD 15 = c.serialInOverrun ∧
      (c.read Reg.serdatr).2.queued = rest := by
  have hhead := RingBuffer.pop_fst c.serialInBuf
  have hpop := RingBuffer.toList_pop c.serialInBuf
  unfold queued at h
  rw [h] at hhead hpop
  show (c.readSerdatr).1.getLsbD 14 = true ∧ (c.readSerdatr).1.setWidth 8 = byte ∧
    (c.readSerdatr).1.getLsbD 15 = c.serialInOverrun ∧ (c.readSerdatr).2.queued = rest
  unfold readSerdatr
  cases hp : c.serialInBuf.pop with
  | mk first buf =>
    rw [hp] at hhead hpop
    obtain rfl : first = some byte := hhead
    obtain ⟨hrbf, hbyte, hovrun⟩ := serdatr_some c.serialInOverrun byte
    exact ⟨hrbf, hbyte, hovrun, hpop⟩

theorem read_serdatr_nil (h : c.queued = []) :
    (c.read Reg.serdatr).1 = 0x3800 ∧ (c.read Reg.serdatr).2.queued = [] := by
  have hhead := RingBuffer.pop_fst c.serialInBuf
  unfold queued at h
  rw [h] at hhead
  show (c.readSerdatr).1 = 0x3800 ∧ (c.readSerdatr).2.queued = []
  unfold readSerdatr
  cases hp : c.serialInBuf.pop with
  | mk first buf =>
    rw [hp] at hhead
    obtain rfl : first = none := hhead
    exact ⟨rfl, h⟩

/-- Whatever was read, the overrun is reported. -/
theorem overrun_read_serdatr (c : Chipset) : (c.read Reg.serdatr).2.serialInOverrun = false := by
  show (c.readSerdatr).2.serialInOverrun = false
  unfold readSerdatr
  split <;> rfl

theorem intreq_read_serdatr (c : Chipset) : (c.read Reg.serdatr).2.intreq = c.intreq ∧
    (c.read Reg.serdatr).2.intena = c.intena := by
  show (c.readSerdatr).2.intreq = _ ∧ (c.readSerdatr).2.intena = _
  unfold readSerdatr
  split <;> exact ⟨rfl, rfl⟩

theorem pushSerialInByte_of_room (h : c.queued.length < serialInBufCap) (byte : Byte) :
    (c.pushSerialInByte byte).queued = c.queued ++ [byte] ∧
      (c.pushSerialInByte byte).rbf = true ∧
      (c.pushSerialInByte byte).serialInOverrun = c.serialInOverrun := by
  have hpush := RingBuffer.toList_push byte h
  have hfst : (c.serialInBuf.push byte).1 = true := by
    rw [RingBuffer.push_fst]
    exact decide_eq_true h
  unfold pushSerialInByte
  cases hp : c.serialInBuf.push byte with
  | mk accepted buf =>
    rw [hp] at hpush hfst
    obtain rfl : accepted = true := hfst
    refine ⟨hpush, ?_, rfl⟩
    show (c.intreq ||| (1 <<< 11 : Word)).getLsbD 11 = true
    rw [BitVec.getLsbD_or]
    exact Bool.or_true _

theorem pushSerialInByte_of_full (h : c.queued.length = serialInBufCap) (byte : Byte) :
    c.pushSerialInByte byte = { c with serialInOverrun := true } := by
  unfold pushSerialInByte
  rw [RingBuffer.push_full byte h]

/-- An `INTREQ` write that acknowledges `RBF`. -/
def ClearsRbf (value : Word) : Prop :=
  value.getLsbD 15 = false ∧ value.getLsbD Intbit.rbf = true

instance (value : Word) : Decidable (ClearsRbf value) := inferInstanceAs (Decidable (_ ∧ _))

theorem rbf_write_clears {value : Word} (h : ClearsRbf value) :
    (c.write Reg.intreq value).rbf = false := by
  show (applySetclr c.intreq value).getLsbD 11 = false
  rw [CustomReg.applySetclr_eq, h.1]
  have hbit : value.getLsbD 11 = true := h.2
  simp [hbit]

theorem rbf_write_keeps {value : Word} (h : ¬ClearsRbf value) (hrbf : c.rbf = true) :
    (c.write Reg.intreq value).rbf = true := by
  have hbit : c.intreq.getLsbD 11 = true := hrbf
  show (applySetclr c.intreq value).getLsbD 11 = true
  rw [CustomReg.applySetclr_eq]
  split
  · rw [BitVec.getLsbD_or, hbit, Bool.true_or]
  · rename_i h15
    have hvalue : value.getLsbD 11 = false :=
      Bool.eq_false_iff.mpr fun h11 => h ⟨Bool.eq_false_iff.mpr h15, h11⟩
    rw [BitVec.getLsbD_and, hbit, BitVec.getLsbD_not, BitVec.getLsbD_and, hvalue]
    rfl

end Chipset

open Chipset Transition

/-! ## The reader -/

/-- How far the guest's handler is. -/
inductive HandlerPhase
  | idle
  /-- The interrupt was taken. -/
  | entered
  /-- `RBF` was cleared. -/
  | acknowledged
  deriving DecidableEq

structure SerialReader where
  chipset : Chipset
  phase : HandlerPhase

namespace SerialReader

inductive Op
  /-- The host hands over a byte. -/
  | push (byte : Byte)
  | interrupt
  /-- The handler's write to `INTREQ`. -/
  | acknowledge (value : Word)
  | readSerdatr
  /-- Any other write to `INTREQ` or `INTENA`. -/
  | writeIntreq (value : Word)
  | writeIntena (value : Word)

def Op.isPush : Op → Bool
  | push _ => true
  | _ => false

def start : SerialReader := ⟨Chipset.new, .idle⟩

def step (s : SerialReader) : Op → SerialReader
  | .push byte => { s with chipset := s.chipset.pushSerialInByte byte }
  | .interrupt => { s with phase := .entered }
  | .acknowledge value => ⟨s.chipset.write Reg.intreq value, .acknowledged⟩
  | .readSerdatr => ⟨(s.chipset.read Reg.serdatr).2, .idle⟩
  | .writeIntreq value => { s with chipset := s.chipset.write Reg.intreq value }
  | .writeIntena value => { s with chipset := s.chipset.write Reg.intena value }

/-- The RBF interrupt is requested and enabled. -/
def Requested (c : Chipset) : Prop :=
  c.rbf = true ∧ c.intena.getLsbD Intbit.rbf = true ∧ c.intena.getLsbD Intbit.inten = true

/-- One acknowledgement and then one read for each interrupt; nothing else clears `RBF`. -/
def Obeys (s : SerialReader) : Op → Prop
  | .push _ | .writeIntena _ => True
  | .interrupt => s.phase = .idle ∧ Requested s.chipset
  | .acknowledge value => s.phase = .entered ∧ ClearsRbf value
  | .readSerdatr => s.phase = .acknowledged
  | .writeIntreq value => ¬ClearsRbf value

instance (s : SerialReader) : (op : Op) → Decidable (s.Obeys op)
  | .push _ => inferInstanceAs (Decidable True)
  | .writeIntena _ => inferInstanceAs (Decidable True)
  | .interrupt => inferInstanceAs (Decidable (_ ∧ _ ∧ _ ∧ _))
  | .acknowledge _ => inferInstanceAs (Decidable (_ ∧ _))
  | .readSerdatr => inferInstanceAs (Decidable (_ = _))
  | .writeIntreq _ => inferInstanceAs (Decidable (¬_))

/-! ## Events -/

inductive Event
  | accepted (byte : Byte)
  | refused (byte : Byte)
  /-- What a read of `SERDATR` returned. -/
  | read (value : Word)

namespace Event

def accepts : Event → Option Byte
  | accepted byte => some byte
  | _ => none

/-- The byte of a read that has `RBF` set. -/
def receives : Event → Option Byte
  | read value => if value.getLsbD 14 then some (value.setWidth 8) else none
  | _ => none

/-- Whether a byte was refused since the last read. -/
def overrunAfter (overrun : Bool) : Event → Bool
  | refused _ => true
  | read _ => false
  | accepted _ => overrun

end Event

/-- Every read after a refused push carries a byte and reports it, and no other read does. -/
def Reports : Bool → List Event → Prop
  | _, [] => True
  | overrun, .read value :: es =>
    value.getLsbD 15 = overrun ∧ (overrun = true → value.getLsbD 14 = true) ∧ Reports false es
  | _, .refused _ :: es => Reports true es
  | overrun, .accepted _ :: es => Reports overrun es

def events (s : SerialReader) : Op → List Event
  | .push byte =>
    [if s.chipset.queued.length < serialInBufCap then .accepted byte else .refused byte]
  | .readSerdatr => [.read (s.chipset.read Reg.serdatr).1]
  | _ => []

theorem reports_append {es es' : List Event} : ∀ {overrun : Bool},
    Reports overrun (es ++ es') ↔
      Reports overrun es ∧ Reports (es.foldl Event.overrunAfter overrun) es' := by
  induction es with
  | nil => simp [Reports]
  | cons e es ih =>
    intro overrun
    cases e with
    | accepted byte => exact ih
    | refused byte => exact ih
    | read value =>
      simp only [List.cons_append, Reports, ih, and_assoc, List.foldl_cons, Event.overrunAfter]

/-- The next read after a refused push. -/
theorem Reports.next {es after : List Event} {value : Word} :
    Reports true (es ++ .read value :: after) → (∀ v, Event.read v ∉ es) →
      value.getLsbD 14 = true ∧ value.getLsbD 15 = true := by
  induction es with
  | nil =>
    intro h _
    exact ⟨h.2.1 rfl, h.1⟩
  | cons e es ih =>
    intro h hnone
    have hrest : ∀ v, Event.read v ∉ es := fun v hmem => hnone v (List.mem_cons_of_mem e hmem)
    cases e with
    | accepted byte => exact ih h hrest
    | refused byte => exact ih h hrest
    | read v => exact absurd List.mem_cons_self (hnone v)

/-- What a stretch of events says of the queue and of the overrun flag. -/
structure SerialStep (s : SerialReader) (es : List Event) (s' : SerialReader) : Prop where
  queue : s.chipset.queued ++ es.filterMap Event.accepts =
    es.filterMap Event.receives ++ s'.chipset.queued
  reports : Reports s.chipset.serialInOverrun es
  overrun : es.foldl Event.overrunAfter s.chipset.serialInOverrun = s'.chipset.serialInOverrun
  /-- Bytes were refused by a full queue, and none was read since. -/
  full : s'.chipset.serialInOverrun = true → s'.chipset.queued ≠ []

/-- Bytes are lost only to a queue that is still not empty. -/
def Full (s : SerialReader) : Prop := s.chipset.serialInOverrun = true → s.chipset.queued ≠ []

variable {s : SerialReader}

theorem SerialStep.append {s' s'' : SerialReader} {es es' : List Event} (h : SerialStep s es s')
    (h' : SerialStep s' es' s'') : SerialStep s (es ++ es') s'' := by
  refine ⟨?_, ?_, ?_, h'.full⟩
  · rw [List.filterMap_append, List.filterMap_append]
    exact fifo_append h.queue h'.queue
  · rw [reports_append, h.overrun]
    exact ⟨h.reports, h'.reports⟩
  · rw [List.foldl_append, h.overrun, h'.overrun]

theorem serialStep_nil {s' : SerialReader} (h : s.Full)
    (hbuf : s'.chipset.serialInBuf = s.chipset.serialInBuf)
    (hoverrun : s'.chipset.serialInOverrun = s.chipset.serialInOverrun) : SerialStep s [] s' := by
  have hqueue : s'.chipset.queued = s.chipset.queued := congrArg RingBuffer.toList hbuf
  refine ⟨?_, trivial, hoverrun.symm, ?_⟩
  · rw [hqueue]
    exact List.append_nil _
  · rw [hqueue, hoverrun]
    exact h

theorem serialStep_push (s : SerialReader) (byte : Byte) :
    SerialStep s (s.events (.push byte)) (s.step (.push byte)) := by
  show SerialStep s
    [if s.chipset.queued.length < serialInBufCap then .accepted byte else .refused byte]
    { s with chipset := s.chipset.pushSerialInByte byte }
  by_cases hroom : s.chipset.queued.length < serialInBufCap
  · obtain ⟨hqueue, -, hoverrun⟩ := pushSerialInByte_of_room hroom byte
    rw [if_pos hroom]
    refine ⟨hqueue.symm, trivial, hoverrun.symm, fun _ => ?_⟩
    rw [hqueue]
    exact List.append_ne_nil_of_right_ne_nil _ (List.cons_ne_nil _ _)
  · have hfull : s.chipset.queued.length = serialInBufCap := by
      have hle := s.chipset.serialInBuf.length_toList_le
      unfold queued at hroom ⊢
      omega
    rw [if_neg hroom, pushSerialInByte_of_full hfull]
    refine ⟨List.append_nil _, trivial, rfl, fun _ hnil => ?_⟩
    have hnil' : s.chipset.queued = [] := hnil
    rw [hnil'] at hfull
    cases hfull

theorem serialStep_readSerdatr (h : s.Full) :
    SerialStep s (s.events .readSerdatr) (s.step .readSerdatr) := by
  have hclear := overrun_read_serdatr s.chipset
  have hfull : (s.step .readSerdatr).Full := by
    intro hover
    rw [show (s.step .readSerdatr).chipset.serialInOverrun = false from hclear] at hover
    cases hover
  show SerialStep s [.read (s.chipset.read Reg.serdatr).1] (s.step .readSerdatr)
  cases hqueue : s.chipset.queued with
  | nil =>
    obtain ⟨hvalue, hrest⟩ := read_serdatr_nil hqueue
    have hoverrun : s.chipset.serialInOverrun = false :=
      Bool.eq_false_iff.mpr fun hover => h hover hqueue
    rw [hvalue]
    refine ⟨?_, ⟨?_, ?_, trivial⟩, hclear.symm, hfull⟩
    · rw [hqueue, show (s.step .readSerdatr).chipset.queued = [] from hrest]
      rfl
    · rw [hoverrun]
      rfl
    · rw [hoverrun]
      nofun
  | cons byte rest =>
    obtain ⟨hrbf, hbyte, hovrun, hrest⟩ := read_serdatr_cons hqueue
    refine ⟨?_, ⟨hovrun, fun _ => hrbf, trivial⟩, hclear.symm, hfull⟩
    rw [hqueue, show (s.step .readSerdatr).chipset.queued = rest from hrest]
    simp [Event.accepts, Event.receives, hrbf, hbyte]

theorem serialStep_step (h : s.Full) (op : Op) : SerialStep s (s.events op) (s.step op) := by
  cases op with
  | push byte => exact serialStep_push s byte
  | readSerdatr => exact serialStep_readSerdatr h
  | interrupt => exact serialStep_nil h rfl rfl
  | acknowledge value => exact serialStep_nil h rfl rfl
  | writeIntreq value => exact serialStep_nil h rfl rfl
  | writeIntena value => exact serialStep_nil h rfl rfl

def history (s : SerialReader) (ops : List Op) : List Event := emitted step events s ops

theorem serialStep_run (h : s.Full) (ops : List Op) :
    SerialStep s (s.history ops) (run step s ops) :=
  emitted_induction (R := fun s es s' => s.Full → SerialStep s es s')
    (fun _ h => serialStep_nil h rfl rfl) (fun _ op h => serialStep_step h op)
    (fun hes hes' h => (hes h).append (hes' (hes h).full)) s ops h

theorem full_start : start.Full := nofun

/-! ## Interrupts and bytes -/

/-- Once the handler is done, the next byte queued has an interrupt waiting. -/
def Served (s : SerialReader) : Prop :=
  s.phase = .idle → s.chipset.queued ≠ [] → s.chipset.rbf = true

/-- The bytes the handler under way is past acknowledging: one, or none. -/
def acknowledged (s : SerialReader) : Nat := if s.phase = .acknowledged then 1 else 0

/-- No more bytes are queued than interrupts are set or acknowledged. -/
def Counted (s : SerialReader) : Prop :=
  s.chipset.queued.length ≤ s.chipset.rbf.toNat + s.acknowledged

/-- The host pushes a byte only when the interrupt of every byte before it was acknowledged. -/
def Singly (s : SerialReader) : Op → Prop
  | .push _ => s.chipset.queued.length = serialInBufCap ∨ s.chipset.queued.length ≤ s.acknowledged
  | _ => True

instance (s : SerialReader) : (op : Op) → Decidable (s.Singly op)
  | .push _ => inferInstanceAs (Decidable (_ ∨ _))
  | .interrupt => inferInstanceAs (Decidable True)
  | .acknowledge _ => inferInstanceAs (Decidable True)
  | .readSerdatr => inferInstanceAs (Decidable True)
  | .writeIntreq _ => inferInstanceAs (Decidable True)
  | .writeIntena _ => inferInstanceAs (Decidable True)

theorem Counted.served (h : s.Counted) : s.Served := by
  intro hidle hqueued
  have hack : s.acknowledged = 0 := by
    unfold acknowledged
    rw [if_neg (by rw [hidle]; decide)]
  have hpos := List.length_pos_iff.mpr hqueued
  unfold Counted at h
  cases hrbf : s.chipset.rbf with
  | true => rfl
  | false =>
    rw [hrbf, hack] at h
    exact absurd h (by simp only [Bool.toNat_false]; omega)

theorem counted_push (h : s.Counted) {byte : Byte} (hsingly : s.Singly (.push byte)) :
    (s.step (.push byte)).Counted := by
  by_cases hfull : s.chipset.queued.length = serialInBufCap
  · have hsame : s.step (.push byte) =
        { s with chipset := { s.chipset with serialInOverrun := true } } :=
      congrArg (fun c => SerialReader.mk c s.phase) (pushSerialInByte_of_full hfull byte)
    rw [hsame]
    exact h
  · have hle : s.chipset.queued.length ≤ serialInBufCap := s.chipset.serialInBuf.length_toList_le
    obtain ⟨hqueue, hrbf, -⟩ :=
      pushSerialInByte_of_room (show s.chipset.queued.length < serialInBufCap by omega) byte
    have hone := hsingly.resolve_left hfull
    show (s.chipset.pushSerialInByte byte).queued.length ≤
      (s.chipset.pushSerialInByte byte).rbf.toNat + s.acknowledged
    rw [hqueue, hrbf, List.length_append]
    simp only [List.length_singleton, Bool.toNat_true]
    omega

theorem counted_readSerdatr (h : s.Counted) (hack : s.phase = .acknowledged) :
    (s.step .readSerdatr).Counted := by
  unfold Counted acknowledged at h
  rw [if_pos hack] at h
  have hrbf : (s.step .readSerdatr).chipset.rbf = s.chipset.rbf :=
    congrArg (fun v : Word => v.getLsbD Intbit.rbf) (intreq_read_serdatr s.chipset).1
  unfold Counted acknowledged
  rw [hrbf, if_neg (show ¬(s.step .readSerdatr).phase = .acknowledged by nofun)]
  cases hqueue : s.chipset.queued with
  | nil =>
    rw [show (s.step .readSerdatr).chipset.queued = [] from (read_serdatr_nil hqueue).2]
    exact Nat.zero_le _
  | cons byte rest =>
    rw [show (s.step .readSerdatr).chipset.queued = rest from (read_serdatr_cons hqueue).2.2.2]
    rw [hqueue, List.length_cons] at h
    omega

/-- **A step that obeys the handler, and pushes singly, keeps the count.** -/
theorem counted_step (h : s.Counted) {op : Op} (hobeys : s.Obeys op) (hsingly : s.Singly op) :
    (s.step op).Counted := by
  have hack : s.phase ≠ .acknowledged →
      s.chipset.queued.length ≤ s.chipset.rbf.toNat := by
    intro hphase
    unfold Counted acknowledged at h
    rw [if_neg hphase] at h
    exact h
  cases op with
  | push byte => exact counted_push h hsingly
  | interrupt =>
    show s.chipset.queued.length ≤ s.chipset.rbf.toNat + 0
    exact hack (by rw [hobeys.1]; decide)
  | acknowledge value =>
    -- the interrupt that is cleared becomes the byte being handled
    have hrbf : s.chipset.rbf.toNat ≤ 1 := Bool.toNat_le _
    have hle := hack (by rw [hobeys.1]; decide)
    show s.chipset.queued.length ≤ (s.chipset.write Reg.intreq value).rbf.toNat + 1
    omega
  | readSerdatr => exact counted_readSerdatr h hobeys
  | writeIntreq value =>
    show s.chipset.queued.length ≤ (s.chipset.write Reg.intreq value).rbf.toNat + s.acknowledged
    unfold Counted at h
    cases hrbf : s.chipset.rbf with
    | true =>
      rw [rbf_write_keeps hobeys hrbf]
      rwa [hrbf] at h
    | false =>
      rw [hrbf, Bool.toNat_false] at h
      omega
  | writeIntena value => exact h

/-! ## Stranding a byte -/

/-- `RBF` and the master enable are set in `INTENA`, and `RBF` cleared in `INTREQ`. -/
def handle : List Op := [.writeIntena 0xC800, .interrupt, .acknowledge 0x0800, .readSerdatr]

/-- The rest of a handler that was entered. -/
def finishHandler : HandlerPhase → List Op
  | .idle => []
  | .entered => [.acknowledge 0x0800, .readSerdatr]
  | .acknowledged => [.readSerdatr]

theorem clearsRbf_0x0800 : ClearsRbf 0x0800 := by decide

theorem length_queued_read (c : Chipset) :
    (c.read Reg.serdatr).2.queued.length = c.queued.length - 1 := by
  cases hqueue : c.queued with
  | nil => rw [(read_serdatr_nil hqueue).2, List.length_nil]
  | cons byte rest =>
    rw [(read_serdatr_cons hqueue).2.2.2, List.length_cons, Nat.add_sub_cancel]

theorem rbf_read_serdatr (c : Chipset) : (c.read Reg.serdatr).2.rbf = c.rbf :=
  congrArg (fun v : Word => v.getLsbD Intbit.rbf) (intreq_read_serdatr c).1

/-- An acknowledgement and a read. -/
theorem acknowledge_read (c : Chipset) :
    ((c.write Reg.intreq 0x0800).read Reg.serdatr).2.rbf = false ∧
      ((c.write Reg.intreq 0x0800).read Reg.serdatr).2.queued.length = c.queued.length - 1 := by
  rw [rbf_read_serdatr, length_queued_read]
  exact ⟨rbf_write_clears clearsRbf_0x0800, rfl⟩

/-- A whole handler, taken with `RBF` set, leaves `RBF` clear and one byte less. -/
theorem handle_spec (hidle : s.phase = .idle) (hrbf : s.chipset.rbf = true) :
    Each step Obeys s handle ∧ (run step s handle).phase = .idle ∧
      (run step s handle).chipset.rbf = false ∧
      (run step s handle).chipset.queued.length = s.chipset.queued.length - 1 := by
  have hena : (applySetclr s.chipset.intena 0xC800).getLsbD 11 = true ∧
      (applySetclr s.chipset.intena 0xC800).getLsbD 14 = true := by
    rw [CustomReg.applySetclr_eq, if_pos (by decide), BitVec.getLsbD_or, BitVec.getLsbD_or]
    exact ⟨Bool.or_true _, Bool.or_true _⟩
  unfold handle
  simp only [each_cons, each_nil, run_cons, run_nil, and_true]
  exact ⟨⟨trivial, ⟨hidle, hrbf, hena⟩, ⟨rfl, clearsRbf_0x0800⟩, rfl⟩, rfl, acknowledge_read _⟩

/-- A byte pushed under another one's interrupt can stay queued with `RBF` clear. -/
theorem strands_of_not_singly {byte : Byte} (h : ¬s.Singly (.push byte)) :
    ∃ guest : List Op, (∀ op ∈ guest, op.isPush = false) ∧
      Each step Obeys (s.step (.push byte)) guest ∧
      ¬(run step (s.step (.push byte)) guest).Served := by
  obtain ⟨hroom, hmany⟩ := not_or.mp h
  have hle : s.chipset.queued.length ≤ serialInBufCap := s.chipset.serialInBuf.length_toList_le
  obtain ⟨hqueue, hrbf, -⟩ :=
    pushSerialInByte_of_room (show s.chipset.queued.length < serialInBufCap by omega) byte
  have hlength : (s.step (.push byte)).chipset.queued.length = s.chipset.queued.length + 1 := by
    rw [show (s.step (.push byte)).chipset.queued = _ from hqueue, List.length_append]
    rfl
  have hset : (s.step (.push byte)).chipset.rbf = true := hrbf
  have hphase : (s.step (.push byte)).phase = s.phase := rfl
  generalize s.step (.push byte) = s' at hlength hset hphase
  -- idle with a byte queued and `RBF` clear
  have hstranded : ∀ t : SerialReader, t.phase = .idle → t.chipset.rbf = false →
      0 < t.chipset.queued.length → ¬t.Served := by
    intro t hidle hclear hpos hserved
    have := hserved hidle (List.length_pos_iff.mp hpos)
    rw [hclear] at this
    cases this
  unfold acknowledged at hmany
  cases hp : s.phase with
  | idle =>
    obtain ⟨hobeys, hidle, hclear, hless⟩ := handle_spec (hphase.trans hp) hset
    rw [hp, if_neg (by decide)] at hmany
    exact ⟨handle, by decide, hobeys, hstranded _ hidle hclear (by omega)⟩
  | entered =>
    obtain ⟨hclear, hless⟩ := acknowledge_read s'.chipset
    rw [hp, if_neg (by decide)] at hmany
    refine ⟨finishHandler .entered, by decide, ?_, hstranded _ rfl hclear ?_⟩
    · simp only [finishHandler, each_cons, each_nil, and_true]
      exact ⟨⟨hphase.trans hp, clearsRbf_0x0800⟩, rfl⟩
    · show 0 < ((s'.chipset.write Reg.intreq 0x0800).read Reg.serdatr).2.queued.length
      omega
  | acknowledged =>
    have hread : (s'.step .readSerdatr).chipset.rbf = true :=
      (rbf_read_serdatr s'.chipset).trans hset
    have hcount : (s'.step .readSerdatr).chipset.queued.length = s'.chipset.queued.length - 1 :=
      length_queued_read s'.chipset
    obtain ⟨hobeys, hidle, hclear, hless⟩ :=
      handle_spec (s := s'.step .readSerdatr) rfl hread
    rw [hp, if_pos rfl] at hmany
    refine ⟨finishHandler .acknowledged ++ handle, by decide, ?_,
      hstranded _ hidle hclear ?_⟩
    · rw [each_append]
      exact ⟨each_cons.mpr ⟨hphase.trans hp, each_nil⟩, hobeys⟩
    · show 0 < (run step (s'.step .readSerdatr) handle).chipset.queued.length
      omega

/-! ## Runs -/

/-- Wherever the guest is left alone, it finishes with an interrupt set for every byte queued. -/
def NeverStrands (ops : List Op) : Prop :=
  ∀ before after, ops = before ++ after → ∀ guest : List Op, (∀ op ∈ guest, op.isPush = false) →
    Each step Obeys (run step start before) guest → (run step start (before ++ guest)).Served

theorem counted_start : start.Counted := Nat.zero_le _

theorem counted_run (h : s.Counted) {ops : List Op} (hobeys : Each step Obeys s ops)
    (hsingly : Each step Singly s ops) : (run step s ops).Counted :=
  Always.last (always_of_each (Q := fun s op => s.Obeys op ∧ s.Singly op)
    (fun _ _ hs hop => counted_step hs hop.1 hop.2) h
    fun before op after hsplit =>
      ⟨hobeys before op after hsplit, hsingly before op after hsplit⟩)

theorem singly_of_guest {guest : List Op} (h : ∀ op ∈ guest, op.isPush = false) :
    Each step Singly s guest := by
  intro before op after hsplit
  have hop := h op (by rw [hsplit]; simp)
  cases op with
  | push byte => cases hop
  | _ => trivial

/-- **An interrupt-driven reader strands no byte if and only if bytes are pushed singly.** In every
run the bytes read with `RBF` set are the accepted ones in push order, and one is refused only by a
full queue and reported by the next read. Each queued byte has an interrupt of its own exactly in
the runs that push none before the interrupts of those queued were acknowledged. -/
theorem never_strands_iff (ops : List Op) (h : Each step Obeys start ops) :
    let s := run step start ops
    (start.history ops).filterMap Event.receives ++ s.chipset.queued =
        (start.history ops).filterMap Event.accepts ∧
      (∀ byte, s.events (.push byte) =
        if s.chipset.queued.length = 32 then [.refused byte] else [.accepted byte]) ∧
      (∀ before byte mid value after,
        start.history ops = before ++ .refused byte :: (mid ++ .read value :: after) →
          (∀ v, Event.read v ∉ mid) → value.getLsbD 14 = true ∧ value.getLsbD 15 = true) ∧
      (NeverStrands ops ↔ Each step Singly start ops) := by
  have hrun := serialStep_run full_start ops
  refine ⟨hrun.queue.symm, fun byte => ?_, ?_, ?_, ?_⟩
  · have hle : (run step start ops).chipset.queued.length ≤ 32 :=
      (run step start ops).chipset.serialInBuf.length_toList_le
    have hcap : serialInBufCap = 32 := rfl
    show [if _ then Event.accepted byte else Event.refused byte] = _
    split
    · rw [if_neg (by omega)]
    · rw [if_pos (by omega)]
  · intro before byte mid value after hsplit hnone
    have hreports := hrun.reports
    rw [hsplit, reports_append] at hreports
    exact Reports.next hreports.2 hnone
  · intro hnever before op after hsplit
    cases op with
    | push byte =>
      by_contra hmany
      obtain ⟨guest, hguest, hobeys, hstranded⟩ := strands_of_not_singly hmany
      apply hstranded
      have hrest : ops = (before ++ [.push byte]) ++ after := by simp [hsplit]
      have := hnever _ _ hrest guest hguest
      simp only [run_append, run_cons, run_nil] at this
      exact this hobeys
    | _ => trivial
  · intro hsingly before after hsplit guest hguest hobeys
    rw [hsplit, each_append] at h hsingly
    rw [run_append]
    exact (counted_run (counted_run counted_start h.1 hsingly.1) hobeys
      (singly_of_guest hguest)).served

/-- A byte pushed and fetched, twice. -/
theorem never_strands_iff_singly :
    NeverStrands ((.push 0x41 :: handle) ++ .push 0x42 :: handle) := by
  have hobeys : Each step Obeys start ((.push 0x41 :: handle) ++ .push 0x42 :: handle) := by
    simp only [handle, List.cons_append, List.nil_append, each_cons, each_nil, and_true]
    decide
  refine (never_strands_iff _ hobeys).2.2.2.mpr ?_
  simp only [handle, List.cons_append, List.nil_append, each_cons, each_nil, and_true]
  decide

/-- **Two bytes, one interrupt**: the second stays queued behind a finished handler. -/
theorem second_byte_stranded :
    let ops : List Op := [.push 0x41, .push 0x42] ++ handle
    Each step Obeys start ops ∧ (run step start ops).phase = .idle ∧
      (run step start ops).chipset.queued = [0x42] ∧
      (run step start ops).chipset.rbf = false := by
  simp only [handle, List.cons_append, List.nil_append, each_cons, each_nil, and_true]
  decide

end SerialReader

end M68kMachine
