import M68kMachine.Hosted.SerialTcp
import M68kMachine.Properties.SerialScripts

/-!
# What the TCP bridge keeps of the bytes

The guest, the frame loop and the bridge thread take turns in any order, and the sockets answer as
they like.

* `LineStep` — what a stretch of turns says of the bytes on their way in and out
* `keeps_step` — what one turn does
* `Attested` — when a turn has which events, by the queues and the answers of the sockets
* `bridge_keeps_bytes` — over any turns
-/

namespace M68kMachine

open Transition Chipset SerialTcp

namespace SerialEvent

def writes : SerialEvent → Option Byte
  | written byte => some byte
  | _ => none

def prints : SerialEvent → Option Byte
  | printed byte => some byte
  | _ => none

def sends : SerialEvent → List Byte
  | sent bytes => bytes
  | _ => []

def receives : SerialEvent → List Byte
  | received bytes => bytes
  | _ => []

/-- The byte of a read that has `RBF` set. -/
def reads : SerialEvent → Option Byte
  | read value => if value.getLsbD 14 then some (value.setWidth 8) else none
  | _ => none

/-- The printed bytes no client will see. -/
def losses : SerialEvent → List Byte
  | evicted byte => [byte]
  | lost bytes => bytes
  | _ => []

def putsBack : SerialEvent → Bool
  | putBack _ => true
  | _ => false

end SerialEvent

open SerialEvent

/-- The bytes the guest wrote that are still in the transmit buffer. -/
def Chipset.unsent (c : Chipset) : List Byte := c.serialBuf.toList

namespace SerialTcp.Phase

/-- What `flush_output` holds between its turns with the lock. -/
@[simp] def inHand : Phase → List Byte
  | write pending => pending
  | requeue rest => rest
  | _ => []

/-- What `fill_input` has read and not handed over. -/
@[simp] def arriving : Phase → List Byte
  | extend chunk => chunk.bytes
  | _ => []

end SerialTcp.Phase

namespace SerialTcpBridge

/-- The printed bytes a client is still to see. -/
def outbound (b : SerialTcpBridge) : List Byte := b.phase.inHand ++ b.output

/-- The client's bytes the guest has not been handed. -/
def inbound (b : SerialTcpBridge) : List Byte := b.input ++ b.phase.arriving

/-! ## One turn of the bridge thread -/

/-- What a turn can do, whatever the sockets answer. -/
inductive Polled (b : SerialTcpBridge) : SerialTcpBridge → List SerialEvent → Prop
  | waits (h : b.phase = .accept) : Polled b b []
  | connects (h : b.phase = .accept) : Polled b { b with connected := true, phase := .drain } []
  | idle (h : b.phase = .drain) (hout : b.output = []) :
      Polled b { b with output := [], phase := .checkRoom } []
  | drains (h : b.phase = .drain) :
      Polled b { b with output := [], phase := .write b.output } []
  | wrote (sent rest : List Byte) (h : b.phase = .write (sent ++ rest)) :
      Polled b { b with phase := .requeue rest } [.sent sent]
  | flushed (pending : List Byte) (h : b.phase = .write pending) :
      Polled b { b with phase := .checkRoom } [.sent pending]
  | blocked (pending : List Byte) (h : b.phase = .write pending) :
      Polled b { b with phase := .requeue pending } []
  | broke (pending : List Byte) (h : b.phase = .write pending) : Polled b b.drop [.lost pending]
  | putBack (rest : List Byte) (h : b.phase = .requeue rest) :
      Polled b { b with output := rest ++ b.output, phase := .checkRoom } [.putBack rest]
  | full (h : b.phase = .checkRoom) : Polled b { b with phase := .accept } []
  | short (h : b.phase = .checkRoom) (hroom : b.input.length < inputBufCap) :
      Polled b { b with phase := .read } []
  | reads (chunk : Chunk) (h : b.phase = .read) :
      Polled b { b with phase := .extend chunk } [.received chunk.bytes]
  | nothing (h : b.phase = .read) : Polled b { b with phase := .accept } []
  | closed (h : b.phase = .read) : Polled b b.drop []
  | extended (chunk : Chunk) (h : b.phase = .extend chunk) :
      Polled b { b with input := b.input ++ chunk.bytes, phase := .checkRoom } []

variable {b : SerialTcpBridge}

theorem polled_written {pending : List Byte} (h : b.phase = .write pending) (answer : WriteAnswer) :
    b.Polled (b.written pending answer).1 (b.written pending answer).2 := by
  cases answer with
  | wrote n =>
    dsimp only [written]
    split
    · refine .wrote (pending.take n) (pending.drop n) ?_
      rw [List.take_append_drop]
      exact h
    · exact .flushed pending h
  | wouldBlock => exact .blocked pending h
  | failed => exact .broke pending h

theorem polled_poll (b : SerialTcpBridge) (net : Answers) :
    b.Polled (b.poll net).1 (b.poll net).2 := by
  unfold poll
  cases hphase : b.phase with
  | accept =>
    dsimp only
    split
    · exact .connects hphase
    · exact .waits hphase
  | drain =>
    dsimp only
    split
    · exact .idle hphase ‹_›
    · exact .drains hphase
  | write pending => exact polled_written hphase net.write
  | requeue rest => exact .putBack rest hphase
  | checkRoom =>
    dsimp only
    split
    · exact .full hphase
    · exact .short hphase (by omega)
  | read =>
    cases hanswer : net.read with
    | chunk chunk => exact .reads chunk hphase
    | wouldBlock => exact .nothing hphase
    | gone => exact .closed hphase
  | extend chunk => exact .extended chunk hphase

/-! ## The output -/

/-- The bridge keeps the order of what it forwards; the other bytes are those lost. -/
structure Forwards (b : SerialTcpBridge) (entered : List Byte) (es : List SerialEvent)
    (b' : SerialTcpBridge) : Prop where
  order : List.Sublist (es.flatMap sends ++ b'.outbound) (b.outbound ++ entered)
  parts : (b.outbound ++ entered).Perm (es.flatMap sends ++ b'.outbound ++ es.flatMap losses)

variable {b' : SerialTcpBridge}

theorem Forwards.of_same (h : b'.outbound = b.outbound) : Forwards b [] [] b' := by
  refine ⟨?_, ?_⟩ <;> simp [h]

variable {es : List SerialEvent}

theorem Forwards.append {b'' : SerialTcpBridge} {entered entered' : List Byte}
    {es' : List SerialEvent} (h : Forwards b entered es b') (h' : Forwards b' entered' es' b'') :
    Forwards b (entered ++ entered') (es ++ es') b'' := by
  refine ⟨?_, ?_⟩
  · rw [List.flatMap_append]
    exact lossy_append h.order h'.order
  · refine List.perm_iff_count.mpr fun byte => ?_
    have hcount := h.parts.count_eq byte
    have hcount' := h'.parts.count_eq byte
    simp only [List.flatMap_append, List.count_append] at hcount hcount' ⊢
    omega

theorem forwards_pushGuestByte (b : SerialTcpBridge) (byte : Byte) :
    Forwards b [byte] (b.pushGuestByte byte).2 (b.pushGuestByte byte).1 := by
  unfold pushGuestByte
  split
  · rename_i oldest rest hout
    split
    · -- the bytes in hand are older than the one that goes
      refine ⟨?_, ?_⟩
      · simp only [outbound, hout, List.flatMap_cons, List.flatMap_nil, sends, List.nil_append,
          List.append_assoc, List.cons_append]
        exact (List.sublist_cons_self _ _).append_left _
      · refine List.perm_iff_count.mpr fun x => ?_
        simp only [outbound, hout, List.flatMap_cons, List.flatMap_nil, sends, losses,
          List.count_append, List.count_cons, List.count_nil]
        omega
    · refine ⟨?_, ?_⟩ <;> simp [outbound]
  · rename_i hout
    refine ⟨?_, ?_⟩ <;> simp [outbound, hout]

/-- The client's side of the bridge does not notice. -/
theorem aside_pushGuestByte (b : SerialTcpBridge) (byte : Byte) :
    (b.pushGuestByte byte).1.input = b.input ∧ (b.pushGuestByte byte).1.phase = b.phase := by
  unfold pushGuestByte
  split
  · split <;> exact ⟨rfl, rfl⟩
  · exact ⟨rfl, rfl⟩

theorem events_pushGuestByte (b : SerialTcpBridge) (byte : Byte) :
    (b.pushGuestByte byte).2 = [] ∨ ∃ oldest, (b.pushGuestByte byte).2 = [.evicted oldest] := by
  unfold pushGuestByte
  split
  · split
    · exact .inr ⟨_, rfl⟩
    · exact .inl rfl
  · exact .inl rfl

theorem Polled.forwards (h : b.Polled b' es) : Forwards b [] es b' := by
  cases h with
  | wrote sent rest h => refine ⟨?_, ?_⟩ <;> simp [outbound, h, sends, losses]
  | flushed pending h => refine ⟨?_, ?_⟩ <;> simp [outbound, h, sends, losses]
  | putBack rest h => refine ⟨?_, ?_⟩ <;> simp [outbound, h, sends, losses]
  | reads chunk h => refine ⟨?_, ?_⟩ <;> simp [outbound, h, sends, losses]
  | broke pending h =>
    refine ⟨?_, ?_⟩
    · simp [outbound, drop, h, sends]
    · simp [outbound, drop, h, sends, losses, List.perm_append_comm]
  | idle h hout => exact .of_same (by simp [outbound, h, hout])
  | waits h | closed h | connects h | drains h | blocked _ h | full h | short h | nothing h
  | extended _ h => exact .of_same (by simp [outbound, drop, h])

/-- The bridge thread does nothing to the chipset or the console. -/
theorem Polled.quiet (h : b.Polled b' es) :
    es.filterMap writes = [] ∧ es.filterMap prints = [] ∧ es.filterMap SerialEvent.reads = [] ∧
      ∀ value, SerialEvent.read value ∈ es → value.getLsbD 15 = false := by
  cases h <;> simp [writes, prints, SerialEvent.reads]

/-- The output queue grows past its capacity only by bytes put back, `n` times. -/
structure Bounded (n : Nat) (b : SerialTcpBridge) : Prop where
  output : b.output.length ≤ outputBufCap * (n + 1)
  hand : b.phase.inHand.length ≤ outputBufCap * (n + 1)
  drained : b.phase.inHand ≠ [] → b.output.length ≤ outputBufCap

theorem bounded_pushGuestByte {n : Nat} (h : b.Bounded n) (byte : Byte) :
    (b.pushGuestByte byte).1.Bounded n := by
  have hcap : outputBufCap ≤ outputBufCap * (n + 1) := Nat.le_mul_of_pos_right _ (Nat.succ_pos n)
  obtain ⟨houtput, hhand, hdrained⟩ := h
  unfold pushGuestByte
  split
  · rename_i oldest rest hout
    rw [hout] at houtput hdrained
    split
    · refine ⟨?_, hhand, fun hne => ?_⟩
      · simpa using houtput
      · simpa using hdrained hne
    · rename_i hroom
      have hgrown : (b.output ++ [byte]).length ≤ outputBufCap := by
        rw [List.length_append, List.length_singleton]
        omega
      exact ⟨hgrown.trans hcap, hhand, fun _ => hgrown⟩
  · have hone : [byte].length ≤ outputBufCap := by
      rw [List.length_singleton]
      decide
    exact ⟨hone.trans hcap, hhand, fun _ => hone⟩

theorem Polled.bounded {n : Nat} (h : b.Polled b' es) (hb : b.Bounded n) :
    b'.Bounded (n + es.countP putsBack) := by
  obtain ⟨houtput, hhand, hdrained⟩ := hb
  cases h with
  | putBack rest h =>
    rw [h] at hhand hdrained
    have hmore : outputBufCap * (n + 1 + 1) = outputBufCap * (n + 1) + outputBufCap := rfl
    refine ⟨?_, by simp, by simp⟩
    rw [show [SerialEvent.putBack rest].countP putsBack = 1 from rfl, List.length_append, hmore]
    by_cases hrest : rest = []
    · simpa [hrest] using Nat.le_add_right_of_le houtput
    · exact Nat.add_le_add hhand (hdrained hrest)
  | drains h => exact ⟨by simp, by simpa using houtput, by simp⟩
  | wrote sent rest h =>
    rw [h] at hhand hdrained
    refine ⟨by simpa [putsBack] using houtput, ?_, fun hrest => hdrained (by simp_all)⟩
    have hle : rest.length ≤ (sent ++ rest).length := by simp
    exact hle.trans hhand
  | blocked pending h =>
    rw [h] at hhand hdrained
    exact ⟨houtput, hhand, hdrained⟩
  | broke pending h =>
    exact ⟨by simpa [drop, putsBack] using houtput, by simp [drop], by simp [drop]⟩
  | closed h => exact ⟨by simpa [drop] using houtput, by simp [drop], by simp [drop]⟩
  | waits h => exact ⟨houtput, hhand, hdrained⟩
  | idle h hout => exact ⟨by simp, by simp, by simp⟩
  | connects h | flushed _ h | full h | short h | reads _ h | nothing h | extended _ h =>
    exact ⟨by simpa [putsBack] using houtput, by simp, by simp⟩

/-! ## The input -/

theorem Polled.inbound {b b' : SerialTcpBridge} {es : List SerialEvent} (h : b.Polled b' es) :
    b.inbound ++ es.flatMap receives = b'.inbound := by
  cases h with
  | broke _ h | closed h => simp [SerialTcpBridge.inbound, drop, h, receives]
  | _ => simp_all [SerialTcpBridge.inbound, receives]

/-- A chunk is read only while the input queue is short. -/
structure InRoom (b : SerialTcpBridge) : Prop where
  room : b.inbound.length < inputBufCap + readBufLen
  reading : b.phase = .read → b.input.length < inputBufCap

theorem Polled.inRoom (h : b.Polled b' es) (hb : b.InRoom) : b'.InRoom := by
  have hinbound := h.inbound
  obtain ⟨hroom, hreading⟩ := hb
  cases h with
  | reads chunk h =>
    have hshort := hreading h
    have hfits := chunk.fits
    refine ⟨?_, by simp⟩
    simp only [SerialTcpBridge.inbound, Phase.arriving, List.length_append]
    omega
  | waits h => exact ⟨hroom, hreading⟩
  | short h hshort => exact ⟨by rw [← hinbound]; simpa using hroom, fun _ => hshort⟩
  | wrote | flushed | broke | putBack =>
    exact ⟨by rw [← hinbound]; simpa [receives] using hroom, by simp [drop]⟩
  | _ => exact ⟨by rw [← hinbound]; simpa using hroom, by simp [drop]⟩

theorem inRoom_tryRecvHostByte {byte : Byte} {rest : List Byte} (h : b.InRoom)
    (hin : b.input = byte :: rest) : { b with input := rest }.InRoom := by
  obtain ⟨hroom, hreading⟩ := h
  simp only [SerialTcpBridge.inbound, hin, List.length_append, List.length_cons] at hroom
  refine ⟨?_, fun hphase => ?_⟩
  · simp only [SerialTcpBridge.inbound, List.length_append]
    omega
  · have hshort := hreading hphase
    rw [hin, List.length_cons] at hshort
    exact Nat.lt_of_succ_lt hshort

end SerialTcpBridge

/-! ## The serial port -/

namespace SerialLine

/-- The client's bytes the guest has not read. -/
def inbound (s : SerialLine) : List Byte := s.chipset.queued ++ s.bridge.inbound

/-- What holds between two turns. `n` is how often bytes were put back so far. -/
structure Wf (n : Nat) (s : SerialLine) : Prop where
  overrun : s.chipset.serialInOverrun = false
  input : s.bridge.InRoom
  output : s.bridge.Bounded n

/-- What a stretch of turns says of the bytes. -/
structure LineStep (s : SerialLine) (es : List SerialEvent) (s' : SerialLine) : Prop where
  inward : s.inbound ++ es.flatMap receives = es.filterMap reads ++ s'.inbound
  /-- No read reports an overrun. -/
  whole : ∀ value, SerialEvent.read value ∈ es → value.getLsbD 15 = false
  printed : s.chipset.unsent ++ es.filterMap writes = es.filterMap prints ++ s'.chipset.unsent
  outward : s.bridge.Forwards (es.filterMap prints) es s'.bridge

theorem LineStep.append {s s' s'' : SerialLine} {es es' : List SerialEvent} (h : LineStep s es s')
    (h' : LineStep s' es' s'') : LineStep s (es ++ es') s'' := by
  refine ⟨?_, ?_, ?_, ?_⟩
  · rw [List.flatMap_append, List.filterMap_append]
    exact fifo_append h.inward h'.inward
  · intro value hmem
    rcases List.mem_append.mp hmem with hmem | hmem
    · exact h.whole value hmem
    · exact h'.whole value hmem
  · rw [List.filterMap_append, List.filterMap_append]
    exact fifo_append h.printed h'.printed
  · rw [List.filterMap_append]
    exact h.outward.append h'.outward

/-- A turn keeps what holds between turns, and says where the bytes went. -/
def Keeps (s : SerialLine) (es : List SerialEvent) (s' : SerialLine) : Prop :=
  ∀ n, Wf n s → Wf (n + es.countP putsBack) s' ∧ LineStep s es s'

variable (s : SerialLine)

theorem keeps_serdat (value : Word) : Keeps s (s.serdat value).2 (s.serdat value).1 := by
  rintro n ⟨hoverrun, hinput, houtput⟩
  have hunsent : (s.chipset.write Reg.serdat value).unsent =
      (s.chipset.serialBuf.push (value.setWidth 8)).2.toList := rfl
  simp only [serdat]
  by_cases hfull : s.chipset.serialBuf.isFull = true
  · rw [if_pos hfull]
    rw [RingBuffer.push_full _ ((RingBuffer.isFull_iff _).mp hfull)] at hunsent
    refine ⟨⟨hoverrun, hinput, houtput⟩, ?_, by simp, ?_, ?_⟩
    · exact List.append_nil _
    · rw [hunsent]
      exact List.append_nil _
    · exact ⟨by simp [sends, prints], by simp [sends, prints, losses, List.filterMap_cons]⟩
  · rw [if_neg hfull]
    have hroom : s.chipset.serialBuf.toList.length < serialBufCap :=
      Nat.lt_of_le_of_ne (RingBuffer.length_toList_le _) fun h =>
        hfull ((RingBuffer.isFull_iff _).mpr h)
    rw [RingBuffer.toList_push _ hroom] at hunsent
    refine ⟨⟨hoverrun, hinput, houtput⟩, ?_, by simp, hunsent.symm, ?_⟩
    · exact List.append_nil _
    · exact ⟨by simp [sends, prints], by simp [sends, prints, losses, List.filterMap_cons]⟩

theorem keeps_serdatr :
    Keeps s [.read (s.chipset.read Reg.serdatr).1]
      { s with chipset := (s.chipset.read Reg.serdatr).2 } := by
  rintro n ⟨hoverrun, hinput, houtput⟩
  have hsent : (s.chipset.read Reg.serdatr).2.unsent = s.chipset.unsent := by
    show (s.chipset.readSerdatr).2.unsent = _
    unfold readSerdatr
    split <;> rfl
  refine ⟨⟨overrun_read_serdatr _, hinput, houtput⟩, ?_, ?_, ?_, ?_⟩
  · cases hqueue : s.chipset.queued with
    | nil =>
      obtain ⟨hvalue, hrest⟩ := read_serdatr_nil hqueue
      simp [inbound, receives, reads, hqueue, hvalue, hrest]
    | cons byte rest =>
      obtain ⟨hrbf, hbyte, -, hrest⟩ := read_serdatr_cons hqueue
      simp [inbound, receives, reads, hqueue, hrbf, hbyte, hrest]
  · intro value hmem
    simp only [List.mem_singleton, SerialEvent.read.injEq] at hmem
    rw [hmem]
    cases hqueue : s.chipset.queued with
    | nil =>
      rw [(read_serdatr_nil hqueue).1]
      rfl
    | cons byte rest => exact (read_serdatr_cons hqueue).2.2.1.trans hoverrun
  · rw [hsent]
    exact List.append_nil _
  · exact ⟨by simp [sends, prints], by simp [sends, prints, losses, List.filterMap_cons]⟩

theorem keeps_drainSerial : Keeps s s.drainSerial.2 s.drainSerial.1 := by
  rintro n ⟨hoverrun, hinput, houtput⟩
  have hhead := RingBuffer.pop_fst s.chipset.serialBuf
  have htail := RingBuffer.toList_pop s.chipset.serialBuf
  unfold drainSerial takeSerialByte
  cases hbyte : (s.chipset.serialBuf.pop).1 with
  | none => exact ⟨⟨hoverrun, hinput, houtput⟩, by simp, by simp, by simp, by simp, by simp⟩
  | some byte =>
    have hqueue : s.chipset.unsent = byte :: (s.chipset.serialBuf.pop).2.toList := by
      rw [hbyte] at hhead
      rw [htail]
      exact (List.cons_head?_tail hhead.symm).symm
    obtain ⟨hinput', hphase⟩ := s.bridge.aside_pushGuestByte byte
    have hevents := s.bridge.events_pushGuestByte byte
    have hputs :
        (SerialEvent.printed byte :: (s.bridge.pushGuestByte byte).2).countP putsBack = 0 := by
      rcases hevents with h | ⟨oldest, h⟩ <;> simp [h, putsBack]
    have hroom : (s.bridge.pushGuestByte byte).1.InRoom := by
      refine ⟨?_, ?_⟩
      · simpa [SerialTcpBridge.inbound, hinput', hphase] using hinput.room
      · simpa [hinput', hphase] using hinput.reading
    have houtput' := SerialTcpBridge.bounded_pushGuestByte houtput byte
    refine ⟨⟨hoverrun, hroom, by simpa [hputs] using houtput'⟩, ?_, ?_, ?_, ?_⟩
    · rcases hevents with h | ⟨oldest, h⟩ <;>
        simp [h, inbound, SerialTcpBridge.inbound, receives, reads, hinput', hphase, queued,
          List.filterMap_cons]
    · rcases hevents with h | ⟨oldest, h⟩ <;> simp [h]
    · rw [hqueue]
      rcases hevents with h | ⟨oldest, h⟩ <;> 
        simp [h, writes, prints, unsent, List.filterMap_cons]
    · have hforwards := s.bridge.forwards_pushGuestByte byte
      refine ⟨?_, ?_⟩
      · rcases hevents with h | ⟨oldest, h⟩ <;>
          simpa [h, sends, prints, List.filterMap_cons] using hforwards.order
      · rcases hevents with h | ⟨oldest, h⟩ <;>
          simpa [h, sends, prints, losses, List.filterMap_cons] using hforwards.parts

theorem keeps_serviceHostSerial : Keeps s [] s.serviceHostSerial := by
  rintro n ⟨hoverrun, hinput, houtput⟩
  have hsame : Wf n s ∧ LineStep s [] s :=
    ⟨⟨hoverrun, hinput, houtput⟩, by simp, by simp, by simp, by simp, by simp⟩
  unfold serviceHostSerial
  split
  · rename_i hroom
    unfold SerialTcpBridge.tryRecvHostByte
    cases hin : s.bridge.input with
    | nil => exact hsame
    | cons byte rest =>
      obtain ⟨hqueue, -, hover⟩ :=
        pushSerialInByte_of_room ((SerialScript.hasRoom_iff _).mp hroom) byte
      refine ⟨⟨hover.trans hoverrun, SerialTcpBridge.inRoom_tryRecvHostByte hinput hin,
        ⟨houtput.output, houtput.hand, houtput.drained⟩⟩, ?_, by simp, ?_, ?_⟩
      · simp [inbound, SerialTcpBridge.inbound, hqueue, hin]
      · have hsent : (s.chipset.pushSerialInByte byte).unsent = s.chipset.unsent := by
          unfold pushSerialInByte
          split <;> rfl
        rw [hsent]
        exact List.append_nil _
      · exact SerialTcpBridge.Forwards.of_same rfl
  · exact hsame

theorem keeps_poll (net : Answers) :
    Keeps s (s.bridge.poll net).2 { s with bridge := (s.bridge.poll net).1 } := by
  rintro n ⟨hoverrun, hinput, houtput⟩
  have hpolled := s.bridge.polled_poll net
  obtain ⟨hwrites, hprints, hreads, hwhole⟩ := hpolled.quiet
  refine ⟨⟨hoverrun, hpolled.inRoom hinput, hpolled.bounded houtput⟩, ?_, hwhole, ?_, ?_⟩
  · rw [hreads]
    unfold inbound
    rw [List.append_assoc, hpolled.inbound]
    rfl
  · rw [hwrites, hprints]
    exact List.append_nil _
  · rw [hprints]
    exact hpolled.forwards

theorem keeps_step (op : Op) : Keeps s (s.events op) (s.step op) := by
  cases op with
  | serdat value => exact keeps_serdat s value
  | serdatr => exact keeps_serdatr s
  | elsewhere f =>
    rintro n ⟨hoverrun, hinput, houtput⟩
    have hqueued : (f.apply s.chipset).queued = s.chipset.queued :=
      congrArg RingBuffer.toList (f.serialInBuf _)
    have hunsent : (f.apply s.chipset).unsent = s.chipset.unsent :=
      congrArg RingBuffer.toList (f.serialBuf _)
    refine ⟨⟨(f.serialInOverrun _).trans hoverrun, hinput, houtput⟩, ?_, by simp [events, turn],
      ?_, ?_⟩
    · simp [events, turn, step, inbound, hqueued]
    · simp [events, turn, step, hunsent]
    · exact .of_same rfl
  | drainSerial => exact keeps_drainSerial s
  | serviceHostSerial => exact keeps_serviceHostSerial s
  | poll net => exact keeps_poll s net

/-! ## Where the events come from -/

/-- The events of a turn are what it found in the port, the queue and the sockets. -/
structure Attested (s : SerialLine) (op : Op) : Prop where
  written : ∀ byte, .written byte ∈ s.events op ↔
    ∃ value : Word, op = .serdat value ∧ s.chipset.serialBuf.isFull = false ∧
      byte = value.setWidth 8
  read : ∀ value, .read value ∈ s.events op ↔
    op = .serdatr ∧ value = (s.chipset.read Reg.serdatr).1
  printed : ∀ byte, .printed byte ∈ s.events op ↔
    op = .drainSerial ∧ s.chipset.unsent.head? = some byte
  /-- Only a full queue loses its oldest byte, and only to the next one. -/
  evicted : ∀ byte, .evicted byte ∈ s.events op ↔
    op = .drainSerial ∧ s.chipset.unsent ≠ [] ∧ outputBufCap ≤ s.bridge.output.length ∧
      s.bridge.output.head? = some byte
  sent : ∀ bytes, .sent bytes ∈ s.events op ↔
    ∃ net n pending, op = .poll net ∧ s.bridge.phase = .write pending ∧ net.write = .wrote n ∧
      bytes = pending.take n
  /-- Only a broken connection loses what is in hand. -/
  lost : ∀ bytes, .lost bytes ∈ s.events op ↔
    ∃ net, op = .poll net ∧ s.bridge.phase = .write bytes ∧ net.write = .failed
  putBack : ∀ bytes, .putBack bytes ∈ s.events op ↔
    ∃ net, op = .poll net ∧ s.bridge.phase = .requeue bytes
  received : ∀ bytes, .received bytes ∈ s.events op ↔
    ∃ net chunk, op = .poll net ∧ s.bridge.phase = .read ∧ net.read = .chunk chunk ∧
      bytes = chunk.bytes

theorem mem_written_iff (b : SerialTcpBridge) (pending bytes : List Byte) (answer : WriteAnswer) :
    (.sent bytes ∈ (b.written pending answer).2 ↔
        ∃ n, answer = .wrote n ∧ bytes = pending.take n) ∧
      (.lost bytes ∈ (b.written pending answer).2 ↔ pending = bytes ∧ answer = .failed) := by
  cases answer with
  | wrote n =>
    unfold SerialTcpBridge.written
    dsimp only
    split
    · simp
    · rename_i hall
      have htake : pending.take n = pending := List.take_of_length_le (Nat.le_of_not_lt hall)
      simp [htake]
  | wouldBlock => simp [SerialTcpBridge.written]
  | failed => simp [SerialTcpBridge.written, eq_comm]

theorem attested_poll (net : Answers) : Attested s (.poll net) := by
  have hevents : s.events (.poll net) = (s.bridge.poll net).2 := rfl
  cases hphase : s.bridge.phase with
  | write pending =>
    have hturn : (s.bridge.poll net).2 = (s.bridge.written pending net.write).2 := by
      simp only [SerialTcpBridge.poll, hphase]
    have hmem := fun bytes => mem_written_iff s.bridge pending bytes net.write
    have hothers : ∀ e ∈ (s.bridge.written pending net.write).2,
        (∃ bytes, e = .sent bytes) ∨ ∃ bytes, e = .lost bytes := by
      unfold SerialTcpBridge.written
      split <;> (try split) <;> simp
    constructor <;> intro x <;> rw [hevents, hturn]
    · exact ⟨fun h => by simpa using hothers _ h, by simp⟩
    · exact ⟨fun h => by simpa using hothers _ h, by simp⟩
    · exact ⟨fun h => by simpa using hothers _ h, by simp⟩
    · exact ⟨fun h => by simpa using hothers _ h, by simp⟩
    · rw [(hmem x).1]
      simp [hphase]
    · rw [(hmem x).2]
      simp [hphase]
    · exact ⟨fun h => by simpa using hothers _ h, by simp [hphase]⟩
    · exact ⟨fun h => by simpa using hothers _ h, by simp [hphase]⟩
  | read =>
    have hturn : (s.bridge.poll net).2 = (s.bridge.filled net.read).2 := by
      simp only [SerialTcpBridge.poll, hphase]
    cases hanswer : net.read with
    | chunk chunk =>
      constructor <;> intro x <;> rw [hevents, hturn, hanswer] <;>
        simp [SerialTcpBridge.filled, hphase, hanswer]
    | wouldBlock =>
      constructor <;> intro x <;> rw [hevents, hturn, hanswer] <;>
        simp [SerialTcpBridge.filled, hphase, hanswer]
    | gone =>
      constructor <;> intro x <;> rw [hevents, hturn, hanswer] <;>
        simp [SerialTcpBridge.filled, hphase, hanswer]
  | requeue rest =>
    have hturn : (s.bridge.poll net).2 = [.putBack rest] := by
      simp only [SerialTcpBridge.poll, hphase]
    constructor <;> intro x <;> rw [hevents, hturn] <;> simp [hphase, @eq_comm _ rest]
  | accept =>
    have hnone : (s.bridge.poll net).2 = [] := by
      simp only [SerialTcpBridge.poll, hphase]
      split <;> rfl
    constructor <;> intro x <;> rw [hevents, hnone] <;> simp [hphase]
  | drain | checkRoom | extend _ =>
    constructor <;> intro x <;> rw [hevents] <;> simp [SerialTcpBridge.poll, hphase]

theorem mem_pushGuestByte_iff (b : SerialTcpBridge) (byte oldest : Byte) :
    .evicted oldest ∈ (b.pushGuestByte byte).2 ↔
      outputBufCap ≤ b.output.length ∧ b.output.head? = some oldest := by
  unfold SerialTcpBridge.pushGuestByte
  split
  · rename_i first rest hout
    split
    · rename_i hfull
      rw [hout] at hfull
      simp only [List.mem_singleton, SerialEvent.evicted.injEq, hout, hfull, true_and,
        List.head?_cons, Option.some.injEq, @eq_comm _ first]
    · rename_i hroom
      simp [hroom]
  · rename_i hout
    simp [hout]

theorem attested_drainSerial : Attested s .drainSerial := by
  have hhead := RingBuffer.pop_fst s.chipset.serialBuf
  have hevents : s.events .drainSerial = s.drainSerial.2 := rfl
  cases hbyte : (s.chipset.serialBuf.pop).1 with
  | none =>
    have hnone : s.drainSerial.2 = [] := by
      simp only [drainSerial, takeSerialByte, hbyte]
    have hempty : s.chipset.unsent = [] := List.head?_eq_none_iff.mp (hhead.symm.trans hbyte)
    constructor <;> intro x <;> rw [hevents, hnone] <;> simp [hempty]
  | some byte =>
    have hsome : s.drainSerial.2 = .printed byte :: (s.bridge.pushGuestByte byte).2 := by
      simp only [drainSerial, takeSerialByte, hbyte]
    have hunsent : s.chipset.unsent.head? = some byte := hhead.symm.trans hbyte
    have hne : s.chipset.unsent ≠ [] := by
      intro hempty
      rw [hempty] at hunsent
      cases hunsent
    have hpush := s.bridge.events_pushGuestByte byte
    have hevicted := mem_pushGuestByte_iff s.bridge byte
    constructor <;> intro x <;> rw [hevents, hsome]
    case evicted =>
      rw [List.mem_cons, hevicted x]
      simp [hne]
    all_goals rcases hpush with h | ⟨oldest, h⟩ <;> simp [h, hunsent, @eq_comm _ byte]

/-- **Every turn of every state attests its events.** -/
theorem attested (op : Op) : Attested s op := by
  cases op with
  | serdat value =>
    have hevents : s.events (.serdat value) = (s.serdat value).2 := rfl
    cases hfull : s.chipset.serialBuf.isFull with
    | true => constructor <;> intro x <;> rw [hevents] <;> simp [serdat, hfull]
    | false => constructor <;> intro x <;> rw [hevents] <;> simp [serdat, hfull]
  | serdatr =>
    have hevents : s.events .serdatr = [.read (s.chipset.read Reg.serdatr).1] := rfl
    constructor <;> intro x <;> rw [hevents] <;> simp
  | elsewhere f =>
    have hevents : s.events (.elsewhere f) = [] := rfl
    constructor <;> intro x <;> rw [hevents] <;> simp
  | drainSerial => exact attested_drainSerial s
  | serviceHostSerial =>
    have hevents : s.events .serviceHostSerial = [] := rfl
    constructor <;> intro x <;> rw [hevents] <;> simp
  | poll net => exact attested_poll s net

/-! ## Runs -/

def history (s : SerialLine) (ops : List Op) : List SerialEvent := emitted step events s ops

theorem keeps_run (ops : List Op) : Keeps s (s.history ops) (run step s ops) := by
  refine emitted_induction (R := Keeps) ?_ keeps_step ?_ s ops
  · intro s n h
    exact ⟨h, by simp, by simp, by simp, .of_same rfl⟩
  · intro s s' s'' es es' hes hes' n h
    obtain ⟨hwf, hstep⟩ := hes n h
    obtain ⟨hwf', hstep'⟩ := hes' _ hwf
    rw [List.countP_append, ← Nat.add_assoc]
    exact ⟨hwf', hstep.append hstep'⟩

theorem wf_start : Wf 0 start where
  overrun := rfl
  input := ⟨by decide, nofun⟩
  output := ⟨by decide, by decide, by decide⟩

/-- **The bridge keeps the bytes**, in whatever order the guest, the frame loop and the bridge
thread take their turns and whatever the sockets answer. What was read from the clients is what the
guest read, then what waits for it, without an overrun; the input queue is bounded. What the guest
transmitted is what the console printed, then what is still there; what the clients took and what
waits for them is a part of it in order, and the rest was evicted or lost, each byte once. A byte is
evicted only as the oldest of a full queue, and lost only in hand when the write fails; what is sent
and received is what the sockets took and gave. The output queue is as long as its capacity, and
once more for every time bytes were put back. -/
theorem bridge_keeps_bytes (ops : List Op) :
    let s := run step start ops
    let es := start.history ops
    es.flatMap receives = es.filterMap reads ++ s.inbound ∧
      (∀ value, SerialEvent.read value ∈ es → value.getLsbD 15 = false) ∧
      s.bridge.input.length < inputBufCap + readBufLen ∧
      es.filterMap writes = es.filterMap prints ++ s.chipset.unsent ∧
      List.Sublist (es.flatMap sends ++ s.bridge.outbound) (es.filterMap prints) ∧
      (es.filterMap prints).Perm
        (es.flatMap sends ++ s.bridge.outbound ++ es.flatMap losses) ∧
      Each step Attested start ops ∧
      s.bridge.output.length ≤ outputBufCap * (es.countP putsBack + 1) := by
  intro s es
  obtain ⟨hwf, hstep⟩ := keeps_run start ops 0 wf_start
  have hinput : s.bridge.input.length ≤ s.bridge.inbound.length := by
    unfold SerialTcpBridge.inbound
    simp
  refine ⟨hstep.inward, hstep.whole, hinput.trans_lt hwf.input.room, hstep.printed,
    hstep.outward.order, hstep.outward.parts, fun before op _ _ => attested _ op, ?_⟩
  have houtput := hwf.output.output
  rwa [Nat.zero_add] at houtput

end SerialLine

end M68kMachine
