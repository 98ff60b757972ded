import M68kMachine.Properties.VirtioNetRx

/-!
# One tick of the virtio network device

A tick is the transmit pass and then the receive pass. Over a guest memory whose two queues are
in RAM and do not overlap, it moves every frame exactly once.

* `Laid`, `Counted` — what a tick relies on
* `Moved` — what a tick does
* `History`, `counted_of_history` — the ring indices count chains in every state a guest can reach
-/

namespace M68kMachine

namespace VirtioNetStub

open VirtioNet GuestMemory

variable {ν μ : Type} [GuestMemory μ] [LawfulGuestMemory μ] [NetBackend ν] {s : VirtioNetStub ν × μ}
  {c : Fin numQueues → Nat} {t : VirtioNetStub ν × μ} {v w : VirtioNetStub ν} {mem mem' : μ}
  {i : Fin numQueues} {granted : Bool}

/-- The enabled queues are mapped, and what the device writes shares no address with the rest. -/
structure Laid (s : VirtioNetStub ν × μ) (c : Fin numQueues → Nat) : Prop where
  mapped : ∀ i, (s.1.queues i).enabled = true → QueueMapped s.2 (s.1.queues i)
  rings : ∀ i j, (s.1.queues i).enabled = true → (s.1.queues j).enabled = true →
    (descRegion (s.1.queues i)).Disjoint (usedRegion (s.1.queues j)) ∧
      (availRegion (s.1.queues i)).Disjoint (usedRegion (s.1.queues j)) ∧
      (i ≠ j → (usedRegion (s.1.queues i)).Disjoint (usedRegion (s.1.queues j)))
  txBuffers : (s.1.queues queueTx).enabled = true →
    ∀ j < available s.2 (s.1.queues queueTx), ∀ head segs bytes,
      headAt s.2 (s.1.queues queueTx) (c queueTx + j) = some head →
      chain s.2 (s.1.queues queueTx) (s.1.queues queueTx).size.toNat head = some (segs, bytes) →
      ∀ r ∈ segs, r.Disjoint (usedRegion (s.1.queues queueTx))
  rxBuffers : (s.1.queues queueRx).enabled = true →
    ∀ j < available s.2 (s.1.queues queueRx), ∀ b,
      rxBuffer s.2 (s.1.queues queueRx) (c queueRx + j) = some b →
      (descRegion (s.1.queues queueRx)).Disjoint b ∧
        (availRegion (s.1.queues queueRx)).Disjoint b ∧
        ∀ i, (s.1.queues i).enabled = true → (usedRegion (s.1.queues i)).Disjoint b
  rxPairwise : (s.1.queues queueRx).enabled = true →
    ∀ i j, i < j → j < available s.2 (s.1.queues queueRx) → ∀ b b',
      rxBuffer s.2 (s.1.queues queueRx) (c queueRx + i) = some b →
      rxBuffer s.2 (s.1.queues queueRx) (c queueRx + j) = some b' → b.Disjoint b'

/-- Both indices of an enabled queue are the count of its chains, modulo 65536. -/
def Counted (v : VirtioNetStub ν) (c : Fin numQueues → Nat) : Prop :=
  ∀ i, (v.queues i).enabled = true → v.queues i = advanced (v.queues i) (c i)

/-- How many chains the transmit pass takes. -/
def txCount (s : VirtioNetStub ν × μ) : Nat :=
  if (s.1.queues queueTx).enabled then available s.2 (s.1.queues queueTx) else 0

/-- The used rings of the enabled queues, and the first `k` receive buffers. -/
def writes (s : VirtioNetStub ν × μ) (c : Fin numQueues → Nat) (k : Nat) : List Region :=
  (if (s.1.queues queueTx).enabled then [usedRegion (s.1.queues queueTx)] else []) ++
    if (s.1.queues queueRx).enabled then
      usedRegion (s.1.queues queueRx) :: rxBuffers s.2 (s.1.queues queueRx) (c queueRx) k
    else []

/-- Why the receive pass stopped after `k` frames, with the backend in state `b`. -/
inductive RxStop (s : VirtioNetStub ν × μ) (c k : Nat) (b : ν)
    (buf : Buffer Byte maxEthPayload) (u : VirtioNetStub ν) : Prop
  | full : k = available s.2 (s.1.queues queueRx) → u.backend = b → u.needsReset = false →
      RxStop s c k b buf u
  | dry {b' : ν} {buf' : Buffer Byte maxEthPayload} :
      NetBackend.pollReceive b buf = (none, buf', b') → u.backend = b' →
      u.needsReset = false → RxStop s c k b buf u
  | failed {n : Nat} {b' : ν} {buf' : Buffer Byte maxEthPayload} :
      k < available s.2 (s.1.queues queueRx) →
      NetBackend.pollReceive b buf = (some n, buf', b') → u.backend = b' →
      ¬Accepts s.2 (s.1.queues queueRx) (c + k) n → u.needsReset = true → RxStop s c k b buf u

/-- **What a tick does** when the backend yields the frames `frames`. -/
structure Moved (s : VirtioNetStub ν × μ) (c : Fin numQueues → Nat) (frames : List (List Byte))
    (u : VirtioNetStub ν × μ) : Prop where
  /-- Every available transmit chain is answered at its slot, and `used.idx` counts them. -/
  txAnswered : (s.1.queues queueTx).enabled = true →
    Answered s.2 u.2 (s.1.queues queueTx) (c queueTx) (txCount s) (txAnswer s (c queueTx))
  txQueue : (s.1.queues queueTx).enabled = true →
    u.1.queues queueTx = advanced (s.1.queues queueTx) (c queueTx + txCount s)
  /-- The backend sends the transmit frames in order, then yields `frames`, then stops. -/
  backend : (s.1.queues queueRx).enabled = true → ∃ b buf,
    Polled (txSent s (c queueTx) (txCount s)) s.1.rxFrameBuf frames b buf ∧
      RxStop s (c queueRx) frames.length b buf u.1
  backendOnly : (s.1.queues queueRx).enabled = false →
    frames = [] ∧ u.1.backend = txSent s (c queueTx) (txCount s) ∧ u.1.needsReset = false
  /-- Every frame is in its own buffer, behind the header. -/
  delivered : (s.1.queues queueRx).enabled = true → ∀ j f, frames[j]? = some f →
    Delivered s.2 u.2 (s.1.queues queueRx) (c queueRx + j) f
  rxAnswered : (s.1.queues queueRx).enabled = true →
    Answered s.2 u.2 (s.1.queues queueRx) (c queueRx) frames.length
      (rxAnswer s.2 (s.1.queues queueRx) (c queueRx) frames)
  rxQueue : (s.1.queues queueRx).enabled = true →
    u.1.queues queueRx = advanced (s.1.queues queueRx) (c queueRx + frames.length)
  /-- Nothing else in memory changes. -/
  frame : Frame (writes s c frames.length) s.2 u.2

/-! ## The transmit pass of a tick -/

/-- What the receive pass finds after the transmit pass. -/
structure AfterTx (s : VirtioNetStub ν × μ) (c : Fin numQueues → Nat)
    (t : VirtioNetStub ν × μ) : Prop where
  backend : t.1.backend = txSent s (c queueTx) (txCount s)
  rxFrameBuf : t.1.rxFrameBuf = s.1.rxFrameBuf
  deviceStatus : t.1.deviceStatus = s.1.deviceStatus
  rxQueue : t.1.queues queueRx = s.1.queues queueRx
  txQueue : (s.1.queues queueTx).enabled = true →
    t.1.queues queueTx = advanced (s.1.queues queueTx) (c queueTx + txCount s)
  answered : (s.1.queues queueTx).enabled = true →
    Answered s.2 t.2 (s.1.queues queueTx) (c queueTx) (txCount s) (txAnswer s (c queueTx))
  frame : Frame (if (s.1.queues queueTx).enabled then [usedRegion (s.1.queues queueTx)] else [])
    s.2 t.2

theorem exists_afterTx (hopen : s.1.needsReset = false) (hc : Counted s.1 c) (hl : Laid s c) :
    ∃ t, (∀ fuel, 0x10000 ≤ fuel → processTx fuel s = some t) ∧ AfterTx s c t := by
  by_cases hen : (s.1.queues queueTx).enabled = true
  · obtain ⟨hdesc, havail, -⟩ := hl.rings queueTx queueTx hen hen
    obtain ⟨t, hrun, hprog⟩ := processTx_spec hopen hen
      ⟨hl.mapped queueTx hen, hc queueTx hen, hdesc, havail, hl.txBuffers hen⟩
    have hcount : txCount s = available s.2 (s.1.queues queueTx) := if_pos hen
    refine ⟨t, hrun, ?_, hprog.device.rxFrameBuf, hprog.device.deviceStatus, ?_, ?_, ?_, ?_⟩
    · rw [hcount]
      exact hprog.backend
    · rw [hprog.device.queues]
      rfl
    · intro _
      rw [hprog.device.queues, setQueue_queues_self, hcount]
    · intro _
      rw [hcount]
      exact hprog.answered
    · rw [if_pos hen]
      exact hprog.frame
  · have hcount : txCount s = 0 := if_neg hen
    refine ⟨s, fun fuel _ => ?_, ?_, rfl, rfl, rfl, fun h => absurd h hen,
      fun h => absurd h hen, .refl _ _⟩
    -- A queue that is not enabled is skipped.
    · have hoff : (s.1.queues queueTx).enabled = false := Bool.eq_false_of_not_eq_true hen
      unfold processTx
      rw [hopen, hoff]
      rfl
    · rw [hcount]
      rfl

/-! ## The receive pass of a tick -/

/-- The receive queue reads the same after the transmit pass. -/
structure SameRxQueue (mem₀ mem : μ) (q : VirtQueueState) : Prop where
  head : ∀ x, headAt mem q x = headAt mem₀ q x
  desc : ∀ idx, readDesc mem q.descAddr q.size idx = readDesc mem₀ q.descAddr q.size idx
  count : available mem q = available mem₀ q
  mapped : ∀ r, (bytesAt mem r).isSome = (bytesAt mem₀ r).isSome
  usedIdx : bytesAt mem (usedIdxCell q) = bytesAt mem₀ (usedIdxCell q)

namespace SameRxQueue

variable {mem₀ mem mem' : μ} {q : VirtQueueState}

omit [LawfulGuestMemory μ] in
theorem of_frame {rs : List Region} (hq : QueueMapped mem₀ q) (hf : Frame rs mem₀ mem)
    (hdis : ∀ t ∈ rs, (descRegion q).Disjoint t ∧ (availRegion q).Disjoint t ∧
      (usedRegion q).Disjoint t) : SameRxQueue mem₀ mem q where
  head := headAt_frame hq hf fun t ht => (hdis t ht).2.1
  desc := readDesc_frame hq hf fun t ht => (hdis t ht).1
  count := by
    unfold available
    rw [availIdxOf_frame hq hf fun t ht => (hdis t ht).2.1]
  mapped := hf.mapped
  usedIdx := by
    refine hf.bytes _ (hq.used_fits.inside (QueueMapped.usedIdx_inside q) (Nat.succ_pos _)) ?_
    intro t ht
    exact (hdis t ht).2.2.mono (QueueMapped.usedIdx_inside q) ⟨Nat.le_refl _, Nat.le_refl _⟩

omit [LawfulGuestMemory μ] in
theorem rxBuffer_eq (h : SameRxQueue mem₀ mem q) (x : Nat) :
    rxBuffer mem q x = rxBuffer mem₀ q x := by
  unfold rxBuffer
  rw [h.head]
  simp only [h.desc]

omit [LawfulGuestMemory μ] in
theorem rxBuffers_eq (h : SameRxQueue mem₀ mem q) (c k : Nat) :
    rxBuffers mem q c k = rxBuffers mem₀ q c k := by
  unfold rxBuffers
  simp only [h.rxBuffer_eq]

omit [LawfulGuestMemory μ] in
theorem rxAnswer_eq (h : SameRxQueue mem₀ mem q) (c : Nat) (fs : List (List Byte)) :
    rxAnswer mem q c fs = rxAnswer mem₀ q c fs := by
  funext j
  unfold rxAnswer
  rw [h.head]

omit [LawfulGuestMemory μ] in
theorem takes_iff (h : SameRxQueue mem₀ mem q) (d : Desc) (n : Nat) :
    Takes mem d n ↔ Takes mem₀ d n :=
  ⟨fun ⟨hf, ha, hr⟩ => ⟨hf, ha, by rwa [← h.mapped]⟩,
    fun ⟨hf, ha, hr⟩ => ⟨hf, ha, by rwa [h.mapped]⟩⟩

omit [LawfulGuestMemory μ] in
theorem accepts_iff (h : SameRxQueue mem₀ mem q) (c n : Nat) :
    Accepts mem q c n ↔ Accepts mem₀ q c n := by
  unfold Accepts
  simp only [h.head, h.desc, h.takes_iff]

omit [LawfulGuestMemory μ] in
theorem delivered_iff (h : SameRxQueue mem₀ mem q) (c : Nat) (f : List Byte) :
    Delivered mem mem' q c f ↔ Delivered mem₀ mem' q c f := by
  unfold Delivered
  simp only [h.head, h.desc, h.takes_iff]

omit [LawfulGuestMemory μ] in
theorem answered (h : SameRxQueue mem₀ mem q) {c k : Nat} {answer : Nat → Long × Long}
    (ha : Answered mem mem' q c k answer) : Answered mem₀ mem' q c k answer :=
  ⟨ha.elem, by rw [ha.idx, h.usedIdx]⟩

end SameRxQueue

omit [LawfulGuestMemory μ] in
/-- The receive queue after the transmit pass of a laid out tick. -/
theorem AfterTx.sameRxQueue (h : AfterTx s c t) (hl : Laid s c)
    (hen : (s.1.queues queueRx).enabled = true) : SameRxQueue s.2 t.2 (s.1.queues queueRx) := by
  refine .of_frame (hl.mapped queueRx hen) h.frame ?_
  intro r hr
  split at hr
  · rename_i htx
    rw [List.mem_singleton.mp hr]
    obtain ⟨hdesc, havail, hused⟩ := hl.rings queueRx queueTx hen htx
    exact ⟨hdesc, havail, hused (by decide)⟩
  · cases hr

omit [LawfulGuestMemory μ] in
theorem AfterTx.rxLaid (h : AfterTx s c t) (hc : Counted s.1 c) (hl : Laid s c)
    (hen : (s.1.queues queueRx).enabled = true) : RxLaid t (c queueRx) := by
  have hsame := h.sameRxQueue hl hen
  obtain ⟨hdesc, havail, -⟩ := hl.rings queueRx queueRx hen hen
  have hbuffers := hl.rxBuffers hen
  have hpairwise := hl.rxPairwise hen
  constructor
  · rw [h.rxQueue]
    exact (hl.mapped queueRx hen).frame h.frame
  · rw [h.rxQueue]
    exact hc queueRx hen
  · rw [h.rxQueue]
    exact hdesc
  · rw [h.rxQueue]
    exact havail
  · rw [h.rxQueue, hsame.count]
    intro j hj b hb
    -- The buffers are where they were, so the layout of the tick is that of the pass.
    rw [hsame.rxBuffer_eq] at hb
    obtain ⟨hd, ha, hu⟩ := hbuffers j hj b hb
    exact ⟨hd, ha, hu queueRx hen⟩
  · rw [h.rxQueue, hsame.count]
    intro i j hij hj b b' hb hb'
    rw [hsame.rxBuffer_eq] at hb hb'
    exact hpairwise i j hij hj b b' hb hb'

omit [LawfulGuestMemory μ] in
/-- Why the pass ended, in terms of the memory the tick started with. -/
theorem RxEnd.stop {s t w u : VirtioNetStub ν × μ} {c : Nat} {fs : List (List Byte)}
    (h : RxEnd t c fs w u) (hsame : SameRxQueue s.2 t.2 (s.1.queues queueRx))
    (hq : t.1.queues queueRx = s.1.queues queueRx) (hw : w.1.needsReset = false) :
    RxStop s c fs.length w.1.backend w.1.rxFrameBuf u.1 ∧ u.2 = w.2 ∧
      u.1.queues = w.1.queues := by
  cases h with
  | full hlen hu =>
    subst hu
    rw [hq, hsame.count] at hlen
    exact ⟨.full hlen rfl hw, rfl, rfl⟩
  | dry hpoll hu =>
    subst hu
    exact ⟨.dry hpoll rfl hw, rfl, rfl⟩
  | failed hlen hpoll hno hclosed hb huq hmem =>
    rw [hq, hsame.count] at hlen
    rw [hq, hsame.accepts_iff] at hno
    exact ⟨.failed hlen hpoll hb hno hclosed, hmem, huq⟩

omit [LawfulGuestMemory μ] in
/-- A tick with both passes, from what each of them does. -/
theorem moved_of_passes {w u : VirtioNetStub ν × μ} {fs : List (List Byte)}
    (hopen : s.1.needsReset = false) (hl : Laid s c) (hen : (s.1.queues queueRx).enabled = true)
    (h : AfterTx s c t) (hprog : RxProgress t (c queueRx) fs w)
    (hend : RxEnd t (c queueRx) fs w u) : Moved s c fs u := by
  have hsame := h.sameRxQueue hl hen
  obtain ⟨hcount, hpolled, hqueues, hstatus, hanswered, hdelivered, hframe⟩ := hprog
  have hopenw : w.1.needsReset = false := by
    unfold needsReset at hopen ⊢
    rw [hstatus, h.deviceStatus]
    exact hopen
  obtain ⟨hstop, hmem, huq⟩ := hend.stop hsame h.rxQueue hopenw
  rw [h.rxQueue] at hcount hanswered hdelivered hframe
  rw [hsame.count] at hcount
  rw [hsame.rxAnswer_eq] at hanswered
  rw [hsame.rxBuffers_eq] at hframe
  constructor
  · intro htx
    rw [hmem]
    -- The receive pass writes nothing of the transmit queue's used ring.
    refine (h.answered htx).frame ((hl.mapped queueTx htx).frame h.frame) hframe ?_
    intro r hr
    rcases List.mem_cons.mp hr with rfl | hb
    · exact (hl.rings queueTx queueRx htx hen).2.2 (by decide)
    · obtain ⟨j, hj, hjb⟩ := exists_of_mem_rxBuffers hb
      exact (hl.rxBuffers hen j (by omega) r hjb).2.2 queueTx htx
  · intro htx
    rw [huq, hqueues, ← h.txQueue htx]
    rfl
  · intro _
    refine ⟨w.1.backend, w.1.rxFrameBuf, ?_, hstop⟩
    rwa [h.backend, h.rxFrameBuf] at hpolled
  · intro hoff
    rw [hen] at hoff
    cases hoff
  · intro _ j f hj
    rw [hmem, ← hsame.delivered_iff]
    exact hdelivered j f hj
  · intro _
    rw [hmem]
    exact hsame.answered hanswered
  · intro _
    rw [huq, hqueues, setQueue_queues_self, h.rxQueue]
  · rw [hmem]
    unfold writes
    rw [if_pos hen]
    refine (h.frame.widen ?_).trans (hframe.widen ?_)
    · exact fun r hr => ⟨r, List.mem_append_left _ hr, Nat.le_refl _, Nat.le_refl _⟩
    · exact fun r hr => ⟨r, List.mem_append_right _ hr, Nat.le_refl _, Nat.le_refl _⟩

omit [LawfulGuestMemory μ] in
/-- A tick without a receive queue is its transmit pass. -/
theorem moved_of_txPass (hopen : s.1.needsReset = false)
    (hoff : (s.1.queues queueRx).enabled = false) (h : AfterTx s c t) : Moved s c [] t := by
  have hopent : t.1.needsReset = false := by
    unfold needsReset at hopen ⊢
    rw [h.deviceStatus]
    exact hopen
  have hno : ¬(s.1.queues queueRx).enabled = true := Bool.not_eq_true _ ▸ hoff
  refine ⟨h.answered, h.txQueue, fun hen => absurd hen hno, fun _ => ⟨rfl, h.backend, hopent⟩,
    fun hen => absurd hen hno, fun hen => absurd hen hno, fun hen => absurd hen hno, ?_⟩
  unfold writes
  rw [hoff]
  refine h.frame.widen fun r hr => ?_
  exact ⟨r, List.mem_append_left _ hr, Nat.le_refl _, Nat.le_refl _⟩

/-- **A tick** of an open device over a laid out memory returns and moves each frame once. -/
theorem exists_moved (hopen : s.1.needsReset = false) (hc : Counted s.1 c) (hl : Laid s c) :
    ∃ u frames, (∀ fuel, 0x10000 ≤ fuel → tick fuel s = some u) ∧ Moved s c frames u := by
  obtain ⟨t, htx, h⟩ := exists_afterTx hopen hc hl
  have hopent : t.1.needsReset = false := by
    unfold needsReset at hopen ⊢
    rw [h.deviceStatus]
    exact hopen
  by_cases hen : (s.1.queues queueRx).enabled = true
  · obtain ⟨u, hrx, fs, w, hprog, hend⟩ := processRx_spec hopent (h.rxQueue ▸ hen)
      (h.rxLaid hc hl hen)
    -- `processRx` sees the queue as the tick found it: the transmit pass does not touch it.
    refine ⟨u, fs, fun fuel hf => ?_, moved_of_passes hopen hl hen h hprog hend⟩
    rw [tick, htx fuel hf, Option.bind_some, hrx fuel hf]
  · have hoff : (s.1.queues queueRx).enabled = false := Bool.eq_false_of_not_eq_true hen
    refine ⟨t, [], fun fuel hf => ?_, moved_of_txPass hopen hoff h⟩
    rw [tick, htx fuel hf, Option.bind_some]
    unfold processRx
    rw [hopent, h.rxQueue, hoff]
    rfl

/-! ## The indices count the chains -/

/-- One pass of an engine: `n` rounds that consumed a chain, and the one that returned. -/
def Pass (idle : Bool)
    (body : VirtioNetStub ν × μ → Loop.Outcome (VirtioNetStub ν × μ))
    (s : VirtioNetStub ν × μ) (n : Nat) (t : VirtioNetStub ν × μ) : Prop :=
  if idle then n = 0 ∧ t = s else ∃ w, Loop.Iterates body n s w ∧ body w = .done t

/-- The runs from reset, with the chains consumed from each queue since it was enabled. -/
inductive History : VirtioNetStub ν × μ → (Fin numQueues → Nat) → Prop
  | start (b : ν) (mem : μ) : History (new b, mem) fun _ => 0
  | barRead {s : VirtioNetStub ν × μ} {c : Fin numQueues → Nat} (bar : Nat) (offset : Quad)
      (width : AccessWidth) : History s c → History ((s.1.barRead bar offset width).2, s.2) c
  | barWrite {s : VirtioNetStub ν × μ} {c : Fin numQueues → Nat} (bar : Nat) (offset : Quad)
      (width : AccessWidth) (value : Long) : History s c →
      History (s.1.barWrite bar offset width value, s.2) fun i =>
        if statusWrite (.barWrite bar offset width value : Op μ) = some 0 ∨
            (s.1.queues i).enabled = false then 0
        else c i
  | guest {s : VirtioNetStub ν × μ} {c : Fin numQueues → Nat} (mem : μ) : History s c →
      History (s.1, mem) c
  | tick {s t u : VirtioNetStub ν × μ} {c : Fin numQueues → Nat} {n k : Nat} : History s c →
      Pass (s.1.needsReset || !(s.1.queues queueTx).enabled) txBody s n t →
      Pass (t.1.needsReset || !(t.1.queues queueRx).enabled) rxBody t k u →
      History u fun i => if i = queueTx then c i + n else c i + k

omit [NetBackend ν] in
/-- A byte outside `device_status` leaves an enabled queue, and another one's indices or both at
zero. -/
theorem ByteEffect.queue {v' : VirtioNetStub ν} {byte : Byte} (h : ByteEffect v byte v')
    (i : Fin numQueues) :
    v'.queues i = v.queues i ∨ (v.queues i).enabled = false ∧
      ((v'.queues i).lastAvailIdx = (v.queues i).lastAvailIdx ∧
        (v'.queues i).usedIdx = (v.queues i).usedIdx ∨
      (v'.queues i).lastAvailIdx = 0 ∧ (v'.queues i).usedIdx = 0) := by
  -- Every register but `queue_enable` goes through `configureQueue`, which an enabled queue
  -- ignores.
  have hconf (f : VirtQueueState → VirtQueueState) :
      (v.configureQueue f).queues i = v.queues i ∨ (v.queues i).enabled = false ∧
        (v.configureQueue f).queues i = f (v.queues i) := by
    unfold configureQueue
    split
    · rename_i j _
      split
      · exact .inl rfl
      · rename_i hoff
        by_cases hij : i = j
        · subst hij
          exact .inr ⟨Bool.eq_false_of_not_eq_true hoff, setQueue_queues_self _ _ _⟩
        · exact .inl (if_neg hij)
    · exact .inl rfl
  cases h with
  | discarded => exact .inl rfl
  | select => exact .inl rfl
  | feature lane =>
    refine .inl ?_
    unfold mergeDriverFeatureByte
    split
    · rfl
    · split <;> rfl
  | configure f hf =>
    rcases hconf f with hsame | ⟨hoff, hset⟩
    · exact .inl hsame
    · rw [hset]
      exact .inr ⟨hoff, .inl (hf _).2⟩
  | enable =>
    unfold enableQueue
    split
    · rcases hconf fun q => { q with enabled := true, lastAvailIdx := 0, usedIdx := 0 } with
        hsame | ⟨hoff, hset⟩
      · exact .inl hsame
      · rw [hset]
        exact .inr ⟨hoff, .inr ⟨rfl, rfl⟩⟩
    · exact .inl rfl

/-- Both indices are the low 16 bits of the count, which is zero until the queue is enabled. -/
structure QueueCount (q : VirtQueueState) (c : Nat) : Prop where
  lastAvail : q.lastAvailIdx = BitVec.ofNat 16 c
  used : q.usedIdx = BitVec.ofNat 16 c
  disabled : q.enabled = false → c = 0

theorem QueueCount.advanced {q : VirtQueueState} {c : Nat} (h : QueueCount q c) :
    q = advanced q c := by
  obtain ⟨hlast, hused, -⟩ := h
  cases q
  simp only at hlast hused
  subst hlast hused
  rfl

omit [LawfulGuestMemory μ] [NetBackend ν] in
theorem completeUsed_queues {id : Word} {len : Long}
    (h : v.completeUsed mem i id len = (granted, w, mem')) :
    w.queues = if granted then
      (v.setQueue i ((v.queues i).setUsedIdx ((v.queues i).usedIdx + 1))).queues
    else v.queues := by
  unfold completeUsed at h
  simp only at h
  split at h
  · cases h; rfl
  · split at h
    · cases h; rfl
    · split at h
      · cases h; rfl
      · split at h
        · cases h; rfl
        · cases h; rfl

omit [LawfulGuestMemory μ] in
theorem txConsume_queues {descAddr : Quad} {size head : Word}
    (h : v.txConsume mem descAddr size head = (granted, w, mem')) :
    w.queues = if granted then
      (v.setQueue queueTx ((v.queues queueTx).setUsedIdx ((v.queues queueTx).usedIdx + 1))).queues
    else v.queues := by
  unfold txConsume copyChainOut at h
  simp only at h
  split at h
  · rename_i heq
    obtain ⟨rfl, -⟩ := Prod.mk.inj heq
    split at h
    · have hqueues := completeUsed_queues h
      exact hqueues
    · have hqueues := completeUsed_queues h
      exact hqueues
  · rename_i heq
    obtain ⟨rfl, -⟩ := Prod.mk.inj heq
    have hqueues := completeUsed_queues h
    exact hqueues

omit [NetBackend ν] in
theorem advanced_queues {q : VirtQueueState} {c : Nat}
    (hv : v.queues = (w.setQueue i (advanced q c)).queues) {u : VirtioNetStub ν}
    (hu : u.queues = (v.setQueue i ((v.queues i).setUsedIdx ((v.queues i).usedIdx + 1))).queues) :
    (u.advanceAvail i (v.queues i).lastAvailIdx).queues =
      (w.setQueue i (advanced q (c + 1))).queues := by
  have hvi : v.queues i = advanced q c := by rw [hv, setQueue_queues_self]
  unfold advanceAvail
  funext j
  by_cases hj : j = i
  · subst hj
    -- Both indices move by one, and `ofNat` of the successor is the wrapped increment.
    rw [setQueue_queues_self, setQueue_queues_self, hu, setQueue_queues_self, hvi]
    change VirtQueueState.setLastAvailIdx _ (BitVec.ofNat 16 c + 1) = _
    change VirtQueueState.setLastAvailIdx
      (VirtQueueState.setUsedIdx _ (BitVec.ofNat 16 c + 1)) _ = _
    rw [ofNat_succ]
    rfl
  · have huj : u.queues j = v.queues j := by
      rw [hu]
      exact if_neg hj
    have hvj : v.queues j = w.queues j := by
      rw [hv]
      exact if_neg hj
    unfold setQueue
    simp only [if_neg hj]
    exact huj.trans hvj

omit [LawfulGuestMemory μ] [NetBackend ν] in
theorem rxDeliver_queues {head : Word} {d : Desc} {n : Nat}
    (h : v.rxDeliver mem head d n = (granted, w, mem')) :
    w.queues = if granted then
      (v.setQueue queueRx ((v.queues queueRx).setUsedIdx ((v.queues queueRx).usedIdx + 1))).queues
    else v.queues := by
  unfold rxDeliver at h
  simp only at h
  split at h
  · split at h
    · cases h; rfl
    · have hqueues := completeUsed_queues h
      exact hqueues
  · cases h; rfl

/-- A round that goes round again counts one more chain of queue `i`; the last counts none. -/
def RoundCounts (i : Fin numQueues) (s : VirtioNetStub ν × μ) :
    Loop.Outcome (VirtioNetStub ν × μ) → Prop
  | .again t => ∃ u : VirtioNetStub ν,
      u.queues = (s.1.setQueue i
        ((s.1.queues i).setUsedIdx ((s.1.queues i).usedIdx + 1))).queues ∧
      t.1 = u.advanceAvail i (s.1.queues i).lastAvailIdx
  | .done t => t.1.queues = s.1.queues

omit [LawfulGuestMemory μ] in
theorem txBody_counts (s : VirtioNetStub ν × μ) : RoundCounts queueTx s (txBody s) := by
  obtain ⟨v, mem⟩ := s
  unfold txBody
  simp only
  split
  · exact rfl
  · split
    · exact rfl
    · split
      · exact rfl
      · split
        · rename_i heq
          exact ⟨_, txConsume_queues heq, rfl⟩
        · rename_i heq
          exact txConsume_queues heq

omit [LawfulGuestMemory μ] in
theorem rxBody_counts (s : VirtioNetStub ν × μ) : RoundCounts queueRx s (rxBody s) := by
  obtain ⟨v, mem⟩ := s
  unfold rxBody
  simp only
  split
  · exact rfl
  · split
    · exact rfl
    · split
      · exact rfl
      · split
        · exact rfl
        · split
          · exact rfl
          · split
            · rename_i w _ heq
              exact ⟨w.countRx, rxDeliver_queues heq, rfl⟩
            · rename_i heq
              exact rxDeliver_queues heq

omit [GuestMemory μ] [LawfulGuestMemory μ] [NetBackend ν] in
/-- A pass of `n` rounds counts `n` chains. -/
theorem Pass.counts {idle : Bool} {body : VirtioNetStub ν × μ → Loop.Outcome (VirtioNetStub ν × μ)}
    (hbody : ∀ s, RoundCounts i s (body s)) {n c : Nat} (h : Pass idle body s n t)
    (hc : s.1.queues i = advanced (s.1.queues i) c) :
    t.1.queues = (s.1.setQueue i (advanced (s.1.queues i) (c + n))).queues := by
  unfold Pass at h
  split at h
  · obtain ⟨rfl, rfl⟩ := h
    rw [Nat.add_zero, ← hc, setQueue_self]
  · obtain ⟨w, hit, hdone⟩ := h
    have hw : w.1.queues = (s.1.setQueue i (advanced (s.1.queues i) (c + n))).queues := by
      refine hit.invariant
        -- The induction is on the rounds: round `k` starts with both indices at `c + k`.
        (P := fun k t => t.1.queues = (s.1.setQueue i (advanced (s.1.queues i) k)).queues)
        ?_ c (by rw [← hc, setQueue_self])
      intro k x y hx hxy
      have hround := hbody x
      rw [hxy] at hround
      obtain ⟨u, hu, hy⟩ := hround
      rw [hy]
      exact advanced_queues hx hu
    have hround := hbody w
    rw [hdone] at hround
    exact hround.trans hw

/-- A queue that is enabled and not reset is as it was; any other has both indices at zero. -/
def KeptOrCleared (op : Op μ) (v w : VirtioNetStub ν) : Prop :=
  ∀ i, if statusWrite op = some 0 ∨ (v.queues i).enabled = false then
      (w.queues i).lastAvailIdx = 0 ∧ (w.queues i).usedIdx = 0
    else w.queues i = v.queues i

omit [GuestMemory μ] [LawfulGuestMemory μ] [NetBackend ν] in
theorem KeptOrCleared.byte {op : Op μ} {w' : VirtioNetStub ν} {byte : Byte}
    (h : KeptOrCleared op v w) (heff : ByteEffect w byte w') : KeptOrCleared op v w' := by
  intro i
  have hi := h i
  split at hi
  · rename_i hzero
    rw [if_pos hzero]
    rcases heff.queue i with hsame | ⟨-, ⟨hl, hu⟩ | hz⟩
    · rwa [hsame]
    · rwa [hl, hu]
    · exact hz
  · rename_i hkeep
    rw [if_neg hkeep]
    rcases heff.queue i with hsame | ⟨hoff, -⟩
    · rwa [hsame]
    · rw [hi] at hoff
      exact absurd (.inr hoff) hkeep

omit [GuestMemory μ] [LawfulGuestMemory μ] [NetBackend ν] in
theorem KeptOrCleared.of_queues {op : Op μ} (hc : ∀ i, QueueCount (v.queues i) (c i))
    (hop : statusWrite op ≠ some 0) (hw : w.queues = v.queues) : KeptOrCleared op v w := by
  intro i
  rw [hw]
  split
  · rename_i hor
    obtain ⟨hl, hu, hz⟩ := hc i
    rw [hz (hor.resolve_left hop)] at hl hu
    exact ⟨hl, hu⟩
  · rfl

omit [GuestMemory μ] [LawfulGuestMemory μ] [NetBackend ν] in
theorem queueCount_barWrite (hc : ∀ i, QueueCount (v.queues i) (c i)) (bar : Nat) (offset : Quad)
    (width : AccessWidth) (value : Long) (i : Fin numQueues) :
    QueueCount ((v.barWrite bar offset width value).queues i)
      (if statusWrite (.barWrite bar offset width value : Op μ) = some 0 ∨
          (v.queues i).enabled = false then 0
        else c i) := by
  have hkept : KeptOrCleared (.barWrite bar offset width value : Op μ) v
      (v.barWrite bar offset width value) := by
    -- A write is its bytes one after the other, and only the one to `device_status` can reset.
    refine barWrite_invariant (μ := μ) (I := KeptOrCleared _ v)
      (fun w byte w' hw heff => hw.byte heff) ?_ ?_
    · intro b hb
      by_cases hzero : b = 0
      · subst hzero
        intro j
        rw [if_pos (.inl hb)]
        exact ⟨rfl, rfl⟩
      · refine .of_queues hc (fun h => hzero (Option.some.inj (hb.symm.trans h))) ?_
        unfold writeDeviceStatus
        rw [if_neg hzero]
    · intro hnone
      exact .of_queues hc (by rw [hnone]; decide) rfl
  have hi := hkept i
  split at hi
  · rename_i hzero
    rw [if_pos hzero]
    exact ⟨hi.1, hi.2, fun _ => rfl⟩
  · rename_i hkeep
    rw [if_neg hkeep, hi]
    exact hc i

omit [LawfulGuestMemory μ] in
/-- **The indices of every queue count its chains**, in every state a guest can reach. -/
theorem queueCount_of_history (h : History s c) : ∀ i, QueueCount (s.1.queues i) (c i) := by
  induction h with
  | start b mem => exact fun i => ⟨rfl, rfl, fun _ => rfl⟩
  | barRead bar offset width _ ih =>
    rename_i s c _
    have hqueues : (s.1.barRead bar offset width).2.queues = s.1.queues := by
      unfold barRead bar0Read
      exact iteInduction (motive := fun r : Long × VirtioNetStub ν => r.2.queues = s.1.queues)
        (fun _ => by simp only; split_ifs <;> rfl) fun _ => rfl
    intro i
    change QueueCount ((s.1.barRead bar offset width).2.queues i) (c i)
    rw [hqueues]
    exact ih i
  | barWrite bar offset width value _ ih => exact queueCount_barWrite ih bar offset width value
  | guest mem _ ih => exact ih
  | tick _ htx hrx ih =>
    rename_i s t u c n k _
    -- A pass of a queue that is not enabled has no rounds.
    have hidle : ∀ {i : Fin numQueues} {s t : VirtioNetStub ν × μ} {n : Nat}
        {body : VirtioNetStub ν × μ → Loop.Outcome (VirtioNetStub ν × μ)},
        Pass (s.1.needsReset || !(s.1.queues i).enabled) body s n t →
        (s.1.queues i).enabled = false → n = 0 := by
      intro i s t n body hpass hoff
      unfold Pass at hpass
      rw [hoff, if_pos (by simp)] at hpass
      exact hpass.1
    have ht := htx.counts txBody_counts (ih queueTx).advanced
    have htrx : t.1.queues queueRx = s.1.queues queueRx := by
      rw [ht]
      rfl
    have hu := hrx.counts rxBody_counts (c := c queueRx) (by
      rw [htrx]
      exact (ih queueRx).advanced)
    intro i
    -- The transmit queue moves in the first pass only, the receive queue in the second.
    by_cases hi : i = queueTx
    · subst hi
      change QueueCount _ (c queueTx + n)
      have hutx : u.1.queues queueTx =
          VirtioNetStub.advanced (s.1.queues queueTx) (c queueTx + n) := by
        rw [hu]
        change t.1.queues queueTx = _
        rw [ht, setQueue_queues_self]
      rw [hutx]
      refine ⟨rfl, rfl, fun hoff => ?_⟩
      rw [(ih queueTx).disabled hoff, hidle htx hoff]
    · obtain rfl : i = queueRx := by
        have hlt : i.val < 2 := i.isLt
        have hne : i.val ≠ 1 := fun h => hi (Fin.ext h)
        have hzero : i.val = 0 := by omega
        exact Fin.ext hzero
      change QueueCount _ (c queueRx + k)
      rw [hu, setQueue_queues_self, htrx]
      refine ⟨rfl, rfl, fun hoff => ?_⟩
      rw [(ih queueRx).disabled hoff, hidle hrx (htrx ▸ hoff)]

omit [LawfulGuestMemory μ] in
theorem counted_of_history (h : History s c) :
    Counted s.1 c := fun i _ => (queueCount_of_history h i).advanced

omit [GuestMemory μ] [LawfulGuestMemory μ] [NetBackend ν] in
theorem exists_pass {fuel : Nat} {body : VirtioNetStub ν × μ → Loop.Outcome (VirtioNetStub ν × μ)}
    (h : (if s.1.needsReset || !(s.1.queues i).enabled then some s else Loop.run body fuel s) =
      some t) : ∃ n, Pass (s.1.needsReset || !(s.1.queues i).enabled) body s n t := by
  split at h
  · rename_i hidle
    refine ⟨0, ?_⟩
    unfold Pass
    rw [if_pos hidle]
    exact ⟨rfl, (Option.some.inj h).symm⟩
  · rename_i hrun
    obtain ⟨n, w, -, hit, hdone⟩ := Loop.run_eq_some_iff.mp h
    refine ⟨n, ?_⟩
    unfold Pass
    rw [if_neg hrun]
    exact ⟨w, hit, hdone⟩

omit [LawfulGuestMemory μ] in
/-- Every run from reset has a history. -/
theorem exists_history {b : ν} (h : RunOf (fun _ _ => True) (new b, mem) s) : ∃ c, History s c := by
  refine h.invariant (I := fun s => ∃ c, History s c) ?_ ⟨_, .start b mem⟩
  rintro s op t ⟨c, hc⟩ - ⟨fuel, hop⟩
  cases op with
  | barRead bar offset width =>
    cases hop
    exact ⟨_, hc.barRead bar offset width⟩
  | barWrite bar offset width value =>
    cases hop
    exact ⟨_, hc.barWrite bar offset width value⟩
  | guest mem =>
    cases hop
    exact ⟨_, hc.guest mem⟩
  | tick =>
    obtain ⟨u, htx, hrx⟩ := Option.bind_eq_some_iff.mp hop
    obtain ⟨n, hn⟩ := exists_pass htx
    obtain ⟨k, hk⟩ := exists_pass hrx
    exact ⟨_, hc.tick hn hk⟩

/-- **virtio-net moves each frame exactly once.** Every run from reset has a history, and the
indices of an enabled queue count the chains consumed in it, modulo 65536. Then one tick of a device
that is not closed, over a memory in which the queues are laid out, returns; it transmits every
available well-formed chain once and in order, answers every consumed chain at consecutive used
slots, and stores every received frame behind its header in a buffer of its own, in order, unless
the device fails closed. -/
theorem tick_moves_each_frame_once :
    (∀ (b : ν) (mem : μ) (s : VirtioNetStub ν × μ),
        RunOf (fun _ _ => True) (new b, mem) s → ∃ c, History s c) ∧
      (∀ (s : VirtioNetStub ν × μ) (c : Fin numQueues → Nat), History s c → Counted s.1 c) ∧
      ∀ (s : VirtioNetStub ν × μ) (c : Fin numQueues → Nat), s.1.needsReset = false →
        Counted s.1 c → Laid s c →
        ∃ u frames, (∀ fuel, 0x10000 ≤ fuel → tick fuel s = some u) ∧ Moved s c frames u :=
  ⟨fun _ _ _ h => exists_history h, fun _ _ h => counted_of_history h,
    fun _ _ hopen hc hl => exists_moved hopen hc hl⟩

/-- The little-endian bytes of a number. -/
def leBytes (n value : Nat) : List Byte :=
  (List.range n).map fun i => BitVec.ofNat 8 (value >>> (8 * i))

def tableEntry (addr len flags : Nat) : List Byte :=
  leBytes 8 addr ++ leBytes 4 len ++ leBytes 2 flags ++ leBytes 2 0

/-- A table of two descriptors, an avail ring that offers both, and room for the used ring. -/
def ringBytes (first second : List Byte) : List Byte :=
  first ++ second ++ leBytes 2 0 ++ leBytes 2 2 ++ leBytes 2 0 ++ leBytes 2 1 ++
    List.replicate 0x28 0

/-- Two chains in each queue: the receive rings from 0 on, those of the transmit queue from 0x50,
and its frames behind their headers from 0x180. -/
def framesRam : FlatRam 512 where
  bytes i :=
    (ringBytes (tableEntry 0x100 64 2) (tableEntry 0x140 64 2) ++
      ringBytes (tableEntry 0x180 14 0) (tableEntry 0x190 15 0) ++ List.replicate 0xE0 0 ++
      List.replicate 12 0 ++ [0xAB, 0xCD, 0, 0] ++ List.replicate 12 0 ++
        [(1 : Byte), 2, 3]).getD i.val 0

/-- Both queues are enabled, and the backend has two frames to deliver. -/
def bothQueues : VirtioNetStub LoopbackNetBackend :=
  ((new ⟨[], [[0x11, 0x22], [0x33]]⟩).setQueue queueRx ⟨2, true, 0, 0x20, 0x28, 0, 0⟩).setQueue
    queueTx ⟨2, true, 0x50, 0x70, 0x78, 0, 0⟩

theorem bothQueues_tx : ∀ j < 2, (headAt framesRam (bothQueues.queues queueTx) j).bind
    (fun head => (chain framesRam (bothQueues.queues queueTx) 2 head).map Prod.fst) =
      some [⟨0x180 + 16 * j, 14 + j⟩] := by
  decide

theorem bothQueues_rx : ∀ j < 2, rxBuffer framesRam (bothQueues.queues queueRx) j =
    some ⟨0x100 + 0x40 * j, 64⟩ := by
  decide

theorem laid_bothQueues : Laid (bothQueues, framesRam) fun _ => 0 := by
  have htx : available framesRam (bothQueues.queues queueTx) = 2 := by decide
  have hrx : available framesRam (bothQueues.queues queueRx) = 2 := by decide
  refine ⟨?_, ?_, ?_, ?_, ?_⟩
  · have hshape : ∀ i, (bothQueues.queues i).size.toNat ∣ 256 ∧
        (descRegion (bothQueues.queues i)).Fits ∧ (availRegion (bothQueues.queues i)).Fits ∧
        (usedRegion (bothQueues.queues i)).Fits ∧
        (descRegion (bothQueues.queues i)).start + (descRegion (bothQueues.queues i)).len ≤ 512 ∧
        (availRegion (bothQueues.queues i)).start + (availRegion (bothQueues.queues i)).len ≤ 512 ∧
        (usedRegion (bothQueues.queues i)).start + (usedRegion (bothQueues.queues i)).len ≤
          512 := by
      decide
    intro i _
    obtain ⟨hsize, hd, ha, hu, hdesc, havail, hused⟩ := hshape i
    exact ⟨hsize, hd, ha, hu, FlatRam.inRam _ hdesc (by decide),
      FlatRam.inRam _ havail (by decide), FlatRam.inRam _ hused (by decide)⟩
  · have hapart : ∀ i j, (descRegion (bothQueues.queues i)).Disjoint
        (usedRegion (bothQueues.queues j)) ∧
        (availRegion (bothQueues.queues i)).Disjoint (usedRegion (bothQueues.queues j)) ∧
        (i ≠ j → (usedRegion (bothQueues.queues i)).Disjoint
          (usedRegion (bothQueues.queues j))) := by
      decide
    exact fun i j _ _ => hapart i j
  · have hclear : ∀ j < 2, Region.Disjoint ⟨0x180 + 16 * j, 14 + j⟩
        (usedRegion (bothQueues.queues queueTx)) := by
      decide
    intro _ j hj head segs bytes hhead hchain r hr
    have hj : j < 2 := htx ▸ hj
    rw [Nat.zero_add] at hhead
    have hsegs := bothQueues_tx j hj
    rw [hhead, Option.bind_some, show chain framesRam _ 2 head = _ from hchain,
      Option.map_some] at hsegs
    cases hsegs
    obtain rfl := List.mem_singleton.mp hr
    exact hclear j hj
  · have hclear : ∀ j < 2, (descRegion (bothQueues.queues queueRx)).Disjoint
        ⟨0x100 + 0x40 * j, 64⟩ ∧
        (availRegion (bothQueues.queues queueRx)).Disjoint ⟨0x100 + 0x40 * j, 64⟩ ∧
        ∀ i, (usedRegion (bothQueues.queues i)).Disjoint ⟨0x100 + 0x40 * j, 64⟩ := by
      decide
    intro _ j hj b hb
    have hj : j < 2 := hrx ▸ hj
    rw [Nat.zero_add, show rxBuffer framesRam _ j = _ from bothQueues_rx j hj] at hb
    cases hb
    obtain ⟨hdesc, havail, hused⟩ := hclear j hj
    exact ⟨hdesc, havail, fun i _ => hused i⟩
  · have hclear : ∀ i < 2, ∀ j < 2, i < j →
        Region.Disjoint ⟨0x100 + 0x40 * i, 64⟩ ⟨0x100 + 0x40 * j, 64⟩ := by
      decide
    intro _ i j hij hj b b' hb hb'
    have hj : j < 2 := hrx ▸ hj
    have hi : i < 2 := Nat.lt_trans hij hj
    rw [Nat.zero_add, show rxBuffer framesRam _ i = _ from bothQueues_rx i hi] at hb
    rw [Nat.zero_add, show rxBuffer framesRam _ j = _ from bothQueues_rx j hj] at hb'
    cases hb
    cases hb'
    exact hclear i hi j hj hij

/-- Its tick moves two frames out and two frames in. -/
theorem tick_moves_each_frame_once_sample :
    ∃ u frames, (∀ fuel, 0x10000 ≤ fuel → tick fuel (bothQueues, framesRam) = some u) ∧
      Moved (bothQueues, framesRam) (fun _ => 0) frames u ∧
      u.1.backend.transmitted = [[0xAB, 0xCD], [1, 2, 3]] ∧ u.1.backend.toInject = [] := by
  have hcounted : Counted bothQueues fun _ => 0 := by
    intro i _
    revert i
    decide
  obtain ⟨u, frames, htick, hmoved⟩ :=
    tick_moves_each_frame_once.2.2 _ _ (by decide) hcounted laid_bothQueues
  have hrun : (tick 0x10000 (bothQueues, framesRam)).map
      (fun u => (u.1.backend.transmitted, u.1.backend.toInject)) =
      some ([[0xAB, 0xCD], [1, 2, 3]], []) := by
    decide
  rw [htick _ (Nat.le_refl _), Option.map_some, Option.some.injEq, Prod.mk.injEq] at hrun
  exact ⟨u, frames, htick, hmoved, hrun⟩

/-- **`used.idx` is the driver's until the first answer**: it stays 7 over a tick that consumes no
chain. -/
theorem used_idx_kept_without_chains :
    ¬ ∀ (s u : VirtioNetStub LoopbackNetBackend × FlatRam 64) (c : Fin numQueues → Nat)
      (fuel : Nat), History s c → s.1.needsReset = false →
      (s.1.queues queueTx).enabled = true → Laid s c → tick fuel s = some u →
      (bytesAt u.2 (usedIdxCell (u.1.queues queueTx))).map (fun bs => le16 bs 0) =
        some (u.1.queues queueTx).lastAvailIdx := by
  -- Nothing was offered, so the pass returns before the first answer is written.
  intro hclaim
  have hrun :
      ((applyAll 2 (new (ν := LoopbackNetBackend) ⟨[], []⟩, sampleRam 0 7)
          (negotiate ++ configureQueueOps 1 1 0 0x10 0x18)).bind fun s =>
        (tick 2 s).map fun u =>
          ((s.1.queues queueTx, (s.1.queues queueRx).enabled, s.1.needsReset,
              available s.2 (s.1.queues queueTx)),
            ((bytesAt u.2 (usedIdxCell (u.1.queues queueTx))).map (fun bs => le16 bs 0),
              (u.1.queues queueTx).lastAvailIdx))) =
      some ((⟨1, true, 0, 0x10, 0x18, 0, 0⟩, false, false, 0), (some 7, 0)) := by
    decide +kernel
  obtain ⟨s, hs, hrun⟩ := Option.bind_eq_some_iff.mp hrun
  obtain ⟨u, hu, hrun⟩ := Option.map_eq_some_iff.mp hrun
  simp only [Prod.mk.injEq] at hrun
  obtain ⟨⟨hq, hrx, hopen, hnone⟩, hused, hlast⟩ := hrun
  obtain ⟨c, hc⟩ := exists_history (runOf_of_applyAll (fun _ _ => trivial) hs)
  have htx : ∀ i, (s.1.queues i).enabled = true → i = queueTx := by
    intro i hen
    by_cases hi : i = queueRx
    · subst hi
      rw [hrx] at hen
      cases hen
    · have hlt : i.val < 2 := i.isLt
      have hne : i.val ≠ 0 := fun h => hi (Fin.ext h)
      have hone : i.val = 1 := by omega
      exact Fin.ext hone
  have hno : ¬(s.1.queues queueRx).enabled = true := by
    rw [hrx]
    decide
  have hl : Laid s c := by
    refine ⟨?_, ?_, ?_, fun hen => absurd hen hno, fun hen => absurd hen hno⟩
    · intro i hen
      obtain rfl := htx i hen
      rw [hq]
      exact ⟨by decide, by decide, by decide, by decide,
        FlatRam.inRam _ (by decide) (by decide), FlatRam.inRam _ (by decide) (by decide),
        FlatRam.inRam _ (by decide) (by decide)⟩
    · intro i j hi hj
      obtain rfl := htx i hi
      obtain rfl := htx j hj
      rw [hq]
      exact ⟨by decide, by decide, fun h => absurd rfl h⟩
    · intro _ j hj
      rw [hnone] at hj
      exact absurd hj (Nat.not_lt_zero j)
  have heq := hclaim s u c 2 hc hopen (by rw [hq]) hl hu
  rw [hused, hlast] at heq
  cases heq

end VirtioNetStub

end M68kMachine
