import M68kMachine.Properties.VirtioNetTx
import M68kMachine.Properties.VirtioNetRuns

/-!
# The receive engine

Every frame the backend yields is stored, behind the 12-byte header, in the next available buffer
and answered in the used ring. The engine stops when the buffers or the frames run out, and fails
closed on a frame the next descriptor does not take.

* `Polled` — the frames successive polls of the backend yield
* `Accepts`, `Delivered` — a descriptor takes a frame of a length, and holds it
* `RxProgress` — the state after a list of frames; `RxProgress.round` is one round
* `processRx_spec` — the whole pass
-/

namespace M68kMachine

namespace VirtioNetStub

open VirtioNet GuestMemory

variable {ν μ : Type}

/-! ## Frames -/

/-- The frame a poll that answers `n` leaves in the receive buffer. -/
def frameOf (buf : Buffer Byte maxEthPayload) (n : Nat) : List Byte :=
  if h : 0 + n ≤ maxEthPayload then buf.slice ⟨0, n, h⟩ else []

theorem length_frameOf {buf : Buffer Byte maxEthPayload} {n : Nat} (h : n ≤ maxEthPayload) :
    (frameOf buf n).length = n := by
  unfold frameOf
  rw [dif_pos (by omega), Buffer.length_slice]

/-- Successive polls of the backend yield the frames `fs`. -/
inductive Polled [NetBackend ν] (b : ν) (buf : Buffer Byte maxEthPayload) :
    List (List Byte) → ν → Buffer Byte maxEthPayload → Prop
  | nil : Polled b buf [] b buf
  | snoc {fs : List (List Byte)} {b₁ b₂ : ν} {buf₁ buf₂ : Buffer Byte maxEthPayload} {n : Nat} :
      Polled b buf fs b₁ buf₁ → NetBackend.pollReceive b₁ buf₁ = (some n, buf₂, b₂) →
      n ≤ maxEthPayload → Polled b buf (fs ++ [frameOf buf₂ n]) b₂ buf₂

theorem staged_stageRx (v : VirtioNetStub ν) {n : Nat} (h : virtioNetHdrLen + n ≤ maxFrameTotal) :
    staged (v.stageRx n h).scratch 0 (virtioNetHdrLen + n) =
      rxHeader ++ frameOf v.rxFrameBuf n := by
  have hn : 0 + n ≤ maxEthPayload := by
    rw [Nat.zero_add]
    exact Nat.le_of_add_le_add_left h
  unfold stageRx frameOf
  rw [dif_pos hn]
  have hheader : staged (v.scratch.put ⟨0, virtioNetHdrLen, by decide⟩ rxHeader) 0
      virtioNetHdrLen = rxHeader :=
    Buffer.slice_put_self v.scratch ⟨0, virtioNetHdrLen, by decide⟩ rfl
  rw [staged_put h (by rw [Buffer.length_slice]), hheader]

section Buffers

variable [GuestMemory μ] {mem : μ} {d : Desc} {n : Nat}

/-- The buffer of the `c`-th receive descriptor since the queue was enabled. -/
def rxBuffer (mem : μ) (q : VirtQueueState) (c : Nat) : Option Region := do
  let head ← headAt mem q c
  let d ← readDesc mem q.descAddr q.size head
  some ⟨d.addr.toNat, d.len.toNat⟩

/-- The buffers of `k` descriptors from the `c`-th on. -/
def rxBuffers (mem : μ) (q : VirtQueueState) (c k : Nat) : List Region :=
  (List.range k).filterMap fun j => rxBuffer mem q (c + j)

/-- `d` is device-writable, has room for a frame of `n` bytes behind its header, and lies in RAM. -/
structure Takes (mem : μ) (d : Desc) (n : Nat) : Prop where
  fits : RxFits d (virtioNetHdrLen + n)
  addr : d.addr.toNat < 0x100000000
  inRam : (bytesAt mem ⟨d.addr.toNat, virtioNetHdrLen + n⟩).isSome = true

/-- The `c`-th receive descriptor takes a frame of `n` bytes. -/
def Accepts (mem : μ) (q : VirtQueueState) (c n : Nat) : Prop :=
  ∃ head d, headAt mem q c = some head ∧ readDesc mem q.descAddr q.size head = some d ∧
    Takes mem d n

/-- The buffer of the `c`-th receive descriptor, as `mem₀` had it, holds header and frame. -/
def Delivered (mem₀ mem : μ) (q : VirtQueueState) (c : Nat) (frame : List Byte) : Prop :=
  ∃ head d, headAt mem₀ q c = some head ∧ readDesc mem₀ q.descAddr q.size head = some d ∧
    Takes mem₀ d frame.length ∧
    bytesAt mem ⟨d.addr.toNat, virtioNetHdrLen + frame.length⟩ = some (rxHeader ++ frame)

theorem Takes.frame {rs : List Region} {mem' : μ} (hf : Frame rs mem mem') :
    Takes mem' d n ↔ Takes mem d n := by
  constructor
  · rintro ⟨h, ha, hr⟩
    exact ⟨h, ha, by rwa [hf.mapped] at hr⟩
  · rintro ⟨h, ha, hr⟩
    exact ⟨h, ha, by rwa [hf.mapped]⟩

theorem Takes.inside (h : Takes mem d n) :
    (⟨d.addr.toNat, virtioNetHdrLen + n⟩ : Region).Inside ⟨d.addr.toNat, d.len.toNat⟩ := by
  obtain ⟨-, -, hroom, -⟩ := h.fits
  exact ⟨Nat.le_refl _, Nat.add_le_add_left hroom _⟩

/-! ## One frame -/

variable [LawfulGuestMemory μ] {v : VirtioNetStub ν} {c : Nat}

/-- Storing the staged bytes is granted exactly when the descriptor takes them. -/
theorem isSome_storeStaged (mem : μ) {bs : List Byte} (hfits : RxFits d (virtioNetHdrLen + n))
    (hbs : bs.length = virtioNetHdrLen + n) :
    ((toU32 d.addr).bind fun a => store mem a bs).isSome = true ↔ Takes mem d n := by
  by_cases haddr : d.addr.toNat < 0x100000000
  · rw [toU32_eq rfl haddr, Option.bind_some, isSome_store, hbs]
    exact ⟨fun h => ⟨hfits, haddr, h⟩, fun h => h.inRam⟩
  · have hnone : toU32 d.addr = none := if_neg haddr
    rw [hnone]
    exact ⟨fun h => (Bool.false_ne_true h).elim, fun h => absurd h.addr haddr⟩

/-- A descriptor that does not take the frame: nothing is stored. -/
theorem rxDeliver_refused (h : ¬Takes mem d n) (head : Word) :
    ∃ w, v.rxDeliver mem head d n = (false, w, mem) ∧ w.queues = v.queues ∧
      w.rxFrameBuf = v.rxFrameBuf ∧ w.backend = v.backend := by
  unfold rxDeliver
  simp only
  split
  · rename_i hfits
    have hlen : (staged (v.stageRx n hfits.2.2.2).scratch 0 (virtioNetHdrLen + n)).length =
        virtioNetHdrLen + n := by
      rw [staged_stageRx, List.length_append,
        length_frameOf (Nat.le_of_add_le_add_left hfits.2.2.2)]
      rfl
    have hstore := (isSome_storeStaged mem hfits hlen).not.mpr h
    rw [Option.not_isSome_iff_eq_none] at hstore
    rw [hstore]
    exact ⟨_, rfl, rfl, rfl, rfl⟩
  · exact ⟨_, rfl, rfl, rfl, rfl⟩

/-- **Delivering a frame** to a descriptor that takes it, beside the used ring. -/
theorem rxDeliver_spec (hq : QueueMapped mem (v.queues queueRx))
    (hused : (v.queues queueRx).usedIdx = BitVec.ofNat 16 c) (h : Takes mem d n) (head : Word) :
    ∃ w mem₁ mem', v.rxDeliver mem head d n = (true, w, mem') ∧
      SameDevice
        (v.setQueue queueRx ((v.queues queueRx).setUsedIdx (BitVec.ofNat 16 (c + 1)))) w ∧
      w.backend = v.backend ∧
      Frame [⟨d.addr.toNat, virtioNetHdrLen + n⟩] mem mem₁ ∧
      bytesAt mem₁ ⟨d.addr.toNat, virtioNetHdrLen + n⟩ =
        some (rxHeader ++ frameOf v.rxFrameBuf n) ∧
      Published mem₁ mem' (v.queues queueRx) c (head.setWidth 32)
        (BitVec.ofNat 32 (virtioNetHdrLen + n)) := by
  have hmax := h.fits.2.2.2
  have hstaged := staged_stageRx v hmax
  have hlen : (rxHeader ++ frameOf v.rxFrameBuf n).length = virtioNetHdrLen + n := by
    rw [List.length_append, length_frameOf (Nat.le_of_add_le_add_left hmax)]
    rfl
  obtain ⟨mem₁, hstore⟩ := Option.isSome_iff_exists.mp
    ((isSome_storeStaged mem h.fits hlen).mpr h)
  have hstore' : store mem (BitVec.ofNat 32 d.addr.toNat)
      (rxHeader ++ frameOf v.rxFrameBuf n) = some mem₁ := by
    rw [toU32_eq rfl h.addr] at hstore
    exact hstore
  have hsmall : (rxHeader ++ frameOf v.rxFrameBuf n).length < 0x100000000 := by
    rw [hlen]
    exact Nat.lt_of_le_of_lt hmax (by decide)
  have hnat : (BitVec.ofNat 32 d.addr.toNat).toNat = d.addr.toNat := by
    rw [BitVec.toNat_ofNat]
    exact Nat.mod_eq_of_lt h.addr
  have hregion : (⟨d.addr.toNat, virtioNetHdrLen + n⟩ : Region) =
      ⟨(BitVec.ofNat 32 d.addr.toNat).toNat,
        (rxHeader ++ frameOf v.rxFrameBuf n).length⟩ := by rw [hnat, hlen]
  have hframe : Frame [⟨d.addr.toNat, virtioNetHdrLen + n⟩] mem mem₁ := by
    rw [hregion]
    exact frame_store (by simp [rxHeader]) hsmall hstore'
  obtain ⟨mem', hcomplete, hpub⟩ := completeUsed_spec (v := v.stageRx n hmax) (i := queueRx)
    (c := c) (hq.frame hframe) hused head (BitVec.ofNat 32 (virtioNetHdrLen + n))
  have hdeliver : v.rxDeliver mem head d n =
      (v.stageRx n hmax).completeUsed mem₁ queueRx head
        (BitVec.ofNat 32 (virtioNetHdrLen + n)) := by
    unfold rxDeliver
    simp only
    rw [dif_pos h.fits, hstaged, hstore]
  exact ⟨_, mem₁, mem', hdeliver.trans hcomplete, ⟨rfl, rfl, rfl⟩, rfl, hframe,
    bytesAt_store_self hregion hsmall hstore', hpub⟩

/-! ## The pass -/

variable [NetBackend ν] {q : VirtQueueState} {k : Nat} {s : VirtioNetStub ν × μ}

/-- The queue is mapped, its table, rings and available buffers share no address, and `c` buffers
have been used. -/
structure RxLaid (s : VirtioNetStub ν × μ) (c : Nat) : Prop where
  mapped : QueueMapped s.2 (s.1.queues queueRx)
  count : s.1.queues queueRx = advanced (s.1.queues queueRx) c
  desc : (descRegion (s.1.queues queueRx)).Disjoint (usedRegion (s.1.queues queueRx))
  avail : (availRegion (s.1.queues queueRx)).Disjoint (usedRegion (s.1.queues queueRx))
  buffers : ∀ j < available s.2 (s.1.queues queueRx), ∀ b,
    rxBuffer s.2 (s.1.queues queueRx) (c + j) = some b →
    (descRegion (s.1.queues queueRx)).Disjoint b ∧
      (availRegion (s.1.queues queueRx)).Disjoint b ∧
      (usedRegion (s.1.queues queueRx)).Disjoint b
  pairwise : ∀ i j, i < j → j < available s.2 (s.1.queues queueRx) → ∀ b b',
    rxBuffer s.2 (s.1.queues queueRx) (c + i) = some b →
    rxBuffer s.2 (s.1.queues queueRx) (c + j) = some b' → b.Disjoint b'

/-- What the `j`-th available buffer is answered with: its head and the bytes stored. -/
def rxAnswer (mem : μ) (q : VirtQueueState) (c : Nat) (fs : List (List Byte)) (j : Nat) :
    Long × Long :=
  (((headAt mem q (c + j)).getD 0).setWidth 32,
    BitVec.ofNat 32 (virtioNetHdrLen + (fs.getD j []).length))

/-- The state after the frames `fs`. -/
structure RxProgress (s : VirtioNetStub ν × μ) (c : Nat) (fs : List (List Byte))
    (t : VirtioNetStub ν × μ) : Prop where
  count : fs.length ≤ available s.2 (s.1.queues queueRx)
  polled : Polled s.1.backend s.1.rxFrameBuf fs t.1.backend t.1.rxFrameBuf
  queues : t.1.queues =
    (s.1.setQueue queueRx (advanced (s.1.queues queueRx) (c + fs.length))).queues
  deviceStatus : t.1.deviceStatus = s.1.deviceStatus
  answered : Answered s.2 t.2 (s.1.queues queueRx) c fs.length
    (rxAnswer s.2 (s.1.queues queueRx) c fs)
  delivered : ∀ j f, fs[j]? = some f → Delivered s.2 t.2 (s.1.queues queueRx) (c + j) f
  frame : Frame (usedRegion (s.1.queues queueRx) ::
    rxBuffers s.2 (s.1.queues queueRx) c fs.length) s.2 t.2

/-- The pass ends after the frames `fs` in `t`: no buffer or no frame is left, or the next
descriptor does not take the next frame and the device fails closed. -/
inductive RxEnd (s : VirtioNetStub ν × μ) (c : Nat) (fs : List (List Byte))
    (t u : VirtioNetStub ν × μ) : Prop
  | full : fs.length = available s.2 (s.1.queues queueRx) → u = t → RxEnd s c fs t u
  | dry {b : ν} {buf : Buffer Byte maxEthPayload} :
      NetBackend.pollReceive t.1.backend t.1.rxFrameBuf = (none, buf, b) →
      u = ({ t.1 with backend := b, rxFrameBuf := buf }, t.2) → RxEnd s c fs t u
  | failed {n : Nat} {b : ν} {buf : Buffer Byte maxEthPayload} :
      fs.length < available s.2 (s.1.queues queueRx) →
      NetBackend.pollReceive t.1.backend t.1.rxFrameBuf = (some n, buf, b) →
      ¬Accepts s.2 (s.1.queues queueRx) (c + fs.length) n → u.1.needsReset = true →
      u.1.backend = b → u.1.queues = t.1.queues → u.2 = t.2 → RxEnd s c fs t u

omit [LawfulGuestMemory μ] [NetBackend ν] in
theorem mem_rxBuffers {j : Nat} {b : Region} (hj : j < k) (h : rxBuffer mem q (c + j) = some b) :
    b ∈ rxBuffers mem q c k :=
  List.mem_filterMap.mpr ⟨j, List.mem_range.mpr hj, h⟩

omit [LawfulGuestMemory μ] in
theorem exists_of_mem_rxBuffers {b : Region} (h : b ∈ rxBuffers mem q c k) :
    ∃ j < k, rxBuffer mem q (c + j) = some b := by
  obtain ⟨j, hj, hb⟩ := List.mem_filterMap.mp h
  exact ⟨j, List.mem_range.mp hj, hb⟩

omit [LawfulGuestMemory μ] in
theorem rxBuffer_eq {head : Word} (hhead : headAt mem q c = some head)
    (hd : readDesc mem q.descAddr q.size head = some d) :
    rxBuffer mem q c = some ⟨d.addr.toNat, d.len.toNat⟩ := by
  unfold rxBuffer
  rw [hhead, Option.bind_eq_bind, Option.bind_some, hd]
  rfl

section Body

variable {v w : VirtioNetStub ν} {mem mem' : μ} {idx head : Word} {d : Desc} {n : Nat}
  {buf : Buffer Byte maxEthPayload} {b : ν}

omit [LawfulGuestMemory μ] in
theorem rxBody_full (hidx : gmReadU16 mem ((v.queues queueRx).driverAddr + 2) = some idx)
    (heq : idx = (v.queues queueRx).lastAvailIdx) : rxBody (v, mem) = .done (v, mem) := by
  unfold rxBody
  simp only
  rw [hidx]
  exact if_pos heq

omit [LawfulGuestMemory μ] in
theorem rxBody_dry (hidx : gmReadU16 mem ((v.queues queueRx).driverAddr + 2) = some idx)
    (hne : idx ≠ (v.queues queueRx).lastAvailIdx)
    (hpoll : NetBackend.pollReceive v.backend v.rxFrameBuf = (none, buf, b)) :
    rxBody (v, mem) = .done (v.polled b buf, mem) := by
  unfold rxBody
  simp only
  rw [hidx]
  simp only
  rw [if_neg hne, hpoll]

omit [LawfulGuestMemory μ] in
/-- A round with a buffer and a frame: what the descriptor, if there is one, makes of it. -/
theorem rxBody_frame (hidx : gmReadU16 mem ((v.queues queueRx).driverAddr + 2) = some idx)
    (hne : idx ≠ (v.queues queueRx).lastAvailIdx)
    (hpoll : NetBackend.pollReceive v.backend v.rxFrameBuf = (some n, buf, b))
    (hhead : (availRingSlotAddr (v.queues queueRx).driverAddr
      ((v.queues queueRx).lastAvailIdx % v.effectiveQueueSize queueRx)).bind (gmReadU16 mem) =
        some head) :
    rxBody (v, mem) =
      match readDesc mem (v.queues queueRx).descAddr (v.effectiveQueueSize queueRx) head with
      | none => .done ((v.polled b buf).failClosed, mem)
      | some d =>
        match (v.polled b buf).rxDeliver mem head d n with
        | (true, w, mem) =>
          .again (w.countRx.advanceAvail queueRx (v.queues queueRx).lastAvailIdx, mem)
        | (false, w, mem) => .done (w.failClosed, mem) := by
  unfold rxBody
  simp only [hidx, if_neg hne, hpoll]
  generalize (availRingSlotAddr (v.queues queueRx).driverAddr
    ((v.queues queueRx).lastAvailIdx % v.effectiveQueueSize queueRx)).bind (gmReadU16 mem) = slot
    at hhead ⊢
  subst hhead
  rfl

end Body

omit [LawfulGuestMemory μ] in
theorem RxProgress.start (h : RxLaid s c) :
    RxProgress s c [] s where
  count := Nat.zero_le _
  polled := .nil
  queues := by
    rw [List.length_nil, Nat.add_zero, ← h.count, setQueue_self]
  deviceStatus := rfl
  answered := .zero _ _ _ _
  delivered := fun j f hj => by simp at hj
  frame := .refl _ _

omit [LawfulGuestMemory μ] [NetBackend ν] in
/-- The regions a pass writes share no address with the table and the avail ring. -/
theorem RxLaid.unwritten (h : RxLaid s c) (hk : k ≤ available s.2 (s.1.queues queueRx)) :
    ∀ t ∈ usedRegion (s.1.queues queueRx) :: rxBuffers s.2 (s.1.queues queueRx) c k,
      (descRegion (s.1.queues queueRx)).Disjoint t ∧
        (availRegion (s.1.queues queueRx)).Disjoint t := by
  intro t ht
  rcases List.mem_cons.mp ht with rfl | hb
  · exact ⟨h.desc, h.avail⟩
  · obtain ⟨j, hj, hjb⟩ := exists_of_mem_rxBuffers hb
    obtain ⟨hd, ha, -⟩ := h.buffers j (by omega) t hjb
    exact ⟨hd, ha⟩

/-- **A delivered frame** extends what the pass has done. -/
theorem RxProgress.deliver {w : VirtioNetStub ν} {mem₁ mem' : μ} {fs : List (List Byte)}
    {head : Word} {b : ν} {buf : Buffer Byte maxEthPayload} (hl : RxLaid s c)
    (h : RxProgress s c fs (v, mem)) (hk : fs.length < available s.2 (s.1.queues queueRx))
    (hpoll : NetBackend.pollReceive v.backend v.rxFrameBuf = (some n, buf, b))
    (hhead : headAt s.2 (s.1.queues queueRx) (c + fs.length) = some head)
    (hd : readDesc s.2 (s.1.queues queueRx).descAddr (s.1.queues queueRx).size head = some d)
    (htakes : Takes s.2 d n)
    (hw : SameDevice ((v.polled b buf).setQueue queueRx
      ((v.queues queueRx).setUsedIdx (BitVec.ofNat 16 (c + fs.length + 1)))) w)
    (hwb : w.backend = b) (hstore : Frame [⟨d.addr.toNat, virtioNetHdrLen + n⟩] mem mem₁)
    (hbytes : bytesAt mem₁ ⟨d.addr.toNat, virtioNetHdrLen + n⟩ = some (rxHeader ++ frameOf buf n))
    (hpub : Published mem₁ mem' (s.1.queues queueRx) (c + fs.length) (head.setWidth 32)
      (BitVec.ofNat 32 (virtioNetHdrLen + n))) :
    RxProgress s c (fs ++ [frameOf buf n])
      (w.countRx.advanceAvail queueRx (v.queues queueRx).lastAvailIdx, mem') := by
  have hn : n ≤ maxEthPayload := Nat.le_of_add_le_add_left htakes.fits.2.2.2
  have hlen : (frameOf buf n).length = n := length_frameOf hn
  have hcount : (fs ++ [frameOf buf n]).length = fs.length + 1 := List.length_append
  have hmapped := hl.mapped
  have hbuffer := rxBuffer_eq hhead hd
  obtain ⟨-, -, hused⟩ := hl.buffers fs.length hk _ hbuffer
  have hinside := htakes.inside
  have hself : ∀ r : Region, r.Inside r := fun r => ⟨Nat.le_refl _, Nat.le_refl _⟩
  have helem := hmapped.elem_inside (c + fs.length)
  have hidx := QueueMapped.usedIdx_inside (s.1.queues queueRx)
  have hmem : Frame (usedRegion (s.1.queues queueRx) ::
      rxBuffers s.2 (s.1.queues queueRx) c (fs.length + 1)) mem mem' := by
    refine (hstore.widen ?_).trans (hpub.frame.widen ?_)
    · intro r hr
      rw [List.mem_singleton.mp hr]
      exact ⟨_, List.mem_cons_of_mem _ (mem_rxBuffers (Nat.lt_succ_self _) hbuffer), hinside⟩
    · intro r hr
      refine ⟨_, List.mem_cons_self, ?_⟩
      rcases List.mem_cons.mp hr with rfl | hr
      · exact helem
      · rw [List.mem_singleton.mp hr]
        exact hidx
  -- A part of a buffer keeps its bytes when the answer is published.
  have hkeep : ∀ r b' : Region, r.Fits → r.Inside b' →
      (usedRegion (s.1.queues queueRx)).Disjoint b' → bytesAt mem' r = bytesAt mem₁ r := by
    intro r b' hfits hin hdis
    refine hpub.frame.bytes r hfits fun t ht => ?_
    rcases List.mem_cons.mp ht with rfl | ht
    · exact (hdis.mono helem hin).symm
    · rw [List.mem_singleton.mp ht]
      exact (hdis.mono hidx hin).symm
  constructor
  · rw [hcount]
    exact hk
  · change Polled _ _ _ w.backend w.rxFrameBuf
    rw [hwb, hw.rxFrameBuf]
    exact .snoc h.polled hpoll hn
  · have hlast : (v.queues queueRx).lastAvailIdx = BitVec.ofNat 16 (c + fs.length) := by
      rw [h.queues, setQueue_queues_self]
      rfl
    have hqueue : (w.queues queueRx).setLastAvailIdx ((v.queues queueRx).lastAvailIdx + 1) =
        VirtioNetStub.advanced (s.1.queues queueRx) (c + (fs.length + 1)) := by
      rw [hw.queues, setQueue_queues_self, hlast, ofNat_succ, h.queues, setQueue_queues_self]
      rfl
    unfold advanceAvail
    rw [hcount]
    funext j
    by_cases hj : j = queueRx
    · subst hj
      rw [setQueue_queues_self, setQueue_queues_self]
      exact hqueue
    · have hwj : w.queues j = v.queues j := by
        rw [hw.queues]
        exact if_neg hj
      have hvj : v.queues j = s.1.queues j := by
        rw [h.queues]
        exact if_neg hj
      unfold setQueue
      simp only [if_neg hj]
      exact hwj.trans hvj
  · exact hw.deviceStatus.trans h.deviceStatus
  · rw [hcount]
    have hsame : ∀ j < fs.length, rxAnswer s.2 (s.1.queues queueRx) c (fs ++ [frameOf buf n]) j =
        rxAnswer s.2 (s.1.queues queueRx) c fs j := by
      intro j hj
      unfold rxAnswer
      rw [List.getD_eq_getElem?_getD, List.getD_eq_getElem?_getD, List.getElem?_append_left hj]
    refine ((h.answered.congr hsame).frame (hmapped.frame h.frame) hstore ?_).publish
      ((hmapped.frame h.frame).frame hstore) ?_
    · intro r hr
      rw [List.mem_singleton.mp hr]
      exact hused.mono (hself _) hinside
    · have hanswer : rxAnswer s.2 (s.1.queues queueRx) c (fs ++ [frameOf buf n]) fs.length =
          (head.setWidth 32, BitVec.ofNat 32 (virtioNetHdrLen + n)) := by
        unfold rxAnswer
        rw [hhead, List.getD_eq_getElem?_getD, List.getElem?_append_right (Nat.le_refl _),
          Nat.sub_self]
        change (_, BitVec.ofNat 32 (virtioNetHdrLen + (frameOf buf n).length)) = _
        rw [hlen]
        rfl
      rw [hanswer]
      exact hpub
  · intro j f hj
    by_cases hjk : j < fs.length
    · rw [List.getElem?_append_left hjk] at hj
      obtain ⟨head', d', hhead', hd', htakes', hb'⟩ := h.delivered j f hj
      refine ⟨head', d', hhead', hd', htakes', ?_⟩
      have hbuffer' := rxBuffer_eq hhead' hd'
      obtain ⟨-, -, hused'⟩ := hl.buffers j (Nat.lt_trans hjk hk) _ hbuffer'
      have hfits := fits_of_bytesAt htakes'.addr
        (Nat.lt_of_le_of_lt htakes'.fits.2.2.2 (by decide)) hb'
      rw [hkeep _ _ hfits htakes'.inside hused', hstore.bytes _ hfits, hb']
      intro t ht
      rw [List.mem_singleton.mp ht]
      exact (hl.pairwise j fs.length hjk hk _ _ hbuffer' hbuffer).mono htakes'.inside hinside
    · obtain rfl : j = fs.length := by
        have := (List.getElem?_eq_some_iff.mp hj).1
        omega
      rw [List.getElem?_append_right (Nat.le_refl _), Nat.sub_self] at hj
      cases hj
      have hfits := fits_of_bytesAt htakes.addr
        (Nat.lt_of_le_of_lt htakes.fits.2.2.2 (by decide)) hbytes
      refine ⟨head, d, hhead, hd, by rwa [hlen], ?_⟩
      rw [hlen, hkeep _ _ hfits hinside hused]
      exact hbytes
  · rw [hcount]
    refine (h.frame.widen ?_).trans hmem
    intro r hr
    refine ⟨r, ?_, hself r⟩
    rcases List.mem_cons.mp hr with rfl | hb
    · exact List.mem_cons_self
    · obtain ⟨j, hj, hjb⟩ := exists_of_mem_rxBuffers hb
      exact List.mem_cons_of_mem _ (mem_rxBuffers (Nat.lt_succ_of_lt hj) hjb)

/-- **One round of the receive engine.** -/
theorem RxProgress.round {t : VirtioNetStub ν × μ} {fs : List (List Byte)} (hl : RxLaid s c)
    (h : RxProgress s c fs t) (hk : fs.length < available s.2 (s.1.queues queueRx)) :
    (∃ t' f, rxBody t = .again t' ∧ RxProgress s c (fs ++ [f]) t') ∨
      ∃ u, rxBody t = .done u ∧ RxEnd s c fs t u := by
  obtain ⟨v, mem⟩ := t
  have hunwritten := hl.unwritten (Nat.le_of_lt hk)
  have hframe := h.frame
  have hqueues := h.queues
  generalize hq : s.1.queues queueRx = q at *
  have hvq : v.queues queueRx = VirtioNetStub.advanced q (c + fs.length) := by
    rw [hqueues, setQueue_queues_self]
  have hmapped : QueueMapped s.2 q := hq ▸ hl.mapped
  have hmapped' : QueueMapped mem (v.queues queueRx) := by
    rw [hvq]
    exact (hmapped.frame hframe).advanced _
  have hsize : v.effectiveQueueSize queueRx = q.size := by
    rw [hmapped'.effectiveQueueSize_eq, hvq]
    rfl
  have hlast : (v.queues queueRx).lastAvailIdx = BitVec.ofNat 16 (c + fs.length) := by
    rw [hvq]
    rfl
  have hidx : gmReadU16 mem ((v.queues queueRx).driverAddr + 2) =
      some (BitVec.ofNat 16 (c + available s.2 q)) := by
    rw [hvq]
    exact gmReadU16_avail hmapped (by rw [← hq, hl.count, hq]; rfl) hframe
      fun t ht => (hunwritten t ht).2
  have hne : BitVec.ofNat 16 (c + available s.2 q) ≠ (v.queues queueRx).lastAvailIdx := by
    rw [hlast]
    exact ofNat_ne hk (available_lt _ _)
  obtain ⟨head, hhead⟩ := isSome_headAt hmapped (c + fs.length)
  have hslot : (availRingSlotAddr (v.queues queueRx).driverAddr
      ((v.queues queueRx).lastAvailIdx % v.effectiveQueueSize queueRx)).bind (gmReadU16 mem) =
        some head := by
    rw [hsize, hlast, hvq]
    exact (gmReadU16_slot hmapped hframe (fun t ht => (hunwritten t ht).2) _).trans hhead
  have hread : readDesc mem (v.queues queueRx).descAddr (v.effectiveQueueSize queueRx) head =
      readDesc s.2 q.descAddr q.size head := by
    rw [hsize, hvq]
    exact readDesc_frame hmapped hframe (fun t ht => (hunwritten t ht).1) head
  obtain ⟨polled, buf, b, hpoll⟩ :
      ∃ polled buf b, NetBackend.pollReceive v.backend v.rxFrameBuf = (polled, buf, b) :=
    ⟨_, _, _, rfl⟩
  cases polled with
  | none =>
    exact .inr ⟨_, rxBody_dry hidx hne hpoll, .dry hpoll rfl⟩
  | some n =>
    have hbody := rxBody_frame hidx hne hpoll hslot
    rw [hread] at hbody
    cases hd : readDesc s.2 q.descAddr q.size head with
    | none =>
      rw [hd] at hbody
      refine .inr ⟨_, hbody, .failed (hq ▸ hk) hpoll ?_ (needsReset_failClosed _) rfl rfl rfl⟩
      rintro ⟨head', d', hhead', hd', -⟩
      rw [hq] at hhead' hd'
      rw [hhead] at hhead'
      cases hhead'
      rw [hd] at hd'
      cases hd'
    | some d =>
      rw [hd] at hbody
      simp only at hbody
      by_cases htakes : Takes s.2 d n
      · obtain ⟨w, mem₁, mem', hdeliver, hw, hwb, hstore, hbytes, hpub⟩ :=
          rxDeliver_spec (v := v.polled b buf) (c := c + fs.length) hmapped'
            (by rw [show (v.polled b buf).queues = v.queues from rfl, hvq]; rfl)
            ((Takes.frame hframe).mpr htakes) head
        rw [hdeliver] at hbody
        refine .inl ⟨_, frameOf buf n, hbody, ?_⟩
        subst hq
        refine h.deliver hl hk hpoll hhead hd htakes hw hwb hstore hbytes ?_
        change Published mem₁ mem' (v.queues queueRx) _ _ _ at hpub
        rw [hvq] at hpub
        exact ⟨hpub.id, hpub.len, hpub.idx, hpub.frame⟩
      · obtain ⟨w, hdeliver, hwq, -, hwb⟩ := rxDeliver_refused (v := v.polled b buf)
          (mt (Takes.frame hframe).mp htakes) head
        rw [hdeliver] at hbody
        refine .inr ⟨_, hbody, .failed (hq ▸ hk) hpoll ?_ (needsReset_failClosed _) hwb hwq rfl⟩
        rintro ⟨head', d', hhead', hd', htakes'⟩
        rw [hq] at hhead' hd'
        rw [hhead] at hhead'
        cases hhead'
        rw [hd] at hd'
        cases hd'
        exact htakes htakes'

/-- **The receive pass** of an open, laid out queue delivers the frames one to a buffer, in order,
and ends as `RxEnd` says. -/
theorem processRx_spec (hopen : s.1.needsReset = false) (hen : (s.1.queues queueRx).enabled = true)
    (hl : RxLaid s c) :
    ∃ u, (∀ fuel, 0x10000 ≤ fuel → processRx fuel s = some u) ∧
      ∃ fs t, RxProgress s c fs t ∧ RxEnd s c fs t u := by
  have hlast : ∀ t, (∃ fs, fs.length = available s.2 (s.1.queues queueRx) ∧
      RxProgress s c fs t) → ∃ u, rxBody t = .done u ∧
        ∃ fs t, RxProgress s c fs t ∧ RxEnd s c fs t u := by
    rintro ⟨v, mem⟩ ⟨fs, hlen, h⟩
    refine ⟨(v, mem), ?_, fs, (v, mem), h, .full hlen rfl⟩
    have hvq : v.queues queueRx =
        VirtioNetStub.advanced (s.1.queues queueRx) (c + fs.length) := by
      rw [h.queues, setQueue_queues_self]
    have havail : gmReadU16 mem ((v.queues queueRx).driverAddr + 2) =
        some (BitVec.ofNat 16 (c + available s.2 (s.1.queues queueRx))) := by
      rw [hvq]
      exact gmReadU16_avail hl.mapped (by rw [hl.count]; rfl) h.frame
        fun t ht => (hl.unwritten (Nat.le_of_eq hlen) t ht).2
    exact rxBody_full havail (by rw [hvq, hlen]; rfl)
  obtain ⟨u, hrun, hend⟩ := Loop.run_of_progress
    (P := fun k t => ∃ fs, fs.length = k ∧ RxProgress s c fs t) (s := s) (fun k t hk ht => by
      obtain ⟨fs, rfl, h⟩ := ht
      rcases h.round hl hk with ⟨t', f, hagain, hprog⟩ | ⟨u, hdone, hend⟩
      · exact .inl ⟨t', hagain, fs ++ [f], List.length_append, hprog⟩
      · exact .inr ⟨u, hdone, fs, t, h, hend⟩) hlast ⟨[], rfl, .start hl⟩
  refine ⟨u, fun fuel hf => ?_, hend⟩
  unfold processRx
  rw [hopen, hen]
  exact hrun fuel (Nat.lt_of_lt_of_le (available_lt _ _) hf)

end Buffers

end VirtioNetStub

end M68kMachine
