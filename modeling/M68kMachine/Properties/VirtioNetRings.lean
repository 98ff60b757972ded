import M68kMachine.Cards.VirtioNet

/-!
# The split virtqueues in guest memory

A queue is the descriptor table, the avail ring the driver fills and the used ring the device
answers in. Both rings are indexed by a counter of the chains since the queue was enabled, of which
the registers keep 16 bits; a size that divides 256 divides the 65536 they wrap at.

* `QueueMapped` — the three structures are in RAM
* `chain`, `txFrame` — the bytes a transmit chain stands for
* `completeUsed_spec` — publishing one used element
* `Answered` — the used ring after a number of answers, and `Answered.publish`
-/

namespace M68kMachine

namespace VirtioNetStub

open VirtioNet GuestMemory

variable {ν μ : Type}

/-! ## The cells of a queue -/

def descRegion (q : VirtQueueState) : Region := ⟨q.descAddr.toNat, 16 * q.size.toNat⟩

def availRegion (q : VirtQueueState) : Region := ⟨q.driverAddr.toNat, 4 + 2 * q.size.toNat⟩

def usedRegion (q : VirtQueueState) : Region := ⟨q.deviceAddr.toNat, 4 + 8 * q.size.toNat⟩

/-- Where the head of the `c`-th chain since the queue was enabled is made available. -/
def availCell (q : VirtQueueState) (c : Nat) : Region :=
  ⟨q.driverAddr.toNat + 4 + 2 * (c % q.size.toNat), 2⟩

/-- The `id` of the used element that answers the `c`-th chain. -/
def idCell (q : VirtQueueState) (c : Nat) : Region :=
  ⟨q.deviceAddr.toNat + 4 + 8 * (c % q.size.toNat), 4⟩

/-- The `len` of the used element that answers the `c`-th chain. -/
def lenCell (q : VirtQueueState) (c : Nat) : Region :=
  ⟨q.deviceAddr.toNat + 4 + 8 * (c % q.size.toNat) + 4, 4⟩

def usedIdxCell (q : VirtQueueState) : Region := ⟨q.deviceAddr.toNat + 2, 2⟩

/-- The queue with `c` chains consumed, and as many answered. -/
def advanced (q : VirtQueueState) (c : Nat) : VirtQueueState :=
  (q.setLastAvailIdx (BitVec.ofNat 16 c)).setUsedIdx (BitVec.ofNat 16 c)

/-- The queues, the status and the receive buffers of two devices agree. -/
structure SameDevice (v w : VirtioNetStub ν) : Prop where
  queues : w.queues = v.queues
  deviceStatus : w.deviceStatus = v.deviceStatus
  rxFrameBuf : w.rxFrameBuf = v.rxFrameBuf

theorem setQueue_self (v : VirtioNetStub ν) (i : Fin numQueues) :
    v.setQueue i (v.queues i) = v := by
  unfold setQueue
  congr 1
  funext j
  split
  · rename_i h
    rw [h]
  · rfl

@[simp] theorem setQueue_queues_self (v : VirtioNetStub ν) (i : Fin numQueues)
    (q : VirtQueueState) : (v.setQueue i q).queues i = q := if_pos rfl

section Cells

variable [GuestMemory μ] {addr : Quad} {x : Nat} {mem : μ} {q : VirtQueueState} {c k : Nat}
  {rs : List Region} {mem' mem₀ : μ}

/-- The head of the `c`-th chain, as the avail ring has it now. -/
def headAt (mem : μ) (q : VirtQueueState) (c : Nat) : Option Word :=
  (bytesAt mem (availCell q c)).map fun bs => le16 bs 0

/-- `avail.idx`. -/
def availIdxOf (mem : μ) (q : VirtQueueState) : Option Word :=
  (bytesAt mem ⟨q.driverAddr.toNat + 2, 2⟩).map fun bs => le16 bs 0

/-- How many chains are available and not yet consumed. -/
def available (mem : μ) (q : VirtQueueState) : Nat :=
  match availIdxOf mem q with
  | some idx => (idx - q.lastAvailIdx).toNat
  | none => 0

/-- The size is a power of two up to 256, and the table and the rings lie in RAM. -/
structure QueueMapped (mem : μ) (q : VirtQueueState) : Prop where
  size_dvd : q.size.toNat ∣ 256
  desc_fits : (descRegion q).Fits
  avail_fits : (availRegion q).Fits
  used_fits : (usedRegion q).Fits
  desc_inRam : InRam mem (descRegion q)
  avail_inRam : InRam mem (availRegion q)
  used_inRam : InRam mem (usedRegion q)

namespace QueueMapped

variable {mem : μ} {q : VirtQueueState}

theorem size_pos (h : QueueMapped mem q) : 0 < q.size.toNat :=
  Nat.pos_of_dvd_of_pos h.size_dvd (by decide)

theorem size_le (h : QueueMapped mem q) : q.size.toNat ≤ 256 :=
  Nat.le_of_dvd (by decide) h.size_dvd

theorem slot_lt (h : QueueMapped mem q) (c : Nat) : c % q.size.toNat < q.size.toNat :=
  Nat.mod_lt c h.size_pos

/-- The slot of a 16-bit ring index is the slot of the count it stands for, wrap included. -/
theorem toNat_slot (h : QueueMapped mem q) (c : Nat) :
    (BitVec.ofNat 16 c % q.size).toNat = c % q.size.toNat := by
  rw [BitVec.toNat_umod, BitVec.toNat_ofNat]
  exact Nat.mod_mod_of_dvd c (Nat.dvd_trans h.size_dvd (by decide))

/-- Two counts less than a ring apart have different slots. -/
theorem slot_ne {size i j : Nat} (hij : i < j) (hj : j < i + size) :
    i % size ≠ j % size := by
  intro heq
  have hdvd : size ∣ j - i := Nat.dvd_of_mod_eq_zero (Nat.sub_mod_eq_zero_of_mod_eq heq.symm)
  have := Nat.le_of_dvd (by omega) hdvd
  omega

theorem effectiveQueueSize_eq {v : VirtioNetStub ν} {i : Fin numQueues}
    (h : QueueMapped mem (v.queues i)) : v.effectiveQueueSize i = (v.queues i).size := by
  have hpos := h.size_pos
  have hle := h.size_le
  unfold effectiveQueueSize
  rw [if_neg, if_neg]
  · rw [BitVec.lt_def]
    exact Nat.not_lt.mpr hle
  · rw [BitVec.lt_def]
    exact Nat.not_lt.mpr hpos

theorem frame {rs : List Region} {mem' : μ} (h : QueueMapped mem q) (hf : Frame rs mem mem') :
    QueueMapped mem' q :=
  { h with
    desc_inRam := hf.inRam h.desc_inRam
    avail_inRam := hf.inRam h.avail_inRam
    used_inRam := hf.inRam h.used_inRam }

/-- The cells of a queue are where they were, whatever its indices. -/
theorem advanced (h : QueueMapped mem q) (c : Nat) : QueueMapped mem (advanced q c) :=
  ⟨h.size_dvd, h.desc_fits, h.avail_fits, h.used_fits, h.desc_inRam, h.avail_inRam,
    h.used_inRam⟩

theorem availCell_inside (h : QueueMapped mem q) (c : Nat) :
    (availCell q c).Inside (availRegion q) := by
  have := h.slot_lt c
  unfold Region.Inside availCell availRegion
  simp only
  omega

theorem availIdx_inside (q : VirtQueueState) :
    (⟨q.driverAddr.toNat + 2, 2⟩ : Region).Inside (availRegion q) := by
  unfold Region.Inside availRegion
  simp only
  omega

/-- The whole used element of the `c`-th chain lies in the used ring. -/
theorem elem_inside (h : QueueMapped mem q) (c : Nat) :
    (⟨q.deviceAddr.toNat + 4 + 8 * (c % q.size.toNat), 8⟩ : Region).Inside (usedRegion q) := by
  have := h.slot_lt c
  unfold Region.Inside usedRegion
  simp only
  omega

theorem idCell_inside (h : QueueMapped mem q) (c : Nat) : (idCell q c).Inside (usedRegion q) := by
  have := h.slot_lt c
  unfold Region.Inside idCell usedRegion
  simp only
  omega

theorem lenCell_inside (h : QueueMapped mem q) (c : Nat) :
    (lenCell q c).Inside (usedRegion q) := by
  have := h.slot_lt c
  unfold Region.Inside lenCell usedRegion
  simp only
  omega

theorem usedIdx_inside (q : VirtQueueState) : (usedIdxCell q).Inside (usedRegion q) := by
  unfold Region.Inside usedIdxCell usedRegion
  simp only
  omega

end QueueMapped

/-! ## Ring addresses -/

theorem toU32_eq (h : addr.toNat = x) (hx : x < 0x100000000) :
    toU32 addr = some (BitVec.ofNat 32 x) := by
  unfold toU32
  rw [if_pos (by omega)]
  congr 1
  apply BitVec.eq_of_toNat_eq
  rw [BitVec.toNat_setWidth, h, BitVec.toNat_ofNat]

theorem gmReadU16_eq (h : addr.toNat = x) (hx : x < 0x100000000) :
    gmReadU16 mem addr = (bytesAt mem ⟨x, 2⟩).map fun bs => le16 bs 0 := by
  unfold gmReadU16 bytesAt
  rw [toU32_eq h hx, Option.bind_eq_bind, Option.bind_some]
  change (ramSlice mem (BitVec.ofNat 32 x) 2).bind _ = (ramSlice mem (BitVec.ofNat 32 x) 2).map _
  cases ramSlice mem (BitVec.ofNat 32 x) 2 <;> rfl

theorem gmWriteU16_eq (value : Word) (h : addr.toNat = x) (hx : x < 0x100000000) :
    gmWriteU16 mem addr value = store mem (BitVec.ofNat 32 x) (toLE16 value) := by
  unfold gmWriteU16
  rw [toU32_eq h hx]
  rfl

theorem gmWriteU32_eq (value : Long) (h : addr.toNat = x) (hx : x < 0x100000000) :
    gmWriteU32 mem addr value = store mem (BitVec.ofNat 32 x) (toLE32 value) := by
  unfold gmWriteU32
  rw [toU32_eq h hx]
  rfl

theorem checkedAdd_eq {a b : Quad} (h : a.toNat + b.toNat < 0x10000000000000000) :
    ∃ s, checkedAdd a b = some s ∧ s.toNat = a.toNat + b.toNat := by
  refine ⟨a + b, ?_, ?_⟩
  · unfold checkedAdd BitVec.uaddOverflow
    rw [if_neg]
    simp only [ge_iff_le, decide_eq_true_eq, Nat.not_le]
    exact h
  · rw [BitVec.toNat_add]
    exact Nat.mod_eq_of_lt h

theorem checkedMul_eq {a b : Quad} (h : a.toNat * b.toNat < 0x10000000000000000) :
    ∃ s, checkedMul a b = some s ∧ s.toNat = a.toNat * b.toNat := by
  refine ⟨a * b, ?_, ?_⟩
  · unfold checkedMul BitVec.umulOverflow
    rw [if_neg]
    simp only [ge_iff_le, decide_eq_true_eq, Nat.not_le]
    exact h
  · rw [BitVec.toNat_mul]
    exact Nat.mod_eq_of_lt h

/-- `base + off + scale * pos`, the address of a ring cell, without overflow. -/
theorem cellAddr_eq (base off scale : Quad) (pos : Word) (hbase : base.toNat < 0x100000000)
    (hoff : off.toNat ≤ 4) (hscale : scale.toNat ≤ 16) :
    ∃ addr, ((checkedAdd base off).bind fun ring =>
        (checkedMul scale (pos.setWidth 64)).bind fun d => checkedAdd ring d) = some addr ∧
      addr.toNat = base.toNat + off.toNat + scale.toNat * pos.toNat := by
  have hpos := pos.isLt
  have hwide : (pos.setWidth 64 : Quad).toNat = pos.toNat := by
    rw [BitVec.toNat_setWidth]
    omega
  have hmul : scale.toNat * pos.toNat ≤ 16 * 65536 := Nat.mul_le_mul hscale (by omega)
  obtain ⟨r, hr, hrn⟩ := checkedAdd_eq (a := base) (b := off) (by omega)
  obtain ⟨d, hd, hdn⟩ := checkedMul_eq (a := scale) (b := pos.setWidth 64) (by
    rw [hwide]
    omega)
  rw [hwide] at hdn
  obtain ⟨s, hs, hsn⟩ := checkedAdd_eq (a := r) (b := d) (by omega)
  exact ⟨s, by rw [hr, Option.bind_some, hd, Option.bind_some, hs], by omega⟩

/-! ## Reading the avail ring and the table -/

theorem gmReadU16_availIdx (h : QueueMapped mem q) :
    gmReadU16 mem (q.driverAddr + 2) = availIdxOf mem q := by
  have hfits := h.avail_fits
  have hpos := h.size_pos
  unfold Region.Fits availRegion at hfits
  simp only at hfits
  refine gmReadU16_eq ?_ (by omega)
  rw [BitVec.toNat_add]
  exact Nat.mod_eq_of_lt (by
    change q.driverAddr.toNat + 2 < _
    omega)

theorem gmReadU16_head (h : QueueMapped mem q) (c : Nat) :
    (availRingSlotAddr q.driverAddr (BitVec.ofNat 16 c % q.size)).bind (gmReadU16 mem) =
      headAt mem q c := by
  have hfits := h.avail_fits
  have hslot := h.slot_lt c
  unfold Region.Fits availRegion at hfits
  simp only at hfits
  obtain ⟨addr, haddr, hn⟩ := cellAddr_eq q.driverAddr 4 2 (BitVec.ofNat 16 c % q.size)
    (by omega) (by decide) (by decide)
  rw [h.toNat_slot] at hn
  unfold availRingSlotAddr
  rw [Option.bind_eq_bind, haddr, Option.bind_some]
  exact gmReadU16_eq hn (by omega)

/-- The counter `avail.idx` stands for, from the device's own. -/
theorem availIdxOf_eq (h : QueueMapped mem q) (hc : q.lastAvailIdx = BitVec.ofNat 16 c) :
    availIdxOf mem q = some (BitVec.ofNat 16 (c + available mem q)) := by
  obtain ⟨bs, hbs⟩ := h.avail_inRam.bytesAt (QueueMapped.availIdx_inside q)
  unfold available
  have hidx : availIdxOf mem q = some (le16 bs 0) := by
    unfold availIdxOf
    rw [hbs]
    rfl
  rw [hidx]
  simp only
  rw [BitVec.ofNat_add, ← hc, BitVec.ofNat_toNat, BitVec.setWidth_eq, BitVec.add_comm,
    BitVec.sub_add_cancel]

theorem available_lt (mem : μ) (q : VirtQueueState) : available mem q < 0x10000 := by
  unfold available
  split
  · exact BitVec.isLt _
  · decide

theorem ofNat_succ (c : Nat) : BitVec.ofNat 16 c + 1 = BitVec.ofNat 16 (c + 1) := by
  rw [BitVec.ofNat_add]
  rfl

/-- Short of the available chains the 16-bit indices differ. -/
theorem ofNat_ne {n : Nat} (hk : k < n) (hn : n < 0x10000) :
    BitVec.ofNat 16 (c + n) ≠ BitVec.ofNat 16 (c + k) := by
  intro heq
  have hnat := congrArg BitVec.toNat heq
  rw [BitVec.toNat_ofNat, BitVec.toNat_ofNat] at hnat
  omega

/-- One entry of the descriptor table. -/
def descCell (q : VirtQueueState) (idx : Word) : Region :=
  ⟨q.descAddr.toNat + 16 * idx.toNat, 16⟩

theorem readDesc_eq (h : QueueMapped mem q) {idx : Word} (hidx : idx < q.size) :
    readDesc mem q.descAddr q.size idx =
      (bytesAt mem (descCell q idx)).map fun s =>
        { addr := le64 s 0, len := le32 s 8, flags := le16 s 12, next := le16 s 14 } := by
  have hfits := h.desc_fits
  have hlt : idx.toNat < q.size.toNat := BitVec.lt_def.mp hidx
  unfold Region.Fits descRegion at hfits
  simp only at hfits
  have hwide : (idx.setWidth 64 : Quad).toNat = idx.toNat := by
    rw [BitVec.toNat_setWidth]
    omega
  have hsixteen : (16 : Quad).toNat = 16 := rfl
  obtain ⟨d, hd, hdn⟩ := checkedMul_eq (a := (16 : Quad)) (b := idx.setWidth 64) (by
    rw [hwide, hsixteen]
    omega)
  rw [hwide, hsixteen] at hdn
  obtain ⟨e, he, hen⟩ := checkedAdd_eq (a := q.descAddr) (b := d) (by omega)
  unfold readDesc
  rw [if_neg (BitVec.not_le.mpr hidx)]
  rw [Option.bind_eq_bind, hd, Option.bind_some, Option.bind_eq_bind, he, Option.bind_some,
    toU32_eq (x := q.descAddr.toNat + 16 * idx.toNat) (by omega) (by omega),
    Option.bind_eq_bind, Option.bind_some]
  unfold bytesAt descCell
  change (ramSlice mem (BitVec.ofNat 32 _) 16).bind _ = (ramSlice mem (BitVec.ofNat 32 _) 16).map _
  cases ramSlice mem (BitVec.ofNat 32 (q.descAddr.toNat + 16 * idx.toNat)) 16 <;> rfl

/-- A table that is not written reads as before. -/
theorem readDesc_frame (h : QueueMapped mem q) (hf : Frame rs mem mem')
    (hdis : ∀ t ∈ rs, (descRegion q).Disjoint t) (idx : Word) :
    readDesc mem' q.descAddr q.size idx = readDesc mem q.descAddr q.size idx := by
  by_cases hidx : idx < q.size
  · have hlt : idx.toNat < q.size.toNat := BitVec.lt_def.mp hidx
    have hin : (descCell q idx).Inside (descRegion q) := by
      unfold Region.Inside descCell descRegion
      simp only
      omega
    rw [readDesc_eq h hidx, readDesc_eq (h.frame hf) hidx, hf.bytes (descCell q idx)]
    · exact h.desc_fits.inside hin (Nat.succ_pos _)
    · intro t ht
      exact (hdis t ht).mono hin ⟨Nat.le_refl _, Nat.le_refl _⟩
  · unfold readDesc
    rw [if_pos (BitVec.not_lt.mp hidx), if_pos (BitVec.not_lt.mp hidx)]

/-- An avail ring that is not written reads as before. -/
theorem headAt_frame (h : QueueMapped mem q) (hf : Frame rs mem mem')
    (hdis : ∀ t ∈ rs, (availRegion q).Disjoint t) (c : Nat) : headAt mem' q c = headAt mem q c := by
  unfold headAt
  rw [hf.bytes]
  · exact h.avail_fits.inside (h.availCell_inside c) (Nat.succ_pos _)
  · intro t ht
    exact (hdis t ht).mono (h.availCell_inside c) ⟨Nat.le_refl _, Nat.le_refl _⟩

theorem availIdxOf_frame (h : QueueMapped mem q) (hf : Frame rs mem mem')
    (hdis : ∀ t ∈ rs, (availRegion q).Disjoint t) : availIdxOf mem' q = availIdxOf mem q := by
  unfold availIdxOf
  rw [hf.bytes]
  · exact h.avail_fits.inside (QueueMapped.availIdx_inside q) (Nat.succ_pos _)
  · intro t ht
    exact (hdis t ht).mono (QueueMapped.availIdx_inside q) ⟨Nat.le_refl _, Nat.le_refl _⟩

theorem isSome_headAt (h : QueueMapped mem q) (c : Nat) : ∃ head, headAt mem q c = some head := by
  obtain ⟨bs, hbs⟩ := h.avail_inRam.bytesAt (h.availCell_inside c)
  exact ⟨le16 bs 0, by unfold headAt; rw [hbs]; rfl⟩

/-- `avail.idx` during a pass that does not write the avail ring. -/
theorem gmReadU16_avail (h : QueueMapped mem₀ q) (hc : q.lastAvailIdx = BitVec.ofNat 16 c)
    (hf : Frame rs mem₀ mem) (hdis : ∀ t ∈ rs, (availRegion q).Disjoint t) :
    gmReadU16 mem (q.driverAddr + 2) = some (BitVec.ofNat 16 (c + available mem₀ q)) := by
  rw [gmReadU16_availIdx (h.frame hf), availIdxOf_frame h hf hdis, availIdxOf_eq h hc]

/-- The next head during a pass that does not write the avail ring. -/
theorem gmReadU16_slot (h : QueueMapped mem₀ q) (hf : Frame rs mem₀ mem)
    (hdis : ∀ t ∈ rs, (availRegion q).Disjoint t) (c : Nat) :
    (availRingSlotAddr q.driverAddr (BitVec.ofNat 16 c % q.size)).bind (gmReadU16 mem) =
      headAt mem₀ q c := by
  rw [gmReadU16_head (h.frame hf), headAt_frame h hf hdis]

/-! ## Publishing used elements -/

/-- One used element stored at the slot of the `c`-th chain, and `used.idx` after it. -/
structure Published (mem mem' : μ) (q : VirtQueueState) (c : Nat) (id len : Long) : Prop where
  id : bytesAt mem' (idCell q c) = some (toLE32 id)
  len : bytesAt mem' (lenCell q c) = some (toLE32 len)
  idx : bytesAt mem' (usedIdxCell q) = some (toLE16 (BitVec.ofNat 16 (c + 1)))
  frame : Frame [⟨q.deviceAddr.toNat + 4 + 8 * (c % q.size.toNat), 8⟩, usedIdxCell q] mem mem'

variable [LawfulGuestMemory μ] {answer : Nat → Long × Long}

/-- A granted store over a cell of a mapped region. -/
theorem store_cell {r t : Region} (hin : InRam mem r) (hfits : r.Fits) (ht : t.Inside r)
    (bs : List Byte) (hbs : bs ≠ []) (hlen : bs.length = t.len) :
    ∃ mem', store mem (BitVec.ofNat 32 t.start) bs = some mem' ∧
      bytesAt mem' t = some bs ∧ Frame [t] mem mem' := by
  have hpos : 0 < t.len := hlen ▸ List.length_pos_iff.mpr hbs
  obtain ⟨hstart, htlen, -⟩ := hfits.inside ht hpos
  have hnat : (BitVec.ofNat 32 t.start).toNat = t.start := by
    rw [BitVec.toNat_ofNat]
    exact Nat.mod_eq_of_lt hstart
  have hregion : t = ⟨(BitVec.ofNat 32 t.start).toNat, bs.length⟩ := by rw [hnat, hlen]
  obtain ⟨mem', hstore⟩ : ∃ mem', store mem (BitVec.ofNat 32 t.start) bs = some mem' := by
    rw [← Option.isSome_iff_exists, isSome_store, hlen]
    exact hin t ht
  refine ⟨mem', hstore, bytesAt_store_self hregion (by omega) hstore, ?_⟩
  have hframe := frame_store hbs (by omega) hstore
  rwa [← hregion] at hframe

/-- **Publishing a used element** on a mapped queue is granted, and does just that. -/
theorem completeUsed_spec {v : VirtioNetStub ν} {i : Fin numQueues}
    (h : QueueMapped mem (v.queues i)) (hused : (v.queues i).usedIdx = BitVec.ofNat 16 c)
    (id : Word) (len : Long) :
    ∃ mem', completeUsed v mem i id len =
        (true,
          (v.setQueue i ((v.queues i).setUsedIdx (BitVec.ofNat 16 (c + 1)))).raiseUsedIrq,
          mem') ∧
      Published mem mem' (v.queues i) c (id.setWidth 32) len := by
  have hfits := h.used_fits
  have hslot := h.slot_lt c
  unfold Region.Fits usedRegion at hfits
  simp only at hfits
  generalize hq : v.queues i = q at *
  obtain ⟨addr, haddr, hn⟩ := cellAddr_eq q.deviceAddr 4 8 (BitVec.ofNat 16 c % q.size)
    (by omega) (by decide) (by decide)
  rw [h.toNat_slot] at hn
  have hid : addr.toNat = (idCell q c).start := hn
  have hlen : (addr + 4).toNat = (lenCell q c).start := by
    rw [BitVec.toNat_add, hn]
    exact Nat.mod_eq_of_lt (by
      change q.deviceAddr.toNat + 4 + 8 * (c % q.size.toNat) + 4 < _
      omega)
  have hidx : (q.deviceAddr + 2).toNat = (usedIdxCell q).start := by
    rw [BitVec.toNat_add]
    exact Nat.mod_eq_of_lt (by
      change q.deviceAddr.toNat + 2 < _
      omega)
  -- The three stores, in the order the device makes them.
  obtain ⟨m₁, hs₁, hb₁, hf₁⟩ := store_cell h.used_inRam h.used_fits (h.idCell_inside c)
    (toLE32 (id.setWidth 32)) (by simp [toLE32]) rfl
  obtain ⟨m₂, hs₂, hb₂, hf₂⟩ := store_cell (hf₁.inRam h.used_inRam) h.used_fits
    (h.lenCell_inside c) (toLE32 len) (by simp [toLE32]) rfl
  obtain ⟨m₃, hs₃, hb₃, hf₃⟩ := store_cell (hf₂.inRam (hf₁.inRam h.used_inRam)) h.used_fits
    (QueueMapped.usedIdx_inside q) (toLE16 (BitVec.ofNat 16 (c + 1))) (by simp [toLE16]) rfl
  have hsize : v.effectiveQueueSize i = q.size := by
    rw [← hq]
    exact QueueMapped.effectiveQueueSize_eq (hq ▸ h)
  refine ⟨m₃, ?_, ?_⟩
  · unfold completeUsed usedRingElemAddr
    simp only [hq, hsize, hused, Option.bind_eq_bind]
    rw [haddr]
    simp only
    rw [gmWriteU32_eq _ hid (by unfold idCell; simp only; omega), hs₁]
    simp only
    rw [gmWriteU32_eq _ hlen (by unfold lenCell; simp only; omega), hs₂]
    simp only
    rw [gmWriteU16_eq _ hidx (by unfold usedIdxCell; simp only; omega),
      ofNat_succ, hs₃]
  · have hdis : ∀ r, r = idCell q c ∨ r = lenCell q c → r.Fits ∧ r.Disjoint (usedIdxCell q) := by
      rintro r (rfl | rfl)
      · refine ⟨h.used_fits.inside (h.idCell_inside c) (Nat.succ_pos _), ?_⟩
        unfold Region.Disjoint idCell usedIdxCell
        simp only
        omega
      · refine ⟨h.used_fits.inside (h.lenCell_inside c) (Nat.succ_pos _), ?_⟩
        unfold Region.Disjoint lenCell usedIdxCell
        simp only
        omega
    have hcells : (idCell q c).Disjoint (lenCell q c) := by
      unfold Region.Disjoint idCell lenCell
      simp only
      omega
    have helem : (idCell q c).Inside ⟨q.deviceAddr.toNat + 4 + 8 * (c % q.size.toNat), 8⟩ ∧
        (lenCell q c).Inside ⟨q.deviceAddr.toNat + 4 + 8 * (c % q.size.toNat), 8⟩ := by
      unfold Region.Inside idCell lenCell
      simp only
      omega
    constructor
    · rw [hf₃.bytes _ (hdis _ (.inl rfl)).1 (by simpa using (hdis _ (.inl rfl)).2),
        hf₂.bytes _ (hdis _ (.inl rfl)).1 (by simpa using hcells), hb₁]
    · rw [hf₃.bytes _ (hdis _ (.inr rfl)).1 (by simpa using (hdis _ (.inr rfl)).2), hb₂]
    · exact hb₃
    · refine (hf₁.widen ?_).trans ((hf₂.widen ?_).trans (hf₃.widen ?_))
      · simpa using .inl helem.1
      · simpa using .inl helem.2
      · intro r hr
        exact ⟨r, List.mem_cons_of_mem _ hr, Nat.le_refl _, Nat.le_refl _⟩

/-- The used ring `k` chains after count `c`: the latest answers in their slots, and the count. -/
structure Answered (mem₀ mem : μ) (q : VirtQueueState) (c k : Nat)
    (answer : Nat → Long × Long) : Prop where
  elem : ∀ j < k, k ≤ j + q.size.toNat →
    bytesAt mem (idCell q (c + j)) = some (toLE32 (answer j).1) ∧
      bytesAt mem (lenCell q (c + j)) = some (toLE32 (answer j).2)
  idx : bytesAt mem (usedIdxCell q) =
    if k = 0 then bytesAt mem₀ (usedIdxCell q) else some (toLE16 (BitVec.ofNat 16 (c + k)))

omit [LawfulGuestMemory μ] in
theorem Answered.zero (mem : μ) (q : VirtQueueState) (c : Nat) (answer : Nat → Long × Long) :
    Answered mem mem q c 0 answer :=
  ⟨fun _ hj => absurd hj (Nat.not_lt_zero _), rfl⟩

omit [LawfulGuestMemory μ] in
theorem Answered.congr {answer' : Nat → Long × Long} (h : Answered mem₀ mem q c k answer)
    (heq : ∀ j < k, answer' j = answer j) : Answered mem₀ mem q c k answer' :=
  ⟨fun j hj hk => by rw [heq j hj]; exact h.elem j hj hk, h.idx⟩

omit [LawfulGuestMemory μ] in
/-- Stores outside the used ring leave the answers standing. -/
theorem Answered.frame (h : Answered mem₀ mem q c k answer) (hq : QueueMapped mem q)
    (hf : Frame rs mem mem') (hdis : ∀ t ∈ rs, (usedRegion q).Disjoint t) :
    Answered mem₀ mem' q c k answer := by
  have hsame : ∀ r : Region, r.Inside (usedRegion q) → 0 < r.len →
      bytesAt mem' r = bytesAt mem r := by
    intro r hin hpos
    refine hf.bytes r (hq.used_fits.inside hin hpos) fun t ht => ?_
    exact (hdis t ht).mono hin ⟨Nat.le_refl _, Nat.le_refl _⟩
  constructor
  · intro j hj hk
    rw [hsame _ (hq.idCell_inside _) (Nat.succ_pos _),
      hsame _ (hq.lenCell_inside _) (Nat.succ_pos _)]
    exact h.elem j hj hk
  · rw [hsame _ (QueueMapped.usedIdx_inside q) (Nat.succ_pos _)]
    exact h.idx

omit [LawfulGuestMemory μ] in
/-- **One more answer** takes the next slot and leaves the others that still have one. -/
theorem Answered.publish (h : Answered mem₀ mem q c k answer) (hq : QueueMapped mem q)
    (hp : Published mem mem' q (c + k) (answer k).1 (answer k).2) :
    Answered mem₀ mem' q c (k + 1) answer := by
  constructor
  · intro j hj hk
    by_cases hlast : j = k
    · subst hlast
      exact ⟨hp.id, hp.len⟩
    · have hne : (c + j) % q.size.toNat ≠ (c + k) % q.size.toNat :=
        QueueMapped.slot_ne (by omega) (by omega)
      have hkeep : ∀ r : Region,
          r.Inside ⟨q.deviceAddr.toNat + 4 + 8 * ((c + j) % q.size.toNat), 8⟩ →
          r.Inside (usedRegion q) → 0 < r.len → bytesAt mem' r = bytesAt mem r := by
        intro r helem hin hpos
        refine hp.frame.bytes r (hq.used_fits.inside hin hpos) ?_
        unfold Region.Inside at helem
        simp only [List.mem_cons, List.not_mem_nil, or_false, forall_eq_or_imp, forall_eq]
        unfold Region.Disjoint usedIdxCell
        simp only at helem ⊢
        omega
      obtain ⟨hid, hlen⟩ := h.elem j (by omega) (by omega)
      have helem : (idCell q (c + j)).Inside
            ⟨q.deviceAddr.toNat + 4 + 8 * ((c + j) % q.size.toNat), 8⟩ ∧
          (lenCell q (c + j)).Inside
            ⟨q.deviceAddr.toNat + 4 + 8 * ((c + j) % q.size.toNat), 8⟩ := by
        unfold Region.Inside idCell lenCell
        simp only
        omega
      rw [hkeep _ helem.1 (hq.idCell_inside _) (Nat.succ_pos _),
        hkeep _ helem.2 (hq.lenCell_inside _) (Nat.succ_pos _)]
      exact ⟨hid, hlen⟩
  · rw [if_neg (Nat.succ_ne_zero k)]
    exact hp.idx

end Cells

end VirtioNetStub

end M68kMachine
