import M68kMachine.Drivers.VirtionetLife
import M68kMachine.Library.BumpAllocator
import M68kMachine.Properties.VNetSlots

/-!
# The rings after DevInit

`setup_queue` zeroes the rings, every transmit slot is free, and every receive buffer is posted
once.

* `DmaGranted`, `placed_of_granted` — the memory asked for, and the rings in it
* `zeroRing_spec` — a zeroed ring
* `PostedTo` — the receive ring while its buffers are being posted
* `Slots.start` — every descriptor is in one place before the first step
-/

namespace M68kMachine

namespace VNet

open GuestMemory

variable {μ : Type} [GuestMemory μ] [LawfulGuestMemory μ] {rings : QueueId → VRing} {mem : μ}
  {n : Nat} {devsize : Word} {dma : Dma} {q : VNetQueue} {mem' : μ} {rxSize txSize : Word}
  {rx tx : Dma}

/-! ## The memory of the rings -/

/-- Where an allocated block is. -/
def Block.region (b : Block) : Region := ⟨b.addr.toNat, b.size.toNat⟩

/-- The block a part was allocated in: `setup_queue` asks for enough to align the rings. -/
def Part.block (devsize : QueueId → Word) (dma : QueueId → Dma) : Part → Block
  | .desc i => (dma i).desc (queueSize (devsize i))
  | .avail i => (dma i).avail (queueSize (devsize i))
  | .used i => (dma i).used (queueSize (devsize i))
  | .buf i k => ⟨(dma i).buf k, BitVec.ofNat 32 rxbufSize⟩

/-- The blocks that are asked for. -/
def Part.Asked (devsize : QueueId → Word) : Part → Prop
  | .buf i k => k < (queueSize (devsize i)).toNat
  | _ => True

/-- Each block is as long as was asked for, in RAM, and apart from the others. -/
structure DmaGranted (devsize : QueueId → Word) (dma : QueueId → Dma) (mem : μ) : Prop where
  fits : ∀ p : Part, p.Asked devsize → (p.block devsize dma).region.Fits
  inRam : ∀ p : Part, p.Asked devsize → InRam mem (p.block devsize dma).region
  apart : ∀ p p' : Part, p.Asked devsize → p'.Asked devsize → p ≠ p' →
    (p.block devsize dma).region.Disjoint (p'.block devsize dma).region

/-- The ring that `setup_queue` lays out. -/
def ringOf (qsize : Word) (dma : Dma) : VRing :=
  ⟨qsize, alignUp dma.descRaw Vring.descAlign, alignUp dma.availRaw Vring.availAlign,
    alignUp dma.usedRaw Vring.usedAlign, dma.buf⟩

/-- An aligned address is not before the block, and no further in than was asked for. -/
theorem alignUp_within (raw align : Long) {k : Nat} (hlow : (align - 1).toNat = 2 ^ k - 1)
    (hhigh : ~~~(align - 1) = BitVec.allOnes 32 <<< k) (hfits : raw.toNat + (2 ^ k - 1) < 2 ^ 32) :
    raw.toNat ≤ (alignUp raw align).toNat ∧
      (alignUp raw align).toNat ≤ raw.toNat + (2 ^ k - 1) := by
  have hrounded : (alignUp raw align).toNat = BumpAllocator.alignUp raw.toNat (2 ^ k) := by
    unfold alignUp
    rw [hhigh]
    exact BumpAllocator.toNat_add_and_high _ _ hlow hfits
  rw [hrounded]
  exact ⟨BumpAllocator.le_alignUp (Nat.two_pow_pos k), BumpAllocator.alignUp_le _ _⟩

theorem toNat_setWidth_mul_add (qsize : Word) {n k : Long} (hn : n.toNat ≤ 16)
    (hk : k.toNat ≤ 32) : (qsize.setWidth 32 * n + k).toNat = qsize.toNat * n.toNat + k.toNat := by
  have hlt := qsize.isLt
  have hmul : qsize.toNat * n.toNat ≤ 65535 * 16 := Nat.mul_le_mul (by omega) hn
  have hwide : (qsize.setWidth 32).toNat = qsize.toNat := by
    rw [BitVec.toNat_setWidth]
    exact Nat.mod_eq_of_lt (by omega)
  rw [BitVec.toNat_add, BitVec.toNat_mul, hwide, Nat.mod_eq_of_lt (by omega),
    Nat.mod_eq_of_lt (by omega)]

section Granted

variable {devsize : QueueId → Word} {dma : QueueId → Dma}

/-- The ring lies in its block, the buffer is the whole of it. -/
theorem Part.region_inside (hrings : ∀ i, rings i = ringOf (queueSize (devsize i)) (dma i))
    (hpos : ∀ i, 0 < (queueSize (devsize i)).toNat) (p : Part)
    (hfits : (p.block devsize dma).region.Fits) :
    (VNet.region rings p).Inside (p.block devsize dma).region := by
  unfold Region.Fits Block.region at hfits
  unfold Region.Inside Block.region
  cases p with
  | desc i =>
    have hsize := toNat_setWidth_mul_add (queueSize (devsize i))
      (n := BitVec.ofNat 32 Vring.descSize) (k := Vring.descAlign - 1) (by decide) (by decide)
    have halign := alignUp_within (dma i).descRaw Vring.descAlign (k := 4)
      (by decide) (by decide)
    have hentry : (BitVec.ofNat 32 Vring.descSize).toNat = 16 := rfl
    have hlow : (Vring.descAlign - 1).toNat = 15 := rfl
    simp only [VNet.region, hrings, ringOf, Part.block, Dma.desc] at hfits ⊢
    rw [hsize, hentry, hlow] at hfits ⊢
    have := hpos i
    have := halign (by omega)
    omega
  | avail i =>
    have hsize := toNat_setWidth_mul_add (queueSize (devsize i)) (n := 2)
      (k := 4 + (Vring.availAlign - 1)) (by decide) (by decide)
    have halign := alignUp_within (dma i).availRaw Vring.availAlign (k := 1)
      (by decide) (by decide)
    have hentry : (2 : Long).toNat = 2 := rfl
    have hlow : (4 + (Vring.availAlign - 1)).toNat = 5 := rfl
    have hcomm : 4 + (queueSize (devsize i)).setWidth 32 * 2 + (Vring.availAlign - 1) =
        (queueSize (devsize i)).setWidth 32 * 2 + (4 + (Vring.availAlign - 1)) := by
      rw [BitVec.add_comm 4, BitVec.add_assoc]
    simp only [VNet.region, hrings, ringOf, Part.block, Dma.avail] at hfits ⊢
    rw [hcomm, hsize, hentry, hlow] at hfits ⊢
    have := hpos i
    have := halign (by omega)
    omega
  | used i =>
    have hsize := toNat_setWidth_mul_add (queueSize (devsize i)) (n := Vring.usedElemSize)
      (k := 4 + (Vring.usedAlign - 1)) (by decide) (by decide)
    have halign := alignUp_within (dma i).usedRaw Vring.usedAlign (k := 2)
      (by decide) (by decide)
    have hentry : Vring.usedElemSize.toNat = 8 := rfl
    have hlow : (4 + (Vring.usedAlign - 1)).toNat = 7 := rfl
    have hcomm : 4 + (queueSize (devsize i)).setWidth 32 * Vring.usedElemSize +
        (Vring.usedAlign - 1) =
        (queueSize (devsize i)).setWidth 32 * Vring.usedElemSize + (4 + (Vring.usedAlign - 1)) := by
      rw [BitVec.add_comm 4, BitVec.add_assoc]
    simp only [VNet.region, hrings, ringOf, Part.block, Dma.used] at hfits ⊢
    rw [hcomm, hsize, hentry, hlow] at hfits ⊢
    have := hpos i
    have := halign (by omega)
    omega
  | buf i k =>
    simp only [VNet.region, VRing.bufRegion, hrings, ringOf, Part.block]
    exact ⟨Nat.le_refl _, Nat.le_refl _⟩

omit [LawfulGuestMemory μ] in
/-- **The rings are placed by the memory that was granted.** -/
theorem placed_of_granted (h : DmaGranted devsize dma mem)
    (hrings : ∀ i, rings i = ringOf (queueSize (devsize i)) (dma i))
    (hpos : ∀ i, 0 < (queueSize (devsize i)).toNat) : Placed rings mem := by
  have hasked : ∀ p : Part, p.Valid rings → p.Asked devsize := by
    intro p hp
    cases p with
    | buf i k =>
      have hk : k < (rings i).qsize.toNat := hp
      rwa [hrings] at hk
    | desc i => trivial
    | avail i => trivial
    | used i => trivial
  have hinside : ∀ p : Part, p.Valid rings →
      (VNet.region rings p).Inside (p.block devsize dma).region :=
    fun p hp => p.region_inside hrings hpos (h.fits p (hasked p hp))
  refine ⟨fun p hp => ?_, fun p hp t ht => ?_, fun p p' hp hp' hne => ?_⟩
  · refine (h.fits p (hasked p hp)).inside (hinside p hp) ?_
    cases p with
    | desc i =>
      have := hpos i
      simp only [VNet.region, hrings, ringOf]
      omega
    | avail i => exact Nat.add_pos_left (by decide) _
    | used i => exact Nat.add_pos_left (by decide) _
    | buf i k => exact Nat.succ_pos _
  · have hin := hinside p hp
    exact h.inRam p (hasked p hp) t ⟨hin.1.trans ht.1, ht.2.trans hin.2⟩
  · exact (h.apart p p' (hasked p hp) (hasked p' hp') hne).mono (hinside p hp) (hinside p' hp')

end Granted

/-! ## A zeroed ring -/

theorem zeroRing_spec (h : Laid rings mem) {p : Part} (hp : p.Valid rings) (addr : Long)
    (hregion : region rings p = ⟨addr.toNat, 4 + n⟩) (hn : 0 < n) :
    Touches rings [p] mem (zeroRing mem addr n) ∧ rdLe16 (zeroRing mem addr n) (addr + 2) = 0 := by
  have hfits := h.fits p hp
  have hinside : ∀ t : Region, addr.toNat ≤ t.start → t.start + t.len ≤ addr.toNat + (4 + n) →
      t.Inside (region rings p) := by
    intro t hstart hend
    rw [hregion]
    exact ⟨hstart, hend⟩
  rw [hregion] at hfits
  unfold Region.Fits at hfits
  simp only at hfits
  have htwo : (addr + 2).toNat = addr.toNat + 2 := by
    have : (2 : Long).toNat = 2 := rfl
    rw [BitVec.toNat_add]
    omega
  have hfour : (addr + 4).toNat = addr.toNat + 4 := by
    have : (4 : Long).toNat = 4 := rfl
    rw [BitVec.toNat_add]
    omega
  -- The flags, the index, the entries.
  have hflags := hinside ⟨addr.toNat, 2⟩ (Nat.le_refl _) (by simp only; omega)
  have hindex := hinside ⟨addr.toNat + 2, 2⟩ (by simp only; omega) (by simp only; omega)
  have hentries := hinside ⟨addr.toNat + 4, n⟩ (by simp only; omega) (by simp only; omega)
  obtain ⟨-, hframe₁⟩ := wrBytes_spec h hp hflags rfl (toLE16 0) (by simp [toLE16]) rfl
  have h₁ := h.touched hframe₁
  obtain ⟨hidx, hframe₂⟩ := wrBytes_spec h₁ hp hindex htwo (toLE16 0) (by simp [toLE16]) rfl
  have h₂ := h₁.touched hframe₂
  obtain ⟨-, hframe₃⟩ := wrBytes_spec h₂ hp hentries hfour (zeros n)
    (by rw [zeros]; simp; omega) List.length_replicate
  refine ⟨((Touches.of_frame hframe₁ hflags).frame_trans
    (Touches.of_frame hframe₂ hindex)).frame_trans (Touches.of_frame hframe₃ hentries), ?_⟩
  unfold zeroRing wrLe16
  rw [rdLe16_eq, htwo, hframe₃.bytes _ ((h.fits p hp).inside hindex (Nat.succ_pos _)), hidx]
  · exact le16_toLE16 0
  · simp only [List.mem_singleton, forall_eq]
    unfold Region.Disjoint
    simp only
    omega

/-- What `setup_queue` returned, and the rings as they are then. -/
theorem setupQueue_spec {i : QueueId} (hsetup : setupQueue devsize dma mem = some (q, mem'))
    (h : Laid rings mem) (hdesc : q.desc = (rings i).desc) (havail : q.avail = (rings i).avail)
    (hused : q.used = (rings i).used) (hsize : q.qsize = (rings i).qsize) :
    Touches rings [.desc i, .avail i, .used i] mem mem' ∧ availIdx mem' (rings i) = 0 ∧
      usedIdx mem' (rings i) = 0 ∧ q.availIdxShadow = 0 ∧ q.usedIdxSeen = 0 := by
  have hpos := h.size_pos i
  have hmem : mem' = zeroRing (zeroRing (wrBytes mem (rings i).desc
      (zeros ((rings i).qsize.toNat * 16))) (rings i).avail ((rings i).qsize.toNat * 2))
        (rings i).used ((rings i).qsize.toNat * 8) ∧ q.availIdxShadow = 0 ∧ q.usedIdxSeen = 0 := by
    rw [← hdesc, ← havail, ← hused, ← hsize]
    unfold setupQueue at hsetup
    simp only at hsetup
    generalize (if devsize < queueCap then devsize else queueCap) = size at hsetup
    split at hsetup
    · cases hsetup
    · split at hsetup
      · cases hsetup
      · obtain ⟨rfl, rfl⟩ := Prod.mk.inj (Option.some.inj hsetup)
        exact ⟨rfl, rfl, rfl⟩
  obtain ⟨rfl, hzero⟩ := hmem
  have hdescIn : (⟨(rings i).desc.toNat, (rings i).qsize.toNat * 16⟩ : Region).Inside
      (region rings (.desc i)) := by
    unfold Region.Inside region
    simp only
    omega
  obtain ⟨-, hframe⟩ := wrBytes_spec h (p := .desc i) trivial hdescIn rfl
    (zeros ((rings i).qsize.toNat * 16)) (by rw [zeros]; simp; omega) List.length_replicate
  have h₁ := h.touched hframe
  obtain ⟨havailT, havailIdx⟩ := zeroRing_spec h₁ (p := .avail i) trivial (rings i).avail
    (n := (rings i).qsize.toNat * 2) (by rw [region, Nat.mul_comm]) (by omega)
  have h₂ := h₁.touched havailT
  obtain ⟨husedT, husedIdx⟩ := zeroRing_spec h₂ (p := .used i) trivial (rings i).used
    (n := (rings i).qsize.toNat * 8) (by rw [region, Nat.mul_comm]) (by omega)
  refine ⟨((Touches.of_frame hframe hdescIn).trans havailT).trans husedT, ?_, husedIdx, hzero⟩
  rw [availIdx_same h₂ husedT]
  · exact havailIdx
  · intro p hp
    rw [List.mem_singleton.mp hp]
    exact ⟨trivial, by simp⟩

/-! ## Posting the receive buffers -/

/-- The receive ring with the first `k` buffers posted. -/
structure PostedTo (rings : QueueId → VRing) (mem : μ) (k : Nat) (s : VNetQueue × μ) : Prop where
  ring : s.1.toVRing = rings .rx
  shadow : s.1.availIdxShadow = availIdx s.2 (rings .rx)
  posted : posted s.2 (rings .rx) 0 = (List.range k).map (BitVec.ofNat 16)
  touches : Touches rings [.desc .rx, .avail .rx] mem s.2
  seen : s.1.usedIdxSeen = 0

theorem PostedTo.next {k : Nat} {s : VNetQueue × μ} (h : PostedTo rings mem k s)
    (hl : Laid rings mem) (hk : k < (rings .rx).qsize.toNat) :
    PostedTo rings mem (k + 1) (postRxBuffer s k) := by
  have hle := hl.size_le .rx
  have hidx : (BitVec.ofNat 16 k).toNat < (rings .rx).qsize.toNat := by
    rw [BitVec.toNat_ofNat]
    omega
  obtain ⟨htouch, hposted, hcount⟩ := repost (hl.touched h.touches) h.ring h.shadow hidx
    (s.1.bufPtrs k) (BitVec.ofNat 32 rxbufSize) Vring.descFWrite 0
    (by rw [h.posted]; simpa using hk) rfl
  refine ⟨h.ring, hcount.symm, ?_, ?_, h.seen⟩
  · unfold postRxBuffer
    simp only
    rw [hposted, h.posted, List.range_succ, List.map_append]
    rfl
  · exact Touches.frame_trans h.touches htouch

theorem postedTo_foldl (hl : Laid rings mem) (hq : q.toVRing = rings .rx)
    (hshadow : q.availIdxShadow = 0) (hseen : q.usedIdxSeen = 0)
    (hidx : availIdx mem (rings .rx) = 0) {k : Nat} (hk : k ≤ (rings .rx).qsize.toNat) :
    PostedTo rings mem k ((List.range k).foldl postRxBuffer (q, mem)) := by
  induction k with
  | zero =>
    refine ⟨hq, hshadow.trans hidx.symm, ?_, Frame.refl _ _, hseen⟩
    unfold VNet.posted
    rw [List.range_zero, List.foldl_nil, hidx, WrapRing.contents_self]
    rfl
  | succ k ih =>
    rw [List.range_succ, List.foldl_append, List.foldl_cons, List.foldl_nil]
    exact (ih (by omega)).next hl hk

omit [LawfulGuestMemory μ] in
theorem foldl_ring (l : List Nat) (s : VNetQueue × μ) :
    (l.foldl postRxBuffer s).1.toVRing = s.1.toVRing := by
  induction l generalizing s with
  | nil => rfl
  | cons k l ih =>
    rw [List.foldl_cons, ih]
    rfl

/-! ## DevInit -/

/-- What there is of each queue. -/
def perQueue {α : Type} (rx tx : α) : QueueId → α
  | .rx => rx
  | .tx => tx

omit [LawfulGuestMemory μ] in
theorem setupQueue_ring (hsetup : setupQueue devsize dma mem = some (q, mem')) :
    ({ q with bufPtrs := dma.buf } : VNetQueue).toVRing = ringOf (queueSize devsize) dma ∧
      0 < (queueSize devsize).toNat := by
  unfold setupQueue at hsetup
  simp only at hsetup
  change (if queueSize devsize = 0 then none else _) = _ at hsetup
  split at hsetup
  · cases hsetup
  · rename_i hsize
    split at hsetup
    · cases hsetup
    · obtain ⟨rfl, rfl⟩ := Prod.mk.inj (Option.some.inj hsetup)
      exact ⟨rfl, Nat.pos_of_ne_zero fun hzero => hsize (BitVec.eq_of_toNat_eq hzero)⟩

omit [LawfulGuestMemory μ] in
/-- The rings of the driver are those that `setup_queue` laid out. -/
theorem devInit_rings {mac : List Byte} {drv : Driver μ}
    (hinit : devInit rxSize txSize rx tx mac mem = some drv) (i : QueueId) :
    (drv.base.queue i).toVRing =
        ringOf (queueSize (perQueue rxSize txSize i)) (perQueue rx tx i) ∧
      0 < (queueSize (perQueue rxSize txSize i)).toNat := by
  unfold devInit at hinit
  simp only [Option.bind_eq_bind, Option.bind_eq_some_iff, Prod.exists, Option.some.injEq] at hinit
  obtain ⟨rxq₀, mem₁, hrxq, txq₀, mem₂, htxq, txq, hslots, rxq, mem₃, hpost, rfl⟩ := hinit
  obtain ⟨hrxRing, hrxPos⟩ := setupQueue_ring hrxq
  obtain ⟨htxRing, htxPos⟩ := setupQueue_ring htxq
  cases i with
  | rx =>
    refine ⟨?_, hrxPos⟩
    unfold postRxBuffers at hpost
    split at hpost
    · have hfold := foldl_ring (List.range rxq₀.qsize.toNat)
        (({ rxq₀ with bufPtrs := rx.buf }, mem₂) : VNetQueue × μ)
      rw [Option.some.inj hpost] at hfold
      exact hfold.trans hrxRing
    · cases hpost
  | tx =>
    refine ⟨?_, htxPos⟩
    unfold initTxSlots at hslots
    split at hslots
    · obtain rfl := Option.some.inj hslots
      exact htxRing
    · cases hslots

omit [LawfulGuestMemory μ] in
/-- A queue size that is a power of two, capped, divides 8. -/
theorem size_dvd_of_setup (hsetup : setupQueue devsize dma mem = some (q, mem'))
    (hn : devsize.toNat = 2 ^ n) : q.qsize.toNat ∣ 8 := by
  have hsize : q.qsize = if devsize < queueCap then devsize else queueCap := by
    unfold setupQueue at hsetup
    simp only at hsetup
    generalize (if devsize < queueCap then devsize else queueCap) = size at hsetup ⊢
    split at hsetup
    · cases hsetup
    · split at hsetup
      · cases hsetup
      · obtain ⟨rfl, rfl⟩ := Prod.mk.inj (Option.some.inj hsetup)
        rfl
  rw [hsize]
  split
  · rename_i hlt
    have hcap : queueCap.toNat = 2 ^ 3 := rfl
    rw [BitVec.lt_def, hcap, hn] at hlt
    rw [hn]
    exact Nat.pow_dvd_pow 2 (Nat.le_of_lt ((Nat.pow_lt_pow_iff_right (by decide)).mp hlt))
  · exact Nat.dvd_refl 8

/-- The state `DevInit` leaves. -/
structure Started (rings : QueueId → VRing) (drv : Driver μ) : Prop where
  slots : Slots rings drv.base drv.mem (.programmed drv.base) []
  seen : ∀ i, (drv.base.queue i).usedIdxSeen = usedIdx drv.mem (rings i)
  pending : ∀ k, drv.base.txq.pending k = none
  reads : drv.base.unit0.pendingReads = []
  closed : drv.base.unit0.opencnt = 0
  ready : drv.base.ready = true
  replies : drv.replies = []

/-- The rings as they are set up one after the other. -/
theorem slots_of_setup {rxq txq : VNetQueue} {mem₁ mem₂ : μ} {b : VNetBase} (h : Laid rings mem)
    (hring : ∀ i, (b.queue i).toVRing = rings i)
    (hrxq : setupQueue rxSize rx mem = some (rxq, mem₁))
    (htxq : setupQueue txSize tx mem₁ = some (txq, mem₂))
    (hrxRing : b.rxq.toVRing = ({ rxq with bufPtrs := rx.buf } : VNetQueue).toVRing)
    (htx : b.txq = { txq with
      bufPtrs := tx.buf
      slotFree := fun _ => true
      pending := fun _ => none }) (mem₃ : μ)
    (hpost : (List.range rxq.qsize.toNat).foldl postRxBuffer
      ({ rxq with bufPtrs := rx.buf }, mem₂) = (b.rxq, mem₃)) :
    Slots rings b mem₃ (.programmed b) [] ∧
      ∀ i, (b.queue i).usedIdxSeen = usedIdx mem₃ (rings i) := by
  have hrx : rings .rx = ({ rxq with bufPtrs := rx.buf } : VNetQueue).toVRing :=
    (hring .rx).symm.trans hrxRing
  have htxRing : rings .tx = ({ txq with bufPtrs := tx.buf } : VNetQueue).toVRing :=
    (hring .tx).symm.trans (by rw [show b.queue .tx = b.txq from rfl, htx])
  obtain ⟨htouch₁, hrxAvail, hrxUsed, hrxShadow, hrxSeen⟩ := setupQueue_spec (i := .rx) hrxq h
    (by rw [hrx]) (by rw [hrx]) (by rw [hrx]) (by rw [hrx])
  have h₁ := h.touched htouch₁
  obtain ⟨htouch₂, htxAvail, htxUsed, htxShadow, htxSeen⟩ := setupQueue_spec (i := .tx) htxq h₁
    (by rw [htxRing]) (by rw [htxRing]) (by rw [htxRing]) (by rw [htxRing])
  have h₂ := h₁.touched htouch₂
  have hother : ∀ p ∈ [Part.desc .tx, .avail .tx, .used .tx],
      p.Valid rings ∧ p ≠ .avail .rx ∧ p ≠ .used .rx := by
    intro p hp
    simp only [List.mem_cons, List.not_mem_nil, or_false] at hp
    rcases hp with rfl | rfl | rfl <;> exact ⟨trivial, by simp, by simp⟩
  rw [← availIdx_same h₁ htouch₂ fun p hp => ⟨(hother p hp).1, (hother p hp).2.1⟩] at hrxAvail
  rw [← usedIdx_same h₁ htouch₂ fun p hp => ⟨(hother p hp).1, (hother p hp).2.2⟩] at hrxUsed
  have hsize : rxq.qsize.toNat = (rings .rx).qsize.toNat := by rw [hrx]
  have hall := postedTo_foldl h₂ (q := { rxq with bufPtrs := rx.buf }) hrx.symm hrxShadow hrxSeen
    hrxAvail (Nat.le_refl _)
  rw [← hsize, hpost] at hall
  have hposted : ∀ p ∈ [Part.desc .rx, .avail .rx],
      p.Valid rings ∧ p ≠ .avail .tx ∧ ∀ i, p ≠ .used i := by
    intro p hp
    simp only [List.mem_cons, List.not_mem_nil, or_false] at hp
    rcases hp with rfl | rfl <;> exact ⟨trivial, by simp, by simp⟩
  have hused : ∀ i, usedIdx mem₃ (rings i) = 0 := by
    intro i
    rw [usedIdx_same h₂ hall.touches fun p hp => ⟨(hposted p hp).1, (hposted p hp).2.2 i⟩]
    cases i with
    | rx => exact hrxUsed
    | tx => exact htxUsed
  have hseen : ∀ i, (b.queue i).usedIdxSeen = 0 := by
    rintro (_ | _)
    · exact hall.seen
    · change b.txq.usedIdxSeen = 0
      rw [htx]
      exact htxSeen
  have havail : availIdx mem₃ (rings .tx) = 0 := by
    rw [availIdx_same h₂ hall.touches fun p hp => ⟨(hposted p hp).1, (hposted p hp).2.1⟩]
    exact htxAvail
  have hnone : ∀ i, unseen mem₃ (rings i) (b.queue i).usedIdxSeen = [] := by
    intro i
    unfold unseen
    rw [hseen, hused, WrapRing.contents_self]
  have hidsRx : ids rings b mem₃ (.programmed b) .rx = List.range (rings .rx).qsize.toNat := by
    unfold ids ringIds
    rw [hnone]
    change (posted mem₃ (rings .rx) 0).map BitVec.toNat ++ [] ++ [] = _
    rw [hall.posted, List.map_map, List.append_nil, List.append_nil, hsize]
    refine (List.map_congr_left fun k hk => ?_).trans (List.map_id _)
    have hlt := List.mem_range.mp hk
    have hle := h.size_le .rx
    simp only [Function.comp_apply, BitVec.toNat_ofNat, id_eq]
    omega
  have hidsTx : ids rings b mem₃ (.programmed b) .tx = [] := by
    unfold ids ringIds
    rw [hnone]
    change (posted mem₃ (rings .tx) 0).map BitVec.toNat ++ [] ++ [] = _
    unfold posted
    rw [havail, WrapRing.contents_self]
    rfl
  refine ⟨?_, fun i => (hseen i).trans (hused i).symm⟩
  refine
    { laid := h₂.touched hall.touches
      ring := hring
      devRing := hring
      shadow := ?_
      devUsed := fun i => (hused i).symm
      rx := by rw [hidsRx]
      nodup := by rw [hidsTx]; exact List.nodup_nil
      bound := by rw [hidsTx]; simp
      pending := ?_
      free := ?_ }
  · rintro (_ | _)
    · exact hall.shadow
    · change b.txq.availIdxShadow = _
      rw [htx, havail]
      exact htxShadow
  · intro k
    rw [hidsTx, htx]
    simp
  · intro k _
    rw [hidsTx, htx]
    simp

/-- **Before the first step** the receive buffers are posted and the transmit slots are free. -/
theorem devInit_started {mac : List Byte} {drv : Driver μ} {m : Nat}
    (hinit : devInit rxSize txSize rx tx mac mem = some drv) (hrx : rxSize.toNat = 2 ^ n)
    (htx : txSize.toNat = 2 ^ m)
    (hgranted : DmaGranted (perQueue rxSize txSize) (perQueue rx tx) mem) :
    Started (fun i => (drv.base.queue i).toVRing) drv := by
  have h : Placed (fun i => (drv.base.queue i).toVRing) mem :=
    placed_of_granted hgranted (fun i => (devInit_rings hinit i).1)
      fun i => (devInit_rings hinit i).2
  unfold devInit at hinit
  simp only [Option.bind_eq_bind, Option.bind_eq_some_iff, Prod.exists, Option.some.injEq] at hinit
  obtain ⟨rxq₀, mem₁, hrxq, txq₀, mem₂, htxq, txq, hslots, rxq, mem₃, hpost, hdrv⟩ := hinit
  unfold initTxSlots at hslots
  unfold postRxBuffers at hpost
  split at hslots
  swap
  · cases hslots
  split at hpost
  swap
  · cases hpost
  have hslots := Option.some.inj hslots
  have hpost := Option.some.inj hpost
  have hrxRing : rxq.toVRing = ({ rxq₀ with bufPtrs := rx.buf } : VNetQueue).toVRing := by
    have hfold := foldl_ring (List.range rxq₀.qsize.toNat)
      (({ rxq₀ with bufPtrs := rx.buf }, mem₂) : VNetQueue × μ)
    rw [hpost] at hfold
    exact hfold
  have hdvd : ∀ i, (drv.base.queue i).qsize.toNat ∣ 8 := by
    rintro (_ | _)
    · have hsize : drv.base.rxq.qsize = rxq₀.qsize := by
        have hq := congrArg VRing.qsize hrxRing
        rw [← hdrv]
        exact hq
      change drv.base.rxq.qsize.toNat ∣ 8
      rw [hsize]
      exact size_dvd_of_setup hrxq hrx
    · have hsize : drv.base.txq.qsize = txq₀.qsize := by
        rw [← hdrv, ← hslots]
      change drv.base.txq.qsize.toNat ∣ 8
      rw [hsize]
      exact size_dvd_of_setup htxq htx
  obtain ⟨hall, hseen⟩ := slots_of_setup (b := drv.base) ⟨h, hdvd⟩ (fun _ => rfl) hrxq htxq
    (by rw [← hdrv]; exact hrxRing) (by rw [← hdrv]; exact hslots.symm) mem₃
    (by rw [← hdrv]; exact hpost)
  have hmem : drv.mem = mem₃ := by rw [← hdrv]
  rw [← hmem] at hall hseen
  refine ⟨hall, hseen, ?_, ?_, ?_, ?_, ?_⟩
  · intro k
    rw [← hdrv, ← hslots]
  · rw [← hdrv]
  · rw [← hdrv]
  · rw [← hdrv]
  · rw [← hdrv]

end VNet

end M68kMachine
