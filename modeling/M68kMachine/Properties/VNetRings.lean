import M68kMachine.Drivers.VirtionetRuns
import M68kMachine.Properties.Lanes
import M68kMachine.Properties.VirtioNetRings

/-!
# The rings of virtionet.device in guest RAM

The driver owns a handful of regions of RAM, and every store it or the device makes lies in one.
What is read through one region is not changed by a store in another.

* `Part`, `Laid` — the regions, in RAM and apart
* `posted_of_frame`, `unseen_of_frame` — what a store elsewhere leaves alone
* `vqSetDesc_spec`, `vqPushAvail_spec`, `Completes.unseen` — what a store in its own region does
-/

namespace M68kMachine

namespace VNet

open GuestMemory

variable {μ : Type} [GuestMemory μ]

/-! ## The regions -/

/-- The regions of the two queues. -/
inductive Part
  | desc (i : QueueId)
  | avail (i : QueueId)
  | used (i : QueueId)
  | buf (i : QueueId) (k : Nat)
  deriving DecidableEq

def region (rings : QueueId → VRing) : Part → Region
  | .desc i => ⟨(rings i).desc.toNat, 16 * (rings i).qsize.toNat⟩
  | .avail i => ⟨(rings i).avail.toNat, 4 + 2 * (rings i).qsize.toNat⟩
  | .used i => ⟨(rings i).used.toNat, 4 + 8 * (rings i).qsize.toNat⟩
  | .buf i k => (rings i).bufRegion k

/-- A queue has as many buffers as descriptors. -/
def Part.Valid (rings : QueueId → VRing) : Part → Prop
  | .buf i k => k < (rings i).qsize.toNat
  | _ => True

/-- The regions of both queues are in RAM and apart. -/
structure Placed (rings : QueueId → VRing) (mem : μ) : Prop where
  fits : ∀ p : Part, p.Valid rings → (region rings p).Fits
  inRam : ∀ p : Part, p.Valid rings → InRam mem (region rings p)
  apart : ∀ p p' : Part, p.Valid rings → p'.Valid rings → p ≠ p' →
    (region rings p).Disjoint (region rings p')

/-- The sizes divide 8 as well. -/
structure Laid (rings : QueueId → VRing) (mem : μ) : Prop extends Placed rings mem where
  size_dvd : ∀ i, (rings i).qsize.toNat ∣ 8

/-- `mem'` agrees with `mem` outside the parts `ps`. -/
def Touches (rings : QueueId → VRing) (ps : List Part) (mem mem' : μ) : Prop :=
  Frame (ps.map (region rings)) mem mem'

namespace Laid

variable {rings : QueueId → VRing} {mem mem' : μ}

theorem size_pos (h : Laid rings mem) (i : QueueId) : 0 < (rings i).qsize.toNat :=
  Nat.pos_of_dvd_of_pos (h.size_dvd i) (by decide)

theorem size_le (h : Laid rings mem) (i : QueueId) : (rings i).qsize.toNat ≤ 8 :=
  Nat.le_of_dvd (by decide) (h.size_dvd i)

theorem size_wrap (h : Laid rings mem) (i : QueueId) : (rings i).qsize.toNat ∣ 2 ^ 16 :=
  Nat.dvd_trans (h.size_dvd i) (by decide)

theorem size_lt (h : Laid rings mem) (i : QueueId) : (rings i).qsize.toNat < 2 ^ 16 :=
  Nat.lt_of_le_of_lt (h.size_le i) (by decide)

theorem touched {rs : List Region} (h : Laid rings mem) (hf : Frame rs mem mem') :
    Laid rings mem' :=
  { h with inRam := fun p hp => hf.inRam (h.inRam p hp) }

/-- Part of a region that is not among those touched. -/
theorem same {ps : List Part} {p : Part} {t : Region} (h : Laid rings mem)
    (hf : Touches rings ps mem mem') (hps : ∀ p' ∈ ps, p'.Valid rings ∧ p' ≠ p)
    (hp : p.Valid rings) (hin : t.Inside (region rings p)) (hpos : 0 < t.len) :
    bytesAt mem' t = bytesAt mem t := by
  refine hf.bytes t ((h.fits p hp).inside hin hpos) ?_
  intro r hr
  obtain ⟨p', hp', rfl⟩ := List.mem_map.mp hr
  obtain ⟨hvalid, hne⟩ := hps p' hp'
  exact (h.apart p p' hp hvalid hne.symm).mono hin ⟨Nat.le_refl _, Nat.le_refl _⟩

end Laid

theorem Touches.of_frame {rings : QueueId → VRing} {p : Part} {t : Region} {mem mem' : μ}
    (h : Frame [t] mem mem') (hin : t.Inside (region rings p)) : Touches rings [p] mem mem' := by
  refine h.widen ?_
  simp only [List.mem_singleton, forall_eq, List.map_cons, List.map_nil, exists_eq_left]
  exact hin

theorem Touches.frame_trans {rings : QueueId → VRing} {ps : List Part} {mem mem' mem'' : μ}
    (h : Touches rings ps mem mem') (h' : Touches rings ps mem' mem'') :
    Touches rings ps mem mem'' := Frame.trans h h'

theorem Touches.trans {rings : QueueId → VRing} {ps ps' : List Part} {mem mem' mem'' : μ}
    (h : Touches rings ps mem mem') (h' : Touches rings ps' mem' mem'') :
    Touches rings (ps ++ ps') mem mem'' := by
  unfold Touches
  rw [List.map_append]
  exact (h.widen fun r hr => ⟨r, List.mem_append_left _ hr, Nat.le_refl _, Nat.le_refl _⟩).trans
    (h'.widen fun r hr => ⟨r, List.mem_append_right _ hr, Nat.le_refl _, Nat.le_refl _⟩)

/-! ## Reading a field -/

theorem rdLe16_eq (mem : μ) (a : Long) :
    rdLe16 mem a = ((bytesAt mem ⟨a.toNat, 2⟩).map fun bs => le16 bs 0).getD 0 := by
  unfold rdLe16 bytesAt
  rw [BitVec.ofNat_toNat, BitVec.setWidth_eq]
  rfl

theorem rdLe32_eq (mem : μ) (a : Long) :
    rdLe32 mem a = ((bytesAt mem ⟨a.toNat, 4⟩).map fun bs => le32 bs 0).getD 0 := by
  unfold rdLe32 bytesAt
  rw [BitVec.ofNat_toNat, BitVec.setWidth_eq]
  rfl

/-! ## The cells of the rings -/

section Cells

variable {rings : QueueId → VRing} {mem mem' : μ} {i : QueueId} {k : Nat} {ps : List Part}
  {id : Word}

/-- The two fields of a used element. -/
def VRing.idCell (r : VRing) (k : Nat) : Region := ⟨r.used.toNat + 4 + 8 * k, 4⟩

def VRing.lenCell (r : VRing) (k : Nat) : Region := ⟨r.used.toNat + 4 + 8 * k + 4, 4⟩

def VRing.availIdxCell (r : VRing) : Region := ⟨r.avail.toNat + 2, 2⟩

theorem availCell_inside (hk : k < (rings i).qsize.toNat) :
    ((rings i).availCell k).Inside (region rings (.avail i)) := by
  unfold Region.Inside VRing.availCell region
  simp only
  omega

theorem availIdxCell_inside : (rings i).availIdxCell.Inside (region rings (.avail i)) := by
  unfold Region.Inside VRing.availIdxCell region
  simp only
  omega

theorem usedCell_inside (hk : k < (rings i).qsize.toNat) :
    ((rings i).usedCell k).Inside (region rings (.used i)) := by
  unfold Region.Inside VRing.usedCell region
  simp only
  omega

theorem idCell_inside : ((rings i).idCell k).Inside ((rings i).usedCell k) := by
  unfold Region.Inside VRing.idCell VRing.usedCell
  simp only
  omega

theorem lenCell_inside : ((rings i).lenCell k).Inside ((rings i).usedCell k) := by
  unfold Region.Inside VRing.lenCell VRing.usedCell
  simp only
  omega

theorem usedIdxCell_inside : (rings i).usedIdxCell.Inside (region rings (.used i)) := by
  unfold Region.Inside VRing.usedIdxCell region
  simp only
  omega

theorem usedCells_apart (r : VRing) (k : Nat) :
    (r.idCell k).Disjoint (r.lenCell k) ∧ (r.idCell k).Disjoint r.usedIdxCell ∧
      (r.lenCell k).Disjoint r.usedIdxCell := by
  unfold Region.Disjoint VRing.idCell VRing.lenCell VRing.usedIdxCell
  simp only
  omega

theorem Inside.trans {r t u : Region} (h : r.Inside t) (h' : t.Inside u) : r.Inside u := by
  unfold Region.Inside at *
  omega

/-- The address of a cell, without overflow. -/
theorem toNat_cell (base off scale : Long) {k : Nat} (hk : k < 2 ^ 32)
    (h : base.toNat + off.toNat + k * scale.toNat < 2 ^ 32) :
    (base + off + BitVec.ofNat 32 k * scale).toNat =
      base.toNat + off.toNat + k * scale.toNat := by
  rw [BitVec.toNat_add, BitVec.toNat_add, BitVec.toNat_mul, BitVec.toNat_ofNat,
    Nat.mod_eq_of_lt hk, ← Nat.add_mod, Nat.mod_eq_of_lt h]

theorem toNat_availSlot (h : Laid rings mem) (hk : k < (rings i).qsize.toNat) :
    ((rings i).avail + Vring.availRing + BitVec.ofNat 32 k * 2).toNat =
      ((rings i).availCell k).start := by
  have hfits := h.fits (.avail i) trivial
  have hle := h.size_le i
  have hoff : Vring.availRing.toNat = 4 := rfl
  have htwo : (2 : Long).toNat = 2 := rfl
  unfold Region.Fits region at hfits
  simp only at hfits
  rw [toNat_cell _ _ _ (by omega) (by rw [hoff, htwo]; omega), hoff, htwo]
  unfold VRing.availCell
  simp only
  omega

theorem toNat_availIdx (h : Laid rings mem) :
    ((rings i).avail + Vring.availIdx).toNat = (rings i).availIdxCell.start := by
  have hfits := h.fits (.avail i) trivial
  have hpos := h.size_pos i
  have hoff : Vring.availIdx.toNat = 2 := rfl
  unfold Region.Fits region at hfits
  simp only [BitVec.toNat_add, VRing.availIdxCell] at hfits ⊢
  omega

theorem toNat_usedIdx (h : Laid rings mem) :
    ((rings i).used + Vring.usedIdx).toNat = (rings i).usedIdxCell.start := by
  have hfits := h.fits (.used i) trivial
  have hpos := h.size_pos i
  have hoff : Vring.usedIdx.toNat = 2 := rfl
  unfold Region.Fits region at hfits
  simp only [BitVec.toNat_add, VRing.usedIdxCell] at hfits ⊢
  omega

theorem toNat_usedSlot (h : Laid rings mem) (hk : k < (rings i).qsize.toNat) :
    ((rings i).used + Vring.usedRing + BitVec.ofNat 32 k * Vring.usedElemSize).toNat =
        ((rings i).idCell k).start ∧
      ((rings i).used + Vring.usedRing + BitVec.ofNat 32 k * Vring.usedElemSize + 4).toNat =
        ((rings i).lenCell k).start := by
  have hfits := h.fits (.used i) trivial
  have hle := h.size_le i
  have hoff : Vring.usedRing.toNat = 4 := rfl
  have height : Vring.usedElemSize.toNat = 8 := rfl
  have hfour : (4 : Long).toNat = 4 := rfl
  unfold Region.Fits region at hfits
  simp only at hfits
  have hcell := toNat_cell (rings i).used Vring.usedRing Vring.usedElemSize (k := k) (by omega)
    (by rw [hoff, height]; omega)
  rw [hoff, height] at hcell
  unfold VRing.idCell VRing.lenCell
  simp only
  refine ⟨by omega, ?_⟩
  rw [BitVec.toNat_add, hcell]
  omega

theorem availSlot_eq (h : Laid rings mem) (mem' : μ) (hk : k < (rings i).qsize.toNat) :
    availSlot mem' (rings i) k =
      ((bytesAt mem' ((rings i).availCell k)).map fun bs => le16 bs 0).getD 0 := by
  unfold availSlot
  rw [rdLe16_eq, toNat_availSlot h hk]
  rfl

theorem availIdx_eq (h : Laid rings mem) (mem' : μ) :
    availIdx mem' (rings i) =
      ((bytesAt mem' (rings i).availIdxCell).map fun bs => le16 bs 0).getD 0 := by
  unfold availIdx
  rw [rdLe16_eq, toNat_availIdx h]
  rfl

theorem usedIdx_eq (h : Laid rings mem) (mem' : μ) :
    usedIdx mem' (rings i) =
      ((bytesAt mem' (rings i).usedIdxCell).map fun bs => le16 bs 0).getD 0 := by
  unfold usedIdx
  rw [rdLe16_eq, toNat_usedIdx h]
  rfl

theorem usedSlot_eq (h : Laid rings mem) (mem' : μ) (hk : k < (rings i).qsize.toNat) :
    usedSlot mem' (rings i) k =
      (((bytesAt mem' ((rings i).idCell k)).map fun bs => le32 bs 0).getD 0,
        ((bytesAt mem' ((rings i).lenCell k)).map fun bs => le32 bs 0).getD 0) := by
  obtain ⟨hid, hlen⟩ := toNat_usedSlot (k := k) h hk
  unfold usedSlot
  simp only
  rw [rdLe32_eq, rdLe32_eq, hid, hlen]
  rfl

/-! ### What a store elsewhere leaves alone -/

theorem availIdx_same (h : Laid rings mem) (hf : Touches rings ps mem mem')
    (hps : ∀ p ∈ ps, p.Valid rings ∧ p ≠ .avail i) :
    availIdx mem' (rings i) = availIdx mem (rings i) := by
  rw [availIdx_eq h, availIdx_eq h, h.same hf hps trivial availIdxCell_inside (Nat.succ_pos _)]

theorem posted_same (h : Laid rings mem) (hf : Touches rings ps mem mem')
    (hps : ∀ p ∈ ps, p.Valid rings ∧ p ≠ .avail i) (last : Word) :
    posted mem' (rings i) last = posted mem (rings i) last := by
  unfold posted
  rw [availIdx_same h hf hps]
  refine WrapRing.contents_congr (h.size_pos i) (fun k hk => ?_) _ _
  rw [availSlot_eq h mem' hk, availSlot_eq h mem hk,
    h.same hf hps trivial (availCell_inside hk) (Nat.succ_pos _)]

theorem usedIdx_same (h : Laid rings mem) (hf : Touches rings ps mem mem')
    (hps : ∀ p ∈ ps, p.Valid rings ∧ p ≠ .used i) :
    usedIdx mem' (rings i) = usedIdx mem (rings i) := by
  rw [usedIdx_eq h, usedIdx_eq h, h.same hf hps trivial usedIdxCell_inside (Nat.succ_pos _)]

theorem unseen_same (h : Laid rings mem) (hf : Touches rings ps mem mem')
    (hps : ∀ p ∈ ps, p.Valid rings ∧ p ≠ .used i) (seen : Word) :
    unseen mem' (rings i) seen = unseen mem (rings i) seen := by
  unfold unseen
  rw [usedIdx_same h hf hps]
  refine WrapRing.contents_congr (h.size_pos i) (fun k hk => ?_) _ _
  rw [usedSlot_eq h mem' hk, usedSlot_eq h mem hk,
    h.same hf hps trivial (Inside.trans idCell_inside (usedCell_inside hk)) (Nat.succ_pos _),
    h.same hf hps trivial (Inside.trans lenCell_inside (usedCell_inside hk)) (Nat.succ_pos _)]

/-! ## Stores -/

/-- A store by the device of one used element appends it to what the driver has not seen. -/
theorem Completes.unseen {q : DevQueue} {id : Word} {len : Long} (h : Laid rings mem)
    (hring : q.ring = rings i) (hused : q.usedIdx = usedIdx mem (rings i)) {seen : Word}
    (hc : Completes i q id len mem mem') (hid : id.toNat < (rings i).qsize.toNat)
    (hroom : (unseen mem (rings i) seen).length < (rings i).qsize.toNat) :
    VNet.unseen mem' (rings i) seen =
      VNet.unseen mem (rings i) seen ++ [(id.setWidth 32, len)] := by
  obtain ⟨helem, hidx, hframe⟩ := hc
  rw [hring] at helem hidx hframe
  unfold VNet.unseen at hroom ⊢
  rw [hidx, ← hused] at *
  rw [WrapRing.contents_push (h.size_wrap i) (h.size_lt i) hroom ?_, helem]
  intro k hk hne
  have hpos := WrapRing.pos_lt (h.size_pos i) q.usedIdx
  -- A used element in another slot shares no address with what was stored.
  have hkeep : ∀ t : Region, t.Inside ((rings i).usedCell k) → 0 < t.len →
      bytesAt mem' t = bytesAt mem t := by
    intro t ht hlen
    have hin := Inside.trans ht (usedCell_inside hk)
    refine hframe.bytes t ((h.fits (.used i) trivial).inside hin hlen) ?_
    have hbuf : i = .rx → t.Disjoint ((rings i).bufRegion id.toNat) := by
      rintro rfl
      have hapart := h.apart (.used .rx) (.buf .rx id.toNat) trivial hid (by simp)
      exact hapart.mono hin ⟨Nat.le_refl _, Nat.le_refl _⟩
    intro r hr
    rcases List.mem_cons.mp hr with rfl | hr
    · unfold Region.Inside VRing.usedCell at *
      unfold Region.Disjoint
      simp only at *
      omega
    · rcases List.mem_cons.mp hr with rfl | hr
      · unfold Region.Inside VRing.usedCell at ht
        unfold Region.Disjoint VRing.usedIdxCell
        simp only at *
        omega
      · split at hr
        · rename_i hrx
          rw [List.mem_singleton.mp hr]
          exact hbuf hrx
        · cases hr
  rw [usedSlot_eq h mem' hk, usedSlot_eq h mem hk, hkeep _ idCell_inside (Nat.succ_pos _),
    hkeep _ lenCell_inside (Nat.succ_pos _)]

/-- The parts a completion touches. -/
def completedParts (i : QueueId) (id : Word) : List Part :=
  .used i :: if i = .rx then [.buf .rx id.toNat] else []

theorem Completes.touches {q : DevQueue} {len : Long} (h : Laid rings mem)
    (hring : q.ring = rings i) (hc : Completes i q id len mem mem') :
    Touches rings (completedParts i id) mem mem' := by
  have hframe := hc.frame
  rw [hring] at hframe
  have hpos := WrapRing.pos_lt (h.size_pos i) q.usedIdx
  refine hframe.widen ?_
  intro r hr
  rcases List.mem_cons.mp hr with rfl | hr
  · exact ⟨_, List.mem_map_of_mem List.mem_cons_self, usedCell_inside hpos⟩
  · rcases List.mem_cons.mp hr with rfl | hr
    · exact ⟨_, List.mem_map_of_mem List.mem_cons_self, usedIdxCell_inside⟩
    · split at hr
      · rename_i hrx
        subst hrx
        rw [List.mem_singleton.mp hr]
        exact ⟨region rings (.buf .rx id.toNat), by simp [completedParts], Nat.le_refl _,
          Nat.le_refl _⟩
      · cases hr

variable [LawfulGuestMemory μ] {q : VNetQueue}

theorem wrBytes_spec (h : Laid rings mem) {p : Part} (hp : p.Valid rings) {t : Region}
    (hin : t.Inside (region rings p)) {a : Long} (ha : a.toNat = t.start) (bs : List Byte)
    (hbs : bs ≠ []) (hlen : bs.length = t.len) :
    bytesAt (wrBytes mem a bs) t = some bs ∧ Frame [t] mem (wrBytes mem a bs) := by
  obtain ⟨mem', hstore, hbytes, hframe⟩ :=
    VirtioNetStub.store_cell (h.inRam p hp) (h.fits p hp) hin bs hbs hlen
  have hmem' : wrBytes mem a bs = mem' := by
    unfold wrBytes
    rw [← ha, BitVec.ofNat_toNat, BitVec.setWidth_eq] at hstore
    rw [hstore]
    rfl
  rw [hmem']
  exact ⟨hbytes, hframe⟩

/-- A device stores what it received, and nothing for a frame it sent. -/
def storedFrame (r : VRing) (i : QueueId) (id : Word) (frame : List Byte) (mem : μ) : μ :=
  match i with
  | .rx => wrBytes mem (r.bufPtrs id.toNat) frame
  | .tx => mem

/-- What a device stores for a descriptor: the frame, the used element, `used.idx`. -/
def stored (i : QueueId) (q : DevQueue) (id : Word) (len : Long) (frame : List Byte) (mem : μ) :
    μ :=
  let elem := q.ring.used + Vring.usedRing +
    BitVec.ofNat 32 (WrapRing.pos q.ring.qsize.toNat q.usedIdx) * Vring.usedElemSize
  let mem := storedFrame q.ring i id frame mem
  let mem := wrBytes (wrBytes mem elem (toLE32 (id.setWidth 32))) (elem + 4) (toLE32 len)
  wrLe16 mem (q.ring.used + Vring.usedIdx) (q.usedIdx + 1)

theorem frame_storedFrame (h : Laid rings mem) (hid : id.toNat < (rings i).qsize.toNat)
    {frame : List Byte} (hne : frame ≠ []) (hlen : frame.length ≤ rxbufSize) :
    Frame (if i = .rx then [(rings i).bufRegion id.toNat] else []) mem
      (storedFrame (rings i) i id frame mem) := by
  cases i with
  | rx =>
    have hin : (⟨((rings .rx).bufPtrs id.toNat).toNat, frame.length⟩ : Region).Inside
        (region rings (.buf .rx id.toNat)) :=
      ⟨Nat.le_refl _, Nat.add_le_add_left hlen _⟩
    have hframe := (wrBytes_spec h (p := .buf .rx id.toNat) hid hin rfl frame hne rfl).2
    refine hframe.widen ?_
    simp only [List.mem_singleton, forall_eq]
    exact ⟨_, List.mem_singleton_self _, hin⟩
  | tx => exact Frame.refl _ _

/-- **A device can complete any descriptor of its ring.** -/
theorem completes_stored (h : Laid rings mem) {q : DevQueue} (hring : q.ring = rings i)
    (hid : id.toNat < (rings i).qsize.toNat) (len : Long) {frame : List Byte} (hne : frame ≠ [])
    (hlen : frame.length ≤ rxbufSize) : Completes i q id len mem (stored i q id len frame mem) := by
  have hpos := WrapRing.pos_lt (h.size_pos i) q.usedIdx
  have hframe₁ := frame_storedFrame h hid hne hlen
  have haddr := toNat_usedSlot h hpos
  unfold stored
  rw [hring]
  simp only
  generalize hk : WrapRing.pos (rings i).qsize.toNat q.usedIdx = k at hpos haddr ⊢
  generalize storedFrame (rings i) i id frame mem = mem₁ at hframe₁ ⊢
  have h₁ := h.touched hframe₁
  generalize (rings i).used + Vring.usedRing + BitVec.ofNat 32 k * Vring.usedElemSize = elem
    at haddr ⊢
  have hidIn := Inside.trans (idCell_inside (i := i) (k := k)) (usedCell_inside hpos)
  have hlenIn := Inside.trans (lenCell_inside (i := i) (k := k)) (usedCell_inside hpos)
  obtain ⟨hidBytes, hframe₂⟩ := wrBytes_spec h₁ (p := .used i) trivial hidIn haddr.1
    (toLE32 (id.setWidth 32)) (by simp [toLE32]) rfl
  generalize wrBytes mem₁ elem (toLE32 (id.setWidth 32)) = mem₂ at hidBytes hframe₂ ⊢
  have h₂ := h₁.touched hframe₂
  obtain ⟨hlenBytes, hframe₃⟩ := wrBytes_spec h₂ (p := .used i) trivial hlenIn haddr.2
    (toLE32 len) (by simp [toLE32]) rfl
  generalize wrBytes mem₂ (elem + 4) (toLE32 len) = mem₃ at hlenBytes hframe₃ ⊢
  have h₃ := h₂.touched hframe₃
  obtain ⟨hidxBytes, hframe₄⟩ := wrBytes_spec h₃ (p := .used i) trivial usedIdxCell_inside
    (toNat_usedIdx h₃) (toLE16 (q.usedIdx + 1)) (by simp [toLE16]) rfl
  unfold wrLe16
  generalize wrBytes mem₃ ((rings i).used + Vring.usedIdx) (toLE16 (q.usedIdx + 1)) = mem₄
    at hidxBytes hframe₄ ⊢
  have hfits := h.fits (.used i) trivial
  have hapart := usedCells_apart (rings i) k
  refine ⟨?_, ?_, ?_⟩
  · -- Neither field is stored over.
    rw [hring, hk, usedSlot_eq h mem₄ hpos]
    rw [hframe₄.bytes _ (hfits.inside hidIn (Nat.succ_pos _)),
      hframe₃.bytes _ (hfits.inside hidIn (Nat.succ_pos _)), hidBytes,
      hframe₄.bytes _ (hfits.inside hlenIn (Nat.succ_pos _)), hlenBytes]
    · simp only [Option.map_some, Option.getD_some, le32_toLE32]
    all_goals simp only [List.mem_singleton, forall_eq]
    · exact hapart.2.2
    · exact hapart.1
    · exact hapart.2.1
  · rw [hring, usedIdx_eq h, hidxBytes]
    exact le16_toLE16 _
  · rw [hring, hk]
    refine (((hframe₁.widen ?_).trans (hframe₂.widen ?_)).trans (hframe₃.widen ?_)).trans
      (hframe₄.widen ?_)
    · intro r hr
      exact ⟨r, List.mem_cons_of_mem _ (List.mem_cons_of_mem _ hr), Nat.le_refl _, Nat.le_refl _⟩
    · simp only [List.mem_singleton, forall_eq]
      exact ⟨_, List.mem_cons_self, idCell_inside⟩
    · simp only [List.mem_singleton, forall_eq]
      exact ⟨_, List.mem_cons_self, lenCell_inside⟩
    · simp only [List.mem_singleton, forall_eq]
      exact ⟨_, List.mem_cons_of_mem _ List.mem_cons_self, Nat.le_refl _, Nat.le_refl _⟩

/-- One entry of the descriptor table. -/
def VRing.descCell (r : VRing) (k : Nat) : Region := ⟨r.desc.toNat + 16 * k, 16⟩

theorem vqSetDesc_spec (h : Laid rings mem) (hq : q.toVRing = rings i) {idx : Word}
    (hidx : idx.toNat < (rings i).qsize.toNat) (phys len : Long) (flags : Word) :
    bytesAt (vqSetDesc q mem idx phys len flags) ((rings i).descCell idx.toNat) =
        some (descBytes phys len flags) ∧
      Frame [(rings i).descCell idx.toNat] mem (vqSetDesc q mem idx phys len flags) := by
  have hfits := h.fits (.desc i) trivial
  have hdesc : q.desc = (rings i).desc := congrArg VRing.desc hq
  unfold vqSetDesc
  rw [hdesc]
  refine wrBytes_spec h (p := .desc i) trivial ?_ ?_ _ (by simp [descBytes, toLE32]) rfl
  · unfold Region.Inside VRing.descCell region
    simp only
    omega
  · have hsize : (BitVec.ofNat 32 Vring.descSize).toNat = 16 := rfl
    have hle := h.size_le i
    unfold Region.Fits region at hfits
    simp only at hfits
    rw [BitVec.toNat_add, BitVec.toNat_mul, BitVec.toNat_setWidth, hsize]
    unfold VRing.descCell
    simp only
    omega

theorem vqSetDesc_touches (h : Laid rings mem) (hq : q.toVRing = rings i) {idx : Word}
    (hidx : idx.toNat < (rings i).qsize.toNat) (phys len : Long) (flags : Word) :
    Touches rings [.desc i] mem (vqSetDesc q mem idx phys len flags) := by
  refine .of_frame (vqSetDesc_spec h hq hidx phys len flags).2 ?_
  unfold Region.Inside VRing.descCell region
  simp only
  omega

/-- **Pushing a descriptor** stores it in the slot of the driver's counter and counts it. -/
theorem vqPushAvail_spec (h : Laid rings mem) (hq : q.toVRing = rings i) (d : Word) :
    Touches rings [.avail i] mem (vqPushAvail q mem d).2 ∧
      availIdx (vqPushAvail q mem d).2 (rings i) = q.availIdxShadow + 1 ∧
      ∀ k < (rings i).qsize.toNat, availSlot (vqPushAvail q mem d).2 (rings i) k =
        if k = WrapRing.pos (rings i).qsize.toNat q.availIdxShadow then d
        else availSlot mem (rings i) k := by
  have havail : q.avail = (rings i).avail := congrArg VRing.avail hq
  have hsize : q.qsize = (rings i).qsize := congrArg VRing.qsize hq
  generalize hc : WrapRing.pos (rings i).qsize.toNat q.availIdxShadow = c
  have hlt : c < (rings i).qsize.toNat := hc ▸ WrapRing.pos_lt (h.size_pos i) _
  have hpos : (q.availIdxShadow % q.qsize).setWidth 32 = BitVec.ofNat 32 c := by
    rw [hsize, ← BitVec.ofNat_toNat, BitVec.toNat_umod]
    exact congrArg _ hc
  obtain ⟨hentry, hframe⟩ := wrBytes_spec h (p := .avail i) trivial (availCell_inside hlt)
    (toNat_availSlot h hlt) (toLE16 d) (by simp [toLE16]) rfl
  generalize hm : wrBytes mem ((rings i).avail + Vring.availRing + BitVec.ofNat 32 c * 2)
    (toLE16 d) = mem₁ at hentry hframe
  have h₁ := h.touched hframe
  obtain ⟨hidx, hframe'⟩ := wrBytes_spec h₁ (p := .avail i) trivial availIdxCell_inside
    (toNat_availIdx h₁) (toLE16 (q.availIdxShadow + 1)) (by simp [toLE16]) rfl
  have hmem : (vqPushAvail q mem d).2 =
      wrBytes mem₁ ((rings i).avail + Vring.availIdx) (toLE16 (q.availIdxShadow + 1)) := by
    unfold vqPushAvail wrLe16
    simp only
    rw [hpos, havail, hm]
  rw [hmem]
  generalize wrBytes mem₁ ((rings i).avail + Vring.availIdx) (toLE16 (q.availIdxShadow + 1)) =
    mem₂ at hidx hframe'
  have hfits := h.fits (.avail i) trivial
  have hkeep : ∀ k < (rings i).qsize.toNat,
      bytesAt mem₂ ((rings i).availCell k) = bytesAt mem₁ ((rings i).availCell k) := by
    intro k hk
    refine hframe'.bytes _ (hfits.inside (availCell_inside hk) (Nat.succ_pos _)) ?_
    simp only [List.mem_singleton, forall_eq]
    unfold Region.Disjoint VRing.availCell VRing.availIdxCell
    simp only
    omega
  refine ⟨(Touches.of_frame hframe (availCell_inside hlt)).frame_trans
    (Touches.of_frame hframe' availIdxCell_inside), ?_, ?_⟩
  · rw [availIdx_eq h, hidx]
    exact le16_toLE16 _
  · intro k hk
    rw [availSlot_eq h _ hk, hkeep k hk]
    split
    · rename_i heq
      rw [heq, hentry]
      exact le16_toLE16 _
    · rename_i hne
      rw [availSlot_eq h _ hk, hframe.bytes _ (hfits.inside (availCell_inside hk) (Nat.succ_pos _))]
      simp only [List.mem_singleton, forall_eq]
      unfold Region.Disjoint VRing.availCell
      simp only
      omega

/-- **A pushed descriptor is the last one posted.** -/
theorem posted_push (h : Laid rings mem) (hq : q.toVRing = rings i)
    (hshadow : q.availIdxShadow = availIdx mem (rings i)) (d last : Word)
    (hroom : (posted mem (rings i) last).length < (rings i).qsize.toNat) :
    posted (vqPushAvail q mem d).2 (rings i) last = posted mem (rings i) last ++ [d] := by
  obtain ⟨-, hidx, hslot⟩ := vqPushAvail_spec h hq d
  unfold posted at hroom ⊢
  rw [← hshadow] at hroom
  rw [hidx, WrapRing.contents_push (h.size_wrap i) (h.size_lt i) hroom, ← hshadow,
    hslot _ (WrapRing.pos_lt (h.size_pos i) _), if_pos rfl]
  intro k hk hne
  rw [hslot k hk, if_neg hne]

end Cells

end VNet

end M68kMachine
