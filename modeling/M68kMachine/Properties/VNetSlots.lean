import Mathlib.Data.List.Perm.Basic
import M68kMachine.Properties.VNetRings

/-!
# Which descriptor is where

Every descriptor is in one place: free, being filled, available, fetched by the device, or used and
not yet seen. Each section of the driver and each action of the device moves one on.

* `ids` — the descriptors on a ring
* `Slots` — the invariant
* `Slots.publish`, `Slots.rxUsed`, `Slots.txUsed`, `Slots.device` — what keeps it
-/

namespace M68kMachine

namespace VNet

open GuestMemory

variable {μ : Type} [GuestMemory μ]

/-! ## The descriptors on a ring -/

/-- The descriptors on a ring whose indices are `last` and `seen`, `taken` being fetched. -/
def ringIds (mem : μ) (r : VRing) (last : Word) (taken : List Word) (seen : Word) : List Nat :=
  (posted mem r last).map BitVec.toNat ++ taken.map BitVec.toNat ++
    (unseen mem r seen).map fun e => e.1.toNat

/-- The descriptors on the ring of queue `i`. -/
def ids (rings : QueueId → VRing) (b : VNetBase) (mem : μ) (v : RingDevice) (i : QueueId) :
    List Nat :=
  ringIds mem (rings i) (v.queue i).lastAvailIdx (v.queue i).taken (b.queue i).usedIdxSeen

/-- **Every descriptor is in one place**, the slots in `filling` being filled. -/
structure Slots (rings : QueueId → VRing) (b : VNetBase) (mem : μ) (v : RingDevice)
    (filling : List Nat) : Prop where
  laid : Laid rings mem
  ring : ∀ i, (b.queue i).toVRing = rings i
  devRing : ∀ i, (v.queue i).ring = rings i
  shadow : ∀ i, (b.queue i).availIdxShadow = availIdx mem (rings i)
  devUsed : ∀ i, (v.queue i).usedIdx = usedIdx mem (rings i)
  rx : (ids rings b mem v .rx).Perm (List.range (rings .rx).qsize.toNat)
  nodup : (ids rings b mem v .tx ++ filling).Nodup
  bound : ∀ k ∈ ids rings b mem v .tx ++ filling, k < (rings .tx).qsize.toNat
  pending : ∀ k, (b.txq.pending k).isSome ↔ k ∈ ids rings b mem v .tx
  free : ∀ k < (rings .tx).qsize.toNat,
    b.txq.slotFree k = true ↔ k ∉ ids rings b mem v .tx ++ filling

theorem ringIds_same {rings : QueueId → VRing} {ps : List Part} {mem mem' : μ} {i : QueueId}
    (h : Laid rings mem) (hf : Touches rings ps mem mem')
    (hps : ∀ p ∈ ps, p.Valid rings ∧ p ≠ .avail i ∧ p ≠ .used i) (last : Word)
    (taken : List Word) (seen : Word) :
    ringIds mem' (rings i) last taken seen = ringIds mem (rings i) last taken seen := by
  unfold ringIds
  rw [posted_same h hf (fun p hp => ⟨(hps p hp).1, (hps p hp).2.1⟩),
    unseen_same h hf (fun p hp => ⟨(hps p hp).1, (hps p hp).2.2⟩)]

namespace Slots

variable {rings : QueueId → VRing} {b : VNetBase} {mem mem' : μ} {v : RingDevice}
  {filling filling' : List Nat} {k : Nat}

theorem qsize_eq (h : Slots rings b mem v filling) (i : QueueId) :
    (b.queue i).qsize = (rings i).qsize := congrArg VRing.qsize (h.ring i)

/-- The descriptors on either ring are different and in range. -/
theorem onRing (h : Slots rings b mem v filling) (i : QueueId) :
    (ids rings b mem v i).Nodup ∧ ∀ k ∈ ids rings b mem v i, k < (rings i).qsize.toNat := by
  cases i with
  | rx =>
    refine ⟨h.rx.nodup_iff.mpr List.nodup_range, fun k hk => ?_⟩
    exact List.mem_range.mp (h.rx.mem_iff.mp hk)
  | tx => exact ⟨h.nodup.of_append_left, fun k hk => h.bound k (List.mem_append_left _ hk)⟩

omit [GuestMemory μ] in
theorem length_le_of_nodup {l : List Nat} {n : Nat} (hl : l.Nodup) (hn : ∀ k ∈ l, k < n) :
    l.length ≤ n := by
  have hsub : l.Subperm (List.range n) := hl.subperm fun k hk => List.mem_range.mpr (hn k hk)
  simpa using hsub.length_le

theorem perm (h : Slots rings b mem v filling) (hp : filling.Perm filling') :
    Slots rings b mem v filling' := by
  have happ := hp.append_left (ids rings b mem v .tx)
  exact
    { h with
      nodup := happ.nodup_iff.mp h.nodup
      bound := fun k hk => h.bound k (happ.mem_iff.mpr hk)
      free := fun k hk => (h.free k hk).trans (not_congr happ.mem_iff) }

/-- The unit is not part of it. -/
theorem unit (h : Slots rings b mem v filling) (u : VNetUnit) :
    Slots rings { b with unit0 := u } mem v filling := by
  have hqueue : ∀ i, ({ b with unit0 := u } : VNetBase).queue i = b.queue i := by
    rintro (_ | _) <;> rfl
  exact ⟨h.laid, fun i => by rw [hqueue]; exact h.ring i, h.devRing,
    fun i => by rw [hqueue]; exact h.shadow i, h.devUsed, h.rx, h.nodup, h.bound, h.pending, h.free⟩

/-- A store into the buffer of a transmit slot. -/
theorem store (h : Slots rings b mem v filling) (hk : k < (rings .tx).qsize.toNat)
    (hf : Touches rings [.buf .tx k] mem mem') : Slots rings b mem' v filling := by
  have hps : ∀ i, ∀ p ∈ [Part.buf .tx k], p.Valid rings ∧ p ≠ .avail i ∧ p ≠ .used i := by
    intro i p hp
    rw [List.mem_singleton.mp hp]
    exact ⟨hk, by simp, by simp⟩
  have hids : ∀ i, ids rings b mem' v i = ids rings b mem v i := fun i =>
    ringIds_same h.laid hf (hps i) _ _ _
  refine ⟨h.laid.touched hf, h.ring, h.devRing, fun i => ?_, fun i => ?_, ?_, ?_, ?_, ?_, ?_⟩
  · rw [h.shadow, availIdx_same h.laid hf fun p hp => ⟨(hps i p hp).1, (hps i p hp).2.1⟩]
  · rw [h.devUsed, usedIdx_same h.laid hf fun p hp => ⟨(hps i p hp).1, (hps i p hp).2.2⟩]
  · rw [hids]; exact h.rx
  · rw [hids]; exact h.nodup
  · rw [hids]; exact h.bound
  · rw [hids]; exact h.pending
  · rw [hids]; exact h.free

/-! ### The slot pool -/

/-- What `vnet_txslot_alloc` finds is a free slot. -/
theorem alloc (h : Slots rings b mem v filling) {q : VNetQueue}
    (halloc : vnetTxslotAlloc b.txq = some (k, q)) :
    Slots rings { b with txq := q } mem v (k :: filling) := by
  obtain ⟨slot, hfind, heq⟩ := Option.map_eq_some_iff.mp halloc
  obtain ⟨rfl, rfl⟩ := Prod.mk.inj heq
  have hfree : b.txq.slotFree slot = true := List.find?_some hfind
  have hlt : slot < (rings .tx).qsize.toNat := by
    rw [← h.qsize_eq .tx]
    exact List.mem_range.mp (List.mem_of_find?_eq_some hfind)
  have hout := (h.free slot hlt).mp hfree
  have hperm : (ids rings b mem v .tx ++ slot :: filling).Perm
      (slot :: (ids rings b mem v .tx ++ filling)) := List.perm_middle
  refine
    { laid := h.laid
      ring := ?_
      devRing := h.devRing
      shadow := ?_
      devUsed := h.devUsed
      rx := h.rx
      nodup := hperm.nodup_iff.mpr (List.nodup_cons.mpr ⟨hout, h.nodup⟩)
      bound := ?_
      pending := h.pending
      free := ?_ }
  · rintro (_ | _)
    · exact h.ring .rx
    · exact h.ring .tx
  · rintro (_ | _)
    · exact h.shadow .rx
    · exact h.shadow .tx
  · intro k hk
    rcases List.mem_cons.mp (hperm.mem_iff.mp hk) with rfl | hk
    · exact hlt
    · exact h.bound k hk
  · intro k hk
    change (if k = slot then false else b.txq.slotFree k) = true ↔
      k ∉ ids rings b mem v .tx ++ slot :: filling
    rw [hperm.mem_iff, List.mem_cons, not_or]
    by_cases hs : k = slot
    · simp [hs]
    · rw [if_neg hs, h.free k hk]
      simp [hs]

/-- A slot given back before it was published. -/
theorem giveBack (h : Slots rings b mem v (k :: filling)) :
    Slots rings { b with txq := vnetTxslotFree b.txq k } mem v filling := by
  have hperm : (ids rings b mem v .tx ++ k :: filling).Perm
      (k :: (ids rings b mem v .tx ++ filling)) := List.perm_middle
  have hnodup := List.nodup_cons.mp (hperm.nodup_iff.mp h.nodup)
  have hbound : ∀ j ∈ ids rings b mem v .tx ++ filling, j < (rings .tx).qsize.toNat :=
    fun j hj => h.bound j (hperm.mem_iff.mpr (List.mem_cons_of_mem _ hj))
  refine
    { laid := h.laid
      ring := ?_
      devRing := h.devRing
      shadow := ?_
      devUsed := h.devUsed
      rx := h.rx
      nodup := hnodup.2
      bound := hbound
      pending := ?_
      free := ?_ }
  · rintro (_ | _)
    · exact h.ring .rx
    · exact h.ring .tx
  · rintro (_ | _)
    · exact h.shadow .rx
    · exact h.shadow .tx
  · intro j
    change (if j = k then none else b.txq.pending j).isSome ↔ j ∈ ids rings b mem v .tx
    by_cases hj : j = k
    · rw [if_pos hj, hj]
      simp only [Option.isSome_none, Bool.false_eq_true, false_iff]
      exact fun hmem => hnodup.1 (List.mem_append_left _ hmem)
    · rw [if_neg hj]
      exact h.pending j
  · intro j hlt
    change (if j = k then true else b.txq.slotFree j) = true ↔
      j ∉ ids rings b mem v .tx ++ filling
    by_cases hj : j = k
    · rw [if_pos hj, hj]
      simp [hnodup.1]
    · rw [if_neg hj, h.free j hlt, hperm.mem_iff, List.mem_cons, not_or]
      simp [hj]

/-- The same descriptors on both rings, whatever their stage. -/
theorem of_perm (h : Slots rings b mem v filling) {b' : VNetBase} {v' : RingDevice}
    (hl : Laid rings mem') (hring : ∀ i, (b'.queue i).toVRing = rings i)
    (hdev : ∀ i, (v'.queue i).ring = rings i)
    (hshadow : ∀ i, (b'.queue i).availIdxShadow = availIdx mem' (rings i))
    (hused : ∀ i, (v'.queue i).usedIdx = usedIdx mem' (rings i))
    (hids : ∀ i, (ids rings b' mem' v' i).Perm (ids rings b mem v i))
    (hpending : b'.txq.pending = b.txq.pending) (hfree : b'.txq.slotFree = b.txq.slotFree) :
    Slots rings b' mem' v' filling := by
  have happ := (hids .tx).append_right filling
  exact
    { laid := hl
      ring := hring
      devRing := hdev
      shadow := hshadow
      devUsed := hused
      rx := (hids .rx).trans h.rx
      nodup := happ.nodup_iff.mpr h.nodup
      bound := fun k hk => h.bound k (happ.mem_iff.mp hk)
      pending := fun k => by rw [hpending, (hids .tx).mem_iff]; exact h.pending k
      free := fun k hk => by rw [hfree, happ.mem_iff]; exact h.free k hk }

end Slots

/-! ### Posting a descriptor -/

section Posting

variable [LawfulGuestMemory μ] {rings : QueueId → VRing} {b : VNetBase} {mem mem' : μ}
  {v : RingDevice} {filling : List Nat} {i : QueueId} {q : VNetQueue}

/-- A descriptor set and pushed. -/
theorem repost (h : Laid rings mem) (hq : q.toVRing = rings i)
    (hshadow : q.availIdxShadow = availIdx mem (rings i)) {idx : Word}
    (hidx : idx.toNat < (rings i).qsize.toNat) (phys len : Long) (flags last : Word)
    (hroom : (posted mem (rings i) last).length < (rings i).qsize.toNat)
    (hm : (vqPushAvail q (vqSetDesc q mem idx phys len flags) idx).2 = mem') :
    Touches rings [.desc i, .avail i] mem mem' ∧
      posted mem' (rings i) last = posted mem (rings i) last ++ [idx] ∧
      availIdx mem' (rings i) = q.availIdxShadow + 1 := by
  have hset := vqSetDesc_touches h hq hidx phys len flags
  have hdesc : ∀ p ∈ [Part.desc i], p.Valid rings ∧ p ≠ .avail i := by
    intro p hp
    rw [List.mem_singleton.mp hp]
    exact ⟨trivial, by simp⟩
  have hl := h.touched hset
  have hidxSame := availIdx_same h hset hdesc
  have hpostedSame := posted_same h hset hdesc last
  obtain ⟨hpush, hcount, -⟩ := vqPushAvail_spec hl hq idx
  rw [hm] at hpush hcount
  refine ⟨hset.trans hpush, ?_, hcount⟩
  rw [← hm, posted_push hl hq (hshadow.trans hidxSame.symm) idx last (by rwa [hpostedSame]),
    hpostedSame]

/-- The parts that posting touches leave the other ring and the used ring alone. -/
theorem repost_parts (rings : QueueId → VRing) {j : QueueId} (p : Part)
    (hp : p ∈ [Part.desc i, .avail i]) :
    p.Valid rings ∧ (j ≠ i → p ≠ .avail j) ∧ p ≠ .used j := by
  simp only [List.mem_cons, List.not_mem_nil, or_false] at hp
  rcases hp with rfl | rfl
  · exact ⟨trivial, by simp, by simp⟩
  · exact ⟨trivial, fun hne heq => hne (Part.avail.inj heq).symm, by simp⟩

/-- **A filled slot is published**: it leaves those being filled for the ring. -/
theorem Slots.publish {d : Driver μ} {k : Nat} (h : Slots rings d.base d.mem v (k :: filling))
    (io : IOSana2Req) (framelen : Long) :
    Slots rings (publishSlot d io k framelen).base (publishSlot d io k framelen).mem v filling := by
  have hperm : (ids rings d.base d.mem v .tx ++ k :: filling).Perm
      (k :: (ids rings d.base d.mem v .tx ++ filling)) := List.perm_middle
  have hk : k < (rings .tx).qsize.toNat := h.bound k (by simp)
  have hle := h.laid.size_le .tx
  have hk16 : (BitVec.ofNat 16 k).toNat = k := by
    rw [BitVec.toNat_ofNat]
    omega
  have hidx : (BitVec.ofNat 16 k).toNat < (rings .tx).qsize.toNat := by rwa [hk16]
  have hlen := length_le_of_nodup h.nodup h.bound
  have hids : ids rings d.base d.mem v .tx =
      ringIds d.mem (rings .tx) (v.queue .tx).lastAvailIdx (v.queue .tx).taken
        (d.base.queue .tx).usedIdxSeen := rfl
  have hroom : (posted d.mem (rings .tx) (v.queue .tx).lastAvailIdx).length <
      (rings .tx).qsize.toNat := by
    rw [hids] at hlen
    simp only [ringIds, List.length_append, List.length_map, List.length_cons] at hlen
    omega
  -- The queue with the request recorded, and the memory after both stores.
  let q : VNetQueue :=
    { d.base.txq with pending := fun j => if j = k then some io else d.base.txq.pending j }
  have hq : q.toVRing = rings .tx := h.ring .tx
  obtain ⟨htouch, hposted, hcount⟩ := repost h.laid hq (h.shadow .tx) hidx (q.bufPtrs k) framelen 0
    (v.queue .tx).lastAvailIdx hroom rfl
  change Slots rings { d.base with txq := { q with availIdxShadow := q.availIdxShadow + 1 } }
    (vqPushAvail q (vqSetDesc q d.mem (BitVec.ofNat 16 k) (q.bufPtrs k) framelen 0)
      (BitVec.ofNat 16 k)).2 v filling
  generalize (vqPushAvail q (vqSetDesc q d.mem (BitVec.ofNat 16 k) (q.bufPtrs k) framelen 0)
    (BitVec.ofNat 16 k)).2 = mem' at htouch hposted hcount
  have hunseen : ∀ j seen, unseen mem' (rings j) seen = unseen d.mem (rings j) seen := fun j seen =>
    unseen_same h.laid htouch
      (fun p hp => ⟨(repost_parts rings (j := j) p hp).1,
        (repost_parts rings p hp).2.2⟩) seen
  have hused : ∀ j, usedIdx mem' (rings j) = usedIdx d.mem (rings j) := fun j =>
    usedIdx_same h.laid htouch fun p hp =>
      ⟨(repost_parts rings (j := j) p hp).1, (repost_parts rings p hp).2.2⟩
  have hrxParts : ∀ p ∈ [Part.desc .tx, .avail .tx], p.Valid rings ∧ p ≠ .avail .rx := fun p hp =>
    ⟨(repost_parts rings (j := .rx) p hp).1,
      (repost_parts rings p hp).2.1 (by simp)⟩
  generalize hb : ({ d.base with txq := { q with availIdxShadow := q.availIdxShadow + 1 } } :
    VNetBase) = b'
  have hrx : ids rings b' mem' v .rx = ids rings d.base d.mem v .rx := by
    subst hb
    unfold ids ringIds
    rw [posted_same h.laid htouch hrxParts, hunseen]
    rfl
  have htx : (ids rings b' mem' v .tx).Perm (k :: ids rings d.base d.mem v .tx) := by
    subst hb
    unfold ids ringIds
    rw [hposted, hunseen, List.map_append, List.map_singleton, hk16]
    refine List.perm_iff_count.mpr fun n => ?_
    simp only [VNetBase.queue, q, List.count_append, List.count_cons, List.count_nil]
    omega
  have happ : (ids rings b' mem' v .tx ++ filling).Perm
      (ids rings d.base d.mem v .tx ++ k :: filling) :=
    (htx.append_right filling).trans hperm.symm
  refine
    { laid := h.laid.touched htouch
      ring := ?_
      devRing := h.devRing
      shadow := ?_
      devUsed := fun j => by rw [hused]; exact h.devUsed j
      rx := by rw [hrx]; exact h.rx
      nodup := happ.nodup_iff.mpr h.nodup
      bound := fun j hj => h.bound j (happ.mem_iff.mp hj)
      pending := ?_
      free := ?_ }
  · subst hb
    rintro (_ | _)
    · exact h.ring .rx
    · exact h.ring .tx
  · subst hb
    rintro (_ | _)
    · rw [availIdx_same h.laid htouch hrxParts]
      exact h.shadow .rx
    · exact hcount.symm
  · intro j
    rw [htx.mem_iff, List.mem_cons, ← h.pending j]
    subst hb
    change (if j = k then some io else d.base.txq.pending j).isSome ↔ _
    by_cases hj : j = k
    · simp [hj]
    · simp [hj]
  · intro j hj
    rw [happ.mem_iff, ← h.free j hj]
    subst hb
    rfl

/-! ### What the device has used -/

omit [LawfulGuestMemory μ] in
theorem usedElem_eq (hq : q.toVRing = rings i) :
    usedElem q mem =
      usedSlot mem (rings i) (WrapRing.pos (rings i).qsize.toNat q.usedIdxSeen) := by
  have hused : q.used = (rings i).used := congrArg VRing.used hq
  have hsize : q.qsize = (rings i).qsize := congrArg VRing.qsize hq
  have hpos : (q.usedIdxSeen % q.qsize).setWidth 32 =
      BitVec.ofNat 32 (WrapRing.pos (rings i).qsize.toNat q.usedIdxSeen) := by
    rw [hsize, ← BitVec.ofNat_toNat, BitVec.toNat_umod]
    rfl
  unfold usedElem usedSlot
  rw [hpos, hused]

omit [LawfulGuestMemory μ] in
/-- Short of `used.idx` the element the driver reads is the oldest it has not seen. -/
theorem unseen_pop (hq : q.toVRing = rings i) (hne : q.usedIdxSeen ≠ usedIdx mem (rings i)) :
    unseen mem (rings i) q.usedIdxSeen =
      usedElem q mem :: unseen mem (rings i) (q.usedIdxSeen + 1) := by
  unfold unseen
  rw [WrapRing.contents_pop _ _ hne, usedElem_eq hq]

omit [LawfulGuestMemory μ] in
/-- That element names a descriptor on the ring. -/
theorem Slots.usedElem_mem (h : Slots rings b mem v filling)
    (hne : (b.queue i).usedIdxSeen ≠ usedIdx mem (rings i)) :
    (usedElem (b.queue i) mem).1.toNat ∈ ids rings b mem v i := by
  unfold ids ringIds
  rw [unseen_pop (h.ring i) hne]
  simp

omit [LawfulGuestMemory μ] in
/-- It is in range, so neither handler loop skips it. -/
theorem Slots.usedElem_lt (h : Slots rings b mem v filling)
    (hne : (b.queue i).usedIdxSeen ≠ usedIdx mem (rings i)) :
    ¬(b.queue i).qsize.setWidth 32 ≤ (usedElem (b.queue i) mem).1 := by
  have hlt := (h.onRing i).2 _ (h.usedElem_mem hne)
  have hle := h.laid.size_le i
  rw [BitVec.le_def, BitVec.toNat_setWidth, h.qsize_eq i]
  omega

/-! ### Used transmit descriptors -/

section Tx

omit [LawfulGuestMemory μ]

variable {d : Driver μ}

/-- **One round of the transmit loop** answers the write of the slot. -/
theorem Slots.txUsed_eq (h : Slots rings d.base d.mem v filling)
    (hne : d.base.txq.usedIdxSeen ≠ usedIdx d.mem (rings .tx)) :
    ∃ io, d.base.txq.pending (usedElem d.base.txq d.mem).1.toNat = some io ∧
      txUsed d =
        (((d.setUnit { d.base.unit0 with packetsSent := d.base.unit0.packetsSent + 1 }).replyMsg
          { io with error := 0 }).setTx
            (vnetTxslotFree d.base.txq (usedElem d.base.txq d.mem).1.toNat).seen) := by
  have hmem := h.usedElem_mem (i := .tx) hne
  have hlt := h.usedElem_lt (i := .tx) hne
  change ¬d.base.txq.qsize.setWidth 32 ≤ (usedElem d.base.txq d.mem).1 at hlt
  obtain ⟨io, hio⟩ := Option.isSome_iff_exists.mp ((h.pending _).mpr hmem)
  change d.base.txq.pending (usedElem d.base.txq d.mem).1.toNat = some io at hio
  refine ⟨io, hio, ?_⟩
  unfold txUsed
  simp only
  rw [if_neg hlt, hio]

theorem Slots.txUsed (h : Slots rings d.base d.mem v filling)
    (hne : d.base.txq.usedIdxSeen ≠ usedIdx d.mem (rings .tx)) :
    Slots rings (VNet.txUsed d).base (VNet.txUsed d).mem v filling := by
  obtain ⟨io, -, heq⟩ := h.txUsed_eq hne
  have hmem := h.usedElem_mem (i := .tx) hne
  have hpop : unseen d.mem (rings .tx) d.base.txq.usedIdxSeen =
      usedElem d.base.txq d.mem :: unseen d.mem (rings .tx) (d.base.txq.usedIdxSeen + 1) :=
    unseen_pop (h.ring .tx) hne
  change (usedElem d.base.txq d.mem).1.toNat ∈ ids rings d.base d.mem v .tx at hmem
  rw [heq]
  generalize hk : (usedElem d.base.txq d.mem).1.toNat = k at hmem
  generalize hd : ((((d.setUnit
    { d.base.unit0 with packetsSent := d.base.unit0.packetsSent + 1 }).replyMsg
      { io with error := 0 }).setTx (vnetTxslotFree d.base.txq k).seen) : Driver μ) = d'
  have hrx : ids rings d'.base d'.mem v .rx = ids rings d.base d.mem v .rx := by
    subst hd
    rfl
  -- The slot leaves the ring, from the front of what was not seen.
  have htx : (ids rings d.base d.mem v .tx).Perm (k :: ids rings d'.base d'.mem v .tx) := by
    have hmem' : d'.mem = d.mem := by
      subst hd
      rfl
    have hseen : d'.base.txq.usedIdxSeen = d.base.txq.usedIdxSeen + 1 := by
      subst hd
      rfl
    unfold ids ringIds VNetBase.queue
    simp only
    rw [hpop, hmem', hseen, ← hk]
    refine List.perm_iff_count.mpr fun n => ?_
    simp only [List.count_append, List.map_cons, List.count_cons]
    omega
  have happ : (ids rings d.base d.mem v .tx ++ filling).Perm
      (k :: (ids rings d'.base d'.mem v .tx ++ filling)) := htx.append_right filling
  have hnodup := List.nodup_cons.mp (happ.nodup_iff.mp h.nodup)
  refine
    { laid := ?_
      ring := ?_
      devRing := h.devRing
      shadow := ?_
      devUsed := ?_
      rx := by rw [hrx]; exact h.rx
      nodup := hnodup.2
      bound := fun j hj => h.bound j (happ.mem_iff.mpr (List.mem_cons_of_mem _ hj))
      pending := ?_
      free := ?_ }
  · subst hd
    exact h.laid
  · subst hd
    rintro (_ | _)
    · exact h.ring .rx
    · exact h.ring .tx
  · subst hd
    rintro (_ | _)
    · exact h.shadow .rx
    · exact h.shadow .tx
  · subst hd
    exact h.devUsed
  · intro j
    have hpending : d'.base.txq.pending j = if j = k then none else d.base.txq.pending j := by
      subst hd
      rfl
    have hj := h.pending j
    rw [htx.mem_iff, List.mem_cons] at hj
    rw [hpending]
    split
    · rename_i hjk
      subst hjk
      simp only [Option.isSome_none, Bool.false_eq_true, false_iff]
      exact fun hin => hnodup.1 (List.mem_append_left _ hin)
    · rename_i hjk
      rw [hj]
      simp [hjk]
  · intro j hlt
    have hslot : d'.base.txq.slotFree j = if j = k then true else d.base.txq.slotFree j := by
      subst hd
      rfl
    have hj := h.free j hlt
    rw [happ.mem_iff, List.mem_cons, not_or] at hj
    rw [hslot]
    split
    · rename_i hjk
      subst hjk
      simp [hnodup.1]
    · rename_i hjk
      rw [hj]
      simp [hjk]

end Tx

/-! ### Used receive descriptors -/

section Rx

variable {d : Driver μ}

omit [LawfulGuestMemory μ] in
/-- Delivering a frame changes the unit and replies to at most the first read. -/
theorem deliver_cases (d : Driver μ) (buf len : Long) (copied : Bool) :
    ∃ u, (deliver d buf len copied).base = { d.base with unit0 := u } ∧
      (deliver d buf len copied).mem = d.mem ∧
      ((u.pendingReads = d.base.unit0.pendingReads ∧
          (deliver d buf len copied).replies = d.replies) ∨
        ∃ io io', d.base.unit0.pendingReads = io :: u.pendingReads ∧ io'.node = io.node ∧
          io'.command = io.command ∧
          (deliver d buf len copied).replies = d.replies ++ [io']) ∧
      u.opencnt = d.base.unit0.opencnt := by
  unfold deliver
  simp only
  split
  · split
    · rename_i head rest hreads
      split
      · refine ⟨_, rfl, rfl, .inr ⟨head, _, hreads, ?_, ?_, rfl⟩, rfl⟩
        · split <;> rfl
        · split <;> rfl
      · exact ⟨_, rfl, rfl, .inl ⟨rfl, rfl⟩, rfl⟩
    · exact ⟨_, rfl, rfl, .inl ⟨rfl, rfl⟩, rfl⟩
  · exact ⟨_, rfl, rfl, .inl ⟨rfl, rfl⟩, rfl⟩

omit [LawfulGuestMemory μ] in
/-- **One round of the receive loop** delivers the frame and posts the buffer again. -/
theorem Slots.rxUsed_eq (h : Slots rings d.base d.mem v filling) (copied : Bool)
    (hne : d.base.rxq.usedIdxSeen ≠ usedIdx d.mem (rings .rx)) :
    ∃ idx phys len, idx.toNat = (usedElem d.base.rxq d.mem).1.toNat ∧
      rxUsed d copied =
        ((deliver d phys len copied).setRx
          (vqPushAvail d.base.rxq (vqSetDesc d.base.rxq d.mem idx phys
            (BitVec.ofNat 32 rxbufSize) Vring.descFWrite) idx).1.seen).setMem
          (vqPushAvail d.base.rxq (vqSetDesc d.base.rxq d.mem idx phys
            (BitVec.ofNat 32 rxbufSize) Vring.descFWrite) idx).2 := by
  have hlt := h.usedElem_lt (i := .rx) hne
  have hbound := (h.onRing .rx).2 _ (h.usedElem_mem (i := .rx) hne)
  have hle := h.laid.size_le .rx
  change ¬d.base.rxq.qsize.setWidth 32 ≤ (usedElem d.base.rxq d.mem).1 at hlt
  change (usedElem d.base.rxq d.mem).1.toNat < _ at hbound
  generalize hphys : d.base.rxq.bufPtrs (usedElem d.base.rxq d.mem).1.toNat = phys
  obtain ⟨u, -, hmem, -, -⟩ :=
    deliver_cases d phys (usedElem d.base.rxq d.mem).2 copied
  refine ⟨(usedElem d.base.rxq d.mem).1.setWidth 16, phys, (usedElem d.base.rxq d.mem).2, ?_, ?_⟩
  · rw [BitVec.toNat_setWidth]
    omega
  · unfold rxUsed
    simp only
    rw [if_neg hlt, hphys, hmem]

theorem Slots.rxUsed (h : Slots rings d.base d.mem v filling) (copied : Bool)
    (hne : d.base.rxq.usedIdxSeen ≠ usedIdx d.mem (rings .rx)) :
    Slots rings (VNet.rxUsed d copied).base (VNet.rxUsed d copied).mem v filling := by
  obtain ⟨idx, phys, len, hidx, heq⟩ := h.rxUsed_eq copied hne
  obtain ⟨u, hbase, -, -, -⟩ := deliver_cases d phys len copied
  have hmem := h.usedElem_mem (i := .rx) hne
  have hbound := (h.onRing .rx).2 _ hmem
  have hpop : unseen d.mem (rings .rx) d.base.rxq.usedIdxSeen =
      usedElem d.base.rxq d.mem :: unseen d.mem (rings .rx) (d.base.rxq.usedIdxSeen + 1) :=
    unseen_pop (h.ring .rx) hne
  change (usedElem d.base.rxq d.mem).1.toNat < _ at hbound
  rw [← hidx] at hbound
  have hlen := h.rx.length_eq
  unfold ids ringIds VNetBase.queue at hlen
  simp only at hlen
  rw [hpop] at hlen
  simp only [List.length_append, List.length_map, List.length_cons, List.length_range] at hlen
  obtain ⟨htouch, hposted, hcount⟩ := repost h.laid (q := d.base.rxq) (h.ring .rx) (h.shadow .rx)
    hbound phys (BitVec.ofNat 32 rxbufSize) Vring.descFWrite (v.queue .rx).lastAvailIdx
    (by omega) rfl
  rw [heq]
  generalize (vqPushAvail d.base.rxq (vqSetDesc d.base.rxq d.mem idx phys
    (BitVec.ofNat 32 rxbufSize) Vring.descFWrite) idx).2 = mem' at htouch hposted hcount
  have hparts : ∀ j, ∀ p ∈ [Part.desc .rx, .avail .rx], p.Valid rings ∧ p ≠ .used j :=
    fun j p hp => ⟨(repost_parts rings (j := j) p hp).1,
      (repost_parts rings p hp).2.2⟩
  have htxParts : ∀ p ∈ [Part.desc .rx, .avail .rx], p.Valid rings ∧ p ≠ .avail .tx := fun p hp =>
    ⟨(repost_parts rings (j := .tx) p hp).1,
      (repost_parts rings p hp).2.1 (by simp)⟩
  have hunseen : ∀ j seen, unseen mem' (rings j) seen = unseen d.mem (rings j) seen := fun j seen =>
    unseen_same h.laid htouch (hparts j) seen
  have hused : ∀ j, usedIdx mem' (rings j) = usedIdx d.mem (rings j) := fun j =>
    usedIdx_same h.laid htouch (hparts j)
  generalize hd : (((deliver d phys len copied).setRx
    (vqPushAvail d.base.rxq (vqSetDesc d.base.rxq d.mem idx phys (BitVec.ofNat 32 rxbufSize)
      Vring.descFWrite) idx).1.seen).setMem mem' : Driver μ) = d'
  have hrxq : d'.base.rxq = { d.base.rxq with
      availIdxShadow := d.base.rxq.availIdxShadow + 1
      usedIdxSeen := d.base.rxq.usedIdxSeen + 1 } := by
    subst hd
    rfl
  have htxq : d'.base.txq = d.base.txq := by
    subst hd
    change (deliver d phys len copied).base.txq = _
    rw [hbase]
  have hmem' : d'.mem = mem' := by
    subst hd
    rfl
  rw [hmem']
  refine h.of_perm (h.laid.touched htouch) ?_ h.devRing ?_ ?_ ?_ ?_ ?_
  · rintro (_ | _)
    · change d'.base.rxq.toVRing = _
      rw [hrxq]
      exact h.ring .rx
    · change d'.base.txq.toVRing = _
      rw [htxq]
      exact h.ring .tx
  · rintro (_ | _)
    · change d'.base.rxq.availIdxShadow = _
      rw [hrxq, hcount]
    · change d'.base.txq.availIdxShadow = _
      rw [htxq, availIdx_same h.laid htouch htxParts]
      exact h.shadow .tx
  · intro j
    rw [hused]
    exact h.devUsed j
  · rintro (_ | _)
    · unfold ids ringIds VNetBase.queue
      simp only
      rw [hposted, hunseen, hpop, hrxq]
      refine List.perm_iff_count.mpr fun n => ?_
      simp only [List.count_append, List.map_append, List.map_cons, List.map_nil, List.count_cons,
        List.count_nil, hidx]
      omega
    · unfold ids ringIds VNetBase.queue
      simp only
      rw [posted_same h.laid htouch htxParts, hunseen, htxq]
  · rw [htxq]
  · rw [htxq]

end Rx

/-! ### The device -/

omit [LawfulGuestMemory μ] in
/-- **Whatever the device does** moves a descriptor on to its next stage. -/
theorem Slots.device (h : Slots rings b mem v filling) {v' : RingDevice}
    (hact : RingDevice.Acts (v, mem) (v', mem')) : Slots rings b mem' v' filling := by
  cases hact with
  | fetch j hne =>
    rw [h.devRing j] at hne ⊢
    have hpop : posted mem (rings j) (v.queue j).lastAvailIdx =
        availSlot mem (rings j) (WrapRing.pos (rings j).qsize.toNat (v.queue j).lastAvailIdx) ::
          posted mem (rings j) ((v.queue j).lastAvailIdx + 1) :=
      WrapRing.contents_pop _ _ hne
    refine h.of_perm h.laid h.ring ?_ h.shadow ?_ ?_ rfl rfl
    · intro l
      change (if l = j then _ else v.queue l).ring = _
      split
      · rename_i hlj
        rw [hlj]
        exact h.devRing j
      · exact h.devRing l
    · intro l
      change (if l = j then _ else v.queue l).usedIdx = _
      split
      · rename_i hlj
        rw [hlj]
        exact h.devUsed j
      · exact h.devUsed l
    · intro l
      unfold ids ringIds RingDevice.setQueue
      simp only
      split
      · rename_i hlj
        rw [hlj, hpop]
        refine List.perm_iff_count.mpr fun n => ?_
        simp only [List.count_append, List.map_append, List.map_cons, List.map_nil,
          List.count_cons, List.count_nil]
        omega
      · exact List.Perm.refl _
  | @complete _ _ _ j k len hk hc =>
    have hmem : k.toNat ∈ ids rings b mem v j := by
      unfold ids ringIds
      simp only [List.mem_append, List.mem_map]
      exact .inl (.inr ⟨k, hk, rfl⟩)
    have hkid := (h.onRing j).2 _ hmem
    have hroom : (unseen mem (rings j) (b.queue j).usedIdxSeen).length <
        (rings j).qsize.toNat := by
      have hlen := length_le_of_nodup (h.onRing j).1 (h.onRing j).2
      have hpos := List.length_pos_of_mem hk
      unfold ids ringIds at hlen
      simp only [List.length_append, List.length_map] at hlen
      omega
    have htouch := hc.touches h.laid (h.devRing j)
    have hpush := hc.unseen h.laid (h.devRing j) (h.devUsed j) hkid hroom
    have hidx : usedIdx mem' (rings j) = (v.queue j).usedIdx + 1 := h.devRing j ▸ hc.idx
    have hparts : ∀ p ∈ completedParts j k, p.Valid rings ∧ (∀ l, p ≠ .avail l) ∧
        ∀ l, l ≠ j → p ≠ .used l := by
      intro p hp
      unfold completedParts at hp
      rcases List.mem_cons.mp hp with rfl | hp
      · exact ⟨trivial, by simp, fun l hl heq => hl (Part.used.inj heq).symm⟩
      · split at hp
        · rename_i hj
          obtain rfl := List.mem_singleton.mp hp
          rw [hj] at hkid
          exact ⟨hkid, by simp, by simp⟩
        · cases hp
    have hposted : ∀ l last, posted mem' (rings l) last = posted mem (rings l) last := fun l last =>
      posted_same h.laid htouch (fun p hp => ⟨(hparts p hp).1, (hparts p hp).2.1 l⟩) last
    refine h.of_perm (h.laid.touched htouch) h.ring ?_ ?_ ?_ ?_ rfl rfl
    · intro l
      change (if l = j then _ else v.queue l).ring = _
      split
      · rename_i hlj
        rw [hlj]
        exact h.devRing j
      · exact h.devRing l
    · intro l
      rw [h.shadow, availIdx_same h.laid htouch fun p hp => ⟨(hparts p hp).1, (hparts p hp).2.1 l⟩]
    · intro l
      change (if l = j then _ else v.queue l).usedIdx = _
      split
      · rename_i hlj
        rw [hlj, hidx]
      · rename_i hlj
        rw [h.devUsed l, usedIdx_same h.laid htouch fun p hp =>
          ⟨(hparts p hp).1, (hparts p hp).2.2 l hlj⟩]
    · intro l
      unfold ids ringIds RingDevice.setQueue
      simp only
      split
      · rename_i hlj
        subst hlj
        have hk32 : (k.setWidth 32 : Long).toNat = k.toNat := by
          rw [BitVec.toNat_setWidth]
          omega
        have hperm := ((List.perm_cons_erase hk).map BitVec.toNat).count_eq
        rw [hposted, hpush]
        refine List.perm_iff_count.mpr fun n => ?_
        have hn := hperm n
        simp only [List.count_append, List.map_append, List.map_cons, List.map_nil,
          List.count_cons, List.count_nil, hk32] at hn ⊢
        omega
      · rename_i hlj
        rw [hposted, unseen_same h.laid htouch fun p hp =>
          ⟨(hparts p hp).1, (hparts p hp).2.2 l hlj⟩]

end Posting

end VNet

end M68kMachine
