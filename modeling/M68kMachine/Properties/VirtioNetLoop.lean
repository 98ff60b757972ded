import M68kMachine.Core.GuestRam
import M68kMachine.Properties.VirtioNetTick

/-!
# When the transmit engine comes to an end

`process_tx` reads `avail.idx` again in every round, and publishing a used element stores into guest
memory. As long as no store it makes lies over `avail.idx`, the loop works up to a fixed index;
where one does, it can run for ever.

* `processTx_bounded` — the loop comes to an end
* `processTx_endless` — a layout on which it does not
-/

namespace M68kMachine

namespace VirtioNetStub

open VirtioNet GuestMemory

variable {ν μ : Type} [NetBackend ν] [GuestMemory μ] {addr : Quad}

/-! ## What a completion stores over -/

/-- `avail.idx` of a queue. -/
def availIdxField (q : VirtQueueState) : Region := ⟨(q.driverAddr + 2).toNat, 2⟩

/-- `used.idx` of a queue. -/
def usedIdxField (q : VirtQueueState) : Region := ⟨(q.deviceAddr + 2).toNat, 2⟩

/-- The used element at `pos`. -/
def usedElemField (q : VirtQueueState) (pos : Nat) : Region :=
  ⟨q.deviceAddr.toNat + 4 + 8 * pos, 8⟩

/-- The stores of the `i`-th completion from now on leave `avail.idx` alone. -/
def Spares (v : VirtioNetStub ν) (i : Nat) : Prop :=
  (availIdxField (v.queues queueTx)).Disjoint (usedIdxField (v.queues queueTx)) ∧
    (availIdxField (v.queues queueTx)).Disjoint
      (usedElemField (v.queues queueTx)
        (((v.queues queueTx).usedIdx + BitVec.ofNat 16 i) % v.effectiveQueueSize queueTx).toNat)

/-- **No completion stores over `avail.idx`.** The `i`-th is made if the loop goes round again
behind it. -/
def Undisturbed (s : VirtioNetStub ν × μ) : Prop :=
  ∀ i t, Loop.Iterates txBody (i + 1) s t → s.1.Spares i

omit [NetBackend ν] [GuestMemory μ] in
theorem toNat_of_toU32 {a : Long} (h : toU32 addr = some a) : a.toNat = addr.toNat := by
  unfold toU32 at h
  split at h
  · rename_i hlt
    rw [← Option.some.inj h, BitVec.toNat_setWidth]
    omega
  · cases h

omit [NetBackend ν] [GuestMemory μ] in
theorem toNat_of_checkedMul {a b c : Quad} (h : checkedMul a b = some c) :
    c.toNat = a.toNat * b.toNat := by
  unfold checkedMul at h
  split at h
  · cases h
  · rename_i hlt
    rw [← Option.some.inj h, BitVec.toNat_mul]
    refine Nat.mod_eq_of_lt ?_
    unfold BitVec.umulOverflow at hlt
    simpa using hlt

variable [LawfulGuestMemory μ] {mem mem' : μ} {len : Long}

omit [NetBackend ν] in
/-- A granted store through `gm_write_*`. -/
theorem frame_of_write {bs : List Byte} (hbs : bs ≠ []) (hlen : bs.length < 0x100000000)
    (h : (toU32 addr).bind (fun a => store mem a bs) = some mem') :
    addr.toNat < 0x100000000 ∧ Frame [⟨addr.toNat, bs.length⟩] mem mem' := by
  obtain ⟨a, ha, hstore⟩ := Option.bind_eq_some_iff.mp h
  have hframe := frame_store hbs hlen hstore
  have haddr := toNat_of_toU32 ha
  rw [haddr] at hframe
  exact ⟨by rw [← haddr]; exact a.isLt, hframe⟩

omit [NetBackend ν] in
/-- **A granted completion** stores over `used.idx` and one used element. -/
theorem completeUsed_frame {v w : VirtioNetStub ν} {id : Word}
    (h : v.completeUsed mem queueTx id len = (true, w, mem')) :
    Frame [usedElemField (v.queues queueTx)
        ((v.queues queueTx).usedIdx % v.effectiveQueueSize queueTx).toNat,
      usedIdxField (v.queues queueTx)] mem mem' := by
  unfold completeUsed at h
  simp only at h
  split at h
  · cases h
  · rename_i elem helem
    split at h
    · cases h
    · rename_i mem₁ hid
      split at h
      · cases h
      · rename_i mem₂ hlen
        split at h
        · cases h
        · rename_i mem₃ hidx
          obtain ⟨-, -, rfl⟩ := h
          have hpos := ((v.queues queueTx).usedIdx % v.effectiveQueueSize queueTx).isLt
          generalize (v.queues queueTx).usedIdx % v.effectiveQueueSize queueTx = pos at *
          -- The address of the element, without overflow.
          unfold usedRingElemAddr at helem
          simp only [Option.bind_eq_bind, Option.bind_eq_some_iff] at helem
          obtain ⟨ring, hring, off, hoff, hadd⟩ := helem
          have hring' := (GuestRam.toNat_of_checkedAdd hring).1
          have hoff' := toNat_of_checkedMul hoff
          have hadd' := (GuestRam.toNat_of_checkedAdd hadd).1
          have hfour : (4 : Quad).toNat = 4 := rfl
          have height : (8 : Quad).toNat = 8 := rfl
          have hwide : (pos.setWidth 64 : Quad).toNat = pos.toNat := by
            rw [BitVec.toNat_setWidth]
            omega
          rw [height, hwide] at hoff'
          obtain ⟨hid32, hframe₁⟩ := frame_of_write (by simp [toLE32]) (by simp [toLE32]) hid
          obtain ⟨-, hframe₂⟩ := frame_of_write (by simp [toLE32]) (by simp [toLE32]) hlen
          obtain ⟨-, hframe₃⟩ := frame_of_write (by simp [toLE16]) (by simp [toLE16]) hidx
          have helem4 : (elem + 4).toNat = elem.toNat + 4 := by
            rw [BitVec.toNat_add]
            omega
          refine ((hframe₁.widen ?_).trans (hframe₂.widen ?_)).trans (hframe₃.widen ?_)
          · simp only [List.mem_singleton, forall_eq]
            refine ⟨_, List.mem_cons_self, ?_⟩
            simp only [Region.Inside, usedElemField, toLE32, List.length_cons, List.length_nil]
            omega
          · simp only [List.mem_singleton, forall_eq]
            refine ⟨_, List.mem_cons_self, ?_⟩
            simp only [Region.Inside, usedElemField, toLE32, List.length_cons, List.length_nil]
            omega
          · simp only [List.mem_singleton, forall_eq]
            exact ⟨_, List.mem_cons_of_mem _ List.mem_cons_self, Nat.le_refl _, Nat.le_refl _⟩

/-- So does a round that goes round again. -/
theorem txConsume_frame {v w : VirtioNetStub ν} {descAddr : Quad} {size head : Word}
    (h : v.txConsume mem descAddr size head = (true, w, mem')) :
    Frame [usedElemField (v.queues queueTx)
        ((v.queues queueTx).usedIdx % v.effectiveQueueSize queueTx).toNat,
      usedIdxField (v.queues queueTx)] mem mem' := by
  unfold txConsume copyChainOut at h
  simp only at h
  split at h
  · rename_i heq
    obtain ⟨rfl, -⟩ := Prod.mk.inj heq
    split at h
    · have hframe := completeUsed_frame h
      exact hframe
    · have hframe := completeUsed_frame h
      exact hframe
  · rename_i heq
    obtain ⟨rfl, -⟩ := Prod.mk.inj heq
    have hframe := completeUsed_frame h
    exact hframe

/-! ## The loop comes to an end -/

/-- The state `k` rounds into the loop: `avail.idx` is still what it was. -/
structure Underway (v₀ : VirtioNetStub ν) (availIdx : Word) (k : Nat) (s : VirtioNetStub ν × μ) :
    Prop where
  queue : s.1.queues queueTx = { v₀.queues queueTx with
    lastAvailIdx := (v₀.queues queueTx).lastAvailIdx + BitVec.ofNat 16 k
    usedIdx := (v₀.queues queueTx).usedIdx + BitVec.ofNat 16 k }
  availIdx : gmReadU16 s.2 ((v₀.queues queueTx).driverAddr + 2) = some availIdx

omit [NetBackend ν] in
/-- A read of `avail.idx` that a store elsewhere leaves alone. -/
theorem gmReadU16_frame {rs : List Region} {x : Word} (hread : gmReadU16 mem addr = some x)
    (hf : Frame rs mem mem') (hrs : ∀ r ∈ rs, (⟨addr.toNat, 2⟩ : Region).Disjoint r) :
    gmReadU16 mem' addr = some x := by
  have hlt : addr.toNat < 0x100000000 := by
    unfold gmReadU16 at hread
    obtain ⟨a, ha, -⟩ := Option.bind_eq_some_iff.mp hread
    rw [← toNat_of_toU32 ha]
    exact a.isLt
  rw [gmReadU16_eq rfl hlt] at hread ⊢
  obtain ⟨bs, hbs, hx⟩ := Option.map_eq_some_iff.mp hread
  rw [hf.bytes _ (fits_of_bytesAt hlt (Nat.lt_of_sub_eq_succ rfl) hbs) hrs, hbs,
    Option.map_some, hx]

/-- A round either ends the loop or, where its completion spares `avail.idx`, leads on. -/
theorem Underway.next {v₀ : VirtioNetStub ν} {availIdx : Word} {k : Nat}
    {s : VirtioNetStub ν × μ} (h : Underway v₀ availIdx k s)
    (hspares : ∀ t, txBody s = .again t → v₀.Spares k) :
    (∃ t, txBody s = .again t ∧ Underway v₀ availIdx (k + 1) t) ∨ ∃ t, txBody s = .done t := by
  cases hbody : txBody s with
  | done t => exact .inr ⟨t, rfl⟩
  | again t =>
    obtain ⟨hused, helem⟩ := hspares t hbody
    obtain ⟨v, mem⟩ := s
    obtain ⟨hqueue, havail⟩ := h
    simp only at hqueue havail
    have hread : gmReadU16 mem ((v.queues queueTx).driverAddr + 2) = some availIdx := by
      rw [hqueue]
      exact havail
    have hsize : v.effectiveQueueSize queueTx = v₀.effectiveQueueSize queueTx := by
      unfold effectiveQueueSize
      rw [hqueue]
    refine .inl ⟨t, rfl, ?_⟩
    unfold txBody at hbody
    simp only [hread] at hbody
    split at hbody
    · cases hbody
    · split at hbody
      · cases hbody
      · split at hbody
        · rename_i head _ w mem' hconsume
          cases hbody
          constructor
          · have hqueues := txConsume_queues hconsume
            simp only [if_true] at hqueues
            have hw := congrFun hqueues queueTx
            rw [setQueue_queues_self, hqueue] at hw
            simp only [advanceAvail]
            rw [setQueue_queues_self, hw, hqueue]
            simp only [VirtQueueState.setLastAvailIdx, VirtQueueState.setUsedIdx, BitVec.ofNat_add]
            simp only [BitVec.add_assoc]
            rfl
          · have hframe := txConsume_frame hconsume
            refine gmReadU16_frame havail hframe ?_
            intro r hr
            rw [hqueue, hsize] at hr
            simp only [List.mem_cons, List.not_mem_nil, or_false] at hr
            rcases hr with rfl | rfl
            · exact helem
            · exact hused
        · cases hbody

/-- **The transmit engine takes at most 65536 rounds** unless a completion stores over the index it
works up to. -/
theorem processTx_bounded (s : VirtioNetStub ν × μ)
    (h : s.1.needsReset = true ∨ (s.1.queues queueTx).enabled = false ∨ Undisturbed s) :
    ∃ t, ∀ fuel, 65536 ≤ fuel → processTx fuel s = some t := by
  obtain ⟨v, mem⟩ := s
  unfold processTx
  simp only at h ⊢
  by_cases hidle : v.needsReset = true ∨ (v.queues queueTx).enabled = false
  · refine ⟨(v, mem), fun fuel _ => if_pos ?_⟩
    rcases hidle with hreset | hdisabled
    · rw [hreset]
      rfl
    · rw [hdisabled]
      simp
  · have hrunning : (v.needsReset || !(v.queues queueTx).enabled) = false := by
      simp only [not_or, Bool.not_eq_true, Bool.not_eq_false] at hidle
      rw [hidle.1, hidle.2]
      rfl
    have hund : Undisturbed (v, mem) := (h.resolve_left fun hr => hidle (.inl hr)).resolve_left
      fun hd => hidle (.inr hd)
    simp only [hrunning, Bool.false_eq_true, if_false]
    cases hread : gmReadU16 mem ((v.queues queueTx).driverAddr + 2) with
    | none =>
      have hbody : txBody (v, mem) = .done (v.failClosed, mem) := by
        unfold txBody
        simp only [hread]
      refine ⟨(v.failClosed, mem), fun fuel hf => ?_⟩
      obtain ⟨fuel, rfl⟩ : ∃ f, fuel = f + 1 := ⟨fuel - 1, by omega⟩
      rw [Loop.run, hbody]
    | some availIdx =>
      -- The loop works up to `availIdx`, which no round before it changes.
      generalize hn : (availIdx - (v.queues queueTx).lastAvailIdx).toNat = n
      have hlt : n < 65536 := by
        rw [← hn]
        exact (availIdx - (v.queues queueTx).lastAvailIdx).isLt
      have hstart : Loop.Iterates txBody 0 (v, mem) (v, mem) ∧ Underway v availIdx 0 (v, mem) :=
        ⟨.zero _, by simp, hread⟩
      have hround : ∀ (k : Nat) (s : VirtioNetStub ν × μ), k < n →
          Loop.Iterates txBody k (v, mem) s ∧ Underway v availIdx k s →
          (∃ t, txBody s = .again t ∧
            Loop.Iterates txBody (k + 1) (v, mem) t ∧ Underway v availIdx (k + 1) t) ∨
            ∃ t, txBody s = .done t ∧ True := by
        rintro k s - ⟨hrounds, hs⟩
        rcases hs.next fun t ht => hund k t (hrounds.snoc ht) with ⟨t, ht, hunder⟩ | ⟨t, ht⟩
        · exact .inl ⟨t, ht, hrounds.snoc ht, hunder⟩
        · exact .inr ⟨t, ht, trivial⟩
      have hlast : ∀ s : VirtioNetStub ν × μ,
          Loop.Iterates txBody n (v, mem) s ∧ Underway v availIdx n s →
          ∃ t, txBody s = .done t ∧ True := by
        rintro ⟨w, mem'⟩ ⟨-, hqueue, havail⟩
        simp only at hqueue havail
        refine ⟨(w, mem'), ?_, trivial⟩
        have hidx : (w.queues queueTx).lastAvailIdx = availIdx := by
          rw [hqueue]
          simp only
          rw [← hn, BitVec.ofNat_toNat, BitVec.setWidth_eq, BitVec.add_comm,
            BitVec.sub_add_cancel]
        unfold txBody
        simp only
        rw [show (w.queues queueTx).driverAddr = (v.queues queueTx).driverAddr by rw [hqueue],
          havail]
        simp only
        rw [if_pos hidx.symm]
      obtain ⟨t, ht, -⟩ := Loop.run_of_progress hround hlast hstart
      exact ⟨t, fun fuel hf => ht fuel (by omega)⟩

/-- A device with a transmit queue of one slot over the sample memory. -/
def txOnly : VirtioNetStub LoopbackNetBackend :=
  (new ⟨[], []⟩).setQueue queueTx ⟨1, true, 0, 0x10, 0x18, 0, 0⟩

theorem processTx_bounded_sample :
    ∃ t, ∀ fuel, 65536 ≤ fuel → processTx fuel (txOnly, sampleRam 1 0) = some t := by
  refine processTx_bounded (txOnly, sampleRam 1 0) (.inr (.inr ?_))
  -- The queue has one slot, so every completion stores over the same element.
  intro i t _
  have hsize : txOnly.effectiveQueueSize queueTx = 1 := rfl
  have hpos : ∀ x : Word, x % 1 = 0 := fun x => BitVec.umod_one
  constructor
  · decide
  · simp only [hsize, hpos]
    decide

/-! ## A layout on which it does not -/

section Flat

variable {n : Nat}

theorem bytesAt_flat (m : FlatRam n) {r : Region} (hr : r.start + r.len ≤ n)
    (hn : n < 0x100000000) :
    bytesAt m r = some (m.bytes.slice ⟨r.start, r.len, hr⟩) := by
  have hstart : (BitVec.ofNat 32 r.start).toNat = r.start := by
    rw [BitVec.toNat_ofNat]
    exact Nat.mod_eq_of_lt (by omega)
  have hlen : (BitVec.ofNat 32 r.len).toNat = r.len := by
    rw [BitVec.toNat_ofNat]
    exact Nat.mod_eq_of_lt (by omega)
  unfold bytesAt
  simp only [ramSlice, FlatRam.span?, hstart, hlen]
  rw [dif_pos (by omega)]
  rfl

theorem store_flat (m : FlatRam n) {x : Nat} {bs : List Byte} (hx : x + bs.length ≤ n)
    (hn : n < 0x100000000) :
    store m (BitVec.ofNat 32 x) bs = some ⟨m.bytes.put ⟨x, bs.length, hx⟩ bs⟩ := by
  have hstart : (BitVec.ofNat 32 x).toNat = x := by
    rw [BitVec.toNat_ofNat]
    exact Nat.mod_eq_of_lt (by omega)
  have hlen : (BitVec.ofNat 32 bs.length).toNat = bs.length := by
    rw [BitVec.toNat_ofNat]
    exact Nat.mod_eq_of_lt (by omega)
  unfold store
  simp only [ramSliceMut, FlatRam.span?, hstart, hlen]
  rw [dif_pos (by omega)]
  rfl

end Flat

/-- What a completion of `u` reports in the trap: `u / 256`, when that is a frame. -/
def trapLen (u : Word) : Byte := if u.toNat / 256 < 12 then 0 else BitVec.ofNat 8 (u.toNat / 256)

/-- Zero but for `used.idx` at 7 and, at 13, `avail.idx`, over the length of the first used
element. -/
def trapByte (u : Word) (i : Nat) : Byte :=
  if i = 7 then laneLE u 0
  else if i = 8 then laneLE u 1
  else if i = 13 then trapLen (u - 1)
  else 0

def trapRam (u : Word) : FlatRam 4096 where
  bytes i := trapByte u i.val

/-- With its table at 0, the descriptor's address and length share `used.idx`. -/
def trapQueue (u : Word) : VirtQueueState where
  size := queueSizeMax
  enabled := true
  descAddr := 0
  driverAddr := 11
  deviceAddr := 5
  lastAvailIdx := u
  usedIdx := u

theorem toNat_trapLen (u : Word) :
    (trapLen u).toNat = if u.toNat / 256 < 12 then 0 else u.toNat / 256 := by
  have hu := u.isLt
  unfold trapLen
  split
  · rfl
  · rw [BitVec.toNat_ofNat]
    exact Nat.mod_eq_of_lt (by omega)

theorem toNat_pred (u : Word) : (u - 1).toNat = (u.toNat + 65535) % 65536 := by
  rw [BitVec.toNat_sub]
  have : (1 : Word).toNat = 1 := rfl
  omega

/-- The index read is never the one the loop has come to. -/
theorem trapLen_ne (u : Word) : (0 : Byte) ++ trapLen (u - 1) ≠ u := by
  intro h
  have hval := congrArg BitVec.toNat h
  have hu := u.isLt
  rw [BitVec.toNat_append, toNat_trapLen, toNat_pred, show (0 : Byte).toNat = 0 from rfl,
    Nat.zero_shiftLeft, Nat.zero_or] at hval
  rcases Nat.eq_zero_or_pos u.toNat with hzero | hpos
  · rw [hzero] at hval
    simp at hval
  · rw [show (u.toNat + 65535) % 65536 = u.toNat - 1 by omega] at hval
    split at hval <;> omega

/-- Within 256 rounds the first used element stays as it is. -/
theorem trapLen_pred {u : Word} (h : u.toNat % 256 ≠ 0) : trapLen (u - 1) = trapLen u := by
  have hu := u.isLt
  refine BitVec.eq_of_toNat_eq ?_
  rw [toNat_trapLen, toNat_trapLen, toNat_pred,
    show (u.toNat + 65535) % 65536 / 256 = u.toNat / 256 by omega]

theorem gmReadU16_trap (u : Word) {x : Nat} (h : addr.toNat = x) (hx : x + 2 ≤ 4096) :
    gmReadU16 (trapRam u) addr = some (trapByte u (x + 1) ++ trapByte u x) := by
  rw [gmReadU16_eq h (by omega), bytesAt_flat _ hx (by decide)]
  rfl

/-- Every slot of the avail ring names descriptor 0. -/
theorem trap_head (u : Word) :
    (availRingSlotAddr (trapQueue u).driverAddr (u % queueSizeMax)).bind (gmReadU16 (trapRam u)) =
      some 0 := by
  have hpos : (u % queueSizeMax).toNat = u.toNat % 256 := rfl
  obtain ⟨addr, haddr, hn⟩ := cellAddr_eq 11 4 2 (u % queueSizeMax) (by decide) (by decide)
    (by decide)
  have haddr' : addr.toNat = 15 + 2 * (u.toNat % 256) := by
    rw [hn, hpos]
    rfl
  unfold availRingSlotAddr trapQueue
  rw [Option.bind_eq_bind]
  simp only
  rw [haddr, Option.bind_some, gmReadU16_trap u haddr' (by omega)]
  unfold trapByte
  rw [if_neg (by omega), if_neg (by omega), if_neg (by omega), if_neg (by omega),
    if_neg (by omega), if_neg (by omega)]
  rfl

/-- The first descriptor: `used.idx` is the end of its address and of its length. -/
theorem readDesc_trap (u : Word) :
    ∃ d, readDesc (trapRam u) 0 queueSizeMax 0 = some d ∧
      d.addr.toNat = u.toNat % 256 * 2 ^ 56 ∧ d.len.toNat = u.toNat / 256 ∧
        d.flags &&& (DescFlags.write ||| DescFlags.indirect) = 0 ∧
        d.flags &&& DescFlags.next = 0 := by
  have hu := u.isLt
  have hread : ramSlice (trapRam u) 0 16 = some
      [0, 0, 0, 0, 0, 0, 0, laneLE u 0, laneLE u 1, 0, 0, 0, 0, trapLen (u - 1), 0, 0] := rfl
  have haddr : (checkedMul 16 ((0 : Word).setWidth 64)).bind (checkedAdd (0 : Quad)) = some 0 := by
    decide
  have hzero : toU32 0 = some 0 := by decide
  have happend : ∀ {m n : Nat} (hi : BitVec m) (lo : BitVec n),
      (hi ++ lo).toNat = hi.toNat * 2 ^ n + lo.toNat := by
    intro m n hi lo
    rw [BitVec.toNat_append, ← Nat.shiftLeft_add_eq_or_of_lt lo.isLt, Nat.shiftLeft_eq]
  have hlow : (laneLE u 0).toNat = u.toNat % 256 := by
    simp [laneLE]
  have hhigh : (laneLE u 1).toNat = u.toNat / 256 := by
    simp only [laneLE, BitVec.toNat_setWidth, BitVec.toNat_ushiftRight, Nat.shiftRight_eq_div_pow]
    omega
  -- `avail.idx` lies under the high byte of the flags, which has no meaning.
  have hflags : ∀ (b : Byte) (f : Word), f = DescFlags.write ||| DescFlags.indirect ∨
      f = DescFlags.next → (b ++ (0 : Byte)) &&& f = 0 := by
    rintro b f (rfl | rfl)
    · revert b
      decide
    · revert b
      decide
  unfold readDesc
  rw [if_neg (by decide)]
  simp only [Option.bind_eq_bind]
  rw [← Option.bind_assoc, haddr, Option.bind_some, hzero, Option.bind_some, hread,
    Option.bind_some]
  refine ⟨_, rfl, ?_, ?_, ?_, ?_⟩
  · simp only [le64, le32, le16, happend, hlow, List.getD_cons_zero, List.getD_cons_succ]
    simp only [show (0 : Byte).toNat = 0 from rfl]
    omega
  · simp [le32, le16, happend, hhigh]
  · exact hflags _ _ (by decide)
  · exact hflags _ _ (by decide)

/-- What the device makes of the chain: a frame once in 256 rounds, and junk otherwise. -/
theorem copyChain_trap (u : Word) (scratch : Buffer Byte maxFrameTotal) :
    ∃ scratch', copyChain (trapRam u) 0 queueSizeMax queueSizeMax.toNat scratch 0 0 =
      (scratch', if u.toNat % 256 = 0 then some (u.toNat / 256) else none) := by
  obtain ⟨d, hd, haddr, hlen, hplain, hlast⟩ := readDesc_trap u
  have hsize : queueSizeMax.toNat = 255 + 1 := rfl
  rw [hsize]
  unfold copyChain
  simp only [hd]
  rw [if_neg (by rw [hplain]; decide)]
  by_cases hzero : u.toNat % 256 = 0
  · have hptr : d.addr = 0 := BitVec.eq_of_toNat_eq (by rw [haddr, hzero]; rfl)
    have hu := u.isLt
    have hin : (⟨0, u.toNat / 256⟩ : Region).start + (⟨0, u.toNat / 256⟩ : Region).len ≤ 4096 := by
      simp only
      omega
    have hbytes := bytesAt_flat (trapRam u) hin (by decide)
    have hslice : ramSlice (trapRam u) 0 d.len =
        some ((trapRam u).bytes.slice ⟨0, u.toNat / 256, hin⟩) := by
      rw [← hbytes, bytesAt]
      simp only
      rw [← hlen, BitVec.ofNat_toNat, BitVec.setWidth_eq]
      rfl
    have hfits : 0 + d.len.toNat ≤ maxFrameTotal := by
      have : maxFrameTotal = 1526 := rfl
      omega
    have hto : toU32 d.addr = some 0 := by rw [hptr]; decide
    simp only [hto, hslice]
    rw [dif_pos hfits, if_pos hlast, if_pos hzero]
    exact ⟨_, congrArg (fun n => (_, some n)) ((Nat.zero_add _).trans hlen)⟩
  · have hto : toU32 d.addr = none := by
      unfold toU32
      rw [if_neg]
      rw [haddr]
      omega
    simp only [hto]
    rw [if_neg hzero]
    exact ⟨_, rfl⟩

/-- The bytes of a length below 256. -/
theorem toLE32_byte {b : Byte} (h : len.toNat = b.toNat) : toLE32 len = [b, 0, 0, 0] := by
  have hb := b.isLt
  have hlane : ∀ k, laneLE len k = if k = 0 then b else 0 := by
    intro k
    refine BitVec.eq_of_toNat_eq ?_
    simp only [laneLE, BitVec.toNat_setWidth, BitVec.toNat_ushiftRight,
      Nat.shiftRight_eq_div_pow, h]
    rcases Nat.eq_zero_or_pos k with rfl | hk
    · simp only [Nat.mul_zero, Nat.pow_zero, Nat.div_one, if_true]
      exact Nat.mod_eq_of_lt hb
    · rw [if_neg (by omega), Nat.div_eq_of_lt]
      · rfl
      · exact Nat.lt_of_lt_of_le hb (Nat.pow_le_pow_right (by decide) (by omega))
  simp [toLE32, hlane]

/-- The memory after the element at `u % 256` and `used.idx` have been stored. -/
theorem trapRam_succ (u : Word)
    (hlen : len.toNat = if u.toNat % 256 = 0 then (trapLen u).toNat else 0)
    (h₁ : 9 + 8 * (u.toNat % 256) + 4 ≤ 4096) (h₂ : 13 + 8 * (u.toNat % 256) + 4 ≤ 4096)
    (h₃ : 7 + 2 ≤ 4096) :
    (((trapRam u).bytes.put ⟨9 + 8 * (u.toNat % 256), 4, h₁⟩ (toLE32 ((0 : Word).setWidth 32))).put
        ⟨13 + 8 * (u.toNat % 256), 4, h₂⟩ (toLE32 len)).put ⟨7, 2, h₃⟩ (toLE16 (u + 1)) =
      (trapRam (u + 1)).bytes := by
  obtain ⟨b, hb, hbytes⟩ : ∃ b : Byte, b = (if u.toNat % 256 = 0 then trapLen u else 0) ∧
      len.toNat = b.toNat := by
    refine ⟨_, rfl, ?_⟩
    rw [hlen]
    split <;> rfl
  funext ⟨i, hi⟩
  have hback : u + 1 - 1 = u := BitVec.add_sub_cancel u 1
  simp only [Buffer.put, trapRam, trapByte, hback, toLE32_byte hbytes]
  by_cases h7 : i = 7
  · subst h7
    rfl
  by_cases h8 : i = 8
  · subst h8
    rfl
  rw [if_neg (by omega)]
  simp only [if_neg h7, if_neg h8]
  have hzeros : ∀ (d : Byte) (k : Nat), d = 0 → ([0, 0, 0, 0] : List Byte).getD k d = 0 := by
    rintro d (_ | _ | _ | _ | k) rfl <;> rfl
  by_cases h13 : i = 13
  · subst h13
    simp only [if_true]
    by_cases hfirst : u.toNat % 256 = 0
    · rw [if_pos (by omega), show 13 - (13 + 8 * (u.toNat % 256)) = 0 by omega,
        List.getD_cons_zero, hb, if_pos hfirst]
    · rw [if_neg (by omega), if_neg (by omega), trapLen_pred hfirst]
  · simp only [if_neg h13]
    have hid : ∀ k, (toLE32 ((0 : Word).setWidth 32)).getD k 0 = 0 := fun k => hzeros 0 k rfl
    simp only [hid, ite_self]
    split
    · rename_i hrange
      by_cases hfirst : u.toNat % 256 = 0
      · obtain ⟨k, hk⟩ : ∃ k, i - (13 + 8 * (u.toNat % 256)) = k + 1 :=
          ⟨i - 14 - 8 * (u.toNat % 256), by omega⟩
        rw [hk]
        rcases k with _ | _ | _ | k <;> rfl
      · rw [hb, if_neg hfirst]
        exact hzeros 0 _ rfl
    · rfl

variable {v : VirtioNetStub ν} {u : Word}

omit [NetBackend ν] in
theorem completeUsed_trap (hv : v.queues queueTx = trapQueue u)
    (hlen : len.toNat = if u.toNat % 256 = 0 then (trapLen u).toNat else 0) :
    ∃ w, v.completeUsed (trapRam u) queueTx 0 len = (true, w, trapRam (u + 1)) ∧
      w.queues queueTx = (trapQueue u).setUsedIdx (u + 1) := by
  have hsize : v.effectiveQueueSize queueTx = queueSizeMax := by
    unfold effectiveQueueSize
    rw [hv]
    rfl
  have hpos : (u % queueSizeMax).toNat = u.toNat % 256 := rfl
  have hmod : u.toNat % 256 < 256 := Nat.mod_lt _ (by decide)
  obtain ⟨elem, helem, hn⟩ := cellAddr_eq 5 4 8 (u % queueSizeMax) (by decide) (by decide)
    (by decide)
  rw [hpos] at hn
  have hid : elem.toNat = 9 + 8 * (u.toNat % 256) := hn
  have hlenAddr : (elem + 4).toNat = 13 + 8 * (u.toNat % 256) := by
    rw [BitVec.toNat_add, hid]
    change (9 + 8 * (u.toNat % 256) + 4) % 2 ^ 64 = _
    omega
  unfold completeUsed
  simp only [hv, hsize]
  unfold usedRingElemAddr trapQueue
  simp only [Option.bind_eq_bind, helem]
  rw [gmWriteU32_eq _ hid (by omega), store_flat _ (by simp [toLE32]; omega) (by decide)]
  simp only
  rw [gmWriteU32_eq _ hlenAddr (by omega), store_flat _ (by simp [toLE32]; omega) (by decide)]
  simp only
  rw [gmWriteU16_eq _ (x := 7) (by decide) (by omega), store_flat _ (by simp [toLE16]) (by decide)]
  refine ⟨_, congrArg (fun bytes => (true, _, FlatRam.mk bytes)) ?_, ?_⟩
  · exact trapRam_succ u hlen (by omega) (by omega) (by omega)
  · change (v.setQueue queueTx _).queues queueTx = _
    rw [setQueue_queues_self]
    rfl

theorem txConsume_trap (hv : v.queues queueTx = trapQueue u) :
    ∃ w, v.txConsume (trapRam u) 0 queueSizeMax 0 = (true, w, trapRam (u + 1)) ∧
      w.queues queueTx = (trapQueue u).setUsedIdx (u + 1) := by
  obtain ⟨scratch, hchain⟩ := copyChain_trap u v.scratch
  have hu := u.isLt
  have hlen := toNat_trapLen u
  unfold txConsume copyChainOut
  simp only [hchain]
  by_cases hfirst : u.toNat % 256 = 0
  · simp only [hfirst, if_true]
    split
    · rename_i hframe
      refine completeUsed_trap ?_ ?_
      · exact hv
      · change 12 ≤ u.toNat / 256 at hframe
        rw [if_pos hfirst, hlen, if_neg (by omega), BitVec.toNat_ofNat]
        exact Nat.mod_eq_of_lt (by omega)
    · rename_i hshort
      refine completeUsed_trap ?_ ?_
      · exact hv
      · change ¬12 ≤ u.toNat / 256 at hshort
        rw [if_pos hfirst, hlen, if_pos (by omega)]
        rfl
  · simp only [hfirst, if_false]
    refine completeUsed_trap ?_ ?_
    · exact hv
    · rw [if_neg hfirst]
      rfl

/-- **A round in the trap leads to the trap**, one further on. -/
theorem txBody_trap (hv : v.queues queueTx = trapQueue u) :
    ∃ w, txBody (v, trapRam u) = .again (w, trapRam (u + 1)) ∧
      w.queues queueTx = trapQueue (u + 1) := by
  have hsize : v.effectiveQueueSize queueTx = queueSizeMax := by
    unfold effectiveQueueSize
    rw [hv]
    rfl
  have hread : gmReadU16 (trapRam u) ((trapQueue u).driverAddr + 2) =
      some ((0 : Byte) ++ trapLen (u - 1)) := gmReadU16_trap u (x := 13) rfl (by decide)
  obtain ⟨w, hw, hqueue⟩ := txConsume_trap hv
  unfold txBody
  simp only [hv, hsize, hread]
  rw [show (trapQueue u).lastAvailIdx = u from rfl, show (trapQueue u).descAddr = 0 from rfl,
    if_neg (trapLen_ne u), trap_head u]
  simp only
  rw [hw]
  refine ⟨_, rfl, ?_⟩
  unfold advanceAvail
  rw [setQueue_queues_self, hqueue]
  rfl

theorem txBody_trap_again (s : VirtioNetStub ν × FlatRam 4096)
    (h : ∃ u, s.1.queues queueTx = trapQueue u ∧ s.2 = trapRam u) :
    ∃ t, txBody s = .again t ∧ ∃ u, t.1.queues queueTx = trapQueue u ∧ t.2 = trapRam u := by
  obtain ⟨v, mem⟩ := s
  obtain ⟨u, hv, rfl⟩ := h
  obtain ⟨w, hbody, hw⟩ := txBody_trap hv
  exact ⟨_, hbody, u + 1, hw, rfl⟩

/-- The driver's way there: negotiate, then lay out a transmit queue of 256. -/
def trapOps : List (Op (FlatRam 4096)) := negotiate ++ configureQueueOps 1 256 0 11 5

/-- **A guest that lays its rings out so keeps the transmit engine busy for ever.** -/
theorem processTx_endless :
    ¬ ∀ s : Machine LoopbackNetBackend (FlatRam 4096),
      RunOf (fun _ _ => True) (new ⟨[], []⟩, trapRam 0) s →
        ∃ fuel t, processTx fuel s = some t := by
  intro hclaim
  obtain ⟨s, hs, hrunning, hqueue, hmem⟩ : ∃ s,
      applyAll 0 (new (ν := LoopbackNetBackend) ⟨[], []⟩, trapRam 0) trapOps = some s ∧
        s.1.needsReset = false ∧ s.1.queues queueTx = trapQueue 0 ∧ s.2 = trapRam 0 :=
    ⟨_, rfl, by decide +kernel, by decide +kernel, rfl⟩
  obtain ⟨fuel, t, ht⟩ := hclaim s (runOf_of_applyAll (fun _ _ => trivial) hs)
  have hnone : Loop.run txBody fuel s = none :=
    Loop.run_eq_none txBody_trap_again ⟨0, hqueue, hmem⟩ fuel
  unfold processTx at ht
  rw [hrunning, hqueue, if_neg (by decide), hnone] at ht
  cases ht

end VirtioNetStub

end M68kMachine
