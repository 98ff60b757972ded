import M68kMachine.Properties.VirtioNetRings

/-!
# The transmit engine

A transmit chain stands for the concatenation of its buffers. The engine takes the available chains
in order: one of 12 to 1526 bytes is sent without its header, any other is dropped, and both are
answered in the used ring.

* `chain`, `txFrame` — what a chain stands for, read off guest memory
* `copyChain_sound`, `copyChain_complete` — staging a chain finds exactly that
* `TxProgress` — the state after a number of chains; `TxProgress.round` is one round
* `processTx_spec` — the whole pass
-/

namespace M68kMachine

namespace VirtioNetStub

open VirtioNet GuestMemory

variable {ν μ : Type} [GuestMemory μ] {mem : μ} {q : VirtQueueState} {bound : Nat} {idx : Word}
  {bs : List Byte} {d : Desc}

/-! ## Chains -/

/-- The bytes of a well-formed chain of at most `bound` device-readable descriptors. -/
def chain (mem : μ) (q : VirtQueueState) : (bound : Nat) → (idx : Word) →
    Option (List Region × List Byte)
  | 0, _ => none
  | bound + 1, idx =>
    match readDesc mem q.descAddr q.size idx with
    | none => none
    | some d =>
      if d.flags &&& (DescFlags.write ||| DescFlags.indirect) = 0 ∧ d.addr.toNat < 0x100000000 then
        match bytesAt mem ⟨d.addr.toNat, d.len.toNat⟩ with
        | none => none
        | some bs =>
          if d.flags &&& DescFlags.next = 0 then some ([⟨d.addr.toNat, d.len.toNat⟩], bs)
          else
            (chain mem q bound d.next).map fun rest =>
              (⟨d.addr.toNat, d.len.toNat⟩ :: rest.1, bs ++ rest.2)
      else none

/-- A descriptor the transmit side reads, with the bytes of its buffer. -/
structure Readable (mem : μ) (q : VirtQueueState) (idx : Word) (d : Desc) (bs : List Byte) :
    Prop where
  desc : readDesc mem q.descAddr q.size idx = some d
  flags : d.flags &&& (DescFlags.write ||| DescFlags.indirect) = 0
  addr : d.addr.toNat < 0x100000000
  bytes : bytesAt mem ⟨d.addr.toNat, d.len.toNat⟩ = some bs

theorem chain_eq_some_iff {segs : List Region} {bytes : List Byte} :
    chain mem q (bound + 1) idx = some (segs, bytes) ↔
      ∃ d bs, Readable mem q idx d bs ∧
        (d.flags &&& DescFlags.next = 0 ∧ segs = [⟨d.addr.toNat, d.len.toNat⟩] ∧ bytes = bs ∨
          d.flags &&& DescFlags.next ≠ 0 ∧ ∃ segs' bytes',
            chain mem q bound d.next = some (segs', bytes') ∧
              segs = ⟨d.addr.toNat, d.len.toNat⟩ :: segs' ∧ bytes = bs ++ bytes') := by
  constructor
  · intro h
    unfold chain at h
    cases hd : readDesc mem q.descAddr q.size idx with
    | none => rw [hd] at h; cases h
    | some d =>
      rw [hd] at h
      simp only at h
      split at h
      · rename_i hok
        cases hb : bytesAt mem ⟨d.addr.toNat, d.len.toNat⟩ with
        | none => rw [hb] at h; cases h
        | some bs =>
          rw [hb] at h
          simp only at h
          refine ⟨d, bs, ⟨hd, hok.1, hok.2, hb⟩, ?_⟩
          split at h
          · rename_i hlast
            cases h
            exact .inl ⟨hlast, rfl, rfl⟩
          · rename_i hnext
            obtain ⟨⟨segs', bytes'⟩, hrest, heq⟩ := Option.map_eq_some_iff.mp h
            cases heq
            exact .inr ⟨hnext, segs', bytes', hrest, rfl, rfl⟩
      · cases h
  · rintro ⟨d, bs, hr, hrest⟩
    unfold chain
    rw [hr.desc]
    simp only
    rw [if_pos ⟨hr.flags, hr.addr⟩, hr.bytes]
    rcases hrest with ⟨hlast, rfl, rfl⟩ | ⟨hnext, segs', bytes', hrest, rfl, rfl⟩
    · exact if_pos hlast
    · exact (if_neg hnext).trans (by rw [hrest]; rfl)

/-- The frame of a well-formed chain that holds at least the header and fits the staging buffer. -/
def txFrame (mem : μ) (q : VirtQueueState) (head : Word) : Option (List Byte) :=
  match chain mem q q.size.toNat head with
  | some (_, bytes) =>
    if virtioNetHdrLen ≤ bytes.length ∧ bytes.length ≤ maxFrameTotal then some bytes else none
  | none => none

theorem chain_advanced (mem : μ) (q : VirtQueueState) (c bound : Nat) (idx : Word) :
    chain mem (advanced q c) bound idx = chain mem q bound idx := by
  induction bound generalizing idx with
  | zero => rfl
  | succ bound ih =>
    unfold chain
    simp only [ih]
    rfl

theorem txFrame_advanced (mem : μ) (q : VirtQueueState) (c : Nat) (head : Word) :
    txFrame mem (advanced q c) head = txFrame mem q head := by
  unfold txFrame
  rw [chain_advanced]
  rfl

/-- The `len` a chain is answered with: its length, or zero when it was dropped. -/
def txLen (frame : Option (List Byte)) : Long :=
  match frame with
  | some bytes => BitVec.ofNat 32 bytes.length
  | none => 0

/-! ## Staging -/

theorem staged_zero (scratch : Buffer Byte maxFrameTotal) : staged scratch 0 0 = [] := by
  unfold staged
  rw [dif_pos (Nat.zero_le _), ← List.length_eq_zero_iff, Buffer.length_slice]

/-- Bytes put behind what is staged are staged after it. -/
theorem staged_put {scratch : Buffer Byte maxFrameTotal} {total len : Nat}
    (h : total + len ≤ maxFrameTotal) (hbs : bs.length = len) :
    staged (scratch.put ⟨total, len, h⟩ bs) 0 (total + len) = staged scratch 0 total ++ bs := by
  have hpre : 0 + (total + len) ≤ maxFrameTotal := by omega
  unfold staged
  rw [dif_pos (by omega), dif_pos (by omega)]
  simp only [Nat.sub_zero]
  rw [Buffer.slice_append _ hpre]
  congr 1
  · exact Buffer.slice_put_disjoint _ _ (.inr (by simp))
  · have := Buffer.slice_put_self scratch ⟨total, len, h⟩ hbs
    simpa only [Nat.zero_add] using this

/-- The staged bytes from `first` on. -/
theorem staged_drop (scratch : Buffer Byte maxFrameTotal) {first last : Nat}
    (h : first ≤ last) (hlast : last ≤ maxFrameTotal) :
    staged scratch first last = (staged scratch 0 last).drop first := by
  have hsplit : 0 + (first + (last - first)) ≤ maxFrameTotal := by omega
  have hfull : staged scratch 0 last =
      scratch.slice ⟨0, first + (last - first), hsplit⟩ := by
    unfold staged
    rw [dif_pos (by omega)]
    congr 2
    omega
  rw [hfull, Buffer.slice_append scratch hsplit, List.drop_left' (by simp)]
  unfold staged
  rw [dif_pos (by omega)]
  congr 2
  omega

/-- What `copy_chain_out` reads for a readable descriptor. -/
theorem Readable.slice (h : Readable mem q idx d bs) :
    toU32 d.addr = some (BitVec.ofNat 32 d.addr.toNat) ∧
      ramSlice mem (BitVec.ofNat 32 d.addr.toNat) d.len = some bs := by
  refine ⟨toU32_eq rfl h.addr, ?_⟩
  have hb := h.bytes
  unfold bytesAt at hb
  simpa only [BitVec.ofNat_toNat, BitVec.setWidth_eq] using hb

/-- One link of `copy_chain_out` over a readable descriptor. -/
theorem copyChain_readable (h : Readable mem q idx d bs) (bound : Nat)
    (scratch : Buffer Byte maxFrameTotal) (total : Nat) :
    copyChain mem q.descAddr q.size (bound + 1) scratch total idx =
      if hfit : total + d.len.toNat ≤ maxFrameTotal then
        if d.flags &&& DescFlags.next = 0 then
          (scratch.put ⟨total, d.len.toNat, hfit⟩ bs, some (total + d.len.toNat))
        else
          copyChain mem q.descAddr q.size bound (scratch.put ⟨total, d.len.toNat, hfit⟩ bs)
            (total + d.len.toNat) d.next
      else (scratch, none) := by
  obtain ⟨haddr, hslice⟩ := h.slice
  conv_lhs => unfold copyChain
  rw [h.desc]
  simp only
  rw [if_neg (not_not.mpr h.flags), haddr]
  simp only
  split
  · rw [hslice]
  · rfl

/-- A descriptor that is not readable ends `copy_chain_out`. -/
theorem copyChain_unreadable (h : ∀ d bs, ¬Readable mem q idx d bs) (bound : Nat)
    (scratch : Buffer Byte maxFrameTotal) (total : Nat) :
    (copyChain mem q.descAddr q.size (bound + 1) scratch total idx).2 = none := by
  unfold copyChain
  cases hd : readDesc mem q.descAddr q.size idx with
  | none => rfl
  | some d =>
    simp only
    split
    · rfl
    · rename_i hflags
      cases ha : toU32 d.addr with
      | none => rfl
      | some a =>
        have haddr : d.addr.toNat < 0x100000000 := by
          by_contra hlt
          unfold toU32 at ha
          rw [if_neg hlt] at ha
          cases ha
        have hcanon : a = BitVec.ofNat 32 d.addr.toNat := by
          rw [toU32_eq rfl haddr] at ha
          exact (Option.some.inj ha).symm
        simp only
        split
        · cases hs : ramSlice mem a d.len with
          | none => rfl
          | some src =>
            refine absurd ⟨hd, not_not.mp hflags, haddr, ?_⟩ (h d src)
            unfold bytesAt
            rw [← hcanon]
            simpa only [BitVec.ofNat_toNat, BitVec.setWidth_eq] using hs
        · rfl

variable [LawfulGuestMemory μ]

theorem Readable.length (h : Readable mem q idx d bs) :
    bs.length = d.len.toNat := length_bytesAt d.len.isLt h.bytes

/-- **Staging finds only what the chain stands for.** -/
theorem copyChain_sound (scratch : Buffer Byte maxFrameTotal) (total : Nat) {len : Nat}
    (h : (copyChain mem q.descAddr q.size bound scratch total idx).2 = some len) :
    ∃ segs bytes, chain mem q bound idx = some (segs, bytes) ∧ len = total + bytes.length ∧
      len ≤ maxFrameTotal ∧
      staged (copyChain mem q.descAddr q.size bound scratch total idx).1 0 len =
        staged scratch 0 total ++ bytes := by
  induction bound generalizing scratch total idx with
  | zero => cases h
  | succ bound ih =>
    by_cases hread : ∃ d bs, Readable mem q idx d bs
    · obtain ⟨d, bs, hr⟩ := hread
      rw [copyChain_readable hr] at h ⊢
      split at h
      · rename_i hfit
        rw [dif_pos hfit]
        split at h
        · rename_i hlast
          cases h
          rw [if_pos hlast]
          exact ⟨_, bs, chain_eq_some_iff.mpr ⟨d, bs, hr, .inl ⟨hlast, rfl, rfl⟩⟩,
            by rw [hr.length], hfit, staged_put hfit hr.length⟩
        · rename_i hnext
          rw [if_neg hnext]
          obtain ⟨segs, bytes, hchain, hlen, hmax, hst⟩ := ih _ _ h
          refine ⟨_, bs ++ bytes,
            chain_eq_some_iff.mpr ⟨d, bs, hr, .inr ⟨hnext, segs, bytes, hchain, rfl, rfl⟩⟩,
            ?_, hmax, ?_⟩
          · rw [hlen, List.length_append, hr.length, Nat.add_assoc]
          · rw [hst, staged_put hfit hr.length, List.append_assoc]
      · cases h
    · have hnone := copyChain_unreadable (fun d bs hr => hread ⟨d, bs, hr⟩) bound scratch total
      rw [hnone] at h
      cases h

/-- **Staging finds everything a chain that fits stands for.** -/
theorem copyChain_complete (scratch : Buffer Byte maxFrameTotal) (total : Nat) {segs : List Region}
    {bytes : List Byte} (h : chain mem q bound idx = some (segs, bytes))
    (hfit : total + bytes.length ≤ maxFrameTotal) :
    (copyChain mem q.descAddr q.size bound scratch total idx).2 =
      some (total + bytes.length) := by
  induction bound generalizing scratch total idx segs bytes with
  | zero => cases h
  | succ bound ih =>
    obtain ⟨d, bs, hr, hrest⟩ := chain_eq_some_iff.mp h
    rw [copyChain_readable hr]
    rcases hrest with ⟨hlast, rfl, rfl⟩ | ⟨hnext, segs', bytes', hchain, rfl, rfl⟩
    · rw [hr.length] at hfit ⊢
      rw [dif_pos hfit, if_pos hlast]
    · rw [List.length_append, hr.length] at hfit ⊢
      rw [dif_pos (by omega), if_neg hnext, ih _ _ hchain (by omega), Nat.add_assoc]

/-- A chain whose table and buffers are not written stands for the same bytes. -/
theorem chain_frame {rs : List Region} {mem' : μ} (hq : QueueMapped mem q) (hf : Frame rs mem mem')
    (hdesc : ∀ t ∈ rs, (descRegion q).Disjoint t)
    (hsegs : ∀ segs bytes, chain mem q bound idx = some (segs, bytes) →
      ∀ r ∈ segs, ∀ t ∈ rs, r.Disjoint t) : chain mem' q bound idx = chain mem q bound idx := by
  induction bound generalizing idx with
  | zero => rfl
  | succ bound ih =>
    have hdescs := readDesc_frame hq hf hdesc idx
    unfold chain
    rw [hdescs]
    cases hd : readDesc mem q.descAddr q.size idx with
    | none => rfl
    | some d =>
      simp only
      split
      · rename_i hok
        have hmapped := hf.mapped ⟨d.addr.toNat, d.len.toNat⟩
        cases hb : bytesAt mem ⟨d.addr.toNat, d.len.toNat⟩ with
        | none =>
          have hnone : bytesAt mem' ⟨d.addr.toNat, d.len.toNat⟩ = none := by
            rw [hb] at hmapped
            simpa using hmapped
          rw [hnone]
        | some bs =>
          have hr : Readable mem q idx d bs := ⟨hd, hok.1, hok.2, hb⟩
          -- The first buffer keeps its bytes as soon as the whole chain is well formed.
          have hfirst : ∀ segs bytes, chain mem q (bound + 1) idx = some (segs, bytes) →
              bytesAt mem' ⟨d.addr.toNat, d.len.toNat⟩ = some bs := by
            intro segs bytes hall
            obtain ⟨d', bs', hr', hrest⟩ := chain_eq_some_iff.mp hall
            have hdd : d' = d := Option.some.inj (hr'.desc.symm.trans hd)
            subst hdd
            rw [hf.bytes _ (fits_of_bytesAt hok.2 d'.len.isLt hb), hb]
            refine hsegs segs bytes hall _ ?_
            rcases hrest with ⟨-, rfl, -⟩ | ⟨-, segs', -, -, rfl, -⟩
            · exact List.mem_singleton_self _
            · exact List.mem_cons_self
          obtain ⟨bs', hbs'⟩ := Option.isSome_iff_exists.mp (by rw [hmapped, hb]; rfl)
          simp only
          rw [hbs']
          simp only
          split
          · rename_i hlast
            have := hfirst _ _ (chain_eq_some_iff.mpr ⟨d, bs, hr, .inl ⟨hlast, rfl, rfl⟩⟩)
            rw [this] at hbs'
            cases hbs'
            rfl
          · rename_i hnext
            have hsub : ∀ segs bytes, chain mem q bound d.next = some (segs, bytes) →
                ∀ r ∈ segs, ∀ t ∈ rs, r.Disjoint t := by
              intro segs bytes hrest r hmem
              exact hsegs _ _
                (chain_eq_some_iff.mpr ⟨d, bs, hr, .inr ⟨hnext, segs, bytes, hrest, rfl, rfl⟩⟩)
                r (List.mem_cons_of_mem _ hmem)
            rw [ih hsub]
            cases hrest : chain mem q bound d.next with
            | none => rfl
            | some rest =>
              have := hfirst _ _ (chain_eq_some_iff.mpr
                ⟨d, bs, hr, .inr ⟨hnext, rest.1, rest.2, hrest, rfl, rfl⟩⟩)
              rw [this] at hbs'
              cases hbs'
              rfl
      · rfl

/-! ## One chain -/

variable [NetBackend ν] {v : VirtioNetStub ν} {c : Nat} {s : VirtioNetStub ν × μ}

/-- Hand the payload of a frame, if there is one, to the backend. -/
def sendFrame (backend : ν) (frame : Option (List Byte)) : ν :=
  match frame with
  | some bytes => NetBackend.transmit backend (bytes.drop virtioNetHdrLen)
  | none => backend

/-- **Consuming one chain**: its frame is sent, if it stands for one, and it is answered. -/
theorem txConsume_spec (h : QueueMapped mem (v.queues queueTx))
    (hused : (v.queues queueTx).usedIdx = BitVec.ofNat 16 c) (head : Word) :
    ∃ w mem', v.txConsume mem (v.queues queueTx).descAddr (v.queues queueTx).size head =
        (true, w, mem') ∧
      w.backend = sendFrame v.backend (txFrame mem (v.queues queueTx) head) ∧
      SameDevice (v.setQueue queueTx ((v.queues queueTx).setUsedIdx (BitVec.ofNat 16 (c + 1))))
        w ∧
      Published mem mem' (v.queues queueTx) c (head.setWidth 32)
        (txLen (txFrame mem (v.queues queueTx) head)) := by
  obtain ⟨scratch, len, hcopy⟩ : ∃ scratch len,
      copyChain mem (v.queues queueTx).descAddr (v.queues queueTx).size
        (v.queues queueTx).size.toNat v.scratch 0 head = (scratch, len) := ⟨_, _, rfl⟩
  have hout : v.copyChainOut mem (v.queues queueTx).descAddr (v.queues queueTx).size head =
      ({ v with scratch := scratch }, len) := by
    unfold copyChainOut
    rw [hcopy]
  -- A dropped chain is answered with length zero.
  have hdrop : ∀ w : VirtioNetStub ν, w.queues = v.queues → w.deviceStatus = v.deviceStatus →
      w.rxFrameBuf = v.rxFrameBuf → w.backend = v.backend → ∀ len : Long,
      ∃ w' mem', w.completeUsed mem queueTx head len = (true, w', mem') ∧
        w'.backend = v.backend ∧
        SameDevice
          (v.setQueue queueTx ((v.queues queueTx).setUsedIdx (BitVec.ofNat 16 (c + 1)))) w' ∧
        Published mem mem' (v.queues queueTx) c (head.setWidth 32) len := by
    intro w hwq hws hwr hwb len
    obtain ⟨mem', hcomplete, hpub⟩ := completeUsed_spec (v := w) (i := queueTx) (c := c)
      (by rw [hwq]; exact h) (by rw [hwq]; exact hused) head len
    refine ⟨_, mem', hcomplete, hwb, ⟨?_, hws, hwr⟩, by rwa [hwq] at hpub⟩
    unfold raiseUsedIrq setQueue
    simp only [hwq]
  unfold txConsume
  rw [hout]
  cases len with
  | none =>
    have hframe : txFrame mem (v.queues queueTx) head = none := by
      unfold txFrame
      cases hchain : chain mem (v.queues queueTx) (v.queues queueTx).size.toNat head with
      | none => rfl
      | some r =>
        refine if_neg ?_
        rintro ⟨-, hmax⟩
        have hall := copyChain_complete v.scratch 0 hchain (by omega)
        rw [hcopy] at hall
        cases hall
    rw [hframe]
    exact hdrop ({ v with scratch := scratch } : VirtioNetStub ν).dropTx rfl rfl rfl rfl 0
  | some len =>
    obtain ⟨segs, bytes, hchain, hlen, hmax, hstaged⟩ :=
      copyChain_sound v.scratch 0 (by rw [hcopy])
    rw [hcopy, staged_zero, List.nil_append] at hstaged
    rw [Nat.zero_add] at hlen
    have hframe : txFrame mem (v.queues queueTx) head =
        if virtioNetHdrLen ≤ bytes.length ∧ bytes.length ≤ maxFrameTotal then some bytes
        else none := by
      unfold txFrame
      rw [hchain]
    simp only
    split
    · rename_i hhdr
      rw [hframe, if_pos ⟨hlen ▸ hhdr, hlen ▸ hmax⟩]
      obtain ⟨mem', hcomplete, hpub⟩ := completeUsed_spec
        (v := ({ v with scratch := scratch } : VirtioNetStub ν).sendTx len) (i := queueTx) (c := c)
        h hused head (BitVec.ofNat 32 len)
      rw [hlen] at hpub
      refine ⟨_, mem', hcomplete, ?_, ⟨rfl, rfl, rfl⟩, hpub⟩
      change NetBackend.transmit v.backend (staged scratch virtioNetHdrLen len) = _
      rw [staged_drop scratch hhdr hmax, hstaged]
      rfl
    · rename_i hhdr
      rw [hframe, if_neg fun hok => hhdr (hlen ▸ hok.1)]
      exact hdrop ({ v with scratch := scratch } : VirtioNetStub ν).dropTx rfl rfl rfl rfl 0

/-! ## The pass -/

/-- The frame of the `j`-th available chain, as guest memory had it before the pass. -/
def txFrameAt (s : VirtioNetStub ν × μ) (c j : Nat) : Option (List Byte) :=
  (headAt s.2 (s.1.queues queueTx) (c + j)).bind (txFrame s.2 (s.1.queues queueTx))

/-- What the `j`-th available chain is answered with: its head, and its length or zero. -/
def txAnswer (s : VirtioNetStub ν × μ) (c j : Nat) : Long × Long :=
  (((headAt s.2 (s.1.queues queueTx) (c + j)).getD 0).setWidth 32, txLen (txFrameAt s c j))

/-- The backend after the first `k` available chains, each sent once and in order. -/
def txSent (s : VirtioNetStub ν × μ) (c k : Nat) : ν :=
  (List.range k).foldl (fun b j => sendFrame b (txFrameAt s c j)) s.1.backend

omit [LawfulGuestMemory μ] in
theorem txSent_succ (s : VirtioNetStub ν × μ) (c k : Nat) :
    txSent s c (k + 1) = sendFrame (txSent s c k) (txFrameAt s c k) := by
  unfold txSent
  rw [List.range_succ, List.foldl_append]
  rfl

/-- The queue is mapped, its used ring shares no address with what is read, and `c` chains have been
consumed. -/
structure TxLaid (s : VirtioNetStub ν × μ) (c : Nat) : Prop where
  mapped : QueueMapped s.2 (s.1.queues queueTx)
  count : s.1.queues queueTx = advanced (s.1.queues queueTx) c
  desc : (descRegion (s.1.queues queueTx)).Disjoint (usedRegion (s.1.queues queueTx))
  avail : (availRegion (s.1.queues queueTx)).Disjoint (usedRegion (s.1.queues queueTx))
  buffers : ∀ j < available s.2 (s.1.queues queueTx), ∀ head segs bytes,
    headAt s.2 (s.1.queues queueTx) (c + j) = some head →
    chain s.2 (s.1.queues queueTx) (s.1.queues queueTx).size.toNat head = some (segs, bytes) →
    ∀ r ∈ segs, r.Disjoint (usedRegion (s.1.queues queueTx))

/-- The state after `k` of the available chains. -/
structure TxProgress (s : VirtioNetStub ν × μ) (c k : Nat) (t : VirtioNetStub ν × μ) : Prop where
  backend : t.1.backend = txSent s c k
  device : SameDevice (s.1.setQueue queueTx (advanced (s.1.queues queueTx) (c + k))) t.1
  answered : Answered s.2 t.2 (s.1.queues queueTx) c k (txAnswer s c)
  frame : Frame [usedRegion (s.1.queues queueTx)] s.2 t.2

omit [LawfulGuestMemory μ] in
theorem TxProgress.start (h : TxLaid s c) :
    TxProgress s c 0 s where
  backend := rfl
  device := by
    rw [Nat.add_zero, ← h.count, setQueue_self]
    exact ⟨rfl, rfl, rfl⟩
  answered := .zero _ _ _ _
  frame := .refl _ _

omit [LawfulGuestMemory μ] in
theorem txBody_again {w : VirtioNetStub ν} {mem' : μ} {head : Word}
    (hidx : gmReadU16 mem ((v.queues queueTx).driverAddr + 2) = some idx)
    (hne : idx ≠ (v.queues queueTx).lastAvailIdx)
    (hhead : (availRingSlotAddr (v.queues queueTx).driverAddr
      ((v.queues queueTx).lastAvailIdx % v.effectiveQueueSize queueTx)).bind (gmReadU16 mem) =
        some head)
    (hconsume : v.txConsume mem (v.queues queueTx).descAddr (v.effectiveQueueSize queueTx) head =
      (true, w, mem')) :
    txBody (v, mem) = .again (w.advanceAvail queueTx (v.queues queueTx).lastAvailIdx, mem') := by
  unfold txBody
  simp only
  rw [hidx]
  simp only
  rw [if_neg hne, hhead]
  simp only
  rw [hconsume]

omit [LawfulGuestMemory μ] in
theorem txBody_done (hidx : gmReadU16 mem ((v.queues queueTx).driverAddr + 2) = some idx)
    (heq : idx = (v.queues queueTx).lastAvailIdx) : txBody (v, mem) = .done (v, mem) := by
  unfold txBody
  simp only
  rw [hidx]
  exact if_pos heq

/-- **One round of the transmit engine** takes the next available chain. -/
theorem TxProgress.round {t : VirtioNetStub ν × μ} {k : Nat} (hl : TxLaid s c)
    (h : TxProgress s c k t) (hk : k < available s.2 (s.1.queues queueTx)) :
    ∃ t', txBody t = .again t' ∧ TxProgress s c (k + 1) t' := by
  obtain ⟨v, mem⟩ := t
  obtain ⟨hmapped, hcount, hdesc, havail, hbuffers⟩ := hl
  obtain ⟨hbackend, hdevice, hanswered, hframe⟩ := h
  unfold txSent at hbackend
  generalize hq : s.1.queues queueTx = q at *
  have hvq : v.queues queueTx = advanced q (c + k) := by
    rw [hdevice.queues, setQueue_queues_self]
  have hdescs : ∀ t ∈ [usedRegion q], (descRegion q).Disjoint t := by simpa using hdesc
  have havails : ∀ t ∈ [usedRegion q], (availRegion q).Disjoint t := by simpa using havail
  have hmapped' : QueueMapped mem (v.queues queueTx) := by
    rw [hvq]
    exact (hmapped.frame hframe).advanced _
  have hsize : v.effectiveQueueSize queueTx = (v.queues queueTx).size :=
    hmapped'.effectiveQueueSize_eq
  -- The chain is the one the driver made available, read from memory as it was.
  obtain ⟨head, hhead⟩ := isSome_headAt hmapped (c + k)
  have hchain : txFrame mem (v.queues queueTx) head = txFrame s.2 q head := by
    rw [hvq]
    have hsame : chain mem q q.size.toNat head = chain s.2 q q.size.toNat head :=
      chain_frame hmapped hframe hdescs fun segs bytes hch r hr => by
        simpa using hbuffers k hk head segs bytes hhead hch r hr
    rw [txFrame_advanced]
    unfold txFrame
    rw [hsame]
  obtain ⟨w, mem', hconsume, hwb, hwd, hpub⟩ := txConsume_spec (c := c + k) hmapped'
    (by rw [hvq]; rfl) head
  rw [hchain] at hwb hpub
  have hlast : (v.queues queueTx).lastAvailIdx = BitVec.ofNat 16 (c + k) := by rw [hvq]; rfl
  have hagain : txBody (v, mem) =
      .again (w.advanceAvail queueTx (v.queues queueTx).lastAvailIdx, mem') := by
    have havail : gmReadU16 mem ((v.queues queueTx).driverAddr + 2) =
        some (BitVec.ofNat 16 (c + available s.2 q)) := by
      rw [hvq]
      exact gmReadU16_avail hmapped (by rw [hcount]; rfl) hframe havails
    refine txBody_again havail ?_ (?_ : _ = some head) ?_
    · rw [hlast]
      exact ofNat_ne hk (available_lt _ _)
    · rw [hsize, hlast, hvq]
      exact (gmReadU16_slot hmapped hframe havails (c + k)).trans hhead
    · rw [hsize]
      exact hconsume
  have hframeAt : txFrameAt s c k = txFrame s.2 q head := by
    unfold txFrameAt
    rw [hq, hhead]
    rfl
  rw [hvq] at hpub
  refine ⟨_, hagain, ?_, ?_, ?_, ?_⟩
  · rw [txSent_succ, hframeAt]
    exact hwb.trans (by rw [hbackend]; rfl)
  · refine ⟨?_, hwd.deviceStatus.trans hdevice.deviceStatus,
      hwd.rxFrameBuf.trans hdevice.rxFrameBuf⟩
    have hqueue : (w.queues queueTx).setLastAvailIdx ((v.queues queueTx).lastAvailIdx + 1) =
        VirtioNetStub.advanced q (c + (k + 1)) := by
      rw [hwd.queues, setQueue_queues_self, hlast, ofNat_succ, hvq]
      rfl
    unfold advanceAvail
    rw [hqueue, hq]
    funext j
    by_cases hj : j = queueTx
    · subst hj
      rw [setQueue_queues_self, setQueue_queues_self]
    · unfold setQueue
      simp only [if_neg hj]
      rw [hwd.queues]
      unfold setQueue
      simp only [if_neg hj]
      rw [hdevice.queues]
      exact if_neg hj
  · rw [hq]
    refine hanswered.publish (hmapped.frame hframe) ?_
    have hanswer : txAnswer s c k = (head.setWidth 32, txLen (txFrame s.2 q head)) := by
      unfold txAnswer
      rw [hframeAt, hq, hhead]
      rfl
    rw [hanswer]
    exact ⟨hpub.id, hpub.len, hpub.idx, hpub.frame⟩
  · rw [hq]
    refine hframe.trans (hpub.frame.widen ?_)
    have hslot := hmapped.elem_inside (c + k)
    simpa using ⟨hslot, QueueMapped.usedIdx_inside q⟩

/-- **The transmit pass** of an open, laid out queue takes every available chain once and in
order. -/
theorem processTx_spec (hopen : s.1.needsReset = false) (hen : (s.1.queues queueTx).enabled = true)
    (hl : TxLaid s c) :
    ∃ t, (∀ fuel, 0x10000 ≤ fuel → processTx fuel s = some t) ∧
      TxProgress s c (available s.2 (s.1.queues queueTx)) t := by
  have hlast : ∀ t, TxProgress s c (available s.2 (s.1.queues queueTx)) t →
      ∃ u, txBody t = .done u ∧ TxProgress s c (available s.2 (s.1.queues queueTx)) u := by
    rintro ⟨v, mem⟩ h
    refine ⟨(v, mem), ?_, h⟩
    have hvq : v.queues queueTx = VirtioNetStub.advanced (s.1.queues queueTx)
        (c + available s.2 (s.1.queues queueTx)) := by
      rw [h.device.queues, setQueue_queues_self]
    have havail : gmReadU16 mem ((v.queues queueTx).driverAddr + 2) =
        some (BitVec.ofNat 16 (c + available s.2 (s.1.queues queueTx))) := by
      rw [hvq]
      exact gmReadU16_avail hl.mapped (by rw [hl.count]; rfl) h.frame (by simpa using hl.avail)
    exact txBody_done havail (by rw [hvq]; rfl)
  obtain ⟨t, hrun, hprog⟩ := Loop.run_of_progress (P := fun k t => TxProgress s c k t)
    (fun k t hk ht => .inl (ht.round hl hk)) hlast (TxProgress.start hl)
  refine ⟨t, fun fuel hf => ?_, hprog⟩
  unfold processTx
  rw [hopen, hen]
  exact hrun fuel (Nat.lt_of_lt_of_le (available_lt _ _) hf)

end VirtioNetStub

end M68kMachine
