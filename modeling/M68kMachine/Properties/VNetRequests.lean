import M68kMachine.Properties.VNetStart

/-!
# Every request is answered once

What is given to `BeginIO` is answered, held, or a read queued on the closed unit that an `Open`
dropped. The interrupt handler works up to a snapshot of `used.idx`; an interrupt it has not
acknowledged is the only way for something to be used and not seen.

* `Accounted` — given, answered and held requests
* `Timely` — the handler and `used.idx`
* `Inv` — the invariant of a run
-/

namespace M68kMachine

namespace VNet

open GuestMemory

variable {μ : Type} [GuestMemory μ] (d : Driver μ) (io : IOSana2Req) {k : Nat} {q : VNetQueue}

/-! ## The requests held -/

/-- The writes whose slots await completion. -/
def VNetQueue.held (q : VNetQueue) : List IOSana2Req :=
  (List.range q.qsize.toNat).filterMap q.pending

def Sys.held {δ : Type} (s : Sys δ μ) : List IOSana2Req :=
  s.drv.base.unit0.pendingReads ++ s.drv.base.txq.held ++ s.calls.map Call.io

omit [GuestMemory μ] in
theorem Sys.outstanding_eq {δ : Type} (s : Sys δ μ) :
    s.outstanding = s.held.map IOSana2Req.node := by
  unfold outstanding queued inFlight held VNetQueue.held
  rw [List.map_append, List.map_append, List.map_filterMap, List.map_map]
  rfl

/-- A table changed at one of its indices. -/
theorem perm_filterMap_set {α : Type*} {l : List Nat} (hl : l.Nodup) (hk : k ∈ l)
    (f : Nat → Option α) (x : Option α) :
    ((f k).toList ++ l.filterMap fun j => if j = k then x else f j).Perm
      (x.toList ++ l.filterMap f) := by
  obtain ⟨pre, post, rfl⟩ := List.append_of_mem hk
  have hout : k ∉ pre ++ post := by
    have hperm : (pre ++ k :: post).Perm (k :: (pre ++ post)) := List.perm_middle
    exact (List.nodup_cons.mp (hperm.nodup_iff.mp hl)).1
  have hsame : ∀ l' : List Nat, (∀ j ∈ l', j ∈ pre ++ post) →
      (l'.filterMap fun j => if j = k then x else f j) = l'.filterMap f := by
    intro l' hl'
    refine List.filterMap_congr fun j hj => if_neg ?_
    rintro rfl
    exact hout (hl' j hj)
  rw [List.filterMap_append, List.filterMap_append, hsame pre (by simp +contextual)]
  have htail : ∀ g : Nat → Option α,
      (k :: post).filterMap g = (g k).toList ++ post.filterMap g := by
    intro g
    rw [List.filterMap_cons]
    cases g k <;> rfl
  rw [htail, htail, if_pos rfl, hsame post (by simp +contextual)]
  classical
  refine List.perm_iff_count.mpr fun y => ?_
  -- The rest of the list is read as before, so only the counts at `k` differ.
  simp only [List.count_append]
  omega

omit [GuestMemory μ] in
/-- Recording a request for a slot that had none. -/
theorem VNetQueue.held_record (hk : k < q.qsize.toNat) (hnone : q.pending k = none)
    (io : IOSana2Req) :
    ({ q with pending := fun j => if j = k then some io else q.pending j } : VNetQueue).held.Perm
      (io :: q.held) := by
  have hperm := perm_filterMap_set List.nodup_range (List.mem_range.mpr hk) q.pending (some io)
  rw [hnone] at hperm
  exact hperm

omit [GuestMemory μ] in
/-- Freeing a slot. -/
theorem VNetQueue.held_free {io : IOSana2Req} (hk : k < q.qsize.toNat)
    (hsome : q.pending k = some io) : q.held.Perm (io :: (vnetTxslotFree q k).held) := by
  have hperm := perm_filterMap_set List.nodup_range (List.mem_range.mpr hk) q.pending none
  rw [hsome] at hperm
  exact hperm.symm

omit [GuestMemory μ] in
/-- Freeing one that has no request. -/
theorem VNetQueue.held_free_none (hk : k < q.qsize.toNat) (hnone : q.pending k = none) :
    (vnetTxslotFree q k).held.Perm q.held := by
  have hperm := perm_filterMap_set List.nodup_range (List.mem_range.mpr hk) q.pending none
  rw [hnone] at hperm
  exact hperm

/-! ## Accounting -/

/-- The nodes of the reads and writes among replies. -/
def transferNodes (rs : List IOSana2Req) : List Nat :=
  (rs.filter IOSana2Req.transfers).map IOSana2Req.node

/-- A read or write that is answered by `ReplyMsg`. -/
def IOSana2Req.Pends (io : IOSana2Req) : Prop := io.transfers = true ∧ io.quick = false

/-- **Every read and write given is answered, lost or held.** -/
structure Accounted {δ : Type} (s : Sys δ μ) : Prop where
  count : ∀ n, s.given.count n =
    s.answered.count n + s.lost.count n + (s.held.map IOSana2Req.node).count n
  pends : ∀ io ∈ s.held, io.Pends
  strays : s.drv.base.unit0.opencnt = 0 →
    ∀ io ∈ s.drv.base.unit0.pendingReads, io.node ∈ s.strays
  lost : ∀ n ∈ s.lost, n ∈ s.strays

namespace Accounted

variable {δ : Type} {s s' : Sys δ μ}

omit [GuestMemory μ] in
/-- One step: `rs` is replied, `given` comes in and `gone` is lost. -/
theorem next (h : Accounted s) {rs : List IOSana2Req} (given gone : List Nat)
    (hreplies : s'.drv.replies = s.drv.replies ++ rs) (hgiven : s'.given = s.given ++ given)
    (hlost : s'.lost = s.lost ++ gone)
    (hcount : ∀ n, given.count n + (s.held.map IOSana2Req.node).count n =
      (transferNodes rs).count n + gone.count n + (s'.held.map IOSana2Req.node).count n)
    (hpends : ∀ io ∈ s'.held, io ∈ s.held ∨ io.Pends)
    (hstrays : ∀ n ∈ s.strays, n ∈ s'.strays)
    (hqueued : s'.drv.base.unit0.opencnt = 0 → ∀ io ∈ s'.drv.base.unit0.pendingReads,
      s.drv.base.unit0.opencnt = 0 ∧ io ∈ s.drv.base.unit0.pendingReads ∨ io.node ∈ s'.strays)
    (hgone : ∀ n ∈ gone, n ∈ s'.strays) : Accounted s' where
  count n := by
    have hn := h.count n
    have hstep := hcount n
    have hanswered : s'.answered.count n = s.answered.count n + (transferNodes rs).count n := by
      unfold Sys.answered transferNodes
      rw [hreplies, List.filter_append, List.map_append, List.count_append]
    rw [hgiven, hlost, hanswered, List.count_append, List.count_append]
    omega
  pends io hio := (hpends io hio).elim (h.pends io) fun hio => hio
  strays hclosed io hio := (hqueued hclosed io hio).elim
    (fun hold => hstrays _ (h.strays hold.1 io hold.2)) fun hio => hio
  lost n hn := by
    rw [hlost, List.mem_append] at hn
    exact hn.elim (fun hn => hstrays _ (h.lost n hn)) (hgone n)

end Accounted

/-! ## What a section of the driver does -/

/-- What a section does to the unit, the replies and its call; the rings and the memory stay. -/
structure Section (d d' : Driver μ) (rs : List IOSana2Req) : Prop where
  base : d'.base = { d.base with unit0 := d'.base.unit0 }
  mem : d'.mem = d.mem
  replies : d'.replies = d.replies ++ rs

theorem transferNodes_of_pends {rs : List IOSana2Req} (h : ∀ io ∈ rs, io.transfers = true) :
    transferNodes rs = rs.map IOSana2Req.node := by
  unfold transferNodes
  rw [List.filter_eq_self.mpr h]

theorem transferNodes_append (rs rs' : List IOSana2Req) :
    transferNodes (rs ++ rs') = transferNodes rs ++ transferNodes rs' := by
  unfold transferNodes
  rw [List.filter_append, List.map_append]

/-- What `TermIO` replies. -/
def termReplies (io : IOSana2Req) : List IOSana2Req := if io.quick then [] else [io]

omit [GuestMemory μ] in
theorem section_termIo :
    Section d (termIo d io) (termReplies io) ∧ (termIo d io).base = d.base := by
  unfold termIo termReplies
  split
  · exact ⟨⟨rfl, rfl, (List.append_nil _).symm⟩, rfl⟩
  · exact ⟨⟨rfl, rfl, rfl⟩, rfl⟩

theorem transferNodes_termReplies {io : IOSana2Req} (h : io.transfers = false) :
    transferNodes (termReplies io) = [] := by
  unfold termReplies transferNodes
  split
  · rfl
  · rw [List.filter_singleton, h]
    rfl

omit [GuestMemory μ] in
theorem section_abortReads :
    Section d (abortReads d)
        (d.base.unit0.pendingReads.map fun io => { io with error := IoErr.aborted }) ∧
      (abortReads d).base.unit0.pendingReads = [] ∧
      (abortReads d).base.unit0.opencnt = d.base.unit0.opencnt :=
  ⟨⟨rfl, rfl, rfl⟩, rfl, rfl⟩

theorem transferNodes_aborted {reads : List IOSana2Req} (h : ∀ io ∈ reads, io.Pends) :
    transferNodes (reads.map fun io => { io with error := IoErr.aborted }) =
      reads.map IOSana2Req.node := by
  rw [transferNodes_of_pends, List.map_map]
  · rfl
  · intro io hio
    obtain ⟨io', hio', rfl⟩ := List.mem_map.mp hio
    exact (h io' hio').1

/-! ### BeginIO -/

omit [GuestMemory μ] in
/-- A command that does not transfer, `CMD_FLUSH` apart, is terminated at once. -/
theorem beginIo_control {d : Driver μ} (hready : d.base.ready = true) {io : IOSana2Req}
    (htransfers : io.transfers = false) (hflush : io.command ≠ .flush) :
    ∃ u io', beginIo d io = (termIo (d.setUnit u) io', none) ∧ io'.transfers = false ∧
      u.pendingReads = d.base.unit0.pendingReads ∧ u.opencnt = d.base.unit0.opencnt := by
  have hcmd : io.command ≠ .read ∧ io.command ≠ .write := by
    unfold IOSana2Req.transfers at htransfers
    simpa using htransfers
  -- Every command answers with the command it was given.
  have hsame : ∀ io' : IOSana2Req, io'.command = io.command → io'.transfers = false := by
    intro io' hio'
    unfold IOSana2Req.transfers
    rw [hio']
    simpa using hcmd
  unfold beginIo
  simp only [hready, Bool.not_true, Bool.false_eq_true, if_false]
  split
  · exact absurd ‹_› hcmd.1
  · exact absurd ‹_› hcmd.2
  · exact absurd ‹_› hflush
  · refine ⟨d.base.unit0, _, rfl, hsame _ ?_, rfl, rfl⟩
    unfold cmdDevicequery
    split <;> rfl
  · exact ⟨d.base.unit0, _, rfl, hsame _ rfl, rfl, rfl⟩
  · refine ⟨_, _, rfl, hsame _ ?_, ?_, ?_⟩
    all_goals
      unfold cmdConfiginterface
      split <;> rfl
  · refine ⟨_, _, rfl, hsame _ ?_, ?_, ?_⟩
    all_goals
      unfold cmdOnline
      split <;> rfl
  · exact ⟨_, _, rfl, hsame _ rfl, rfl, rfl⟩
  · exact ⟨d.base.unit0, _, rfl, hsame _ rfl, rfl, rfl⟩
  · exact ⟨d.base.unit0, _, rfl, hsame _ rfl, rfl, rfl⟩
  · refine ⟨d.base.unit0, _, rfl, hsame _ ?_, rfl, rfl⟩
    unfold cmdGetglobalstats
    split <;> rfl
  · exact ⟨d.base.unit0, _, rfl, hsame _ rfl, rfl, rfl⟩
  · exact ⟨d.base.unit0, _, rfl, hsame _ rfl, rfl, rfl⟩

omit [GuestMemory μ] in
theorem beginIo_flush {d : Driver μ} (hready : d.base.ready = true) {io : IOSana2Req}
    (hflush : io.command = .flush) :
    ∃ io', beginIo d io = (termIo (abortReads d) io', none) ∧ io'.transfers = false := by
  unfold beginIo
  simp only [hready, Bool.not_true, Bool.false_eq_true, if_false, hflush]
  exact ⟨_, rfl, by simp [IOSana2Req.transfers]⟩

/-- A call under way before its first `Disable()`. -/
def Call.Sized : Call → Prop
  | .alloc io | .fill io _ => io.dataLength.toNat ≤ mtu
  | _ => True

omit [GuestMemory μ] in
theorem termIo_pending (h : io.quick = false) : termIo d io = d.replyMsg io := by
  unfold termIo
  rw [h]
  rfl

/-- The request as `cmd_read` and `cmd_write` answer or keep it. -/
def IOSana2Req.Keeps (io io' : IOSana2Req) : Prop :=
  io'.node = io.node ∧ io'.command = io.command ∧ io'.quick = false

/-- A read or a write is refused and answered, or becomes a call. -/
def Accepts (d : Driver μ) (io : IOSana2Req) (r : Driver μ × Option Call) : Prop :=
  (∃ io', r = (d.replyMsg io', none) ∧ io.Keeps io') ∨
    ∃ c : Call, r = (d, some c) ∧ io.Keeps c.io ∧ c.slot? = none ∧ c.Sized

omit [GuestMemory μ] in
theorem accepts_refusal {io io' : IOSana2Req} (h : io.Keeps io') :
    Accepts d io (termIo d io', none) := by
  rw [termIo_pending d _ h.2.2]
  exact .inl ⟨io', rfl, h⟩

omit [GuestMemory μ] in
theorem accepts_cmdRead : Accepts d io (cmdRead d io) := by
  unfold cmdRead
  simp only
  split
  · exact accepts_refusal d ⟨rfl, rfl, rfl⟩
  · exact .inr ⟨_, rfl, ⟨rfl, rfl, rfl⟩, rfl, trivial⟩

omit [GuestMemory μ] in
theorem accepts_cmdWrite : Accepts d io (cmdWrite d io) := by
  unfold cmdWrite
  simp only
  split
  · exact accepts_refusal d ⟨rfl, rfl, rfl⟩
  · split
    · exact accepts_refusal d ⟨rfl, rfl, rfl⟩
    · rename_i hle
      refine .inr ⟨_, rfl, ⟨rfl, rfl, rfl⟩, rfl, ?_⟩
      have hmtu : (BitVec.ofNat 32 (frameMax - ethHdrLen)).toNat = mtu := rfl
      rw [BitVec.lt_def, hmtu] at hle
      exact Nat.not_lt.mp hle

omit [GuestMemory μ] in
theorem beginIo_transfer {d : Driver μ} (hready : d.base.ready = true) {io : IOSana2Req}
    (htransfers : io.transfers = true) : Accepts d io (beginIo d io) := by
  have hcmd : io.command = .read ∨ io.command = .write := by
    unfold IOSana2Req.transfers at htransfers
    simpa using htransfers
  unfold beginIo
  simp only [hready, Bool.not_true, Bool.false_eq_true, if_false]
  split
  · exact accepts_cmdRead d { io with error := 0, wireError := 0 }
  · exact accepts_cmdWrite d { io with error := 0, wireError := 0 }
  all_goals simp_all

/-! ### Open, Close and AbortIO -/

theorem openErrors : IoErr.openFail ≠ 0 ∧ IoErr.unitBusy ≠ 0 := by decide

omit [GuestMemory μ] in
theorem vNetOpen_cases (unitnum : Long) (hooks : Bool) :
    ((vNetOpen d io unitnum hooks).1 = d ∧ (vNetOpen d io unitnum hooks).2.error ≠ 0) ∨
      ∃ u, (vNetOpen d io unitnum hooks).1 = d.setUnit u ∧
        (vNetOpen d io unitnum hooks).2.error = 0 ∧ u.pendingReads = [] ∧ u.opencnt = 1 ∧
        d.base.unit0.opencnt = 0 := by
  unfold vNetOpen
  simp only
  split
  · exact .inl ⟨rfl, openErrors.1⟩
  · split
    · exact .inl ⟨rfl, openErrors.1⟩
    · split
      · exact .inl ⟨rfl, openErrors.2⟩
      · rename_i hclosed
        split
        · exact .inl ⟨rfl, openErrors.1⟩
        · exact .inr ⟨_, rfl, rfl, rfl, rfl, Decidable.of_not_not hclosed⟩

omit [GuestMemory μ] in
theorem vNetClose_cases :
    vNetClose d io = d ∨
      Section d (vNetClose d io)
          (d.base.unit0.pendingReads.map fun io => { io with error := IoErr.aborted }) ∧
        (vNetClose d io).base.unit0.pendingReads = [] := by
  unfold vNetClose
  split
  · exact .inr ⟨⟨rfl, rfl, rfl⟩, rfl⟩
  · exact .inl rfl

omit [GuestMemory μ] in
/-- `AbortIO` takes the read it finds off the queue. -/
theorem vNetAbortIo_cases :
    ((vNetAbortIo d io).2 = (d, none)) ∨
      ∃ found u, (vNetAbortIo d io).2 = (d.setUnit u, some (.abort found)) ∧
        d.base.unit0.pendingReads.Perm (found :: u.pendingReads) ∧
        u.opencnt = d.base.unit0.opencnt := by
  unfold vNetAbortIo
  split
  · exact .inl rfl
  · split
    · exact .inl rfl
    · rename_i found hfind
      refine .inr ⟨found, _, rfl, ?_, rfl⟩
      have hmem := List.mem_of_find?_eq_some hfind
      have hp := List.find?_some (p := fun n : IOSana2Req => n.node == io.node) hfind
      obtain ⟨a, pre, post, hpre, ha, heq, herase⟩ := List.exists_of_eraseP
        (p := fun n : IOSana2Req => n.node == io.node) hmem hp
      have hfound : found = a := by
        rw [heq, List.find?_append, List.find?_eq_none.mpr (by simpa using hpre)] at hfind
        rw [List.find?_cons, ha] at hfind
        exact (Option.some.inj hfind).symm
      simp only
      rw [herase, heq, hfound]
      exact List.perm_middle

/-! ## The handler and `used.idx` -/

/-- The driver has seen what the device has used, as far as the handler has come. -/
def CaughtUp (seen used : QueueId → Word) : IsrPc → Prop
  | .idle => seen .rx = used .rx ∧ seen .tx = used .tx
  | .rxEnter => True
  | .rx idx => idx = used .rx
  | .txEnter => seen .rx = used .rx
  | .tx idx => seen .rx = used .rx ∧ idx = used .tx

/-- What the loops work up to is a value `used.idx` has had. -/
def Snapshot (seen used : QueueId → Word) : IsrPc → Prop
  | .rx idx => WrapRing.Between (seen .rx) idx (used .rx)
  | .tx idx => WrapRing.Between (seen .tx) idx (used .tx)
  | _ => True

/-- **An interrupt is asserted, or the driver is about to have seen everything.** -/
structure Timely (rings : QueueId → VRing) (s : Sys RingDevice μ) : Prop where
  notified : s.dev.isr = true ∨ CaughtUp (fun i => (s.drv.base.queue i).usedIdxSeen)
    (fun i => usedIdx s.drv.mem (rings i)) s.pc
  snapshot : Snapshot (fun i => (s.drv.base.queue i).usedIdxSeen)
    (fun i => usedIdx s.drv.mem (rings i)) s.pc

theorem Timely.of_same {rings : QueueId → VRing} {s s' : Sys RingDevice μ} (h : Timely rings s)
    (hisr : s'.dev.isr = s.dev.isr) (hpc : s'.pc = s.pc)
    (hseen : ∀ i, (s'.drv.base.queue i).usedIdxSeen = (s.drv.base.queue i).usedIdxSeen)
    (hused : ∀ i, usedIdx s'.drv.mem (rings i) = usedIdx s.drv.mem (rings i)) :
    Timely rings s' := by
  obtain ⟨hnotified, hsnapshot⟩ := h
  refine ⟨?_, ?_⟩
  · simp only [hisr, hpc, hseen, hused]
    exact hnotified
  · simp only [hpc, hseen, hused]
    exact hsnapshot

/-! ## The invariant -/

structure Inv (rings : QueueId → VRing) (s : Sys RingDevice μ) : Prop where
  slots : Slots rings s.drv.base s.drv.mem s.dev s.filling
  ready : s.drv.base.ready = true
  accounted : Accounted s
  sized : ∀ c ∈ s.calls, c.Sized
  timely : Timely rings s

variable {rings : QueueId → VRing} {s : Sys RingDevice μ}

theorem Slots.of_section {d d' : Driver μ} {rs : List IOSana2Req} {v : RingDevice}
    {filling : List Nat} (h : Slots rings d.base d.mem v filling) (hs : Section d d' rs) :
    Slots rings d'.base d'.mem v filling := by
  rw [hs.base, hs.mem]
  exact h.unit _

/-- A section of a task: the device is as before, so `used.idx` is. -/
theorem Inv.of_slots (h : Inv rings s) {d : Driver μ} {calls : List Call}
    {given strays lost : List Nat} {published : List Sent}
    (hslots : Slots rings d.base d.mem s.dev (calls.filterMap Call.slot?))
    (hready : d.base.ready = s.drv.base.ready)
    (hseen : ∀ i, (d.base.queue i).usedIdxSeen = (s.drv.base.queue i).usedIdxSeen)
    (hsized : ∀ c ∈ calls, c.Sized)
    (haccounted : Accounted { s with
      drv := d
      calls := calls
      given := given
      strays := strays
      lost := lost
      published := published }) :
    Inv rings { s with
      drv := d
      calls := calls
      given := given
      strays := strays
      lost := lost
      published := published } where
  slots := hslots
  ready := hready.trans h.ready
  accounted := haccounted
  sized := hsized
  timely :=
    h.timely.of_same rfl rfl hseen fun i => (hslots.devUsed i).symm.trans (h.slots.devUsed i)

/-- One that leaves the rings alone. -/
theorem Inv.of_section (h : Inv rings s) {d : Driver μ} {rs : List IOSana2Req}
    {calls : List Call} {given strays lost : List Nat} {published : List Sent}
    (hs : Section s.drv d rs) (hfilling : calls.filterMap Call.slot? = s.filling)
    (hsized : ∀ c ∈ calls, c.Sized)
    (haccounted : Accounted { s with
      drv := d
      calls := calls
      given := given
      strays := strays
      lost := lost
      published := published }) :
    Inv rings { s with
      drv := d
      calls := calls
      given := given
      strays := strays
      lost := lost
      published := published } := by
  refine h.of_slots (by rw [hfilling]; exact h.slots.of_section hs) ?_ ?_ hsized haccounted
  · rw [hs.base]
  · rw [hs.base]
    rintro (_ | _) <;> rfl

/-! ### Tasks -/

theorem Inv.opened (h : Inv rings s) (io : IOSana2Req) (unitnum : Long) (hooks : Bool) :
    Inv rings (s.opened io unitnum hooks) := by
  rcases vNetOpen_cases s.drv io unitnum hooks with ⟨hdrv, herror⟩ | ⟨u, hdrv, herror, hu⟩
  · have hs : s.opened io unitnum hooks = s := by
      unfold Sys.opened
      simp only [hdrv, herror, if_false, List.append_nil]
    rwa [hs]
  · obtain ⟨hreads, hopen, hclosed⟩ := hu
    have hs : s.opened io unitnum hooks =
        { s with drv := s.drv.setUnit u, lost := s.lost ++ s.queued } := by
      unfold Sys.opened
      simp only [hdrv, herror, if_true]
    rw [hs]
    have hunit : Section s.drv (s.drv.setUnit u) [] := ⟨rfl, rfl, (List.append_nil _).symm⟩
    refine h.of_section hunit rfl h.sized ?_
    -- `Open` starts with an empty queue: the reads that stood in the old one are lost with it.
    refine h.accounted.next [] s.queued hunit.replies
      (List.append_nil _).symm rfl ?_ ?_ (fun _ hn => hn) ?_ ?_
    · intro n
      simp only [Sys.held, Driver.setUnit, hreads, Sys.queued, transferNodes, List.map_append,
        List.count_append, List.filter_nil, List.map_nil, List.count_nil]
      omega
    · intro r hr
      refine .inl ?_
      simp only [Sys.held, Driver.setUnit, hreads, List.mem_append] at hr ⊢
      tauto
    · intro hzero
      change u.opencnt = 0 at hzero
      rw [hopen] at hzero
      cases hzero
    · intro n hn
      obtain ⟨r, hr, rfl⟩ := List.mem_map.mp hn
      exact h.accounted.strays hclosed r hr

/-- A section that aborts the queued reads, and replies what is no read or write besides. -/
theorem Inv.of_dropped (h : Inv rings s) {d : Driver μ} (rs : List IOSana2Req)
    (hs : Section s.drv d ((s.drv.base.unit0.pendingReads.map fun io =>
      { io with error := IoErr.aborted }) ++ rs))
    (hreads : d.base.unit0.pendingReads = []) (hrs : transferNodes rs = []) :
    Inv rings { s with drv := d } := by
  refine h.of_section hs rfl h.sized ?_
  refine h.accounted.next [] [] hs.replies (List.append_nil _).symm
    (List.append_nil _).symm ?_ ?_ (fun _ hn => hn) ?_ (by simp)
  · intro n
    rw [transferNodes_append, hrs,
      transferNodes_aborted fun r hr => h.accounted.pends r (by simp [Sys.held, hr])]
    simp only [Sys.held, hreads, List.map_append, List.count_append, List.map_nil,
      List.count_nil]
    rw [hs.base]
    simp only
    omega
  · intro r hr
    refine .inl ?_
    simp only [Sys.held, hreads, List.mem_append] at hr ⊢
    rw [hs.base] at hr
    simp only at hr
    tauto
  · intro _ r hr
    simp only at hr
    rw [hreads] at hr
    cases hr

theorem Inv.closed (h : Inv rings s) (io : IOSana2Req) : Inv rings (s.closed io) := by
  unfold Sys.closed
  rcases vNetClose_cases s.drv io with hdrv | ⟨hs, hreads⟩
  · rw [hdrv]
    exact h
  · exact h.of_dropped [] (by rwa [List.append_nil]) hreads rfl

theorem Inv.begun (h : Inv rings s) (io : IOSana2Req) : Inv rings (s.begun io) := by
  unfold Sys.begun
  simp only
  cases htransfers : io.transfers with
  | true =>
    rcases beginIo_transfer h.ready htransfers with ⟨io', heq, hkeeps⟩ | ⟨c, heq, hkeeps, hslot, hc⟩
    · -- Refused: given and answered.
      have hs : Section s.drv (s.drv.replyMsg io') [io'] := ⟨rfl, rfl, rfl⟩
      have hpends : io'.transfers = true := by
        unfold IOSana2Req.transfers at htransfers ⊢
        rwa [hkeeps.2.1]
      rw [heq]
      simp only [Option.toList_none, List.append_nil, if_true]
      refine h.of_section hs rfl h.sized ?_
      refine h.accounted.next [io.node] [] hs.replies rfl
        (List.append_nil _).symm ?_ (fun _ hr => .inl hr) (fun _ hn => hn)
        (fun hzero r hr => .inl ⟨hzero, hr⟩) (by simp)
      intro n
      rw [transferNodes_of_pends (List.forall_mem_singleton.mpr hpends), List.map_singleton,
        hkeeps.1]
      simp only [Sys.held, Driver.replyMsg, List.count_nil]
      omega
    · -- Under way: given and held.
      have hs : Section s.drv s.drv [] := ⟨rfl, rfl, (List.append_nil _).symm⟩
      have hpends : c.io.Pends := by
        refine ⟨?_, hkeeps.2.2⟩
        unfold IOSana2Req.transfers at htransfers ⊢
        rwa [hkeeps.2.1]
      rw [heq]
      simp only [Option.toList_some, if_true]
      refine h.of_section hs ?_ ?_ ?_
      · unfold Sys.filling
        rw [List.filterMap_append, List.filterMap_cons, hslot]
        simp
      · intro c' hc'
        rcases List.mem_append.mp hc' with hc' | hc'
        · exact h.sized c' hc'
        · rw [List.mem_singleton.mp hc']
          exact hc
      · refine h.accounted.next [io.node] [] hs.replies rfl (List.append_nil _).symm ?_ ?_
          (fun _ hn => hn)
          (fun hzero r hr => .inl ⟨hzero, hr⟩) (by simp)
        · intro n
          simp only [Sys.held, transferNodes, List.map_append, List.map_cons, List.map_nil,
            List.count_append, List.count_nil, List.filter_nil, hkeeps.1]
          omega
        · intro r hr
          simp only [Sys.held, List.map_append, List.map_cons, List.map_nil, List.mem_append,
            List.mem_singleton] at hr ⊢
          rcases hr with hr | hr | rfl
          · exact .inl (.inl hr)
          · exact .inl (.inr hr)
          · exact .inr hpends
  | false =>
    by_cases hflush : io.command = .flush
    · obtain ⟨io', heq, hio'⟩ := beginIo_flush h.ready hflush
      obtain ⟨habort, hreads, -⟩ := section_abortReads s.drv
      -- The reads are aborted first, and then the flush itself is answered.
      obtain ⟨hterm, hbase⟩ := section_termIo (abortReads s.drv) io'
      rw [heq]
      simp only [Option.toList_none, List.append_nil, Bool.false_eq_true, if_false]
      refine h.of_dropped _ ⟨?_, hterm.mem.trans habort.mem, ?_⟩ ?_ (transferNodes_termReplies hio')
      · rw [hbase]
        exact habort.base
      · rw [hterm.replies, habort.replies, List.append_assoc]
      · rw [hbase]
        exact hreads
    · obtain ⟨u, io', heq, hio', hreads, hopen⟩ := beginIo_control h.ready htransfers hflush
      obtain ⟨hterm, hbase⟩ := section_termIo (s.drv.setUnit u) io'
      have hs : Section s.drv (termIo (s.drv.setUnit u) io') (termReplies io') :=
        ⟨by rw [hbase]; rfl, hterm.mem, hterm.replies⟩
      have hunit : (termIo (s.drv.setUnit u) io').base.unit0 = u := by
        rw [hbase]
        rfl
      have htxq : (termIo (s.drv.setUnit u) io').base.txq = s.drv.base.txq := by
        rw [hbase]
        rfl
      rw [heq]
      simp only [Option.toList_none, List.append_nil, Bool.false_eq_true, if_false]
      refine h.of_section hs rfl h.sized ?_
      refine h.accounted.next [] [] hs.replies (List.append_nil _).symm
        (List.append_nil _).symm ?_ ?_ (fun _ hn => hn) ?_ (by simp)
      · intro n
        rw [transferNodes_termReplies hio']
        simp only [Sys.held, hunit, htxq, hreads, List.count_nil]
      · intro r hr
        refine .inl ?_
        simp only [Sys.held, hunit, htxq, hreads] at hr ⊢
        exact hr
      · intro hzero r hr
        simp only [hunit, hreads, hopen] at hzero hr
        exact .inl ⟨hzero, hr⟩

theorem Inv.aborted (h : Inv rings s) (io : IOSana2Req) : Inv rings (s.aborted io) := by
  unfold Sys.aborted
  simp only
  rcases vNetAbortIo_cases s.drv io with heq | ⟨found, u, heq, hreads, hopen⟩
  · rw [heq]
    simp only [Option.toList_none, List.append_nil]
    exact h
  · have hs : Section s.drv (s.drv.setUnit u) [] := ⟨rfl, rfl, (List.append_nil _).symm⟩
    have hfound : found.Pends :=
      h.accounted.pends found (by simp [Sys.held, hreads.mem_iff])
    rw [heq]
    simp only [Option.toList_some]
    refine h.of_section hs ?_ ?_ ?_
    · unfold Sys.filling
      rw [List.filterMap_append]
      exact List.append_nil _
    · intro c hc
      rcases List.mem_append.mp hc with hc | hc
      · exact h.sized c hc
      · rw [List.mem_singleton.mp hc]
        trivial
    · refine h.accounted.next [] [] hs.replies (List.append_nil _).symm
        (List.append_nil _).symm ?_ ?_ (fun _ hn => hn) ?_ (by simp)
      · intro n
        have hn := (hreads.map IOSana2Req.node).count_eq n
        simp only [Sys.held, Driver.setUnit, transferNodes, Call.io, List.map_append,
          List.map_cons, List.map_nil, List.count_append, List.count_cons, List.count_nil,
          List.filter_nil] at hn ⊢
        omega
      · intro r hr
        simp only [Sys.held, Driver.setUnit, Call.io, List.map_append, List.map_cons,
          List.map_nil, List.mem_append, List.mem_singleton] at hr ⊢
        have hmem := hreads.mem_iff (a := r)
        simp only [List.mem_cons] at hmem
        rcases hr with (hr | hr) | hr | rfl
        · exact .inl (.inl (.inl (hmem.mpr (.inr hr))))
        · exact .inl (.inl (.inr hr))
        · exact .inl (.inr hr)
        · exact .inr hfound
      · intro hzero r hr
        simp only [Driver.setUnit, hopen] at hzero hr
        exact .inl ⟨hzero, hreads.mem_iff.mpr (List.mem_cons_of_mem _ hr)⟩

/-! ### The sections of a call -/

section Resume

variable {pre post : List Call} {c : Call}

omit [GuestMemory μ] in
theorem filling_of_calls (hcalls : s.calls = pre ++ c :: post) :
    s.filling.Perm (c.slot?.toList ++ (pre ++ post).filterMap Call.slot?) := by
  unfold Sys.filling
  rw [hcalls]
  refine (List.perm_middle.filterMap Call.slot?).trans ?_
  rw [List.filterMap_cons]
  cases c.slot? <;> exact List.Perm.refl _

theorem filling_resumed (cs : List Call) :
    (cs.filterMap Call.slot? ++ (pre ++ post).filterMap Call.slot?).Perm
      ((pre ++ cs ++ post).filterMap Call.slot?) := by
  rw [← List.filterMap_append]
  refine List.Perm.filterMap _ ?_
  rw [List.append_assoc pre cs post, ← List.append_assoc cs pre post]
  exact List.perm_append_comm.append_right post |>.trans (by rw [List.append_assoc])

omit [GuestMemory μ] in
/-- The call that is resumed is held, and so are the others. -/
theorem count_held (hcalls : s.calls = pre ++ c :: post) (n : Nat) :
    (s.held.map IOSana2Req.node).count n =
      (s.drv.base.unit0.pendingReads.map IOSana2Req.node).count n +
        (s.drv.base.txq.held.map IOSana2Req.node).count n + [c.io.node].count n +
        ((pre ++ post).map fun c' => c'.io.node).count n := by
  unfold Sys.held
  rw [hcalls]
  simp only [List.map_append, List.map_cons, List.map_map, List.count_append, List.count_cons,
    List.count_nil]
  change _ = _ + _ + _ + (List.count n (pre.map (IOSana2Req.node ∘ Call.io)) +
    List.count n (post.map (IOSana2Req.node ∘ Call.io)))
  omega

/-- **The next section of a call** keeps the invariant when its requests and slots are there. -/
theorem Inv.of_resume (h : Inv rings s) (hcalls : s.calls = pre ++ c :: post) {d : Driver μ}
    {rs : List IOSana2Req} (cs : List Call) {strays : List Nat} {published : List Sent}
    (hslots : Slots rings d.base d.mem s.dev
      (cs.filterMap Call.slot? ++ (pre ++ post).filterMap Call.slot?))
    (hready : d.base.ready = s.drv.base.ready)
    (hseen : ∀ i, (d.base.queue i).usedIdxSeen = (s.drv.base.queue i).usedIdxSeen)
    (hsized : ∀ c' ∈ cs, c'.Sized) (hreplies : d.replies = s.drv.replies ++ rs)
    (hheld : (rs.map IOSana2Req.node ++ d.base.unit0.pendingReads.map IOSana2Req.node ++
        d.base.txq.held.map IOSana2Req.node ++ cs.map fun c' => c'.io.node).Perm
      (s.drv.base.unit0.pendingReads.map IOSana2Req.node ++
        s.drv.base.txq.held.map IOSana2Req.node ++ [c.io.node]))
    (hpends : ∀ io ∈ rs ++ d.base.unit0.pendingReads ++ d.base.txq.held ++ cs.map Call.io,
      io ∈ s.held ∨ io.Pends)
    (hqueued : d.base.unit0.opencnt = 0 → s.drv.base.unit0.opencnt = 0 ∧
      ∀ io ∈ d.base.unit0.pendingReads,
        io ∈ s.drv.base.unit0.pendingReads ∨ io.node ∈ strays) :
    Inv rings { s with
      drv := d
      calls := pre ++ cs ++ post
      strays := s.strays ++ strays
      published := published } := by
  have hall : ∀ io ∈ rs ++ d.base.unit0.pendingReads ++ d.base.txq.held ++ cs.map Call.io,
      io.Pends := fun io hio => (hpends io hio).elim (h.accounted.pends io) fun hio => hio
  refine h.of_slots (hslots.perm (filling_resumed cs)) hready hseen ?_ ?_
  · intro c' hc'
    simp only [List.mem_append] at hc'
    rcases hc' with (hc' | hc') | hc'
    · exact h.sized c' (by simp [hcalls, hc'])
    · exact hsized c' hc'
    · exact h.sized c' (by simp [hcalls, hc'])
  · refine h.accounted.next [] [] hreplies (List.append_nil _).symm (List.append_nil _).symm ?_ ?_
      (fun _ hn => List.mem_append_left _ hn) ?_ (by simp)
    · intro n
      have hn := hheld.count_eq n
      have hold := count_held hcalls n
      rw [transferNodes_of_pends fun io hio => (hall io (by simp [hio])).1, hold]
      unfold Sys.held
      simp only [List.map_append, List.map_map, List.count_append, List.count_nil] at hn ⊢
      change List.count n (rs.map IOSana2Req.node) + _ + _ +
        List.count n (cs.map (IOSana2Req.node ∘ Call.io)) = _ at hn
      change 0 + (_ + _ + _ + (List.count n (pre.map (IOSana2Req.node ∘ Call.io)) +
        List.count n (post.map (IOSana2Req.node ∘ Call.io)))) = _
      omega
    · intro io hio
      unfold Sys.held at hio
      simp only [List.map_append, List.mem_append] at hio
      rcases hio with (hio | hio) | (hio | hio) | hio
      · exact .inr (hall io (by simp [hio]))
      · exact .inr (hall io (by simp [hio]))
      · exact .inl (by simp only [Sys.held, hcalls, List.map_append, List.mem_append]; tauto)
      · exact .inr (hall io (by simp only [List.mem_append]; tauto))
      · refine .inl ?_
        simp only [Sys.held, hcalls, List.map_append, List.map_cons, List.mem_append,
          List.mem_cons]
        tauto
    · intro hzero io hio
      obtain ⟨hclosed, hreads⟩ := hqueued hzero
      exact (hreads io hio).imp (fun hio => ⟨hclosed, hio⟩) (List.mem_append_right _)

/-- A slot that is being filled has no request recorded. -/
theorem Slots.pending_filling {b : VNetBase} {mem : μ} {v : RingDevice} {filling : List Nat}
    {k : Nat} (h : Slots rings b mem v (k :: filling)) :
    k < (rings .tx).qsize.toNat ∧ b.txq.pending k = none := by
  refine ⟨h.bound k (by simp), ?_⟩
  cases hp : b.txq.pending k with
  | none => rfl
  | some io =>
    have hmem := (h.pending k).mp (by rw [hp]; rfl)
    exact absurd rfl ((List.nodup_append.mp h.nodup).2.2 k hmem k (by simp))

theorem touches_fill [LawfulGuestMemory μ] {mem : μ} (h : Laid rings mem) {k : Nat}
    (hk : k < (rings .tx).qsize.toNat) {bs : List Byte} (hne : bs ≠ [])
    (hlen : bs.length ≤ rxbufSize) :
    Touches rings [.buf .tx k] mem (wrBytes mem ((rings .tx).bufPtrs k) bs) := by
  have hin : (⟨((rings .tx).bufPtrs k).toNat, bs.length⟩ : Region).Inside
      (region rings (.buf .tx k)) := ⟨Nat.le_refl _, Nat.add_le_add_left hlen _⟩
  exact .of_frame (wrBytes_spec h (p := .buf .tx k) hk hin rfl bs hne rfl).2 hin

/-- A section that answers the request of the call, or hands it on to what is left of the call. -/
theorem Inv.of_handed (h : Inv rings s) (hcalls : s.calls = pre ++ c :: post) {d : Driver μ}
    {rs : List IOSana2Req} (cs : List Call) {published : List Sent}
    (hslots : Slots rings d.base d.mem s.dev
      (cs.filterMap Call.slot? ++ (pre ++ post).filterMap Call.slot?))
    (hready : d.base.ready = s.drv.base.ready)
    (hseen : ∀ i, (d.base.queue i).usedIdxSeen = (s.drv.base.queue i).usedIdxSeen)
    (hsized : ∀ c' ∈ cs, c'.Sized) (hreplies : d.replies = s.drv.replies ++ rs)
    (hunit : d.base.unit0 = s.drv.base.unit0) (hheld : d.base.txq.held.Perm s.drv.base.txq.held)
    (hone : rs.map IOSana2Req.node ++ cs.map (fun c' => c'.io.node) = [c.io.node])
    (hpends : ∀ io ∈ rs ++ cs.map Call.io, io.Pends) :
    Inv rings { s with
      drv := d
      calls := pre ++ cs ++ post
      strays := s.strays ++ []
      published := published } := by
  refine h.of_resume hcalls cs hslots hready hseen hsized hreplies ?_ ?_ ?_
  · refine List.perm_iff_count.mpr fun n => ?_
    have hn := (hheld.map IOSana2Req.node).count_eq n
    simp only [hunit, ← hone, List.count_append]
    omega
  · intro r hr
    simp only [hunit, List.mem_append, hheld.mem_iff] at hr
    rcases hr with ((hr | hr) | hr) | hr
    · exact .inr (hpends r (List.mem_append_left _ hr))
    · exact .inl (by simp [Sys.held, hr])
    · exact .inl (by simp [Sys.held, hr])
    · exact .inr (hpends r (List.mem_append_right _ hr))
  · rw [hunit]
    exact fun hzero => ⟨hzero, fun r hr => .inl hr⟩

theorem length_frameHead (io : IOSana2Req) (mac : List Byte) : (frameHead io mac).length = 26 := by
  simp [frameHead, zeros, mac6]

theorem Inv.resumed [LawfulGuestMemory μ] (h : Inv rings s) (hcalls : s.calls = pre ++ c :: post)
    (copied : Bool) (payload : List Byte) (hlen : payload.length = c.io.dataLength.toNat) :
    Inv rings (s.resumed pre c post copied payload) := by
  have hmem : c.io ∈ s.held := by simp [Sys.held, hcalls]
  have hpends := h.accounted.pends _ hmem
  have hsized := h.sized c (by simp [hcalls])
  have hslots := h.slots.perm (filling_of_calls hcalls)
  have hold : ∀ io ∈ s.drv.base.unit0.pendingReads ++ s.drv.base.txq.held, io ∈ s.held := by
    intro io hio
    unfold Sys.held
    exact List.mem_append_left _ hio
  unfold Sys.resumed
  cases c with
  | enqueue io =>
    -- The read goes to the end of the queue, as a stray when the unit is closed.
    simp only [Call.resume, Option.toList_none]
    refine h.of_resume hcalls [] (hslots.unit _) rfl ?_ (by simp)
      (List.append_nil _).symm ?_ ?_ ?_
    · rintro (_ | _) <;> rfl
    · refine List.perm_iff_count.mpr fun n => ?_
      simp only [Driver.setUnit, Call.io, List.map_append, List.map_cons, List.map_nil,
        List.count_append, List.count_nil]
      omega
    · intro r hr
      simp only [Driver.setUnit, List.map_nil, List.append_nil, List.nil_append, List.mem_append,
        List.mem_singleton] at hr
      rcases hr with (hr | rfl) | hr
      · exact .inl (hold r (by simp [hr]))
      · exact .inr hpends
      · exact .inl (hold r (by simp [hr]))
    · intro hzero
      change s.drv.base.unit0.opencnt = 0 at hzero
      refine ⟨hzero, fun r hr => ?_⟩
      change r ∈ s.drv.base.unit0.pendingReads ++ [io] at hr
      rw [if_pos hzero]
      rcases List.mem_append.mp hr with hr | hr
      · exact .inl hr
      · rw [List.mem_singleton.mp hr]
        exact .inr (by simp)
  | alloc io =>
    simp only [Call.resume]
    -- The pool is out of slots, or the call goes on with the first free one.
    cases halloc : vnetTxslotAlloc s.drv.base.txq with
    | none =>
      have hterm := termIo_pending s.drv { io with
        error := IoErr.outOfService, wireError := WireErr.buffError } hpends.2
      simp only [Option.toList_none, hterm]
      exact h.of_handed hcalls [] hslots rfl (fun _ => rfl) (by simp) rfl rfl (List.Perm.refl _) rfl
        (List.forall_mem_singleton.mpr hpends)
    | some found =>
      obtain ⟨slot, q⟩ := found
      have hq := hslots.alloc halloc
      simp only [Option.toList_some]
      have hheld : q.held = s.drv.base.txq.held ∧
          q.usedIdxSeen = s.drv.base.txq.usedIdxSeen := by
        obtain ⟨slot', -, heq⟩ := Option.map_eq_some_iff.mp halloc
        obtain ⟨-, rfl⟩ := Prod.mk.inj heq
        exact ⟨rfl, rfl⟩
      refine h.of_handed hcalls [.fill io slot] hq rfl ?_ ?_ (List.append_nil _).symm rfl
        (.of_eq hheld.1) rfl (List.forall_mem_singleton.mpr hpends)
      · rintro (_ | _)
        · rfl
        · exact hheld.2
      · intro c' hc'
        rw [List.mem_singleton.mp hc']
        exact hsized
  | fill io slot =>
    change Slots rings _ _ _ (slot :: (pre ++ post).filterMap Call.slot?) at hslots
    obtain ⟨hk, hnone⟩ := hslots.pending_filling
    have hbuf : s.drv.base.txq.bufPtrs slot = (rings .tx).bufPtrs slot :=
      congrFun (congrArg VRing.bufPtrs (h.slots.ring .tx)) slot
    change io.dataLength.toNat ≤ mtu at hsized
    change payload.length = io.dataLength.toNat at hlen
    have hhead := length_frameHead io s.drv.base.unit0.currentMac
    have hsizes : mtu = 1512 ∧ rxbufSize = 1540 ∧ ethMinFrame = 60 ∧ hdrSize = 12 ∧
        ethHdrLen = 14 := ⟨rfl, rfl, rfl, rfl, rfl⟩
    have hstore : ∀ bs : List Byte, bs.length ≤ rxbufSize → bs ≠ [] →
        Slots rings s.drv.base (wrBytes s.drv.mem (s.drv.base.txq.bufPtrs slot) bs) s.dev
          (slot :: (pre ++ post).filterMap Call.slot?) := by
      intro bs hle hne
      rw [hbuf]
      exact hslots.store hk (touches_fill h.slots.laid hk hne hle)
    have hne : ∀ bs : List Byte, frameHead io s.drv.base.unit0.currentMac ++ bs ≠ [] := by
      intro bs heq
      rw [(List.append_eq_nil_iff.mp heq).1] at hhead
      cases hhead
    unfold Call.resume fillSlot
    simp only
    split
    · -- `copyFromBuff` fails: the slot goes back and the request is answered.
      have hterm := fun d : Driver μ => termIo_pending d { io with
        error := IoErr.noResources, wireError := WireErr.buffError } hpends.2
      simp only [Option.toList_none, hterm]
      rw [← h.slots.qsize_eq .tx] at hk
      refine h.of_handed hcalls [] (hstore _ ?_ (hne _)).giveBack rfl ?_ (by simp) rfl rfl
        (VNetQueue.held_free_none hk hnone) rfl (List.forall_mem_singleton.mpr hpends)
      · rw [List.length_append]
        omega
      · rintro (_ | _) <;> rfl
    · simp only [Option.toList_some]
      refine h.of_handed hcalls [.publish _ slot _] (hstore _ ?_ ?_) rfl (fun _ => rfl) ?_
        (List.append_nil _).symm rfl (List.Perm.refl _) rfl (List.forall_mem_singleton.mpr hpends)
      · rw [List.length_append, List.length_append, zeros, List.length_replicate]
        have hpay : (if io.dataLength = 0 then [] else payload).length ≤ payload.length := by
          split <;> simp
        omega
      · rw [List.append_assoc]
        exact hne _
      · intro c' hc'
        rw [List.mem_singleton.mp hc']
        trivial
  | publish sent slot framelen =>
    -- The request is recorded for its slot as the slot goes on the ring.
    simp only [Call.resume, Option.toList_none]
    change Slots rings _ _ _ (slot :: (pre ++ post).filterMap Call.slot?) at hslots
    obtain ⟨hk, hnone⟩ := hslots.pending_filling
    rw [← h.slots.qsize_eq .tx] at hk
    change slot < s.drv.base.txq.qsize.toNat at hk
    have hheld := VNetQueue.held_record hk hnone sent.io
    refine h.of_resume hcalls [] (hslots.publish _ _) rfl ?_ (by simp)
      (List.append_nil _).symm ?_ ?_ ?_
    · rintro (_ | _) <;> rfl
    · refine List.perm_iff_count.mpr fun n => ?_
      have hn := (hheld.map IOSana2Req.node).count_eq n
      change List.count n (List.map _ (publishSlot s.drv sent.io slot framelen).base.txq.held) =
        _ at hn
      simp only [Call.io, List.map_cons, List.map_nil, List.count_append, List.count_cons,
        List.count_nil] at hn ⊢
      rw [hn]
      change _ + List.count n (s.drv.base.unit0.pendingReads.map IOSana2Req.node) + _ + _ = _
      omega
    · intro r hr
      have hmem := hheld.mem_iff (a := r)
      change r ∈ (publishSlot s.drv sent.io slot framelen).base.txq.held ↔ _ at hmem
      simp only [List.map_nil, List.append_nil, List.nil_append, List.mem_append, hmem,
        List.mem_cons] at hr
      rcases hr with hr | rfl | hr
      · exact .inl (hold r (List.mem_append_left _ hr))
      · exact .inr hpends
      · exact .inl (hold r (by simp [hr]))
    · exact fun hzero => ⟨hzero, fun r hr => .inl hr⟩
  | abort io =>
    simp only [Call.resume, Option.toList_none]
    exact h.of_handed hcalls [] hslots rfl (fun _ => rfl) (by simp) rfl rfl (List.Perm.refl _) rfl
      (List.forall_mem_singleton.mpr hpends)

end Resume

/-! ### The interrupt handler -/

/-- A round of one of its loops. -/
theorem Inv.withDriver (h : Inv rings s) {d : Driver μ} (rs : List IOSana2Req)
    (hslots : Slots rings d.base d.mem s.dev s.filling)
    (hready : d.base.ready = s.drv.base.ready)
    (hreplies : d.replies = s.drv.replies ++ rs)
    (hopen : d.base.unit0.opencnt = s.drv.base.unit0.opencnt)
    (hreads : ∀ io ∈ d.base.unit0.pendingReads, io ∈ s.drv.base.unit0.pendingReads)
    (hpends : ∀ io ∈ d.base.txq.held, io ∈ s.drv.base.txq.held)
    (hrs : ∀ io ∈ rs, io.transfers = true)
    (hheld : (rs.map IOSana2Req.node ++
        (d.base.unit0.pendingReads ++ d.base.txq.held).map IOSana2Req.node).Perm
      ((s.drv.base.unit0.pendingReads ++ s.drv.base.txq.held).map IOSana2Req.node))
    (htimely : Timely rings (s.withDriver d)) : Inv rings (s.withDriver d) where
  slots := hslots
  ready := hready.trans h.ready
  sized := h.sized
  timely := htimely
  accounted := by
    refine h.accounted.next [] [] hreplies (List.append_nil _).symm (List.append_nil _).symm ?_ ?_
      (fun _ hn => hn) ?_ (by simp)
    · intro n
      have hn := hheld.count_eq n
      rw [transferNodes_of_pends hrs]
      simp only [Sys.held, Sys.withDriver, List.map_append, List.count_append,
        List.count_nil] at hn ⊢
      omega
    · intro io hio
      refine .inl ?_
      simp only [Sys.held, Sys.withDriver, List.mem_append] at hio ⊢
      rcases hio with (hio | hio) | hio
      · exact .inl (.inl (hreads io hio))
      · exact .inl (.inr (hpends io hio))
      · exact .inr hio
    · intro hzero io hio
      exact .inl ⟨hopen ▸ hzero, hreads io hio⟩

theorem Inv.rxRound [LawfulGuestMemory μ] (h : Inv rings s) {idx : Word} (copied : Bool)
    (hpc : s.pc = .rx idx) (hne : s.drv.base.rxq.usedIdxSeen ≠ idx) :
    Inv rings (s.withDriver (rxUsed s.drv copied)) := by
  have hsnap := h.timely.snapshot
  rw [hpc] at hsnap
  obtain ⟨hused, hnext⟩ := WrapRing.Between.pop hsnap hne
  have hslots := h.slots.rxUsed copied hused
  -- One delivery takes a read off the queue, or drops the frame.
  obtain ⟨_, phys, len, -, heq⟩ := h.slots.rxUsed_eq copied hused
  obtain ⟨u, hbase, -, hunit, hopen⟩ := deliver_cases s.drv phys len copied
  have hidx : ∀ i, usedIdx (rxUsed s.drv copied).mem (rings i) = usedIdx s.drv.mem (rings i) :=
    fun i => (hslots.devUsed i).symm.trans (h.slots.devUsed i)
  have hrxSeen : (rxUsed s.drv copied).base.rxq.usedIdxSeen =
      s.drv.base.rxq.usedIdxSeen + 1 := by
    rw [heq]
    rfl
  have hunit0 : (rxUsed s.drv copied).base.unit0 = u := by
    rw [heq]
    change (deliver s.drv phys len copied).base.unit0 = u
    rw [hbase]
  have htxq : (rxUsed s.drv copied).base.txq = s.drv.base.txq := by
    rw [heq]
    change (deliver s.drv phys len copied).base.txq = _
    rw [hbase]
  have hready : (rxUsed s.drv copied).base.ready = s.drv.base.ready := by
    rw [heq]
    change (deliver s.drv phys len copied).base.ready = _
    rw [hbase]
  have hreplies : (rxUsed s.drv copied).replies = (deliver s.drv phys len copied).replies := by
    rw [heq]
    rfl
  have htimely : Timely rings (s.withDriver (rxUsed s.drv copied)) := by
    refine ⟨h.timely.notified.imp id ?_, ?_⟩
    · intro hcaught
      simp only [Sys.withDriver, hpc, CaughtUp] at hcaught ⊢
      rw [hidx]
      exact hcaught
    · simp only [Sys.withDriver, hpc, Snapshot]
      rw [hidx]
      change WrapRing.Between (rxUsed s.drv copied).base.rxq.usedIdxSeen idx _
      rw [hrxSeen]
      exact hnext
  rcases hunit with ⟨hreads, hrs⟩ | ⟨io, io', hreads, hnode, hcommand, hrs⟩
  · refine h.withDriver [] hslots hready ?_ ?_ ?_ ?_ (by simp) ?_ htimely
    · rw [hreplies, hrs, List.append_nil]
    · rw [hunit0, hopen]
    · rw [hunit0, hreads]
      exact fun r hr => hr
    · rw [htxq]
      exact fun r hr => hr
    · rw [hunit0, hreads, htxq]
      exact List.Perm.refl _
  · have hio : io.transfers = true :=
      (h.accounted.pends io (by simp [Sys.held, hreads])).1
    refine h.withDriver [io'] hslots hready ?_ ?_ ?_ ?_ ?_ ?_ htimely
    · rw [hreplies, hrs]
    · rw [hunit0, hopen]
    · rw [hunit0, hreads]
      exact fun r hr => List.mem_cons_of_mem _ hr
    · rw [htxq]
      exact fun r hr => hr
    · intro r hr
      rw [List.mem_singleton.mp hr]
      unfold IOSana2Req.transfers at hio ⊢
      rwa [hcommand]
    · rw [hunit0, hreads, htxq, List.map_singleton, hnode]
      exact List.Perm.refl _

theorem Inv.txRound (h : Inv rings s) {idx : Word} (hpc : s.pc = .tx idx)
    (hne : s.drv.base.txq.usedIdxSeen ≠ idx) : Inv rings (s.withDriver (txUsed s.drv)) := by
  have hsnap := h.timely.snapshot
  rw [hpc] at hsnap
  obtain ⟨hused, hnext⟩ := WrapRing.Between.pop hsnap hne
  have hslots := h.slots.txUsed hused
  obtain ⟨io, hio, heq⟩ := h.slots.txUsed_eq hused
  have hlt := (h.slots.onRing .tx).2 _ (h.slots.usedElem_mem (i := .tx) hused)
  rw [← h.slots.qsize_eq .tx] at hlt
  have hheld := VNetQueue.held_free hlt hio
  have hidx : ∀ i, usedIdx (txUsed s.drv).mem (rings i) = usedIdx s.drv.mem (rings i) :=
    fun i => (hslots.devUsed i).symm.trans (h.slots.devUsed i)
  have htimely : Timely rings (s.withDriver (txUsed s.drv)) := by
    have hrxSeen : (txUsed s.drv).base.rxq.usedIdxSeen = s.drv.base.rxq.usedIdxSeen := by
      rw [heq]
      rfl
    have htxSeen : (txUsed s.drv).base.txq.usedIdxSeen = s.drv.base.txq.usedIdxSeen + 1 := by
      rw [heq]
      rfl
    refine ⟨h.timely.notified.imp id ?_, ?_⟩
    · intro hcaught
      simp only [Sys.withDriver, hpc, CaughtUp, VNetBase.queue] at hcaught ⊢
      rw [hidx, hidx, hrxSeen]
      exact hcaught
    · simp only [Sys.withDriver, hpc, Snapshot, VNetBase.queue]
      rw [hidx, htxSeen]
      exact hnext
  have htxHeld : s.drv.base.txq.held.Perm (io :: (txUsed s.drv).base.txq.held) := by
    rw [heq]
    exact hheld
  have hunit0 : (txUsed s.drv).base.unit0.pendingReads = s.drv.base.unit0.pendingReads ∧
      (txUsed s.drv).base.unit0.opencnt = s.drv.base.unit0.opencnt := by
    rw [heq]
    exact ⟨rfl, rfl⟩
  have hpends := (h.accounted.pends io (by
    have hmem := htxHeld.mem_iff (a := io)
    simp [Sys.held, hmem])).1
  refine h.withDriver [{ io with error := 0 }] hslots ?_ ?_ hunit0.2 ?_ ?_ ?_ ?_ htimely
  · rw [heq]
    rfl
  · rw [heq]
    rfl
  · rw [hunit0.1]
    exact fun r hr => hr
  · intro r hr
    exact htxHeld.mem_iff.mpr (List.mem_cons_of_mem _ hr)
  · intro r hr
    rw [List.mem_singleton.mp hr]
    exact hpends
  · rw [hunit0.1]
    refine List.perm_iff_count.mpr fun n => ?_
    have hn := (htxHeld.map IOSana2Req.node).count_eq n
    simp only [List.map_append, List.map_cons, List.map_nil, List.count_append, List.count_cons,
      List.count_nil] at hn ⊢
    omega

/-- The handler goes on to its next part. -/
theorem Inv.atPc (h : Inv rings s) {pc : IsrPc} {isr : Bool}
    (htimely : Timely rings { s with dev := { s.dev with isr := isr }, pc := pc }) :
    Inv rings { s with dev := { s.dev with isr := isr }, pc := pc } where
  slots :=
    { h.slots with
      devRing := h.slots.devRing
      devUsed := h.slots.devUsed }
  ready := h.ready
  accounted :=
    { count := h.accounted.count
      pends := h.accounted.pends
      strays := h.accounted.strays
      lost := h.accounted.lost }
  sized := h.sized
  timely := htimely

/-! ### The device -/

theorem Inv.device (h : Inv rings s) {dev : RingDevice} {mem : μ}
    (hact : RingDevice.Acts (s.dev, s.drv.mem) (dev, mem)) :
    Inv rings { s with dev := dev, drv := s.drv.setMem mem } := by
  have hslots := h.slots.device hact
  refine
    { slots := hslots
      ready := h.ready
      accounted :=
        { count := h.accounted.count
          pends := h.accounted.pends
          strays := h.accounted.strays
          lost := h.accounted.lost }
      sized := h.sized
      timely := ?_ }
  cases hact with
  | fetch j hne => exact h.timely.of_same rfl rfl (fun _ => rfl) fun _ => rfl
  | @complete _ _ _ j k len hk hc =>
    -- Only a completion moves `used.idx`, and it asserts the interrupt.
    refine ⟨.inl rfl, ?_⟩
    have hbetween : ∀ i mid,
        WrapRing.Between (s.drv.base.queue i).usedIdxSeen mid (usedIdx s.drv.mem (rings i)) →
        WrapRing.Between (s.drv.base.queue i).usedIdxSeen mid (usedIdx mem (rings i)) := by
      intro i mid hmid
      rw [← hslots.devUsed i]
      change WrapRing.Between _ mid (if i = j then _ else s.dev.queue i).usedIdx
      split
      · rename_i hij
        subst hij
        simp only
        rw [h.slots.devUsed i]
        refine hmid.push ?_
        -- The index cannot catch up with a mark: no more is on the ring than it has places.
        have hlen := Slots.length_le_of_nodup (h.slots.onRing i).1 (h.slots.onRing i).2
        have hle := h.slots.laid.size_le i
        unfold ids ringIds unseen at hlen
        simp only [List.length_append, List.length_map, WrapRing.length_contents] at hlen
        omega
      · rw [h.slots.devUsed i]
        exact hmid
    have hsnap := h.timely.snapshot
    change Snapshot (fun i => (s.drv.base.queue i).usedIdxSeen) (fun i => usedIdx mem (rings i))
      s.pc
    cases hpc : s.pc with
    | rx idx =>
      rw [hpc] at hsnap
      exact hbetween .rx idx hsnap
    | tx idx =>
      rw [hpc] at hsnap
      exact hbetween .tx idx hsnap
    | idle => trivial
    | rxEnter => trivial
    | txEnter => trivial

/-! ## Runs -/

section Runs

variable [LawfulGuestMemory μ]

/-- **Every step keeps the invariant.** -/
theorem Inv.step (h : Inv rings s) {s' : Sys RingDevice μ} (hstep : Step s s') : Inv rings s' := by
  cases hstep with
  | openDevice io unitnum hooks _ => exact h.opened io unitnum hooks
  | closeDevice io _ => exact h.closed io
  | beginIo io _ _ => exact h.begun io
  | abortIo io _ => exact h.aborted io
  | resume copied payload _ hcalls hlen => exact h.resumed hcalls copied payload hlen
  | interrupt hpc _ =>
    refine h.atPc ?_
    -- Acknowledging starts the handler; without an interrupt everything used has been seen.
    have hnotified := h.timely.notified
    rw [hpc] at hnotified
    change Timely rings { s with
      dev := { s.dev with isr := false }
      pc := if (if s.dev.isr then isrQueue else 0) &&& isrQueue ≠ 0 then .rxEnter else .idle }
    cases hisr : s.dev.isr with
    | true => exact ⟨.inr trivial, trivial⟩
    | false =>
      rw [hisr] at hnotified
      exact ⟨.inr (hnotified.resolve_left Bool.false_ne_true), trivial⟩
  | rxEnter hpc =>
    -- The handler takes its snapshot here, so the loop below it ends at a value `used.idx` had.
    refine h.atPc ⟨.inr ?_, ?_⟩
    · exact congrArg (usedIdx s.drv.mem) (h.slots.ring .rx)
    · change WrapRing.Between _ (usedIdx s.drv.mem s.drv.base.rxq.toVRing) _
      rw [show s.drv.base.rxq.toVRing = rings .rx from h.slots.ring .rx]
      exact WrapRing.Between.tail _ _
  | rxRound copied hpc hne => exact h.rxRound copied hpc hne
  | rxDone hpc heq =>
    refine h.atPc ⟨h.timely.notified.imp id fun hcaught => ?_, trivial⟩
    rw [hpc] at hcaught
    exact heq.trans hcaught
  | txEnter hpc =>
    refine h.atPc ⟨h.timely.notified.imp id fun hcaught => ?_, ?_⟩
    · rw [hpc] at hcaught
      exact ⟨hcaught, congrArg (usedIdx s.drv.mem) (h.slots.ring .tx)⟩
    · change WrapRing.Between _ (usedIdx s.drv.mem s.drv.base.txq.toVRing) _
      rw [show s.drv.base.txq.toVRing = rings .tx from h.slots.ring .tx]
      exact WrapRing.Between.tail _ _
  | txRound hpc hne => exact h.txRound hpc hne
  | txDone hpc heq =>
    refine h.atPc ⟨h.timely.notified.imp id fun hcaught => ?_, trivial⟩
    rw [hpc] at hcaught
    exact ⟨hcaught.1, heq.trans hcaught.2⟩
  | device hact => exact h.device hact

theorem Inv.run (h : Inv rings s) {s' : Sys RingDevice μ} (hrun : Reaches s s') : Inv rings s' := by
  induction hrun with
  | refl => exact h
  | tail _ hstep ih => exact ih.step hstep

omit [LawfulGuestMemory μ] in
/-- **The state `DevInit` leaves** meets the invariant. -/
theorem Inv.start {drv : Driver μ} (h : Started rings drv) :
    Inv rings (Sys.start drv (.programmed drv.base)) where
  slots := h.slots
  ready := h.ready
  sized := by simp [Sys.start]
  timely := ⟨.inr ⟨h.seen .rx, h.seen .tx⟩, trivial⟩
  accounted := by
    have hheld : (Sys.start drv (RingDevice.programmed drv.base)).held = [] := by
      unfold Sys.held Sys.start VNetQueue.held
      simp only
      rw [h.reads, List.filterMap_eq_nil_iff.mpr fun k _ => h.pending k]
      rfl
    refine ⟨?_, ?_, ?_, ?_⟩
    · intro n
      rw [hheld]
      unfold Sys.answered Sys.start
      simp only
      rw [h.replies]
      rfl
    · rw [hheld]
      simp
    · intro _ io hio
      change io ∈ drv.base.unit0.pendingReads at hio
      rw [h.reads] at hio
      cases hio
    · intro n hn
      cases hn

omit [LawfulGuestMemory μ] in
/-- The ring of the device is the ring of the driver. -/
theorem Inv.onRing_eq (h : Inv rings s) (i : QueueId) :
    s.onRing i = ids rings s.drv.base s.drv.mem s.dev i := by
  unfold Sys.onRing ids ringIds
  rw [h.slots.devRing i, h.slots.ring i]

omit [LawfulGuestMemory μ] in
/-- **Served and closed**, nothing is held but what was queued on the closed unit. -/
theorem Inv.outstanding_of_served (h : Inv rings s) (hserved : s.Served)
    (hclosed : s.drv.base.unit0.opencnt = 0) :
    s.outstanding = s.queued ∧ ∀ n ∈ s.queued, n ∈ s.strays := by
  -- Nothing fetched is unused and nothing used is unseen, so no slot is on the ring.
  have hring : ids rings s.drv.base s.drv.mem s.dev .tx = [] := by
    have hfetched := hserved.fetched
    have hnotified := h.timely.notified
    rw [hserved.deasserted, hserved.returned] at hnotified
    have hseen := (hnotified.resolve_left Bool.false_ne_true).2
    rw [h.slots.devRing .tx] at hfetched
    unfold ids ringIds
    rw [hfetched, hserved.completed]
    unfold unseen
    rw [show (s.drv.base.queue .tx).usedIdxSeen = usedIdx s.drv.mem (rings .tx) from hseen,
      WrapRing.contents_self]
    rfl
  have hpending : s.inFlight = [] := by
    refine List.filterMap_eq_nil_iff.mpr fun k _ => ?_
    have hk := h.slots.pending k
    rw [hring] at hk
    simpa using hk
  constructor
  · unfold Sys.outstanding
    rw [hpending, hserved.calls, List.map_nil, List.append_nil, List.append_nil]
  · intro n hn
    obtain ⟨io, hio, rfl⟩ := List.mem_map.mp hn
    exact h.accounted.strays hclosed io hio

/-- **Every request is answered once and every slot is in one place.** In any order of calls,
interrupts and device actions: no request is answered more often than it was given; once the unit is
closed and the device served, every one has been answered but the reads queued on the closed unit,
or dropped by an `Open`; a transmit slot is free exactly when it is neither being filled nor on the
ring, and has a request exactly while on it; and each receive descriptor is on the ring once. -/
theorem answers_every_request_once {rxSize txSize : Word} {rx tx : Dma} {mac : List Byte} {mem : μ}
    {drv : Driver μ} {n m : Nat} (hinit : devInit rxSize txSize rx tx mac mem = some drv)
    (hrx : rxSize.toNat = 2 ^ n) (htx : txSize.toNat = 2 ^ m)
    (hgranted : DmaGranted (perQueue rxSize txSize) (perQueue rx tx) mem) {s : Sys RingDevice μ}
    (hrun : Reaches (Sys.start drv (.programmed drv.base)) s) :
    (∀ id, s.answered.count id ≤ s.given.count id) ∧
      (s.Served → s.drv.base.unit0.opencnt = 0 →
        (∀ id, s.answered.count id + s.lost.count id + s.queued.count id = s.given.count id) ∧
          (∀ id ∈ s.lost ++ s.queued, id ∈ s.strays) ∧
          ∀ id, id ∉ s.strays → s.answered.count id = s.given.count id) ∧
      (∀ k < s.drv.base.txq.qsize.toNat,
        s.drv.base.txq.slotFree k = true ↔ k ∉ s.filling ∧ k ∉ s.onRing .tx) ∧
      (∀ k, (s.drv.base.txq.pending k).isSome ↔ k ∈ s.onRing .tx) ∧
      (s.onRing .tx ++ s.filling).Nodup ∧
      (s.onRing .rx).Perm (List.range s.drv.base.rxq.qsize.toNat) := by
  have h := (Inv.start (devInit_started hinit hrx htx hgranted)).run hrun
  refine ⟨?_, ?_, ?_, ?_, ?_, ?_⟩
  · intro id
    have hcount := h.accounted.count id
    omega
  · intro hserved hclosed
    obtain ⟨hout, hqueued⟩ := h.outstanding_of_served hserved hclosed
    have hall : ∀ id,
        s.answered.count id + s.lost.count id + s.queued.count id = s.given.count id := by
      intro id
      have hcount := h.accounted.count id
      rw [← s.outstanding_eq, hout] at hcount
      exact hcount.symm
    have hstray : ∀ id ∈ s.lost ++ s.queued, id ∈ s.strays := by
      intro id hid
      exact (List.mem_append.mp hid).elim (h.accounted.lost id) (hqueued id)
    refine ⟨hall, hstray, fun id hid => ?_⟩
    have hnone : (s.lost ++ s.queued).count id = 0 :=
      List.count_eq_zero.mpr fun hmem => hid (hstray id hmem)
    rw [List.count_append] at hnone
    have hcount := hall id
    omega
  · intro k hk
    have hsize : s.drv.base.txq.qsize = _ := h.slots.qsize_eq .tx
    rw [hsize] at hk
    rw [h.onRing_eq, h.slots.free k hk, List.mem_append, not_or, and_comm]
  · intro k
    rw [h.onRing_eq]
    exact h.slots.pending k
  · rw [h.onRing_eq]
    exact h.slots.nodup
  · have hsize : s.drv.base.rxq.qsize = _ := h.slots.qsize_eq .rx
    rw [h.onRing_eq, hsize]
    exact h.slots.rx

end Runs

/-! ### What the device does next -/

/-- The next posted descriptor fetched. -/
def Sys.fetched (s : Sys RingDevice μ) (i : QueueId) : Sys RingDevice μ :=
  let q := s.dev.queue i
  { s with
    dev := s.dev.setQueue i
      { q with
        lastAvailIdx := q.lastAvailIdx + 1
        taken := q.taken ++
          [availSlot s.drv.mem q.ring (WrapRing.pos q.ring.qsize.toNat q.lastAvailIdx)] }
    drv := s.drv.setMem s.drv.mem }

/-- A fetched descriptor completed. -/
def Sys.completed (s : Sys RingDevice μ) (i : QueueId) (id : Word) (len : Long)
    (frame : List Byte) : Sys RingDevice μ :=
  let q := s.dev.queue i
  { s with
    dev :=
      { s.dev.setQueue i
          { q with
            usedIdx := q.usedIdx + 1
            taken := q.taken.erase id } with
        isr := true }
    drv := s.drv.setMem (stored i q id len frame s.drv.mem) }

/-- **What has been fetched can be completed**, in any order. -/
theorem Inv.step_completed [LawfulGuestMemory μ] (h : Inv rings s) (i : QueueId) {id : Word}
    (hid : id ∈ (s.dev.queue i).taken) (len : Long) (frame : List Byte) (hne : frame ≠ [])
    (hlen : frame.length ≤ rxbufSize) : Step s (s.completed i id len frame) := by
  have hring : id.toNat ∈ ids rings s.drv.base s.drv.mem s.dev i := by
    unfold ids ringIds
    exact List.mem_append_left _ (List.mem_append_right _ (List.mem_map_of_mem hid))
  refine .device (.complete len hid ?_)
  exact completes_stored h.slots.laid (h.slots.devRing i) ((h.slots.onRing i).2 _ hring) len hne
    hlen

/-! ### A sample machine -/

/-- Rings of two descriptors from `base` on, and buffers from `buf` on. -/
def sampleDma (base buf : Long) : Dma where
  descRaw := base
  availRaw := base + 48
  usedRaw := base + 60
  buf := fun k => buf + 1540 * BitVec.ofNat 32 k

def sampleInit : Option (Driver (FlatRam 8192)) :=
  devInit 2 2 (sampleDma 64 256) (sampleDma 160 4096) (mac6 []) ⟨fun _ => 0⟩

theorem isSome_sampleInit : sampleInit.isSome = true := by decide

def sampleDriver : Driver (FlatRam 8192) := sampleInit.get isSome_sampleInit

theorem sampleInit_eq : sampleInit = some sampleDriver := (Option.some_get _).symm

def sampleParts : List Part :=
  [.desc .rx, .avail .rx, .used .rx, .buf .rx 0, .buf .rx 1,
    .desc .tx, .avail .tx, .used .tx, .buf .tx 0, .buf .tx 1]

theorem mem_sampleParts (p : Part) (hp : p.Asked (perQueue 2 2)) : p ∈ sampleParts := by
  rcases p with (_ | _) | (_ | _) | (_ | _) | ⟨_ | _, k⟩
  all_goals first | decide | skip
  all_goals
    have hk : k < 2 := hp
    obtain rfl | rfl : k = 0 ∨ k = 1 := by omega
    all_goals decide

def sampleBlock (p : Part) : Region :=
  (p.block (perQueue 2 2) (perQueue (sampleDma 64 256) (sampleDma 160 4096))).region

theorem sample_granted :
    DmaGranted (perQueue 2 2) (perQueue (sampleDma 64 256) (sampleDma 160 4096))
      (⟨fun _ => 0⟩ : FlatRam 8192) where
  fits p hp := by
    have h : ∀ p ∈ sampleParts, (sampleBlock p).Fits := by decide
    exact h p (mem_sampleParts p hp)
  inRam p hp := by
    have h : ∀ p ∈ sampleParts, (sampleBlock p).start + (sampleBlock p).len ≤ 8192 := by
      decide
    exact FlatRam.inRam _ (h p (mem_sampleParts p hp)) (by decide)
  apart p p' hp hp' := by
    have h : ∀ p ∈ sampleParts, ∀ p' ∈ sampleParts, p ≠ p' →
        (sampleBlock p).Disjoint (sampleBlock p') := by decide
    exact h p (mem_sampleParts p hp) p' (mem_sampleParts p' hp')

/-- A request for the sample. -/
def request (node : Nat) (command : Command) : IOSana2Req where
  node := node
  command := command
  quick := true
  hasUnit := true
  error := 0
  wireError := 0
  packetType := 0
  srcAddr := []
  dstAddr := []
  dataLength := 0
  statData := none

def sampleStart : Sys RingDevice (FlatRam 8192) :=
  .start sampleDriver (.programmed sampleDriver.base)

/-- The unit is opened, configured and put online, and given a read and a write. -/
def given : Sys RingDevice (FlatRam 8192) :=
  ((((sampleStart.opened (request 0 .other) 0 true).begun (request 0 .configInterface)).begun
    (request 0 .online)).begun (request 1 .read)).begun { request 2 .write with dataLength := 2 }

theorem reaches_given : Reaches sampleStart given := by
  have h₁ : Reaches sampleStart (sampleStart.opened (request 0 .other) 0 true) :=
    .single (.openDevice _ _ _ rfl)
  have h₂ := h₁.tail (.beginIo (request 0 .configInterface) rfl (by decide))
  have h₃ := h₂.tail (.beginIo (request 0 .online) rfl (by decide))
  have h₄ := h₃.tail (.beginIo (request 1 .read) rfl (by decide))
  exact h₄.tail (.beginIo { request 2 .write with dataLength := 2 } rfl (by decide))

/-- The read and the write as the calls hold them. -/
def heldRead : IOSana2Req := { request 1 .read with quick := false }

def heldWrite : IOSana2Req := { request 2 .write with dataLength := 2, quick := false }

def heldSent : Sent := ⟨heldWrite, mac6 [], [1, 2]⟩

/-- The write is sent while the read is being queued. -/
def queued : Sys RingDevice (FlatRam 8192) :=
  (((given.resumed [.enqueue heldRead] (.alloc heldWrite) [] false [1, 2]).resumed
    [.enqueue heldRead] (.fill heldWrite 0) [] true [1, 2]).resumed
      [] (.enqueue heldRead) [.publish heldSent 0 72] false []).resumed
        [] (.publish heldSent 0 72) [] false [1, 2]

theorem reaches_queued : Reaches sampleStart queued := by
  unfold queued
  refine .tail ?_ (.resume false [1, 2] rfl (by rfl) rfl)
  refine .tail ?_ (.resume false [] rfl (by rfl) rfl)
  refine .tail ?_ (.resume true [1, 2] rfl (by rfl) rfl)
  exact reaches_given.tail (.resume false [1, 2] rfl rfl rfl)

theorem invariant_of_sample {s : Sys RingDevice (FlatRam 8192)} (h : Reaches sampleStart s) :
    Inv (fun i => (sampleDriver.base.queue i).toVRing) s :=
  (Inv.start (devInit_started (n := 1) (m := 1) sampleInit_eq rfl rfl sample_granted)).run h

/-- The device takes both descriptors, sends the one frame and receives another. -/
def completed : Sys RingDevice (FlatRam 8192) :=
  (((queued.fetched .rx).fetched .tx).completed .tx 0 0 [0]).completed .rx 0 27
    (List.replicate 27 7)

theorem reaches_completed : Reaches sampleStart completed := by
  have h₁ := reaches_queued.tail (.device (.fetch .rx (by decide)))
  have h₂ := h₁.tail (.device (.fetch .tx (by decide)))
  have htx : 0 ∈ (((queued.fetched .rx).fetched .tx).dev.queue .tx).taken := by decide
  have h₃ := h₂.tail ((invariant_of_sample h₂).step_completed .tx htx 0 [0] (by decide)
    (by decide))
  have hrx : 0 ∈ ((((queued.fetched .rx).fetched .tx).completed .tx 0 0 [0]).dev.queue .rx).taken :=
    by decide
  exact h₃.tail ((invariant_of_sample h₃).step_completed .rx hrx 27 (List.replicate 27 7)
    (by decide) (by decide))

/-- The interrupt handler collects both, and the unit is closed. -/
def served : Sys RingDevice (FlatRam 8192) :=
  let s : Sys RingDevice (FlatRam 8192) :=
    { completed with
      dev := { completed.dev with isr := false }
      pc := .rxEnter }
  let s := (((s.atPc (.rx 1)).withDriver (rxUsed s.drv true)).atPc .txEnter).atPc (.tx 1)
  ((s.withDriver (txUsed s.drv)).atPc .idle).closed (request 0 .other)

theorem reaches_served : Reaches sampleStart served := by
  have h₁ := reaches_completed.tail (.interrupt rfl (by decide))
  have h₂ := h₁.tail (.rxEnter rfl)
  have h₃ := h₂.tail (.rxRound true rfl (by decide))
  have h₄ := h₃.tail (.rxDone rfl (by decide))
  have h₅ := h₄.tail (.txEnter rfl)
  have h₆ := h₅.tail (.txRound rfl (by decide))
  have h₇ := h₆.tail (.txDone rfl (by decide))
  exact h₇.tail (.closeDevice (request 0 .other) rfl)

theorem answers_every_request_once_served :
    served.given = [1, 2] ∧ (∀ id, served.answered.count id = served.given.count id) ∧
      (served.onRing .rx).Perm (List.range 2) := by
  have hall := answers_every_request_once (n := 1) (m := 1) sampleInit_eq rfl rfl sample_granted
    reaches_served
  have hserved : served.Served :=
    ⟨by decide, by decide, by decide, rfl, by decide⟩
  obtain ⟨-, -, hstrays⟩ := hall.2.1 hserved (by decide)
  have hnone : served.strays = [] := by decide
  refine ⟨by decide, fun id => hstrays id ?_, hall.2.2.2.2.2⟩
  rw [hnone]
  exact List.not_mem_nil

/-! ### A read queued on the closed unit -/

/-- `Close` leaves the unit configured, so it can be put online again and be given a read. -/
def strayRead : Sys RingDevice (FlatRam 8192) :=
  ((((sampleStart.opened (request 0 .other) 0 true).begun (request 0 .configInterface)).closed
    (request 0 .other)).begun (request 0 .online)).begun (request 1 .read)

/-- The next `Open` drops what is queued. -/
def droppedRead : Sys RingDevice (FlatRam 8192) :=
  ((strayRead.resumed [] (.enqueue { request 1 .read with quick := false }) [] false []).opened
    (request 0 .other) 0 true).closed (request 0 .other)

theorem reaches_strayRead : Reaches sampleStart strayRead := by
  have h₁ : Reaches sampleStart (sampleStart.opened (request 0 .other) 0 true) :=
    .single (.openDevice _ _ _ rfl)
  have h₂ := h₁.tail (.beginIo (request 0 .configInterface) rfl (by decide))
  have h₃ := h₂.tail (.closeDevice (request 0 .other) rfl)
  have h₄ := h₃.tail (.beginIo (request 0 .online) rfl (by decide))
  exact h₄.tail (.beginIo (request 1 .read) rfl (by decide))

theorem reaches_droppedRead : Reaches sampleStart droppedRead := by
  have hcalls : strayRead.calls = [] ++ .enqueue { request 1 .read with quick := false } :: [] :=
    rfl
  have h₁ := reaches_strayRead.tail (.resume false [] rfl hcalls rfl)
  have h₂ := h₁.tail (.openDevice (request 0 .other) 0 true rfl)
  exact h₂.tail (.closeDevice (request 0 .other) rfl)

/-- **A read queued on the closed unit is never answered.** -/
theorem read_on_closed_unit_is_dropped :
    ¬ ∀ s, Reaches sampleStart s → s.Served → s.drv.base.unit0.opencnt = 0 →
      ∀ id, s.answered.count id = s.given.count id := by
  intro h
  have hserved : droppedRead.Served :=
    ⟨by decide, by decide, by decide, rfl, rfl⟩
  have hcount := h droppedRead reaches_droppedRead hserved (by decide) 1
  have hanswered : droppedRead.answered.count 1 = 0 := by decide
  have hgiven : droppedRead.given.count 1 = 1 := by decide
  omega

end VNet

end M68kMachine
