import M68kMachine.Drivers.VirtionetLife
import M68kMachine.Library.EventTrace

/-!
# Memory given back while the device may use it

A queue that was enabled stays with the device until the device status is written zero. The driver
resets the device at the beginning of `DevInit` and never again, so nothing may be given back after
a queue was enabled.

* `NeverEarly` — the property, over the log
* `queueLog_spec`, `vNetDevInit_spec` — the exits of `DevInit`
* `never_early_iff` — the runs that have it
-/

namespace M68kMachine

namespace VNet

open GuestMemory Transition

/-! ## The property -/

/-- Memory freed, or lost with the base. -/
def Event.givesBack : Event → Bool
  | .free _ => true
  | .lost _ => true
  | _ => false

def Event.enables : Event → Bool
  | .enable _ => true
  | _ => false

def Event.resets : Event → Bool
  | .setStatus value => value == 0
  | _ => false

/-- The device was reset since each of its queues was enabled. -/
def ResetSince (log : List Event) : Prop :=
  ∀ before i after, log = before ++ .enable i :: after → .setStatus 0 ∈ after

/-- Whenever memory is given back the device has been reset since its queues were enabled. -/
def NeverEarly (log : List Event) : Prop :=
  ∀ before e after, log = before ++ e :: after → e.givesBack = true → ResetSince before

/-- Whether a queue was enabled since the last reset. -/
abbrev armed : Bool → Event → Bool := gate Event.enables Event.resets

abbrev Kept : Bool → List Event → Prop := Guarded Event.enables Event.resets Event.givesBack

theorem resets_iff {e : Event} : e.resets = true ↔ e = .setStatus 0 := by
  cases e with
  | setStatus value => simp [Event.resets]
  | _ => simp [Event.resets]

variable {log : List Event}

theorem resetSince_iff : ResetSince log ↔ log.foldl armed false = false := by
  rw [gate_free_iff]
  constructor
  · intro h before e after hsplit he
    cases e with
    | enable i => exact ⟨_, h before i after hsplit, rfl⟩
    | _ => cases he
  · intro h before i after hsplit
    obtain ⟨x, hx, hresets⟩ := h before _ after hsplit rfl
    rwa [resets_iff.mp hresets] at hx

theorem neverEarly_iff : NeverEarly log ↔ Kept false log := by
  unfold Kept
  rw [guarded_iff]
  constructor
  · intro h before e after hsplit he
    exact gate_free_iff.mp (resetSince_iff.mp (h before e after hsplit he))
  · intro h before e after hsplit he
    exact resetSince_iff.mpr (gate_free_iff.mpr (h before e after hsplit he))

/-! ## The device -/

/-- What the device makes of a write of `device_status`, `queue_select` or `queue_enable`. -/
def Event.onDevice {ν : Type} (v : VirtioNetStub ν) : Event → VirtioNetStub ν
  | .setStatus value => v.writeDeviceStatus value
  | .enable i =>
    { v with queueSelect := match i with | .rx => 0 | .tx => 1 }.enableQueue 1
  | _ => v

theorem enabled_writeDeviceStatus {ν : Type} (v : VirtioNetStub ν) (value : Byte)
    (i : Fin VirtioNet.numQueues) :
    ((v.writeDeviceStatus value).queues i).enabled =
      if value = 0 then false else (v.queues i).enabled := by
  unfold VirtioNetStub.writeDeviceStatus
  split <;> rfl

/-- **A queue the device has enabled was enabled since the last reset.** -/
theorem disabled_of_resetSince {ν : Type} (h : ResetSince log) (backend : ν)
    (i : Fin VirtioNet.numQueues) :
    ((log.foldl Event.onDevice (VirtioNetStub.new backend)).queues i).enabled = false := by
  have hfrom : ∀ (log : List Event) (full : Bool) (v : VirtioNetStub ν),
      (full = false → (v.queues i).enabled = false) → log.foldl armed full = false →
      ((log.foldl Event.onDevice v).queues i).enabled = false := by
    intro log
    induction log with
    | nil => intro full v hv hfree; exact hv hfree
    | cons e log ih =>
      intro full v hv hfree
      refine ih _ _ (fun hgate => ?_) hfree
      cases e with
      | setStatus value =>
        show ((v.writeDeviceStatus value).queues i).enabled = false
        rw [enabled_writeDeviceStatus]
        split
        · rfl
        · rename_i hne
          exact hv ((by simpa [gate, Event.enables, Event.resets] using hgate : _ → _) hne)
      | enable j => simp [gate, Event.enables] at hgate
      | alloc b => exact hv hgate
      | free b => exact hv hgate
      | lost b => exact hv hgate
  exact hfrom log false _ (fun _ => rfl) (resetSince_iff.mp h)

/-! ## The logs of the start -/

/-- A log that neither writes a status nor gives anything back. -/
def Event.takes : Event → Bool
  | .enable _ => true
  | .alloc _ => true
  | _ => false

theorem takes_spec {e : Event} (h : e.takes = true) : e.givesBack = false ∧ e.resets = false := by
  cases e with
  | enable i => exact ⟨rfl, rfl⟩
  | alloc b => exact ⟨rfl, rfl⟩
  | _ => cases h

theorem takes_setupQueueLog (i : QueueId) (devsize : Word) (dma : Dma) :
    ∀ e ∈ setupQueueLog i devsize dma, e.takes = true := by
  intro e he
  unfold setupQueueLog at he
  split at he
  · cases he
  · rcases List.mem_append.mp he with hin | hin
    · obtain ⟨b, -, rfl⟩ := List.mem_map.mp hin
      rfl
    · split at hin
      · obtain rfl := List.mem_singleton.mp hin
        rfl
      · cases hin

theorem takes_bufLog (devsize : Word) (dma : Dma) : ∀ e ∈ bufLog devsize dma, e.takes = true := by
  intro e he
  obtain ⟨i, -, rfl⟩ := List.mem_map.mp he
  rfl

theorem takes_queueLog (p : Probe) : ∀ e ∈ queueLog p, e.takes = true := by
  intro e he
  unfold queueLog at he
  rcases List.mem_append.mp he with hin | hin
  · exact takes_setupQueueLog _ _ _ e hin
  · split at hin
    · cases hin
    · rcases List.mem_append.mp hin with hin | hin
      · exact takes_setupQueueLog _ _ _ e hin
      · split at hin
        · cases hin
        · rcases List.mem_append.mp hin with hin | hin
          · exact takes_bufLog _ _ e hin
          · split at hin
            · cases hin
            · exact takes_bufLog _ _ e hin

variable {p : Probe}

/-- The receive queue is enabled once its rings are there, and lost if the start fails then. -/
theorem queueLog_ready (h : ringsReady p.rxSize p.rxDma = true) :
    .enable .rx ∈ queueLog p ∧
      .alloc (p.rxDma.desc (queueSize p.rxSize)) ∈ queueLog p := by
  have hready := h
  simp only [ringsReady, Bool.and_eq_true, decide_eq_true_eq] at hready
  obtain ⟨⟨⟨hsize, hdesc⟩, -⟩, -⟩ := hready
  have hsetup : setupQueueLog .rx p.rxSize p.rxDma =
      (p.rxDma.rings (queueSize p.rxSize)).map .alloc ++ [.enable .rx] := by
    unfold setupQueueLog
    rw [if_neg hsize, if_pos h]
  have hmem : p.rxDma.desc (queueSize p.rxSize) ∈ p.rxDma.rings (queueSize p.rxSize) :=
     List.mem_filter.mpr ⟨List.mem_cons_self, decide_eq_true hdesc⟩
  unfold queueLog
  rw [hsetup]
  exact ⟨by simp, List.mem_append_left _ (List.mem_append_left _ (List.mem_map_of_mem hmem))⟩

/-- Before the rings of the receive queue are there nothing is enabled. -/
theorem queueLog_unready (h : ringsReady p.rxSize p.rxDma = false) :
    ∀ e ∈ queueLog p, e.enables = false := by
  intro e he
  have hlog : queueLog p = setupQueueLog .rx p.rxSize p.rxDma := by
    unfold queueLog
    simp [h]
  rw [hlog] at he
  unfold setupQueueLog at he
  split at he
  · cases he
  · rcases List.mem_append.mp he with hin | hin
    · obtain ⟨b, -, rfl⟩ := List.mem_map.mp hin
      rfl
    · rw [if_neg (by simp [h])] at hin
      cases hin

/-- The negotiation takes no memory and enables nothing. -/
theorem negotiate_statuses (p : Probe) : ∀ e ∈ (negotiate p).1, ∃ value, e = .setStatus value := by
  unfold negotiate
  dsimp only
  repeat' split
  all_goals
    simp only [List.cons_append, List.nil_append, List.forall_mem_cons, List.not_mem_nil,
      false_imp_iff, implies_true, Event.setStatus.injEq, exists_eq', and_true]

/-- One that gets to the queues has reset the device. -/
theorem negotiate_resets (h : (negotiate p).2 = true) :
    ∃ rest, (negotiate p).1 = .setStatus 0 :: rest := by
  revert h
  unfold negotiate
  dsimp only
  repeat' split
  all_goals first
    | exact fun h => absurd h Bool.false_ne_true
    | exact fun _ => ⟨_, rfl⟩

/-! ## When the queues come up -/

section

variable {μ : Type} [GuestMemory μ] {devsize : Word} {dma : Dma} {b : Loaded μ}

theorem ringsReady_iff :
    ringsReady devsize dma = true ↔ queueSize devsize ≠ 0 ∧
      ¬(dma.descRaw = 0 ∨ dma.availRaw = 0 ∨ dma.usedRaw = 0) := by
  simp [ringsReady, and_assoc]

theorem setupQueue_ready (h : ringsReady devsize dma = true) (mem : μ) :
    ∃ q mem', setupQueue devsize dma mem = some (q, mem') ∧ q.qsize = queueSize devsize := by
  obtain ⟨hsize, hnull⟩ := ringsReady_iff.mp h
  unfold queueSize at hsize
  unfold setupQueue
  dsimp only
  rw [if_neg hsize, if_neg hnull]
  exact ⟨_, _, rfl, rfl⟩

theorem setupQueue_unready {mem : μ} (h : ringsReady devsize dma = false) :
    setupQueue devsize dma mem = none := by
  have hnot : ¬(queueSize devsize ≠ 0 ∧
      ¬(dma.descRaw = 0 ∨ dma.availRaw = 0 ∨ dma.usedRaw = 0)) := by
    rw [← ringsReady_iff, h]
    simp
  unfold queueSize at hnot
  unfold setupQueue
  dsimp only
  generalize (if devsize < queueCap then devsize else queueCap) = size at hnot ⊢
  by_cases hsize : size = 0
  · rw [if_pos hsize]
  · rw [if_neg hsize, if_pos (by_contra fun hnull => hnot ⟨hsize, hnull⟩)]

theorem bufsReady_iff :
    bufsReady devsize dma = true ↔ ∀ i < (queueSize devsize).toNat, dma.buf i ≠ 0 := by
  simp [bufsReady]

theorem initTxSlots_of {q : VNetQueue} (hsize : q.qsize = queueSize devsize) (dma : Dma) :
    (initTxSlots q dma).isSome = bufsReady devsize dma := by
  rw [Bool.eq_iff_iff, bufsReady_iff, ← hsize]
  unfold initTxSlots
  split
  · rename_i h
    exact ⟨fun _ => h, fun _ => rfl⟩
  · rename_i h
    exact ⟨fun hnone => (nomatch hnone), fun hall => absurd hall h⟩

theorem postRxBuffers_of {q : VNetQueue} (hsize : q.qsize = queueSize devsize) (dma : Dma)
    (mem : μ) : (postRxBuffers q dma mem).isSome = bufsReady devsize dma := by
  rw [Bool.eq_iff_iff, bufsReady_iff, ← hsize]
  unfold postRxBuffers
  split
  · rename_i h
    exact ⟨fun _ => h, fun _ => rfl⟩
  · rename_i h
    exact ⟨fun hnone => (nomatch hnone), fun hall => absurd hall h⟩

/-- What is still needed once the receive rings are there. -/
def Probe.goesOn (p : Probe) : Bool :=
  ringsReady p.txSize p.txDma && bufsReady p.txSize p.txDma && bufsReady p.rxSize p.rxDma

/-- **The queues come up if and only if no ring and no buffer is missing.** -/
theorem devInit_isSome_iff (p : Probe) (mem : μ) :
    (devInit p.rxSize p.txSize p.rxDma p.txDma p.factoryMac mem).isSome =
      (ringsReady p.rxSize p.rxDma && p.goesOn) := by
  unfold devInit Probe.goesOn
  cases hrx : ringsReady p.rxSize p.rxDma with
  | false => simp [setupQueue_unready hrx]
  | true =>
    obtain ⟨rxq, mem₁, hrxq, hrxSize⟩ := setupQueue_ready hrx mem
    cases htx : ringsReady p.txSize p.txDma with
    | false => simp [hrxq, setupQueue_unready htx]
    | true =>
      obtain ⟨txq, mem₂, htxq, htxSize⟩ := setupQueue_ready htx mem₁
      have hslots := initTxSlots_of htxSize p.txDma
      have hbufs := postRxBuffers_of hrxSize p.rxDma mem₂
      simp only [hrxq, htxq, Option.bind_eq_bind, Option.bind_some, Bool.true_and]
      rw [← hslots, ← hbufs]
      cases initTxSlots txq p.txDma with
      | none => rfl
      | some txq' => cases postRxBuffers rxq p.rxDma mem₂ <;> rfl

/-! ## The exits of DevInit -/

/-- The start does not fail once it has enabled the receive queue. -/
def Probe.Clean (p : Probe) : Prop :=
  (negotiate p).2 = true → ringsReady p.rxSize p.rxDma = true →
    p.goesOn = true ∧ p.addIntServer = true

instance (p : Probe) : Decidable p.Clean := inferInstanceAs (Decidable (_ → _ → _))

omit [GuestMemory μ] in
/-- A start that fails with nothing enabled loses its memory in time. -/
theorem kept_failCloseLibs {log : List Event} {full : Bool} (hlog : Kept full log)
    (hfree : log.foldl armed full = false) :
    Kept full (failCloseLibs (α := Loaded μ) log).1 := by
  refine guarded_append.mpr ⟨hlog, ?_⟩
  rw [hfree]
  generalize (log.filterMap Event.allocated) = blocks
  induction blocks with
  | nil => trivial
  | cons b blocks ih => exact ⟨fun _ => rfl, ih⟩

omit [GuestMemory μ] in
/-- With a queue enabled it does not. -/
theorem not_kept_failCloseLibs {log : List Event} {full : Bool} {b : Block}
    (hfull : log.foldl armed full = true) (hb : .alloc b ∈ log) :
    ¬Kept full (failCloseLibs (α := Loaded μ) log).1 := by
  intro h
  obtain ⟨-, hlost⟩ := guarded_append.mp h
  rw [hfull] at hlost
  have hmem : b ∈ log.filterMap Event.allocated := List.mem_filterMap.mpr ⟨_, hb, rfl⟩
  refine not_guarded_of_busy (List.mem_map_of_mem hmem) rfl (fun e he => ?_) hlost
  obtain ⟨b', -, rfl⟩ := List.mem_map.mp he
  rfl

/-- The log of a start that gets to the queues, up to the last of them. -/
theorem queues_spec {p : Probe} (hneg : (negotiate p).2 = true) (full : Bool) :
    Kept full ((negotiate p).1 ++ queueLog p) ∧
      ((negotiate p).1 ++ queueLog p).foldl armed full = ringsReady p.rxSize p.rxDma := by
  obtain ⟨rest, hrest⟩ := negotiate_resets hneg
  have hstatus := negotiate_statuses p
  have hfree : (negotiate p).1.foldl armed full = false := by
    have hgate : armed full (.setStatus 0) = false := rfl
    rw [hrest, List.foldl_cons, hgate]
    refine gate_idle fun e he => ?_
    obtain ⟨value, rfl⟩ := hstatus e (by rw [hrest]; exact List.mem_cons_of_mem _ he)
    rfl
  constructor
  · refine guarded_of_needless (fun e he => ?_) full
    rcases List.mem_append.mp he with hin | hin
    · obtain ⟨value, rfl⟩ := hstatus e hin
      rfl
    · exact (takes_spec (takes_queueLog p e hin)).1
  · rw [List.foldl_append, hfree]
    cases hready : ringsReady p.rxSize p.rxDma with
    | false => exact gate_idle (queueLog_unready hready)
    | true =>
      obtain ⟨before, after, hsplit⟩ := List.append_of_mem (queueLog_ready hready).1
      have hgate : ∀ b, armed b (.enable .rx) = true := fun _ => rfl
      rw [hsplit, List.foldl_append, List.foldl_cons, hgate]
      refine gate_busy fun e he => (takes_spec (takes_queueLog p e ?_)).2
      rw [hsplit]
      exact List.mem_append_right _ (List.mem_cons_of_mem _ he)

omit [GuestMemory μ] in
/-- The exit behind the queues: `STATUS_FAILED`, and the base goes. -/
theorem kept_failed_iff {p : Probe} (hneg : (negotiate p).2 = true)
    (hnot : ringsReady p.rxSize p.rxDma = true → (p.goesOn && p.addIntServer) = false)
    (full : Bool) :
    Kept full (failCloseLibs (α := Loaded μ)
      ((negotiate p).1 ++ queueLog p ++ [Event.setStatus Status.failed])).1 ↔ p.Clean := by
  obtain ⟨hkept, harmed⟩ := queues_spec hneg full
  have harmed' : ((negotiate p).1 ++ queueLog p ++ [Event.setStatus Status.failed]).foldl armed
      full = ringsReady p.rxSize p.rxDma := by
    rw [List.foldl_append, harmed]
    cases ringsReady p.rxSize p.rxDma <;> rfl
  cases hready : ringsReady p.rxSize p.rxDma with
  | false =>
    rw [hready] at harmed'
    refine ⟨fun _ _ h => ?_, fun _ => kept_failCloseLibs ?_ harmed'⟩
    · rw [hready] at h
      cases h
    · exact guarded_append.mpr ⟨hkept, guarded_of_needless (by simp [Event.givesBack]) _⟩
  | true =>
    rw [hready] at harmed'
    constructor
    · intro h
      exact absurd h (not_kept_failCloseLibs harmed'
        (List.mem_append_left _ (List.mem_append_right _ (queueLog_ready hready).2)))
    · intro hclean
      obtain ⟨hgoes, hserver⟩ := hclean hneg hready
      have := hnot hready
      rw [hgoes, hserver] at this
      cases this

omit [GuestMemory μ] in
/-- Before the queues there is nothing to lose. -/
theorem kept_failed_early (p : Probe) (full : Bool) :
    Kept full (failCloseLibs (α := Loaded μ) (negotiate p).1).1 := by
  have hstatus := negotiate_statuses p
  have hnone : (negotiate p).1.filterMap Event.allocated = [] := by
    refine List.filterMap_eq_nil_iff.mpr fun e he => ?_
    obtain ⟨value, rfl⟩ := hstatus e he
    rfl
  refine guarded_of_needless (fun e he => ?_) full
  obtain ⟨value, rfl⟩ := hstatus e (by simpa [failCloseLibs, hnone] using he)
  rfl

/-- **A start keeps to the property if and only if it is clean**; one that succeeds leaves the
queues enabled. -/
theorem vNetDevInit_spec (p : Probe) (mem : μ) (full : Bool) :
    (Kept full (vNetDevInit p mem).1 ↔ p.Clean) ∧
      ∀ b, (vNetDevInit p mem).2 = some b →
        (vNetDevInit p mem).1.foldl armed full = true ∧ b.rxDma.descRaw ≠ 0 := by
  have hsome := devInit_isSome_iff p mem
  unfold vNetDevInit
  dsimp only
  cases hneg : (negotiate p).2 with
  | false =>
    refine ⟨⟨fun _ h => ?_, fun _ => kept_failed_early p full⟩, fun b hb => (nomatch hb)⟩
    rw [hneg] at h
    cases h
  | true =>
    cases hinit : devInit p.rxSize p.txSize p.rxDma p.txDma p.factoryMac mem with
    | none =>
      refine ⟨kept_failed_iff hneg (fun hready => ?_) full, fun b hb => (nomatch hb)⟩
      rw [hinit, hready, Bool.true_and] at hsome
      rw [← hsome]
      rfl
    | some drv =>
      rw [hinit] at hsome
      obtain ⟨hready, hgoes⟩ := Bool.and_eq_true_iff.mp hsome.symm
      cases hserver : p.addIntServer with
      | false =>
        refine ⟨kept_failed_iff hneg (fun _ => ?_) full, fun b hb => (nomatch hb)⟩
        rw [hserver, Bool.and_false]
      | true =>
        obtain ⟨hkept, harmed⟩ := queues_spec hneg full
        refine ⟨⟨fun _ _ _ => ⟨hgoes, hserver⟩, fun _ => ?_⟩, fun b hb => ?_⟩
        · exact guarded_append.mpr ⟨hkept, guarded_of_needless (by simp [Event.givesBack]) _⟩
        · cases hb
          refine ⟨?_, ?_⟩
          · show List.foldl armed full ((negotiate p).1 ++ queueLog p ++ [_]) = true
            rw [List.foldl_append, harmed, hready]
            rfl
          · exact fun hnull => (ringsReady_iff.mp hready).2 (.inl hnull)

/-! ## The exits of Expunge -/

omit [GuestMemory μ] in
/-- **Every expunge that is not put off frees memory of a device with enabled queues.** -/
theorem vNetExpungeInternal_spec (hdesc : b.rxDma.descRaw ≠ 0) :
    (Kept true (vNetExpungeInternal b).1 ↔ b.drv.base.ready = true → b.openCnt ≠ 0) ∧
      ∀ b', (vNetExpungeInternal b).2 = some b' →
        (vNetExpungeInternal b).1 = [] ∧ b'.rxDma = b.rxDma := by
  unfold vNetExpungeInternal
  by_cases hopen : b.openCnt ≠ 0
  · rw [if_pos hopen]
    refine ⟨⟨fun _ _ => hopen, fun _ => trivial⟩, fun b' hb' => ?_⟩
    cases hb'
    exact ⟨rfl, rfl⟩
  · rw [if_neg hopen]
    refine ⟨?_, fun b' hb' => (nomatch hb')⟩
    cases hready : b.drv.base.ready with
    | false => exact ⟨fun _ h => (nomatch h), fun _ => trivial⟩
    | true =>
      refine ⟨fun hkept => ?_, fun h => absurd (h rfl) hopen⟩
      have hmem : Event.free (b.rxDma.desc b.drv.base.rxq.qsize) ∈
          freeQueueDma b.drv.base.rxq.qsize b.rxDma := by
        refine List.mem_map_of_mem (List.mem_append_right _ ?_)
        exact List.mem_filter.mpr ⟨List.mem_cons_self, decide_eq_true hdesc⟩
      have hfrees : ∀ qsize dma, ∀ e ∈ freeQueueDma qsize dma, e.resets = false := by
        intro qsize dma e he
        obtain ⟨b', -, rfl⟩ := List.mem_map.mp he
        rfl
      refine absurd hkept (not_guarded_of_busy (List.mem_append_left _ hmem) rfl fun e he => ?_)
      rcases List.mem_append.mp he with hin | hin
      · exact hfrees _ _ e hin
      · exact hfrees _ _ e hin

/-! ## Runs -/

/-- What a call must not do: fail in `DevInit` with a queue enabled, or end the device's life. -/
def Life.Meets (s : Life μ) (op : LifeOp μ) : Prop :=
  match s.base, op with
  | none, .devInit p _ => p.Clean
  | some b, .expunge => b.drv.base.ready = true → b.openCnt ≠ 0
  | some b, .closeDevice _ => b.drv.base.ready = true → b.delExp = true → b.openCnt ≠ 1
  | _, _ => True

/-- Queues are enabled as long as the device is loaded. -/
def Life.Running (s : Life μ) : Prop :=
  ∀ b, s.base = some b → s.log.foldl armed false = true ∧ b.rxDma.descRaw ≠ 0

omit [GuestMemory μ] in
theorem ready_vNetClose (d : Driver μ) (io : IOSana2Req) :
    (vNetClose d io).base.ready = d.base.ready := by
  unfold vNetClose
  split <;> rfl

omit [GuestMemory μ] in
theorem closeLibrary_spec (hdesc : b.rxDma.descRaw ≠ 0) (io : IOSana2Req) :
    (Kept true (closeLibrary b io).1 ↔
        b.drv.base.ready = true → b.delExp = true → b.openCnt ≠ 1) ∧
      ∀ b', (closeLibrary b io).2 = some b' →
        (closeLibrary b io).1 = [] ∧ b'.rxDma = b.rxDma := by
  have hcount : b.openCnt - 1 = 0 ↔ b.openCnt = 1 := by
    constructor
    · intro h
      have := congrArg (· + 1) h
      simpa using this
    · intro h
      rw [h]
      rfl
  unfold closeLibrary
  dsimp only
  by_cases hlast : b.openCnt - 1 = 0 ∧ b.delExp = true
  · rw [if_pos hlast]
    obtain ⟨hzero, hdel⟩ := hlast
    obtain ⟨hkept, hrest⟩ := vNetExpungeInternal_spec
      (b := { b with drv := vNetClose b.drv io, openCnt := b.openCnt - 1 }) hdesc
    refine ⟨hkept.trans ?_, hrest⟩
    rw [ready_vNetClose]
    exact ⟨fun h hready _ _ => h hready hzero,
      fun h hready _ => h hready hdel (hcount.mp hzero)⟩
  · rw [if_neg hlast]
    refine ⟨⟨fun _ _ hdel hone => hlast ⟨hcount.mpr hone, hdel⟩, fun _ => trivial⟩,
      fun b' hb' => ?_⟩
    cases hb'
    exact ⟨rfl, rfl⟩

/-- What a call on a loaded device says about the log. -/
theorem act_loaded (hdesc : b.rxDma.descRaw ≠ 0) (log : List Event) (op : LifeOp μ) :
    (Kept true (Life.act (some b) op).1 ↔ Life.Meets ⟨some b, log⟩ op) ∧
      ∀ b', (Life.act (some b) op).2 = some b' →
        (Life.act (some b) op).1 = [] ∧ b'.rxDma = b.rxDma := by
  have hquiet : ∀ b' : Loaded μ, b'.rxDma = b.rxDma →
      (Kept true ([] : List Event) ↔ True) ∧ ∀ b'' : Loaded μ, some b' = some b'' →
        ([] : List Event) = [] ∧ b''.rxDma = b.rxDma := by
    intro b' hsame
    refine ⟨Iff.rfl, ?_⟩
    rintro b'' ⟨⟩
    exact ⟨rfl, hsame⟩
  cases op with
  | devInit p mem => exact hquiet b rfl
  | openDevice io unitnum hooks =>
    refine hquiet (openLibrary b io unitnum hooks) ?_
    unfold openLibrary
    dsimp only
    split <;> rfl
  | beginIo io => exact hquiet { b with drv := _ } rfl
  | resume c copied payload => exact hquiet { b with drv := _ } rfl
  | abortIo io => exact hquiet { b with drv := _ } rfl
  | rxUsed copied => exact hquiet { b with drv := _ } rfl
  | txUsed => exact hquiet { b with drv := _ } rfl
  | memory mem => exact hquiet { b with drv := _ } rfl
  | closeDevice io => exact closeLibrary_spec hdesc io
  | expunge => exact vNetExpungeInternal_spec hdesc

/-- **A call keeps to the property if and only if it meets the condition.** -/
theorem act_spec {s : Life μ} (h : s.Running) (op : LifeOp μ) :
    (Kept (s.log.foldl armed false) (Life.act s.base op).1 ↔ s.Meets op) ∧ (s.step op).Running := by
  obtain ⟨base, log⟩ := s
  cases base with
  | some b =>
    obtain ⟨harmed, hdesc⟩ := h b rfl
    obtain ⟨hkept, hrest⟩ := act_loaded hdesc log op
    dsimp only at harmed ⊢
    rw [harmed]
    refine ⟨hkept, fun b' hb' => ?_⟩
    obtain ⟨hnil, hsame⟩ := hrest b' hb'
    show (log ++ (Life.act (some b) op).1).foldl armed false = true ∧ b'.rxDma.descRaw ≠ 0
    rw [hnil, List.append_nil, hsame]
    exact ⟨harmed, hdesc⟩
  | none =>
    cases op with
    | devInit p mem =>
      obtain ⟨hkept, hrest⟩ := vNetDevInit_spec p mem (log.foldl armed false)
      refine ⟨hkept, fun b hb => ?_⟩
      show (log ++ (vNetDevInit p mem).1).foldl armed false = true ∧ b.rxDma.descRaw ≠ 0
      rw [List.foldl_append]
      exact hrest b hb
    | _ => exact ⟨Iff.rfl, fun b hb => (nomatch hb)⟩

omit [GuestMemory μ] in
theorem running_start : (Life.start : Life μ).Running := fun _ h => (nomatch h)

theorem kept_run_iff {s : Life μ} (h : s.Running) (ops : List (LifeOp μ)) :
    Kept false (run Life.step s ops).log ↔ Kept false s.log ∧ Each Life.step Life.Meets s ops := by
  induction ops generalizing s with
  | nil => simp
  | cons op ops ih =>
    obtain ⟨hact, hrunning⟩ := act_spec h op
    have hlog : (s.step op).log = s.log ++ (Life.act s.base op).1 := rfl
    rw [run_cons, each_cons, ih hrunning, hlog, ← hact]
    unfold Kept
    rw [guarded_append, and_assoc]

/-- **The driver never gives memory back while the device may use it, in exactly the runs in which
no `DevInit` fails with a queue enabled and no started device is expunged.** Wherever this holds,
the device has no queue enabled when memory is given back. -/
theorem never_early_iff (ops : List (LifeOp μ)) :
    let log := (run Life.step Life.start ops).log
    (NeverEarly log ↔ Each Life.step Life.Meets Life.start ops) ∧
      (NeverEarly log → ∀ before e after, log = before ++ e :: after → e.givesBack = true →
        ∀ {ν : Type} (backend : ν) i,
          ((before.foldl Event.onDevice (VirtioNetStub.new backend)).queues i).enabled
            = false) := by
  refine ⟨?_, fun h before e after hsplit he _ backend i =>
    disabled_of_resetSince (h before e after hsplit he) backend i⟩
  rw [neverEarly_iff, kept_run_iff running_start]
  exact and_iff_right (a := Kept false []) trivial

end

/-! ### A board that starts -/

/-- One descriptor for each queue. -/
def sampleProbe (addIntServer : Bool) : Probe where
  prometheus := true
  utility := true
  board := true
  memaddr0 := 0x40000000
  caps := true
  resetStatus := fun _ => 0
  featDev0 := 0x20
  featDev1 := 1
  statusReadback := 0x0B
  rxSize := 1
  txSize := 1
  rxDma := ⟨0x100, 0x200, 0x300, fun _ => 0x400⟩
  txDma := ⟨0xB00, 0xC00, 0xD00, fun _ => 0xE00⟩
  factoryMac := []
  addIntServer := addIntServer

def sampleRam : FlatRam 8192 := ⟨fun _ => 0⟩

/-- The log of a start, up to its last step. -/
def sampleLog : List Event :=
  [.setStatus 0, .setStatus 1, .setStatus 3, .setStatus 0x0B, .alloc ⟨0x100, 31⟩,
    .alloc ⟨0x200, 7⟩, .alloc ⟨0x300, 15⟩, .enable .rx, .alloc ⟨0xB00, 31⟩, .alloc ⟨0xC00, 7⟩,
    .alloc ⟨0xD00, 15⟩, .enable .tx, .alloc ⟨0xE00, 1540⟩, .alloc ⟨0x400, 1540⟩]

theorem not_resetSince_sampleLog (value : Byte) (h : value ≠ 0) :
    ¬ResetSince (sampleLog ++ [.setStatus value]) := by
  intro hreset
  have hmem := hreset (sampleLog.take 7) .rx (sampleLog.drop 8 ++ [.setStatus value]) rfl
  have hzero : 0 = value := by simpa [sampleLog] using hmem
  exact h hzero.symm

/-- **An expunge frees the rings under a running device, and a failed `DevInit` leaves them to
it.** -/
theorem freed_while_enabled :
    ¬NeverEarly (run Life.step Life.start [.devInit (sampleProbe true) sampleRam, .expunge]).log ∧
      ¬NeverEarly (run Life.step Life.start [.devInit (sampleProbe false) sampleRam]).log := by
  constructor
  · intro h
    exact not_resetSince_sampleLog 0x0F (by decide) (h _ (.free ⟨0x400, 1540⟩) _ rfl rfl)
  · intro h
    exact not_resetSince_sampleLog 0x80 (by decide) (h _ (.lost ⟨0x100, 31⟩) _ rfl rfl)

end VNet

end M68kMachine
