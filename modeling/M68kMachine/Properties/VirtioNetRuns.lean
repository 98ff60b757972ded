import M68kMachine.Cards.VirtioNet
import Mathlib.Logic.Relation

/-!
# Runs of the virtio network device

Register accesses of any width, arbitrary changes to guest memory, and ticks, in any order. Two
promises of the device are about such runs, and the register file breaks both in one corner.

* `stays_closed_until_reset` — `DEVICE_NEEDS_RESET` stops both engines, as long as it is kept
* `reopened_without_reset` — a status write without the bit starts them again
* `rings_run_after_negotiation` — nothing moves before `DRIVER_OK`, as long as no tick finds work
* `rings_run_before_negotiation` — a tick that finds work serves the ring
-/

namespace M68kMachine

namespace VirtioNetStub

open VirtioNet

variable {ν μ : Type} {rel : Nat} {I : VirtioNetStub ν → Prop} {v w : VirtioNetStub ν}

/-! ## Operations and runs -/

/-- What can happen to the device and the memory it works on. -/
inductive Op (μ : Type)
  | barRead (bar : Nat) (offset : Quad) (width : AccessWidth)
  | barWrite (bar : Nat) (offset : Quad) (width : AccessWidth) (value : Long)
  | guest (mem : μ)
  | tick

/-- The device and guest memory. -/
abbrev Machine (ν μ : Type) := VirtioNetStub ν × μ

section Runs

variable [NetBackend ν] [GuestMemory μ]

/-- One operation, with at most `fuel` rounds in each engine of a tick. -/
def apply (fuel : Nat) (s : Machine ν μ) : Op μ → Option (Machine ν μ)
  | .barRead bar offset width => some ((s.1.barRead bar offset width).2, s.2)
  | .barWrite bar offset width value => some (s.1.barWrite bar offset width value, s.2)
  | .guest mem => some (s.1, mem)
  | .tick => tick fuel s

/-- The operation completes, in state `t`. -/
def Step (s : Machine ν μ) (op : Op μ) (t : Machine ν μ) : Prop :=
  ∃ fuel, apply fuel s op = some t

/-- Runs of any length whose every operation meets `P` in the state it is applied to. -/
def RunOf (P : Machine ν μ → Op μ → Prop) : Machine ν μ → Machine ν μ → Prop :=
  Relation.ReflTransGen fun s t => ∃ op, P s op ∧ Step s op t

/-- The operations of a list, one after the other. -/
def applyAll (fuel : Nat) (s : Machine ν μ) (ops : List (Op μ)) : Option (Machine ν μ) :=
  ops.foldlM (apply fuel) s

theorem runOf_of_applyAll {P : Op μ → Prop} {fuel : Nat} {ops : List (Op μ)}
    (hops : ∀ op ∈ ops, P op) {s t : Machine ν μ} (h : applyAll fuel s ops = some t) :
    RunOf (fun _ => P) s t := by
  induction ops generalizing s with
  | nil =>
    cases h
    exact .refl
  | cons op ops ih =>
    rw [applyAll, List.foldlM_cons, Option.bind_eq_bind, Option.bind_eq_some_iff] at h
    obtain ⟨u, hu, ht⟩ := h
    have hrest := ih (fun op' hop' => hops op' (List.mem_cons_of_mem op hop')) ht
    exact Relation.ReflTransGen.head ⟨op, hops op List.mem_cons_self, fuel, hu⟩ hrest

/-- **What every operation preserves holds along every run.** -/
theorem RunOf.invariant {P : Machine ν μ → Op μ → Prop} {I : Machine ν μ → Prop}
    (hstep : ∀ s op t, I s → P s op → Step s op t → I t) {s t : Machine ν μ}
    (h : RunOf P s t) (hs : I s) : I t := by
  induction h with
  | refl => exact hs
  | tail _ hlast ih =>
    obtain ⟨op, hop, hst⟩ := hlast
    exact hstep _ op _ ih hop hst

end Runs

/-! ## The status byte -/

/-- The byte an operation writes to `device_status`, if it covers that register. -/
def statusWrite : Op μ → Option Byte
  | .barWrite bar offset width value =>
    let rel := (offset.setWidth 32 : Long).toNat
    if bar = 0 ∧ rel ≤ CommonOff.deviceStatus ∧ CommonOff.deviceStatus < rel + width.bytes then
      some ((value >>> (8 * (CommonOff.deviceStatus - rel))).setWidth 8)
    else none
  | _ => none

/-- A `DRIVER_OK` that the device refuses, as the driver has not completed `FEATURES_OK`. -/
def RefusesDriverOk (v : VirtioNetStub ν) (value : Byte) : Prop :=
  value &&& StatusBits.driverOk ≠ 0 ∧ v.acceptedFeaturesOk value &&& StatusBits.featuresOk = 0

/-- A status byte that is written has `DEVICE_NEEDS_RESET` set, or is a refused `DRIVER_OK`. -/
def KeepsLatch (v : VirtioNetStub ν) (op : Op μ) : Prop :=
  ∀ b, statusWrite op = some b →
    b &&& StatusBits.deviceNeedsReset ≠ 0 ∨ v.RefusesDriverOk b

/-- What a byte written outside `device_status` can do. -/
inductive ByteEffect (v : VirtioNetStub ν) (byte : Byte) : VirtioNetStub ν → Prop
  | discarded : ByteEffect v byte v
  | select (deviceFeature driverFeature : Long) (queue : Word) :
      ByteEffect v byte
        { v with
          deviceFeatureSelect := deviceFeature
          driverFeatureSelect := driverFeature
          queueSelect := queue }
  | feature (lane : Nat) : ByteEffect v byte (v.mergeDriverFeatureByte lane byte)
  | configure (f : VirtQueueState → VirtQueueState)
      (hf : ∀ q, (f q).enabled = q.enabled ∧ (f q).lastAvailIdx = q.lastAvailIdx ∧
        (f q).usedIdx = q.usedIdx) : ByteEffect v byte (v.configureQueue f)
  | enable : ByteEffect v byte (v.enableQueue byte)

theorem commonWriteByte_status (v : VirtioNetStub ν) (byte : Byte) :
    v.commonWriteByte CommonOff.deviceStatus byte = v.writeDeviceStatus byte := rfl

theorem commonWriteByte_effect (v : VirtioNetStub ν) (byte : Byte)
    (h : rel ≠ CommonOff.deviceStatus) : ByteEffect v byte (v.commonWriteByte rel byte) := by
  -- The tests of the register map in order, each with what its arm does.
  have keep : ∀ q : VirtQueueState, q.enabled = q.enabled ∧ q.lastAvailIdx = q.lastAvailIdx ∧
      q.usedIdx = q.usedIdx := fun _ => ⟨rfl, rfl, rfl⟩
  refine iteInduction (fun _ => .select _ _ _) fun _ => ?_
  refine iteInduction (fun _ => .discarded) fun _ => ?_
  refine iteInduction (fun _ => .select _ _ _) fun _ => ?_
  refine iteInduction (fun _ => .feature _) fun _ => ?_
  refine iteInduction (fun _ => .discarded) fun _ => ?_
  refine iteInduction (fun hrel => absurd hrel h) fun _ => ?_
  refine iteInduction (fun _ => .discarded) fun _ => ?_
  refine iteInduction (fun _ => .select _ _ _) fun _ => ?_
  refine iteInduction (fun _ => .configure _ keep) fun _ => ?_
  refine iteInduction (fun _ => .discarded) fun _ => ?_
  refine iteInduction (fun _ => iteInduction (fun _ => .enable) fun _ => .discarded) fun _ => ?_
  refine iteInduction (fun _ => .discarded) fun _ => ?_
  refine iteInduction (fun _ => .configure _ keep) fun _ => ?_
  refine iteInduction (fun _ => .configure _ keep) fun _ => ?_
  exact iteInduction (fun _ => .configure _ keep) fun _ => .discarded

/-- The lanes of a write that leave `device_status` alone. -/
theorem lanes_invariant (heffect : ∀ v byte v', I v → ByteEffect v byte v' → I v') (value : Long)
    {lanes : List Nat} (h : ∀ lane ∈ lanes, rel + lane ≠ CommonOff.deviceStatus) (hv : I v) :
    I (lanes.foldl
      (fun v lane => v.commonWriteByte (rel + lane) ((value >>> (8 * lane)).setWidth 8)) v) := by
  induction lanes generalizing v with
  | nil => exact hv
  | cons lane lanes ih =>
    refine ih (fun l hl => h l (List.mem_cons_of_mem lane hl)) ?_
    exact heffect v _ _ hv (commonWriteByte_effect v _ (h lane List.mem_cons_self))

/-- The three bytes below `device_status` are read-only. -/
theorem commonWriteByte_below (byte : Byte) (h : 0x11 ≤ rel ∧ rel < 0x14) :
    v.commonWriteByte rel byte = v := by
  unfold commonWriteByte
  rw [if_neg (by omega), if_neg (by omega), if_neg (by omega), if_neg (by omega),
    if_pos (by omega)]

theorem bytes_le (width : AccessWidth) : width.bytes ≤ 4 := by
  cases width <;> decide

/-- A write covering `device_status` writes that to the device as it was. -/
theorem commonCfgWrite_status_invariant (heffect : ∀ v byte v', I v → ByteEffect v byte v' → I v')
    {width : AccessWidth} (value : Long) (hlo : rel ≤ CommonOff.deviceStatus)
    (hhi : CommonOff.deviceStatus < rel + width.bytes)
    (hv : I (v.writeDeviceStatus ((value >>> (8 * (CommonOff.deviceStatus - rel))).setWidth 8))) :
    I (v.commonCfgWrite rel width value) := by
  obtain ⟨k, hk⟩ : ∃ k, rel + k = CommonOff.deviceStatus :=
    ⟨CommonOff.deviceStatus - rel, Nat.add_sub_of_le hlo⟩
  obtain ⟨r, hr⟩ : ∃ r, width.bytes = k + (1 + r) := ⟨width.bytes - k - 1, by omega⟩
  have hbytes := bytes_le width
  have hsub : CommonOff.deviceStatus - rel = k := by omega
  have hbelow : ∀ lanes : List Nat, (∀ lane ∈ lanes, lane < k) →
      lanes.foldl
        (fun v lane => v.commonWriteByte (rel + lane) ((value >>> (8 * lane)).setWidth 8)) v =
          v := by
    intro lanes
    induction lanes with
    | nil => intro _; rfl
    | cons lane lanes ih =>
      intro hl
      have hlane := hl lane List.mem_cons_self
      simp only [CommonOff.deviceStatus] at hk
      rw [List.foldl_cons, commonWriteByte_below _ (by omega)]
      exact ih fun l hmem => hl l (List.mem_cons_of_mem lane hmem)
  unfold commonCfgWrite
  rw [hr, List.range_add, List.foldl_append, hbelow _ fun lane h => List.mem_range.mp h,
    List.range_add, List.map_append, List.foldl_append]
  refine lanes_invariant heffect value ?_ ?_
  · intro lane hlane
    simp only [List.mem_map, List.mem_range] at hlane
    omega
  · change I (v.commonWriteByte (rel + (k + 0)) _)
    rw [Nat.add_zero, hk, commonWriteByte_status]
    rwa [hsub] at hv

/-- **A register write of any width** keeps what every other byte preserves, from its status byte
on. -/
theorem barWrite_invariant (heffect : ∀ v byte v', I v → ByteEffect v byte v' → I v') {bar : Nat}
    {offset : Quad} {width : AccessWidth} {value : Long}
    (hsome : ∀ b, statusWrite (.barWrite bar offset width value : Op μ) = some b →
      I (v.writeDeviceStatus b))
    (hnone : statusWrite (.barWrite bar offset width value : Op μ) = none → I v) :
    I (v.barWrite bar offset width value) := by
  unfold statusWrite at hsome hnone
  simp only at hsome hnone
  unfold barWrite bar0Write
  simp only
  generalize (BitVec.setWidth 32 offset).toNat = rel at hsome hnone
  by_cases hcov : bar = 0 ∧ rel ≤ CommonOff.deviceStatus ∧
      CommonOff.deviceStatus < rel + width.bytes
  · rw [if_pos hcov] at hsome
    rw [if_pos hcov.1, if_pos (Nat.lt_of_le_of_lt hcov.2.1 (by decide))]
    exact commonCfgWrite_status_invariant heffect value hcov.2.1 hcov.2.2 (hsome _ rfl)
  · rw [if_neg hcov] at hnone
    refine iteInduction (fun hbar => iteInduction (fun _ => ?_) fun _ => hnone rfl)
      fun _ => hnone rfl
    refine lanes_invariant heffect value ?_ (hnone rfl)
    intro lane hlane
    have := List.mem_range.mp hlane
    omega

/-! ## The latch -/

theorem ByteEffect.deviceStatus {v v' : VirtioNetStub ν} {byte : Byte}
    (h : ByteEffect v byte v') : v'.deviceStatus = v.deviceStatus := by
  have hconf (f : VirtQueueState → VirtQueueState) :
      (v.configureQueue f).deviceStatus = v.deviceStatus := by
    unfold configureQueue setQueue
    split
    · split <;> rfl
    · rfl
  cases h with
  | discarded => rfl
  | select => rfl
  | feature lane =>
    unfold mergeDriverFeatureByte
    split
    · rfl
    · split <;> rfl
  | configure f _ => exact hconf f
  | enable =>
    unfold enableQueue
    split
    · exact hconf _
    · rfl

/-- **The status after a register write** is the one the covered byte requests, if any. -/
theorem deviceStatus_barWrite (v : VirtioNetStub ν) (bar : Nat) (offset : Quad)
    (width : AccessWidth) (value : Long) :
    (v.barWrite bar offset width value).deviceStatus =
      match statusWrite (.barWrite bar offset width value : Op μ) with
      | some b => (v.writeDeviceStatus b).deviceStatus
      | none => v.deviceStatus := by
  refine barWrite_invariant (μ := μ) (I := fun w => w.deviceStatus = _)
    (fun w byte w' hw he => he.deviceStatus.trans hw) ?_ ?_
  · intro b hb
    rw [hb]
  · intro hn
    rw [hn]

/-- Bit 6 after a nonzero status write: it was in the byte, or `DRIVER_OK` was refused. -/
theorem needsReset_writeDeviceStatus {b : Byte} (hb : b ≠ 0) :
    (v.writeDeviceStatus b).needsReset = true ↔
      b &&& StatusBits.deviceNeedsReset ≠ 0 ∨ v.RefusesDriverOk b := by
  have hkeep : v.acceptedFeaturesOk b &&& StatusBits.deviceNeedsReset =
        b &&& StatusBits.deviceNeedsReset ∧
      v.acceptedFeaturesOk b &&& StatusBits.driverOk = b &&& StatusBits.driverOk := by
    have hstrip : ∀ c : Byte,
        c &&& ~~~StatusBits.featuresOk &&& StatusBits.deviceNeedsReset =
            c &&& StatusBits.deviceNeedsReset ∧
          c &&& ~~~StatusBits.featuresOk &&& StatusBits.driverOk = c &&& StatusBits.driverOk := by
      decide
    unfold acceptedFeaturesOk
    split
    · exact hstrip b
    · exact ⟨rfl, rfl⟩
  have hrefuse : ∀ c : Byte, refuseDriverOk c &&& StatusBits.deviceNeedsReset ≠ 0 ↔
      c &&& StatusBits.deviceNeedsReset ≠ 0 ∨
        c &&& StatusBits.driverOk ≠ 0 ∧ c &&& StatusBits.featuresOk = 0 := by decide
  unfold RefusesDriverOk
  rw [needsReset, writeDeviceStatus, if_neg hb, bne_iff_ne, hrefuse, hkeep.1, hkeep.2]

theorem needsReset_failClosed (v : VirtioNetStub ν) : v.failClosed.needsReset = true := by
  have hset : ∀ b : Byte,
      (b ||| StatusBits.deviceNeedsReset) &&& StatusBits.deviceNeedsReset ≠ 0 := by decide
  rw [needsReset, bne_iff_ne]
  exact hset v.deviceStatus

section Latch

variable [NetBackend ν] [GuestMemory μ] {s : Machine ν μ}

theorem processTx_of_needsReset (h : s.1.needsReset = true) (fuel : Nat) :
    processTx fuel s = some s := by
  rw [processTx, h]
  rfl

theorem processRx_of_needsReset (h : s.1.needsReset = true) (fuel : Nat) :
    processRx fuel s = some s := by
  rw [processRx, h]
  rfl

/-- A tick of a latched device does nothing at all. -/
theorem tick_of_needsReset (h : s.1.needsReset = true) (fuel : Nat) : tick fuel s = some s := by
  rw [tick, processTx_of_needsReset h, Option.bind_some, processRx_of_needsReset h]

/-- **One operation of a latched device**: without a reset the latch survives exactly when the
status byte keeps it. -/
theorem needsReset_step {t : Machine ν μ} {op : Op μ} (hs : s.1.needsReset = true)
    (hreset : statusWrite op ≠ some 0) (h : Step s op t) :
    t.1.needsReset = true ↔ KeepsLatch s.1 op := by
  obtain ⟨fuel, h⟩ := h
  cases op with
  | barRead bar offset width =>
    cases h
    have hread : (s.1.barRead bar offset width).2.deviceStatus = s.1.deviceStatus := by
      unfold barRead bar0Read
      exact iteInduction (motive := fun r : Long × VirtioNetStub ν =>
          r.2.deviceStatus = s.1.deviceStatus)
        (fun _ => by simp only; split_ifs <;> rfl) fun _ => rfl
    refine iff_of_true ?_ fun b hb => by cases hb
    unfold needsReset at hs ⊢
    simpa only [hread] using hs
  | guest mem =>
    cases h
    exact iff_of_true hs fun b hb => by cases hb
  | tick =>
    rw [apply, tick_of_needsReset hs] at h
    cases h
    exact iff_of_true hs fun b hb => by cases hb
  | barWrite bar offset width value =>
    cases h
    have hst := deviceStatus_barWrite (μ := μ) s.1 bar offset width value
    cases hw : statusWrite (.barWrite bar offset width value : Op μ) with
    | none =>
      rw [hw] at hst
      refine iff_of_true ?_ fun b hb => by rw [hw] at hb; cases hb
      unfold needsReset at hs ⊢
      simpa only [hst] using hs
    | some b =>
      rw [hw] at hst hreset
      have hb : b ≠ 0 := fun h => hreset (by rw [h])
      have hiff : KeepsLatch s.1 (.barWrite bar offset width value : Op μ) ↔
          b &&& StatusBits.deviceNeedsReset ≠ 0 ∨ s.1.RefusesDriverOk b := by
        unfold KeepsLatch
        rw [hw]
        exact ⟨fun hall => hall b rfl, fun h b' hb' => by cases hb'; exact h⟩
      rw [hiff, ← needsReset_writeDeviceStatus hb]
      unfold needsReset
      simp only [hst]

/-- **Closed until reset.** From a device that failed closed, along every run without a reset whose
status bytes keep the latch, it stays latched, and its engines and ticks change nothing; an
operation that does not keep the latch opens it again without a reset. -/
theorem stays_closed_until_reset {s t : Machine ν μ} (hs : s.1.needsReset = true)
    (hrun : RunOf (fun u op => statusWrite op ≠ some 0 ∧ KeepsLatch u.1 op) s t) :
    t.1.needsReset = true ∧
      (∀ fuel, processTx fuel t = some t ∧ processRx fuel t = some t ∧ tick fuel t = some t) ∧
      ∀ op u, statusWrite op ≠ some 0 → Step t op u →
        (u.1.needsReset = true ↔ KeepsLatch t.1 op) := by
  have ht : t.1.needsReset = true :=
    hrun.invariant (I := fun u => u.1.needsReset = true)
      (fun u op w hu hop hstep => (needsReset_step hu hop.1 hstep).mpr hop.2) hs
  refine ⟨ht, ?_, fun op u hop hstep => needsReset_step ht hop hstep⟩
  intro fuel
  exact ⟨processTx_of_needsReset ht fuel, processRx_of_needsReset ht fuel,
    tick_of_needsReset ht fuel⟩

end Latch

/-! ### A concrete device -/

/-- The backend that records what is transmitted and hands back queued frames. -/
structure LoopbackNetBackend where
  transmitted : List (List Byte)
  toInject : List (List Byte)

instance : NetBackend LoopbackNetBackend where
  transmit b frame := { b with transmitted := b.transmitted ++ [frame] }
  pollReceive b buf :=
    match b.toInject with
    | [] => (none, buf, b)
    | frame :: rest =>
      (some frame.length,
        if h : 0 + frame.length ≤ maxEthPayload then buf.put ⟨0, frame.length, h⟩ frame else buf,
        { b with toInject := rest })

/-- One transmit chain of 14 bytes: table at 0, avail ring at 0x10, used ring at 0x18, buffer at
0x28. -/
def sampleRam (availIdx usedIdx : Byte) : FlatRam 64 where
  bytes i :=
    [0x28, 0, 0, 0, 0, 0, 0, 0, 14, 0, 0, 0, 0, 0, 0, 0,
      0, 0, availIdx, 0, 0, 0, 0, 0, 0, 0, usedIdx, 0, 0, 0, 0, 0, 0, 0, 0, 0, 0, 0, 0, 0,
      0, 0, 0, 0, 0, 0, 0, 0, 0, 0, 0, 0, 0xAB, 0xCD].getD i.val (0 : Byte)

/-- A driver that acks `VIRTIO_F_VERSION_1` and walks the status byte to `DRIVER_OK`. -/
def negotiate : List (Op μ) :=
  [.barWrite 0 0x14 .w8 1, .barWrite 0 0x14 .w8 3, .barWrite 0 0x08 .w32 1,
    .barWrite 0 0x0C .w32 1, .barWrite 0 0x14 .w8 0x0B, .barWrite 0 0x14 .w8 0x0F]

/-- Select a queue, lay it out and enable it. -/
def configureQueueOps (qidx size desc avail used : Long) : List (Op μ) :=
  [.barWrite 0 0x16 .w16 qidx, .barWrite 0 0x18 .w16 size, .barWrite 0 0x20 .w32 desc,
    .barWrite 0 0x28 .w32 avail, .barWrite 0 0x30 .w32 used, .barWrite 0 0x1C .w16 1]

/-- A device that has failed closed and is written `0x4F` stays closed. -/
theorem stays_closed_after_status_write :
    ∃ t : Machine LoopbackNetBackend (FlatRam 64),
      apply 2 ((new ⟨[], []⟩).failClosed, sampleRam 1 0) (.barWrite 0 0x14 .w8 0x4F) = some t ∧
        ∀ fuel, tick fuel t = some t := by
  refine ⟨_, rfl, fun fuel => ?_⟩
  have hkeep : KeepsLatch (new (ν := LoopbackNetBackend) ⟨[], []⟩).failClosed
      (.barWrite 0 0x14 .w8 0x4F : Op (FlatRam 64)) := by
    intro b hb
    cases hb
    exact .inl (by decide)
  have hclosed := stays_closed_until_reset
    (s := ((new (ν := LoopbackNetBackend) ⟨[], []⟩).failClosed, sampleRam 1 0))
    (needsReset_failClosed _) (.single ⟨.barWrite 0 0x14 .w8 0x4F, ⟨by decide, hkeep⟩, 2, rfl⟩)
  exact (hclosed.2.1 fuel).2.2

/-- **Reopened without a reset**: failed closed by a receive ring outside RAM, the device transmits
after `0x0F` is written to `device_status`. -/
theorem reopened_without_reset :
    ¬ ∀ s t u : Machine LoopbackNetBackend (FlatRam 64),
      RunOf (fun _ _ => True) (new ⟨[], []⟩, sampleRam 0 0) s → s.1.needsReset = true →
      RunOf (fun _ op => statusWrite op ≠ some 0) s t → Step t .tick u →
      u.1.backend.transmitted = t.1.backend.transmitted := by
  intro hclaim
  have hrun :
      ((applyAll 2 (new (ν := LoopbackNetBackend) ⟨[], []⟩, sampleRam 0 0)
          (negotiate ++ configureQueueOps 1 1 0 0x10 0x18 ++
            configureQueueOps 0 1 0 0x1000 0x18 ++ [.tick])).bind fun s =>
        (applyAll 2 s [.barWrite 0 0x14 .w8 0x0F, .guest (sampleRam 1 0)]).bind fun t =>
          (tick 2 t).map fun u =>
            (s.1.needsReset, t.1.backend.transmitted, u.1.backend.transmitted)) =
      some (true, [], [[0xAB, 0xCD]]) := by decide +kernel
  obtain ⟨s, hs, hrun⟩ := Option.bind_eq_some_iff.mp hrun
  obtain ⟨t, ht, hrun⟩ := Option.bind_eq_some_iff.mp hrun
  obtain ⟨u, hu, hrun⟩ := Option.map_eq_some_iff.mp hrun
  simp only [Prod.mk.injEq] at hrun
  obtain ⟨hlatched, hbefore, hafter⟩ := hrun
  have hsame := hclaim s t u (runOf_of_applyAll (fun _ _ => trivial) hs) hlatched
    (runOf_of_applyAll (by decide) ht) ⟨2, hu⟩
  rw [hbefore, hafter] at hsame
  cases hsame

/-! ## Negotiation -/

/-- `DRIVER_OK` and `FEATURES_OK` are set and `VIRTIO_F_VERSION_1` was acked. -/
def Negotiated (v : VirtioNetStub ν) : Prop :=
  v.deviceStatus &&& StatusBits.driverOk ≠ 0 ∧ v.deviceStatus &&& StatusBits.featuresOk ≠ 0 ∧
    v.ackedFeatures &&& fVersion1 ≠ 0

/-- `DRIVER_OK` stands only on `FEATURES_OK`, and that only on `VIRTIO_F_VERSION_1`. -/
structure Coherent (v : VirtioNetStub ν) : Prop where
  driverOk : v.deviceStatus &&& StatusBits.driverOk ≠ 0 →
    v.deviceStatus &&& StatusBits.featuresOk ≠ 0
  featuresOk : v.deviceStatus &&& StatusBits.featuresOk ≠ 0 → v.ackedFeatures &&& fVersion1 ≠ 0

/-- Nothing is claimed about a device whose status is zero. -/
theorem Coherent.of_status_zero (h : v.deviceStatus = 0) : Coherent v := by
  constructor
  · intro hd
    rw [h] at hd
    exact absurd BitVec.zero_and hd
  · intro hf
    rw [h] at hf
    exact absurd BitVec.zero_and hf

/-- The negotiated state is the same, up to a device that has failed closed. -/
structure SameNegotiation (v v' : VirtioNetStub ν) : Prop where
  ackedFeatures : v'.ackedFeatures = v.ackedFeatures
  driverOk : v'.deviceStatus &&& StatusBits.driverOk = v.deviceStatus &&& StatusBits.driverOk
  featuresOk :
    v'.deviceStatus &&& StatusBits.featuresOk = v.deviceStatus &&& StatusBits.featuresOk

theorem SameNegotiation.of_eq {v' : VirtioNetStub ν} (ha : v'.ackedFeatures = v.ackedFeatures)
    (hs : v'.deviceStatus = v.deviceStatus) : SameNegotiation v v' :=
  ⟨ha, by rw [hs], by rw [hs]⟩

theorem SameNegotiation.trans {u v w : VirtioNetStub ν} (h : SameNegotiation u v)
    (h' : SameNegotiation v w) : SameNegotiation u w :=
  ⟨h'.ackedFeatures.trans h.ackedFeatures, h'.driverOk.trans h.driverOk,
    h'.featuresOk.trans h.featuresOk⟩

theorem SameNegotiation.failClosed (h : SameNegotiation v w) : SameNegotiation v w.failClosed := by
  have hbits : ∀ b : Byte,
      (b ||| StatusBits.deviceNeedsReset) &&& StatusBits.driverOk = b &&& StatusBits.driverOk ∧
        (b ||| StatusBits.deviceNeedsReset) &&& StatusBits.featuresOk =
          b &&& StatusBits.featuresOk := by decide
  exact h.trans ⟨rfl, (hbits _).1, (hbits _).2⟩

theorem SameNegotiation.negotiated (h : SameNegotiation v w) (hv : Negotiated v) :
    Negotiated w := by
  obtain ⟨hd, hf, ha⟩ := hv
  refine ⟨?_, ?_, ?_⟩
  · rw [h.driverOk]; exact hd
  · rw [h.featuresOk]; exact hf
  · rw [h.ackedFeatures]; exact ha

theorem SameNegotiation.coherent (h : SameNegotiation v w) (hv : Coherent v) : Coherent w := by
  constructor
  · rw [h.driverOk, h.featuresOk]
    exact hv.driverOk
  · rw [h.featuresOk, h.ackedFeatures]
    exact hv.featuresOk

section Negotiation

variable [NetBackend ν] [GuestMemory μ] {s : Machine ν μ} {fuel : Nat} {t : Machine ν μ}

omit [NetBackend ν] in
theorem completeUsed_same (v : VirtioNetStub ν) (mem : μ) (i : Fin numQueues) (descId : Word)
    (len : Long) : SameNegotiation v (completeUsed v mem i descId len).2.1 := by
  unfold completeUsed
  simp only
  repeat' split
  all_goals exact .of_eq rfl rfl

theorem txConsume_same (v : VirtioNetStub ν) (mem : μ) (descAddr : Quad) (size head : Word) :
    SameNegotiation v (v.txConsume mem descAddr size head).2.1 := by
  unfold txConsume
  obtain ⟨w, len, hw⟩ : ∃ w len, v.copyChainOut mem descAddr size head = (w, len) := ⟨_, _, rfl⟩
  have hvw : SameNegotiation v w := by
    unfold copyChainOut at hw
    cases hw
    exact .of_eq rfl rfl
  have hsend (len : Nat) : SameNegotiation v (w.sendTx len) := hvw.trans (.of_eq rfl rfl)
  have hdrop : SameNegotiation v w.dropTx := hvw.trans (.of_eq rfl rfl)
  rw [hw]
  cases len with
  | none => exact hdrop.trans (completeUsed_same w.dropTx mem queueTx head 0)
  | some len =>
    exact iteInduction
      (motive := fun r : Bool × VirtioNetStub ν × μ => SameNegotiation v r.2.1)
      (fun _ => (hsend len).trans (completeUsed_same _ _ _ _ _))
      fun _ => hdrop.trans (completeUsed_same _ _ _ _ _)

theorem txBody_same (s : Machine ν μ) : SameNegotiation s.1 (txBody s).state.1 := by
  obtain ⟨v, mem⟩ := s
  have hsame : SameNegotiation v v := .of_eq rfl rfl
  unfold txBody
  simp only
  split
  · exact hsame.failClosed
  · split
    · exact hsame
    · split
      · exact hsame.failClosed
      · rename_i descHead _
        have hconsume := txConsume_same v mem (v.queues queueTx).descAddr
          (v.effectiveQueueSize queueTx) descHead
        split
        · rename_i heq
          rw [heq] at hconsume
          exact hconsume.trans (.of_eq rfl rfl)
        · rename_i heq
          rw [heq] at hconsume
          exact hconsume.failClosed

omit [NetBackend ν] in
theorem rxDeliver_same (v : VirtioNetStub ν) (mem : μ) (descHead : Word) (d : Desc)
    (frameLen : Nat) : SameNegotiation v (v.rxDeliver mem descHead d frameLen).2.1 := by
  unfold rxDeliver
  simp only
  split
  · rename_i hfits
    have hstaged : SameNegotiation v (v.stageRx frameLen hfits.2.2.2) := .of_eq rfl rfl
    split
    · exact hstaged
    · exact hstaged.trans (completeUsed_same _ _ _ _ _)
  · exact .of_eq rfl rfl

theorem rxBody_same (s : Machine ν μ) : SameNegotiation s.1 (rxBody s).state.1 := by
  obtain ⟨v, mem⟩ := s
  have hsame : SameNegotiation v v := .of_eq rfl rfl
  unfold rxBody
  simp only
  split
  · exact hsame.failClosed
  · split
    · exact hsame
    · split
      · exact .of_eq rfl rfl
      · rename_i frameLen buf backend _
        have hpolled : SameNegotiation v (v.polled backend buf) := .of_eq rfl rfl
        split
        · exact hpolled.failClosed
        · split
          · exact hpolled.failClosed
          · rename_i descHead _ _ d _
            have hdeliver := hpolled.trans
              (rxDeliver_same (v.polled backend buf) mem descHead d frameLen)
            split
            · rename_i heq
              rw [heq] at hdeliver
              exact hdeliver.trans (.of_eq rfl rfl)
            · rename_i heq
              rw [heq] at hdeliver
              exact hdeliver.failClosed

omit [NetBackend ν] [GuestMemory μ] in
/-- Everything a loop of either engine visits has the negotiated state it started with. -/
theorem visits_same {body : Machine ν μ → Loop.Outcome (Machine ν μ)}
    (hbody : ∀ s, SameNegotiation s.1 (body s).state.1) {u : Machine ν μ}
    (h : Loop.Visits body s u) : SameNegotiation s.1 u.1 :=
  h.invariant (P := fun u => SameNegotiation s.1 u.1) (fun u hu => hu.trans (hbody u))
    (.of_eq rfl rfl)

theorem processTx_same (h : processTx fuel s = some t) : SameNegotiation s.1 t.1 := by
  unfold processTx at h
  split at h
  · cases h
    exact .of_eq rfl rfl
  · exact visits_same txBody_same (Loop.visits_of_run h)

theorem processRx_same (h : processRx fuel s = some t) : SameNegotiation s.1 t.1 := by
  unfold processRx at h
  split at h
  · cases h
    exact .of_eq rfl rfl
  · exact visits_same rxBody_same (Loop.visits_of_run h)

theorem tick_same (h : tick fuel s = some t) : SameNegotiation s.1 t.1 := by
  obtain ⟨u, hu, ht⟩ := Option.bind_eq_some_iff.mp h
  exact (processTx_same hu).trans (processRx_same ht)

/-! ### The invariant of every run -/

omit [NetBackend ν] [GuestMemory μ] in
theorem ByteEffect.coherent {v v' : VirtioNetStub ν} {byte : Byte} (hv : Coherent v)
    (h : ByteEffect v byte v') : Coherent v' := by
  have hconf (f : VirtQueueState → VirtQueueState) : SameNegotiation v (v.configureQueue f) := by
    unfold configureQueue setQueue
    split
    · split <;> exact .of_eq rfl rfl
    · exact .of_eq rfl rfl
  cases h with
  | discarded => exact hv
  | select => exact ⟨hv.driverOk, hv.featuresOk⟩
  | feature lane =>
    -- Once `FEATURES_OK` is set the acked features are frozen, and before it nothing is claimed.
    unfold mergeDriverFeatureByte
    split
    · exact hv
    · rename_i hf
      have hclear : v.deviceStatus &&& StatusBits.featuresOk = 0 := not_not.mp hf
      split
      · exact hv
      · exact ⟨hv.driverOk, fun h => absurd hclear h⟩
  | configure f _ => exact (hconf f).coherent hv
  | enable =>
    unfold enableQueue
    split
    · exact (hconf _).coherent hv
    · exact hv

omit [NetBackend ν] [GuestMemory μ] in
theorem coherent_writeDeviceStatus {v : VirtioNetStub ν} (byte : Byte) (hv : Coherent v) :
    Coherent (v.writeDeviceStatus byte) := by
  have hrefuse : ∀ c : Byte,
      (refuseDriverOk c &&& StatusBits.driverOk ≠ 0 →
        refuseDriverOk c &&& StatusBits.featuresOk ≠ 0) ∧
      refuseDriverOk c &&& StatusBits.featuresOk = c &&& StatusBits.featuresOk := by decide
  have hstrip : ∀ c : Byte, c &&& ~~~StatusBits.featuresOk &&& StatusBits.featuresOk = 0 := by
    decide
  unfold writeDeviceStatus
  split
  · exact .of_status_zero rfl
  · refine ⟨(hrefuse _).1, ?_⟩
    simp only [(hrefuse _).2]
    intro hf
    unfold acceptedFeaturesOk at hf
    split at hf
    · exact absurd (hstrip byte) hf
    · rename_i hnot
      by_cases hold : v.deviceStatus &&& StatusBits.featuresOk = 0
      · intro hacked
        exact hnot ⟨hf, hold, hacked⟩
      · exact hv.featuresOk hold

theorem coherent_step {op : Op μ} (hs : Coherent s.1) (h : Step s op t) : Coherent t.1 := by
  obtain ⟨fuel, h⟩ := h
  cases op with
  | barRead bar offset width =>
    cases h
    refine SameNegotiation.coherent ?_ hs
    unfold barRead bar0Read
    exact iteInduction
      (motive := fun r : Long × VirtioNetStub ν => SameNegotiation s.1 r.2)
      (fun _ => by simp only; split_ifs <;> exact .of_eq rfl rfl) fun _ => .of_eq rfl rfl
  | barWrite bar offset width value =>
    cases h
    exact barWrite_invariant (μ := μ) (fun v byte v' hv he => he.coherent hv)
      (fun b _ => coherent_writeDeviceStatus b hs) fun _ => hs
  | guest mem =>
    cases h
    exact hs
  | tick => exact (tick_same h).coherent hs

omit [NetBackend ν] [GuestMemory μ] in
theorem Coherent.negotiated {v : VirtioNetStub ν} (h : Coherent v)
    (hd : v.deviceStatus &&& StatusBits.driverOk ≠ 0) : Negotiated v :=
  ⟨hd, h.driverOk hd, h.featuresOk (h.driverOk hd)⟩

/-! ### Serving the rings -/

/-- The transmit queue is enabled and the driver has made a chain available. -/
def TxHasWork (s : Machine ν μ) : Prop :=
  (s.1.queues queueTx).enabled = true ∧
    ∃ idx, gmReadU16 s.2 ((s.1.queues queueTx).driverAddr + 2) = some idx ∧
      idx ≠ (s.1.queues queueTx).lastAvailIdx

/-- The receive queue is enabled, a buffer is available and the backend has a frame. -/
def RxHasWork (s : Machine ν μ) : Prop :=
  (s.1.queues queueRx).enabled = true ∧
    (∃ idx, gmReadU16 s.2 ((s.1.queues queueRx).driverAddr + 2) = some idx ∧
      idx ≠ (s.1.queues queueRx).lastAvailIdx) ∧
    (NetBackend.pollReceive s.1.backend s.1.rxFrameBuf).1.isSome = true

/-- A tick here serves no ring before `DRIVER_OK`. -/
def NoEarlyWork (s : Machine ν μ) : Prop :=
  s.1.deviceStatus &&& StatusBits.driverOk ≠ 0 ∨ s.1.needsReset = true ∨
    ¬TxHasWork s ∧ ¬RxHasWork s

/-- `process_tx` entered at `t` goes through `u`. -/
def TxVisits (t u : Machine ν μ) : Prop :=
  t.1.needsReset = false ∧ (t.1.queues queueTx).enabled = true ∧ Loop.Visits txBody t u

/-- `process_rx` entered at `t` goes through `u`. -/
def RxVisits (t u : Machine ν μ) : Prop :=
  t.1.needsReset = false ∧ (t.1.queues queueRx).enabled = true ∧ Loop.Visits rxBody t u

/-- A transmit ring without work: the engine is done at once. -/
theorem txBody_idle (hwork : ¬TxHasWork t) (hen : (t.1.queues queueTx).enabled = true) :
    txBody t = .done t ∨ txBody t = .done (t.1.failClosed, t.2) := by
  obtain ⟨v, mem⟩ := t
  unfold txBody
  simp only
  cases hread : gmReadU16 mem ((v.queues queueTx).driverAddr + 2) with
  | none => exact .inr rfl
  | some idx =>
    have hidx : idx = (v.queues queueTx).lastAvailIdx := by
      by_contra hne
      exact hwork ⟨hen, idx, hread, hne⟩
    exact .inl (by rw [← hidx]; exact if_pos rfl)

/-- A receive ring without work: the engine is done at once, with memory as it was. -/
theorem rxBody_idle (hwork : ¬RxHasWork t) (hen : (t.1.queues queueRx).enabled = true) :
    ∃ u, rxBody t = .done u ∧ u.2 = t.2 := by
  obtain ⟨v, mem⟩ := t
  unfold rxBody
  simp only
  cases hread : gmReadU16 mem ((v.queues queueRx).driverAddr + 2) with
  | none => exact ⟨_, rfl, rfl⟩
  | some idx =>
    by_cases hidx : idx = (v.queues queueRx).lastAvailIdx
    · exact ⟨_, if_pos hidx, rfl⟩
    · simp only [if_neg hidx]
      obtain ⟨polled, buf, b, hpoll⟩ :
          ∃ polled buf b, NetBackend.pollReceive v.backend v.rxFrameBuf = (polled, buf, b) :=
        ⟨_, _, _, rfl⟩
      cases polled with
      | none => exact ⟨_, by rw [hpoll], rfl⟩
      | some frameLen =>
        refine absurd ⟨hen, ⟨idx, hread, hidx⟩, ?_⟩ hwork
        simp only [hpoll]
        rfl

theorem processTx_idle {u : Machine ν μ} (hwork : ¬TxHasWork t) (h : processTx fuel t = some u) :
    u = t ∨ u = (t.1.failClosed, t.2) := by
  unfold processTx at h
  split at h
  · cases h
    exact .inl rfl
  · rename_i hrun
    simp only [Bool.or_eq_true, Bool.not_eq_true', not_or, Bool.not_eq_true,
      Bool.not_eq_false] at hrun
    have hvisit := Loop.visits_of_run h
    rcases txBody_idle hwork hrun.2 with hbody | hbody
    · rcases hvisit.of_done hbody with rfl | rfl <;> exact .inl rfl
    · rcases hvisit.of_done hbody with rfl | rfl
      · exact .inl rfl
      · exact .inr rfl

/-- **The rings run only after negotiation**, as long as no tick finds work in a ring enabled before
`DRIVER_OK`: along any run from reset, such a tick moves a frame only on a negotiated device. -/
theorem rings_run_after_negotiation {b : ν} {mem : μ} {t : Machine ν μ}
    (hrun : RunOf (fun _ _ => True) (new b, mem) t) (hwork : NoEarlyWork t) :
    (∀ u, TxVisits t u → u.1.backend ≠ t.1.backend → Negotiated u.1) ∧
      ∀ fuel t' u, processTx fuel t = some t' → RxVisits t' u → u.2 ≠ t'.2 →
        Negotiated u.1 := by
  have hcoherent : Coherent t.1 :=
    hrun.invariant (I := fun s => Coherent s.1) (fun _ _ _ hs _ hstep => coherent_step hs hstep)
      (.of_status_zero rfl)
  rcases hwork with hdriver | hlatched | ⟨htx, hrx⟩
  · have hneg := hcoherent.negotiated hdriver
    refine ⟨fun u hu _ => (visits_same txBody_same hu.2.2).negotiated hneg, ?_⟩
    intro fuel t' u ht' hu _
    exact ((processTx_same ht').trans (visits_same rxBody_same hu.2.2)).negotiated hneg
  · refine ⟨fun u hu _ => ?_, fun fuel t' u ht' hu _ => ?_⟩
    · exact absurd (hlatched.symm.trans hu.1) (by decide)
    · rw [processTx_of_needsReset hlatched] at ht'
      cases ht'
      exact absurd (hlatched.symm.trans hu.1) (by decide)
  · refine ⟨fun u hu hne => ?_, fun fuel t' u ht' hu hne => ?_⟩
    · -- An idle transmit ring leaves the backend alone.
      exfalso
      rcases txBody_idle htx hu.2.1 with hbody | hbody
      · rcases hu.2.2.of_done hbody with rfl | rfl <;> exact hne rfl
      · rcases hu.2.2.of_done hbody with rfl | rfl <;> exact hne rfl
    · exfalso
      rcases processTx_idle htx ht' with rfl | rfl
      · obtain ⟨w, hbody, hmem⟩ := rxBody_idle hrx hu.2.1
        rcases hu.2.2.of_done hbody with rfl | rfl
        · exact hne rfl
        · exact hne hmem
      · exact absurd ((needsReset_failClosed t.1).symm.trans hu.1) (by decide)

end Negotiation

/-- A negotiated device with a chain available: what its tick sends, it sends negotiated. -/
theorem rings_run_after_negotiation_sample :
    ∃ t : Machine LoopbackNetBackend (FlatRam 64),
      applyAll 2 (new ⟨[], []⟩, sampleRam 0 0)
          (negotiate ++ configureQueueOps 1 1 0 0x10 0x18 ++ [.guest (sampleRam 1 0)]) = some t ∧
        ∀ u, TxVisits t u → u.1.backend ≠ t.1.backend → Negotiated u.1 := by
  have hrun :
      (applyAll 2 (new (ν := LoopbackNetBackend) ⟨[], []⟩, sampleRam 0 0)
        (negotiate ++ configureQueueOps 1 1 0 0x10 0x18 ++ [.guest (sampleRam 1 0)])).map
          (fun t => t.1.deviceStatus) = some 0x0F := by decide +kernel
  obtain ⟨t, ht, hstatus⟩ := Option.map_eq_some_iff.mp hrun
  refine ⟨t, ht, ?_⟩
  exact (rings_run_after_negotiation (runOf_of_applyAll (fun _ _ => trivial) ht)
    (.inl (by rw [hstatus]; decide))).1

/-- **Run before negotiation**: a driver that only enables the transmit queue has its frames
sent. -/
theorem rings_run_before_negotiation :
    ¬ ∀ t u : Machine LoopbackNetBackend (FlatRam 64),
      RunOf (fun _ _ => True) (new ⟨[], []⟩, sampleRam 0 0) t → TxVisits t u →
      u.1.backend ≠ t.1.backend → Negotiated u.1 := by
  intro hclaim
  have hrun :
      ((applyAll 2 (new (ν := LoopbackNetBackend) ⟨[], []⟩, sampleRam 0 0)
          (configureQueueOps 1 1 0 0x10 0x18 ++ [.guest (sampleRam 1 0)])).bind fun t =>
        (Loop.run txBody 2 t).map fun u =>
          ((t.1.needsReset, (t.1.queues queueTx).enabled),
            (t.1.backend.transmitted, u.1.backend.transmitted), u.1.deviceStatus)) =
      some ((false, true), ([], [[0xAB, 0xCD]]), 0) := by decide +kernel
  obtain ⟨t, ht, hrun⟩ := Option.bind_eq_some_iff.mp hrun
  obtain ⟨u, hu, hrun⟩ := Option.map_eq_some_iff.mp hrun
  simp only [Prod.mk.injEq] at hrun
  obtain ⟨⟨hopen, henabled⟩, ⟨hbefore, hafter⟩, hstatus⟩ := hrun
  have hneg := hclaim t u (runOf_of_applyAll (fun _ _ => trivial) ht)
    ⟨hopen, henabled, Loop.visits_of_run hu⟩ (fun h => by
      rw [h, hbefore] at hafter
      cases hafter)
  exact absurd (by rw [hstatus]; decide) hneg.1

end VirtioNetStub

end M68kMachine
