import M68kMachine.Cards.Pktport
import M68kMachine.Library.Transition

/-!
# `pktport` runs each accepted packet once

The card is driven by register writes and ticks in any order, over guest memory that may be replaced
between them. Its backend is wrapped so that every `execute` is noted down.

* `Serves` — what the tick after an accepted doorbell does
* `runs_each_packet_once` — from the doorbell to that tick, and the account of every doorbell rung
-/

namespace M68kMachine.Pktport

open Transition GuestMemory

variable {ρ μ : Type}

/-! ## Runs of the card -/

/-- A backend, and the requests it has been handed. -/
structure Noted (ρ : Type) where
  backend : ρ
  executed : List (Long × List Long)

instance [PacketBackend ρ] : PacketBackend (Noted ρ) where
  execute b action args mem :=
    let (res, backend, mem) := PacketBackend.execute b.backend action args mem
    (res, ⟨backend, b.executed ++ [(action, args)]⟩, mem)

instance [PacketBackend ρ] [LawfulPacketBackend ρ] : LawfulPacketBackend (Noted ρ) where
  touched b := LawfulPacketBackend.touched b.backend

/-- What can happen to the card and to guest memory. -/
inductive Op (μ : Type)
  | write (offset : Nat) (value : Byte)
  | guest (mem : μ)
  | tick

abbrev Machine (ρ μ : Type) := Pktport (Noted ρ) × μ

def step [PacketBackend ρ] [GuestMemory μ] (s : Machine ρ μ) : Op μ → Machine ρ μ
  | .write o value => (s.1.write o value, s.2)
  | .guest mem => (s.1, mem)
  | .tick => s.1.tick s.2

/-- The write rings the doorbell: the other lanes of the register do not. -/
def rings : Op μ → Bool
  | .write o _ => o == Reg.doorbell + 3
  | _ => false

/-- The field of a descriptor at `i`. -/
def field (d : List Byte) (i : Nat) : Long :=
  be32 (d.getD i 0) (d.getD (i + 1) 0) (d.getD (i + 2) 0) (d.getD (i + 3) 0)

/-- `ACTION` and `ARG1..ARG7`, verbatim. -/
def fields (d : List Byte) : Long × List Long :=
  (field d 0, (List.range 7).map fun i => field d (4 + i * 4))

/-- The descriptor at `ptr` can be read: it is aligned and its 64 bytes are RAM. -/
def Readable [GuestMemory μ] (mem : μ) (ptr : Long) : Prop :=
  ptr.toNat % 4 = 0 ∧ (ramSlice mem ptr descLen).isSome

/-- Bytes `0x20..0x2C` of the descriptor at `ptr`. -/
def resultRegion (ptr : Long) : Region := ⟨ptr.toNat + 0x20, 12⟩

section Serves

variable [PacketBackend ρ] [GuestMemory μ]

/-- The descriptor at `ptr` was executed: one call, its results stored, the interrupt latched. -/
structure Executes (s : Machine ρ μ) (ptr : Long) (d : List Byte) (t : Machine ρ μ) : Prop where
  card : t.1 = { s.1 with
    backend := ⟨(PacketBackend.execute s.1.backend.backend (fields d).1 (fields d).2 s.2).2.1,
      s.1.backend.executed ++ [fields d]⟩
    pending := none
    intStatus := 1 }
  frame : Frame [resultRegion ptr]
    (PacketBackend.execute s.1.backend.backend (fields d).1 (fields d).2 s.2).2.2 t.2
  res1 : bytesAt t.2 ⟨ptr.toNat + 0x20, 4⟩ = some (toBytes32
    (PacketBackend.execute s.1.backend.backend (fields d).1 (fields d).2 s.2).1.1)
  res2 : bytesAt t.2 ⟨ptr.toNat + 0x24, 4⟩ = some (toBytes32
    (PacketBackend.execute s.1.backend.backend (fields d).1 (fields d).2 s.2).1.2)
  status : bytesAt t.2 ⟨ptr.toNat + 0x28, 4⟩ = some (toBytes32 1)

/-- **What a tick does with the request at `ptr`**: execute it, or drop and count it. -/
def Serves (s : Machine ρ μ) (ptr : Long) (t : Machine ρ μ) : Prop :=
  (∀ d, ptr.toNat % 4 = 0 → ramSlice s.2 ptr descLen = some d → Executes s ptr d t) ∧
    (¬Readable s.2 ptr →
      t = ({ s.1 with pending := none, droppedDescriptors := s.1.droppedDescriptors + 1 }, s.2))

end Serves

/-! ## One operation -/

/-- A write elsewhere leaves the request, the backend and the counters alone. -/
theorem write_quiet (p : Pktport ρ) {o : Nat} (value : Byte) (h : o ≠ Reg.doorbell + 3) :
    (p.write o value).pending = p.pending ∧ (p.write o value).backend = p.backend ∧
      (p.write o value).doorbellOverflow = p.doorbellOverflow ∧
      (p.write o value).droppedDescriptors = p.droppedDescriptors := by
  have hlane : inSlot o Reg.doorbell = true → ¬ o - Reg.doorbell = 3 := by
    intro hin
    have := inSlot_iff.mp hin
    omega
  unfold write
  split_ifs <;> first | exact ⟨rfl, rfl, rfl, rfl⟩ | exact absurd ‹_› (hlane ‹_›)

variable [PacketBackend ρ] [GuestMemory μ] {s : Machine ρ μ}

theorem step_doorbell (s : Machine ρ μ) (value : Byte) :
    step s (.write (Reg.doorbell + 3) value) = (s.1.submit, s.2) := rfl

theorem tick_idle (h : s.1.pending = none) : step s .tick = s := by
  unfold step tick
  simp only [h]

/-! ## The results -/

omit [PacketBackend ρ] in
theorem writeResult_spec [LawfulGuestMemory μ] (mem : μ) {addr : Long} {x : Nat} (value : Long)
    (haddr : addr.toNat = x) (hgrant : (ramSlice mem addr 4).isSome) :
    Frame [⟨x, 4⟩] mem (writeResult mem addr value) ∧
      bytesAt (writeResult mem addr value) ⟨x, 4⟩ = some (toBytes32 value) := by
  have hlen : (toBytes32 value).length = 4 := rfl
  have hsome := isSome_store mem addr (toBytes32 value)
  rw [hlen] at hsome
  obtain ⟨mem', hstore⟩ := Option.isSome_iff_exists.mp (hsome.trans hgrant)
  have hframe := frame_store (by simp [toBytes32]) (by rw [hlen]; decide) hstore
  have hself := bytesAt_store_self rfl (by rw [hlen]; decide) hstore
  unfold writeResult
  rw [hstore, Option.getD_some, ← haddr]
  exact ⟨hframe, hself⟩

variable [ConvexGuestMemory μ] {ptr : Long}

omit [PacketBackend ρ] in
/-- **The card writes bytes `0x20..0x2C` of a readable descriptor**, and nothing else. -/
theorem writeResults_spec {mem : μ} (res1 res2 : Long)
    (hgrant : (ramSlice mem ptr descLen).isSome) :
    Frame [resultRegion ptr] mem (writeResults mem ptr res1 res2) ∧
      bytesAt (writeResults mem ptr res1 res2) ⟨ptr.toNat + 0x20, 4⟩ = some (toBytes32 res1) ∧
      bytesAt (writeResults mem ptr res1 res2) ⟨ptr.toNat + 0x24, 4⟩ = some (toBytes32 res2) ∧
      bytesAt (writeResults mem ptr res1 res2) ⟨ptr.toNat + 0x28, 4⟩ = some (toBytes32 1) := by
  obtain ⟨d, hd⟩ := Option.isSome_iff_exists.mp hgrant
  have hwrap := LawfulGuestMemory.noWrap hd
  have hlen : descLen.toNat = 64 := rfl
  have hfour : (4 : Long).toNat = 4 := rfl
  have h1 : (ptr + res1Offset).toNat = ptr.toNat + 0x20 := by
    rw [BitVec.toNat_add]
    change (ptr.toNat + 0x20) % 2 ^ 32 = _
    omega
  have h2 : (ptr + res2Offset).toNat = ptr.toNat + 0x24 := by
    rw [BitVec.toNat_add]
    change (ptr.toNat + 0x24) % 2 ^ 32 = _
    omega
  have h3 : (ptr + statusOffset).toNat = ptr.toNat + 0x28 := by
    rw [BitVec.toNat_add]
    change (ptr.toNat + 0x28) % 2 ^ 32 = _
    omega
  -- Each of the three words is part of the descriptor, and stays so.
  have hpart : ∀ {m : μ} {a : Long}, (ramSlice m ptr descLen).isSome → ptr.toNat ≤ a.toNat →
      a.toNat + 4 ≤ ptr.toNat + 64 → (ramSlice m a 4).isSome := fun hm hlo hhi =>
    ConvexGuestMemory.isSome_part hm hlo (by rw [hlen, hfour]; exact hhi)
  have hkeep : ∀ {m m' : μ} {rs : List Region}, Frame rs m m' → (ramSlice m ptr descLen).isSome →
      (ramSlice m' ptr descLen).isSome := by
    intro m m' rs hf hm
    have hmapped := hf.mapped ⟨ptr.toNat, 64⟩
    unfold bytesAt at hmapped
    simp only [BitVec.ofNat_toNat, BitVec.setWidth_eq] at hmapped
    exact hmapped.trans hm
  unfold writeResults
  obtain ⟨hf1, hb1⟩ := writeResult_spec mem res1 h1 (hpart hgrant (by omega) (by omega))
  have hg1 := hkeep hf1 hgrant
  generalize writeResult mem (ptr + res1Offset) res1 = mem₁ at hf1 hb1 hg1 ⊢
  obtain ⟨hf2, hb2⟩ := writeResult_spec mem₁ res2 h2 (hpart hg1 (by omega) (by omega))
  have hg2 := hkeep hf2 hg1
  generalize writeResult mem₁ (ptr + res2Offset) res2 = mem₂ at hf2 hb2 hg2 ⊢
  obtain ⟨hf3, hb3⟩ := writeResult_spec mem₂ 1 h3 (hpart hg2 (by omega) (by omega))
  generalize writeResult mem₂ (ptr + statusOffset) 1 = mem₃ at hf3 hb3 ⊢
  have hin : ∀ x, ptr.toNat + 0x20 ≤ x → x + 4 ≤ ptr.toNat + 0x2C → ∀ r ∈ [(⟨x, 4⟩ : Region)],
      ∃ t ∈ [resultRegion ptr], r.Inside t := by
    intro x hlo hhi r hr
    obtain rfl := List.mem_singleton.mp hr
    exact ⟨_, List.mem_singleton_self _, hlo, hhi⟩
  have hfits : ∀ x, x + 4 ≤ ptr.toNat + 0x2C → (⟨x, 4⟩ : Region).Fits := fun x hx =>
    ⟨by simp only; omega, by simp, by simp only; omega⟩
  have hdis : ∀ x y, x + 4 ≤ y → ∀ r ∈ [(⟨y, 4⟩ : Region)], (⟨x, 4⟩ : Region).Disjoint r := by
    intro x y hxy r hr
    obtain rfl := List.mem_singleton.mp hr
    exact .inr (.inr (.inl hxy))
  refine ⟨((hf1.widen (hin _ (by omega) (by omega))).trans
    (hf2.widen (hin _ (by omega) (by omega)))).trans (hf3.widen (hin _ (by omega) (by omega))),
    ?_, ?_, hb3⟩
  · rw [hf3.bytes _ (hfits _ (by omega)) (hdis _ _ (by omega)),
      hf2.bytes _ (hfits _ (by omega)) (hdis _ _ (by omega)), hb1]
  · rw [hf3.bytes _ (hfits _ (by omega)) (hdis _ _ (by omega)), hb2]

/-! ## The tick that serves a request -/

variable [LawfulPacketBackend ρ]

theorem tick_serves (h : s.1.pending = some ptr) : Serves s ptr (step s .tick) := by
  obtain ⟨p, mem⟩ := s
  simp only at h
  unfold step tick readDescriptor
  simp only [h]
  constructor
  · intro d halign hd
    simp only at hd
    have hgrant : (ramSlice (PacketBackend.execute p.backend.backend (fields d).1 (fields d).2
        mem).2.2 ptr descLen).isSome := by
      rw [(LawfulPacketBackend.touched _ _ _ _).isSome_ramSlice, hd]
      rfl
    obtain ⟨hframe, h1, h2, h3⟩ := writeResults_spec
      (PacketBackend.execute p.backend.backend (fields d).1 (fields d).2 mem).1.1
      (PacketBackend.execute p.backend.backend (fields d).1 (fields d).2 mem).1.2 hgrant
    rw [if_neg (by omega), hd]
    exact ⟨rfl, hframe, h1, h2, h3⟩
  · intro hread
    unfold Readable at hread
    simp only at hread
    split
    · rfl
    · rename_i action args hsome
      exfalso
      split at hsome
      · cases hsome
      · rename_i halign
        obtain ⟨d, hd, -⟩ := Option.map_eq_some_iff.mp hsome
        exact hread ⟨by omega, by rw [hd]; rfl⟩

/-! ## Until the tick -/

/-- What the operations before the tick leave of a request latched at `ptr`. -/
structure Waiting (s : Machine ρ μ) (ptr : Long) (n : Nat) (u : Machine ρ μ) : Prop where
  pending : u.1.pending = some ptr
  backend : u.1.backend = s.1.backend
  overflow : u.1.doorbellOverflow = s.1.doorbellOverflow + BitVec.ofNat 32 n
  dropped : u.1.droppedDescriptors = s.1.droppedDescriptors

omit [ConvexGuestMemory μ] [LawfulPacketBackend ρ] in
theorem Waiting.next {s u : Machine ρ μ} {ptr : Long} {n : Nat} {op : Op μ}
    (h : Waiting s ptr n u) (hop : op ≠ .tick) :
    Waiting s ptr (n + [op].countP rings) (step u op) := by
  obtain ⟨hpending, hbackend, hoverflow, hdropped⟩ := h
  cases op with
  | tick => exact absurd rfl hop
  | guest mem => exact ⟨hpending, hbackend, hoverflow, hdropped⟩
  | write o value =>
    by_cases ho : o = Reg.doorbell + 3
    · subst ho
      have hcount : [(Op.write (Reg.doorbell + 3) value : Op μ)].countP rings = 1 := rfl
      rw [hcount, step_doorbell, submit, if_pos (by rw [hpending]; rfl)]
      refine ⟨hpending, hbackend, ?_, hdropped⟩
      simp only [hoverflow, BitVec.ofNat_add, BitVec.add_assoc]
      rfl
    · have hcount : [(Op.write o value : Op μ)].countP rings = 0 := by
        simp [rings, ho]
      obtain ⟨h1, h2, h3, h4⟩ := write_quiet u.1 value ho
      rw [hcount]
      exact ⟨h1.trans hpending, h2.trans hbackend, h3.trans hoverflow, h4.trans hdropped⟩

omit [ConvexGuestMemory μ] [LawfulPacketBackend ρ] in
theorem Waiting.run {u : Machine ρ μ} {n : Nat} {ops : List (Op μ)} (h : Waiting s ptr n u)
    (hops : .tick ∉ ops) : Waiting s ptr (n + ops.countP rings) (run step u ops) := by
  induction ops generalizing u n with
  | nil => exact h
  | cons op ops ih =>
    simp only [List.mem_cons, not_or] at hops
    rw [run_cons, ← List.singleton_append, List.countP_append, ← Nat.add_assoc]
    exact ih (h.next (Ne.symm hops.1)) hops.2

omit [ConvexGuestMemory μ] [LawfulPacketBackend ρ] in
theorem waiting_of_doorbell (value : Byte) (h : s.1.pending = none) :
    Waiting s s.1.reqPtr 0 (step s (.write (Reg.doorbell + 3) value)) := by
  rw [step_doorbell, submit, if_neg (by rw [h]; decide)]
  exact ⟨rfl, rfl, by simp, rfl⟩

/-! ## The account of every doorbell -/

/-- Every doorbell rung was executed, lost with its descriptor, refused, or is latched. -/
structure Accounted (rung lost refused : Nat) (s : Machine ρ μ) : Prop where
  overflow : s.1.doorbellOverflow = BitVec.ofNat 32 refused
  dropped : s.1.droppedDescriptors = BitVec.ofNat 32 lost
  total : rung = s.1.backend.executed.length + lost + refused + s.1.pending.toList.length

theorem ofNat_succ (n : Nat) : BitVec.ofNat 32 n + 1 = BitVec.ofNat 32 (n + 1) := by
  rw [BitVec.ofNat_add]
  rfl

theorem Accounted.step {rung lost refused : Nat} {s : Machine ρ μ}
    (h : Accounted rung lost refused s) (op : Op μ) :
    ∃ lost' refused', Accounted (rung + [op].countP rings) lost' refused' (step s op) := by
  obtain ⟨hoverflow, hdropped, htotal⟩ := h
  cases op with
  | guest mem => exact ⟨lost, refused, hoverflow, hdropped, htotal⟩
  | write o value =>
    by_cases ho : o = Reg.doorbell + 3
    · subst ho
      have hcount : [(Op.write (Reg.doorbell + 3) value : Op μ)].countP rings = 1 := rfl
      rw [hcount, step_doorbell, submit]
      cases hpending : s.1.pending with
      | none =>
        rw [hpending] at htotal
        refine ⟨lost, refused, hoverflow, hdropped, ?_⟩
        simp only [Option.toList_none, List.length_nil, Option.isSome_none, Bool.false_eq_true,
          if_false, Option.toList_some, List.length_singleton] at htotal ⊢
        omega
      | some ptr =>
        rw [hpending] at htotal
        refine ⟨lost, refused + 1, ?_, hdropped, ?_⟩
        · simp only [Option.isSome_some, if_true, hoverflow, ofNat_succ]
        · simp only [Option.isSome_some, if_true, Option.toList_some,
            List.length_singleton] at htotal ⊢
          omega
    · have hcount : [(Op.write o value : Op μ)].countP rings = 0 := by
        simp [rings, ho]
      obtain ⟨h1, h2, h3, h4⟩ := write_quiet s.1 value ho
      refine ⟨lost, refused, h3.trans hoverflow, h4.trans hdropped, ?_⟩
      simp only [Pktport.step, h1, h2, hcount]
      exact htotal
  | tick =>
    have hcount : [(Op.tick : Op μ)].countP rings = 0 := rfl
    rw [hcount, Nat.add_zero]
    cases hpending : s.1.pending with
    | none =>
      rw [tick_idle hpending]
      exact ⟨lost, refused, hoverflow, hdropped, htotal⟩
    | some ptr =>
      obtain ⟨hexec, hdrop⟩ := tick_serves hpending
      rw [hpending, Option.toList_some, List.length_singleton] at htotal
      by_cases hread : Readable s.2 ptr
      · -- The request moves from the latch to the list of what was executed.
        obtain ⟨halign, hgrant⟩ := hread
        obtain ⟨d, hd⟩ := Option.isSome_iff_exists.mp hgrant
        have hcard := (hexec d halign hd).card
        refine ⟨lost, refused, ?_, ?_, ?_⟩
        · rw [hcard]
          exact hoverflow
        · rw [hcard]
          exact hdropped
        · rw [hcard]
          simp only [List.length_append, List.length_singleton, Option.toList_none,
            List.length_nil]
          omega
      · rw [hdrop hread]
        refine ⟨lost + 1, refused, hoverflow, ?_, ?_⟩
        · simp only [hdropped, ofNat_succ]
        · simp only [Option.toList_none, List.length_nil]
          omega

theorem Accounted.run {rung lost refused : Nat} (h : Accounted rung lost refused s)
    (ops : List (Op μ)) :
    ∃ lost' refused', Accounted (rung + ops.countP rings) lost' refused'
      (Transition.run Pktport.step s ops) := by
  induction ops generalizing rung lost refused s with
  | nil => exact ⟨lost, refused, h⟩
  | cons op ops ih =>
    obtain ⟨lost', refused', h'⟩ := h.step op
    rw [run_cons, ← List.singleton_append, List.countP_append, ← Nat.add_assoc]
    exact ih h'

/-! ## The pointer -/

/-- The byte last written at `o`, `old` when none was. -/
def lastWritten (o : Nat) (old : Byte) : List (Op μ) → Byte
  | [] => old
  | .write o' value :: ops => lastWritten o (if o' = o then value else old) ops
  | .guest _ :: ops => lastWritten o old ops
  | .tick :: ops => lastWritten o old ops

omit [ConvexGuestMemory μ] [LawfulPacketBackend ρ] in
theorem reqPtr_tick (s : Machine ρ μ) : (step s .tick).1.reqPtr = s.1.reqPtr := by
  unfold step tick
  simp only
  split
  · rfl
  · split <;> rfl

omit [ConvexGuestMemory μ] [LawfulPacketBackend ρ] in
theorem byteOf_reqPtr_write (s : Machine ρ μ) (o : Nat) (value : Byte) {lane : Nat}
    (hlane : lane < 4) :
    byteOf (step s (.write o value)).1.reqPtr lane =
      if o = Reg.reqPtr + lane then value else byteOf s.1.reqPtr lane := by
  unfold step write
  simp only
  by_cases hin : inSlot o Reg.reqPtr = true
  · have hrange := inSlot_iff.mp hin
    rw [if_pos hin, byteOf_setByteOf _ _ (by omega) hlane]
    refine if_congr ?_ rfl rfl
    omega
  · have hne : ¬o = Reg.reqPtr + lane := by
      rintro rfl
      exact hin (inSlot_iff.mpr (by omega))
    rw [if_neg hin, if_neg hne]
    split_ifs <;> first | rfl | (unfold submit; split <;> rfl)

omit [ConvexGuestMemory μ] [LawfulPacketBackend ρ] in
/-- Each lane of `REQ_PTR` holds the byte last written to it. -/
theorem byteOf_reqPtr_run (s : Machine ρ μ) (ops : List (Op μ)) {lane : Nat} (hlane : lane < 4) :
    byteOf (run step s ops).1.reqPtr lane =
      lastWritten (Reg.reqPtr + lane) (byteOf s.1.reqPtr lane) ops := by
  induction ops generalizing s with
  | nil => rfl
  | cons op ops ih =>
    rw [run_cons, ih]
    cases op with
    | write o value => rw [byteOf_reqPtr_write s o value hlane, lastWritten]
    | guest mem => rfl
    | tick => rw [reqPtr_tick, lastWritten]

/-- **`pktport` runs each accepted packet once.** A doorbell with nothing latched latches the four
bytes last written to `REQ_PTR`; before the next tick no call is made and further doorbells are only
counted; that tick serves the request. A tick with nothing latched does nothing, and in every run
the doorbells rung are those executed, lost, refused and latched. -/
theorem runs_each_packet_once :
    (∀ (s : Machine ρ μ) (value : Byte) (ops : List (Op μ)), s.1.pending = none → .tick ∉ ops →
      Waiting s s.1.reqPtr (ops.countP rings)
          (run step s (.write (Reg.doorbell + 3) value :: ops)) ∧
        Serves (run step s (.write (Reg.doorbell + 3) value :: ops)) s.1.reqPtr
          (run step s (.write (Reg.doorbell + 3) value :: ops ++ [.tick]))) ∧
    (∀ s : Machine ρ μ, s.1.pending = none → step s .tick = s) ∧
    ∀ (backend : ρ) (diagRom : List Byte) (mem : μ) (ops : List (Op μ)),
      (∃ lost refused, Accounted (ops.countP rings) lost refused
        (run step (new ⟨backend, []⟩ diagRom, mem) ops)) ∧
      ∀ lane < 4, byteOf (run step (new (⟨backend, []⟩ : Noted ρ) diagRom, mem) ops).1.reqPtr lane =
        lastWritten (Reg.reqPtr + lane) 0 ops := by
  refine ⟨?_, fun _ => tick_idle, ?_⟩
  · intro s value ops hidle hops
    have hwait := (waiting_of_doorbell value hidle).run hops
    rw [Nat.zero_add, ← run_cons] at hwait
    refine ⟨hwait, ?_⟩
    rw [run_append]
    exact tick_serves hwait.pending
  · intro backend diagRom mem ops
    constructor
    · have hstart : Accounted 0 0 0 (new (⟨backend, []⟩ : Noted ρ) diagRom, mem) :=
        ⟨rfl, rfl, rfl⟩
      obtain ⟨lost, refused, h⟩ := hstart.run ops
      rw [Nat.zero_add] at h
      exact ⟨lost, refused, h⟩
    · intro lane hlane
      rw [byteOf_reqPtr_run _ ops hlane]
      have hzero : byteOf (new (⟨backend, []⟩ : Noted ρ) diagRom).reqPtr lane = 0 := by
        simp [byteOf, new]
      rw [hzero]

/-! ## A sample card -/

/-- A backend that always gives the same answer. -/
structure StubBackend where
  answer : Long × Long

instance : PacketBackend StubBackend where
  execute b _ _ mem := (b.answer, b, mem)

instance : LawfulPacketBackend StubBackend where
  touched _ _ _ mem := .refl mem

/-- With its stub and flat memory, a card whose doorbell is rung twice and then ticked. -/
theorem runs_each_packet_once_stub :
    let s : Machine StubBackend (FlatRam 128) := (new ⟨⟨0, 209⟩, []⟩ [], ⟨fun _ => 0⟩)
    Waiting s 0 1 (run step s [.write (Reg.doorbell + 3) 1, .write (Reg.doorbell + 3) 1]) ∧
      Serves (run step s [.write (Reg.doorbell + 3) 1, .write (Reg.doorbell + 3) 1]) 0
        (run step s [.write (Reg.doorbell + 3) 1, .write (Reg.doorbell + 3) 1, .tick]) :=
  runs_each_packet_once.1 _ 1 [.write (Reg.doorbell + 3) 1] rfl (by simp)

/-- **A misaligned descriptor is dropped** though all its 64 bytes are RAM. -/
theorem misaligned_descriptor_is_dropped :
    ¬ ∀ (ops : List (Op (FlatRam 128))) (value : Byte),
      let s : Machine StubBackend (FlatRam 128) :=
        run step (new ⟨⟨0, 209⟩, []⟩ [], ⟨fun _ => 0⟩) ops
      s.1.pending = none → (ramSlice s.2 s.1.reqPtr descLen).isSome →
        (run step s [.write (Reg.doorbell + 3) value, .tick]).1.backend.executed.length =
          s.1.backend.executed.length + 1 := by
  intro hclaim
  have hcall := hclaim [.write (Reg.reqPtr + 3) 2] 1 rfl rfl
  revert hcall
  decide

end M68kMachine.Pktport
