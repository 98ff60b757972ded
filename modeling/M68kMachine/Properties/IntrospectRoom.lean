import M68kMachine.Hosted.Introspect
import M68kMachine.Machine.Runs

/-!
# Introspection near the top of the address space

The report adds offsets to pointers it finds in guest memory, and stops where a sum leaves 32 bits.
It is complete exactly when every structure it reads through ends below that, and no list, array or
string makes it read more than a fixed number of times.

* `Room` — a structure that ends below 2^32
* `Visits`, `ListFits` — the nodes of a walk
* `Fits`, `inspect_returns_iff` — when the report is complete
-/

namespace M68kMachine

namespace Introspect

open Stopping

variable {δ ρ π : Type} [BlockDevice δ] [PacketBackend ρ] [PciBackend π] (a : Long)
  {base offset : Long} {w : Watched δ ρ π} {node listAddr arrayAddr : Long}

/-! ## Fields -/

/-- A field at the offset has an address. -/
def Room (base : Long) (offset : Nat) : Prop := base.toNat + offset < 0x100000000

instance (base : Long) (offset : Nat) : Decidable (Room base offset) :=
  inferInstanceAs (Decidable (_ < _))

theorem Room.mono {offset offset' : Nat} (h : Room base offset') (hle : offset ≤ offset') :
    Room base offset := by
  unfold Room at *
  omega

theorem room_zero (base : Long) : Room base 0 := base.isLt

theorem checkedAdd_of_room (h : Room base offset.toNat) :
    checkedAdd base offset = some (base + offset) := by
  have hlt : base.toNat + offset.toNat < 0x100000000 := h
  exact if_neg (by simpa [BitVec.uaddOverflow] using hlt)

theorem checkedAdd_of_not_room (h : ¬Room base offset.toNat) : checkedAdd base offset = none := by
  have hle : 0x100000000 ≤ base.toNat + offset.toNat := Nat.le_of_not_lt h
  exact if_pos (by simpa [BitVec.uaddOverflow] using hle)

omit [BlockDevice δ] [PacketBackend ρ] [PciBackend π] in
theorem address_of_room (h : Room base offset.toNat) (w : Watched δ ρ π) :
    address base offset w = some (base + offset, w) := by
  unfold address
  rw [checkedAdd_of_room h]
  rfl

omit [BlockDevice δ] [PacketBackend ρ] [PciBackend π] in
theorem returns_address : Returns (address base offset) w ↔ Room base offset.toNat := by
  unfold Returns
  by_cases h : Room base offset.toNat
  · rw [address_of_room h]
    exact iff_of_true rfl h
  · unfold address
    rw [checkedAdd_of_not_room h]
    exact iff_of_false Bool.false_ne_true h

theorem returns_readByte (w : Watched δ ρ π) : Returns (readByte a) w := rfl

theorem returns_readWord (w : Watched δ ρ π) : Returns (readWord a) w := rfl

theorem returns_readLong (w : Watched δ ρ π) : Returns (readLong a) w := rfl

theorem returns_byteAt : Returns (byteAt base offset) w ↔ Room base offset.toNat :=
  (returns_bind_iff returns_address fun a t => iff_true_intro (returns_readByte a t)).trans
    (and_iff_left trivial)

theorem returns_wordAt : Returns (wordAt base offset) w ↔ Room base offset.toNat :=
  (returns_bind_iff returns_address fun a t => iff_true_intro (returns_readWord a t)).trans
    (and_iff_left trivial)

theorem returns_longAt : Returns (longAt base offset) w ↔ Room base offset.toNat :=
  (returns_bind_iff returns_address fun a t => iff_true_intro (returns_readLong a t)).trans
    (and_iff_left trivial)

theorem byteAt_of_room (h : Room base offset.toNat) (w : Watched δ ρ π) :
    byteAt base offset w = readByte (base + offset) w := by
  unfold byteAt
  rw [bind_apply, address_of_room h]
  rfl

theorem longAt_of_room (h : Room base offset.toNat) (w : Watched δ ρ π) :
    longAt base offset w = readLong (base + offset) w := by
  unfold longAt
  rw [bind_apply, address_of_room h]
  rfl

/-! ## Names and structures -/

theorem returns_readCstr (w : Watched δ ρ π) : Returns (readCstr a) w := by
  unfold readCstr
  split
  · exact returns_pure _ w
  · refine Returns.bind (returns_rounds.mpr fun c v _ => ?_) fun _ _ => returns_pure _ _
    refine Returns.bind (returns_readByte _ v) fun byte u => ?_
    split
    · exact returns_pure _ u
    · exact returns_pure _ u

theorem returns_readNodeName : Returns (readNodeName node) w ↔ Room node 10 := by
  have h : Returns (readNodeName node) w ↔ Room node 10 ∧ True ∧ Room node 9 ∧ True :=
    returns_bind_iff returns_longAt fun ptr t =>
      returns_bind_iff (iff_true_intro (returns_readCstr ptr t)) fun _ _ =>
        returns_bind_iff returns_byteAt fun _ u => iff_true_intro (returns_pure _ u)
  rw [h]
  exact ⟨fun h => h.1, fun h => ⟨h, trivial, h.mono (by decide), trivial⟩⟩

theorem returns_taskEntry {task : Long} : Returns (taskEntry task) w ↔ Room task 22 := by
  have h : Returns (taskEntry task) w ↔ Room task 10 ∧ Room task 15 ∧ Room task 22 ∧ True :=
    returns_bind_iff returns_readNodeName fun _ _ =>
      returns_bind_iff returns_byteAt fun _ _ =>
        returns_bind_iff returns_longAt fun _ u => iff_true_intro (returns_pure _ u)
  rw [h]
  exact ⟨fun h => h.2.2.1, fun h => ⟨h.mono (by decide), h.mono (by decide), h, trivial⟩⟩

theorem returns_residentEntry {entry : Long} : Returns (residentEntry entry) w ↔ Room entry 18 := by
  have h : Returns (residentEntry entry) w ↔ Room entry 14 ∧ Room entry 18 ∧ True ∧ True ∧
      Room entry 11 ∧ Room entry 13 ∧ Room entry 12 ∧ True :=
    returns_bind_iff returns_longAt fun namePtr _ =>
      returns_bind_iff returns_longAt fun idPtr _ =>
        returns_bind_iff (iff_true_intro (returns_readCstr namePtr _)) fun _ _ =>
          returns_bind_iff (iff_true_intro (returns_readCstr idPtr _)) fun _ _ =>
            returns_bind_iff returns_byteAt fun _ _ =>
              returns_bind_iff returns_byteAt fun _ _ =>
                returns_bind_iff returns_byteAt fun _ u => iff_true_intro (returns_pure _ u)
  rw [h]
  exact ⟨fun h => h.2.1, fun h => ⟨h.mono (by decide), h, trivial, trivial, h.mono (by decide),
    h.mono (by decide), h.mono (by decide), trivial⟩⟩

theorem returns_visitMem : Returns (visitMem node) w ↔ Room node 28 := by
  have h : Returns (visitMem node) w ↔
      Room node 10 ∧ Room node 14 ∧ Room node 20 ∧ Room node 24 ∧ Room node 28 ∧ True :=
    returns_bind_iff returns_readNodeName fun _ _ =>
      returns_bind_iff returns_wordAt fun _ _ =>
        returns_bind_iff returns_longAt fun _ _ =>
          returns_bind_iff returns_longAt fun _ _ =>
            returns_bind_iff returns_longAt fun _ u => iff_true_intro (returns_pure _ u)
  rw [h]
  exact ⟨fun h => h.2.2.2.2.1, fun h => ⟨h.mono (by decide), h.mono (by decide),
    h.mono (by decide), h.mono (by decide), h, trivial⟩⟩

/-- A node with a type, which decides how much more of it is read. -/
def TypedFits (typed : Byte → Prop) (last : Nat) (node : Long) (w : Watched δ ρ π) : Prop :=
  Room node 8 ∧ (typed (w.bus.readByte (node + Node.lnType)).1 → Room node last)

/-- A part that reads the type of a node first. -/
theorem returns_typed {α : Type} {typed : Byte → Prop} {last : Nat} {f : Byte → Inspect δ ρ π α}
    (hf : ∀ nodeType t, Returns (f nodeType) t ↔ (typed nodeType → Room node last)) :
    Returns (byteAt node Node.lnType >>= f) w ↔ TypedFits typed last node w := by
  rw [returns_bind, returns_byteAt]
  refine and_congr_right fun hroom => ?_
  have htype : Room node Node.lnType.toNat := hroom
  have hread := byteAt_of_room htype w
  constructor
  · intro h
    exact (hf _ _).mp (h _ _ hread)
  · intro h a t hat
    rw [hread] at hat
    cases hat
    exact (hf _ _).mpr h

abbrev IsTask (nodeType : Byte) : Prop := nodeType = ntTask ∨ nodeType = ntProcess

theorem returns_visitTask : Returns (visitTask node) w ↔ TypedFits IsTask 22 node w := by
  refine returns_typed fun nodeType t => ?_
  rw [returns_ite]
  constructor
  · rintro ⟨h, -⟩ htask
    exact returns_taskEntry.mp (returns_map.mp (h htask))
  · intro h
    exact ⟨fun htask => returns_map.mpr (returns_taskEntry.mpr (h htask)),
      fun _ => returns_pure _ t⟩

theorem returns_visitLibrary {name : List Byte} :
    Returns (visitLibrary name node) w ↔ TypedFits (· = ntLibrary) 10 node w := by
  refine returns_typed fun nodeType t => ?_
  rw [returns_ite]
  constructor
  · rintro ⟨h, -⟩ hlibrary
    exact returns_readNodeName.mp (returns_bind.mp (h hlibrary)).1
  · intro h
    refine ⟨fun hlibrary =>
        Returns.bind (returns_readNodeName.mpr (h hlibrary)) fun libName u => ?_,
      fun _ => returns_pure _ t⟩
    split
    · exact returns_pure _ u
    · exact returns_pure _ u

/-- `ThisTask`. -/
def TaskFits (task : Long) (w : Watched δ ρ π) : Prop :=
  task ≠ 0 → TypedFits (· = ntTask) 22 task w

theorem returns_readTask {task : Long} : Returns (readTask task) w ↔ TaskFits task w := by
  unfold readTask TaskFits
  rw [returns_ite]
  have htyped : Returns (byteAt task Node.lnType >>= fun nodeType =>
      if nodeType ≠ ntTask then pure none
      else taskEntry task >>= fun entry => pure (some entry)) w ↔
        TypedFits (· = ntTask) 22 task w := by
    refine returns_typed fun nodeType t => ?_
    rw [returns_ite]
    constructor
    · rintro ⟨-, h⟩ htask
      exact returns_taskEntry.mp (returns_map.mp (h (not_not_intro htask)))
    · intro h
      exact ⟨fun _ => returns_pure _ t, fun htask =>
        returns_map.mpr (returns_taskEntry.mpr (h (not_not.mp htask)))⟩
  constructor
  · rintro ⟨-, h⟩ hne
    exact htyped.mp (h hne)
  · intro h
    exact ⟨fun _ => returns_pure _ w, fun hne => htyped.mpr (h hne)⟩

/-! ## Walks -/

theorem longAt_zero (base : Long) (w : Watched δ ρ π) : longAt base 0 w = readLong base w := by
  rw [longAt_of_room (room_zero base), show base + 0 = base from BitVec.add_zero base]

section

variable {β : Type} {visit : Long → Inspect δ ρ π (List β × Bool)}

/-- A node that a walk visits, with the bus as it is then and a successor that is not `NULL`. -/
def Visits (visit : Long → Inspect δ ρ π (List β × Bool)) (listAddr : Long) (w : Watched δ ρ π)
    (node : Long) (v : Watched δ ρ π) : Prop :=
  ∃ (head : Long) (w₁ : Watched δ ρ π) (c : Long × List β) (u : Watched δ ρ π) (succ : Long),
    readLong listAddr w = some (head, w₁) ∧
      Enters (listRound visit) maxWalkEntries (head, []) w₁ c u ∧
      readLong c.1 u = some (succ, v) ∧ succ ≠ 0 ∧ node = c.1

theorem returns_listRound {c : Long × List β} {u : Watched δ ρ π} :
    Returns (listRound visit c) u ↔
      ∀ succ v, readLong c.1 u = some (succ, v) → succ ≠ 0 → Returns (visit c.1) v := by
  unfold listRound
  rw [returns_bind_of (returns_longAt.mpr (room_zero c.1))]
  unfold After
  rw [longAt_zero]
  refine forall_congr' fun succ => forall_congr' fun v => forall_congr' fun _ => ?_
  refine returns_ite.trans ?_
  constructor
  · rintro ⟨-, h⟩ hne
    exact returns_map.mp (h hne)
  · intro h
    exact ⟨fun _ => returns_pure _ v, fun hne => returns_map.mpr (h hne)⟩

/-- **A walk is complete if and only if each of its visits is.** -/
theorem returns_walkList {listAddr : Long} {w : Watched δ ρ π} :
    Returns (walkList visit listAddr) w ↔
      ∀ node v, Visits visit listAddr w node v → Returns (visit node) v := by
  unfold walkList
  rw [returns_bind_of (returns_longAt.mpr (room_zero listAddr))]
  unfold After
  rw [longAt_zero]
  have hrounds : ∀ (head : Long) (w₁ : Watched δ ρ π),
      Returns (rounds (listRound visit) maxWalkEntries (head, []) >>= fun c => pure c.2) w₁ ↔
        ∀ c u, Enters (listRound visit) maxWalkEntries (head, []) w₁ c u →
          Returns (listRound visit c) u := by
    intro head w₁
    rw [returns_map, returns_rounds]
  constructor
  · rintro h node v ⟨head, w₁, c, u, succ, hhead, hent, hsucc, hne, rfl⟩
    exact returns_listRound.mp ((hrounds head w₁).mp (h head w₁ hhead) c u hent) succ v hsucc hne
  · intro h head w₁ hhead
    refine (hrounds head w₁).mpr fun c u hent => returns_listRound.mpr fun succ v hsucc hne => ?_
    exact h c.1 v ⟨head, w₁, c, u, succ, hhead, hent, hsucc, hne, rfl⟩

end

/-- The tasks of a list end in the address space. -/
def TasksFit (listAddr : Long) (w : Watched δ ρ π) : Prop :=
  ∀ node v, Visits visitTask listAddr w node v → TypedFits IsTask 22 node v

def LibrariesFit (listAddr : Long) (w : Watched δ ρ π) : Prop :=
  ∀ node v, Visits (visitLibrary intuitionName) listAddr w node v →
    TypedFits (· = ntLibrary) 10 node v

def MemFits (listAddr : Long) (w : Watched δ ρ π) : Prop :=
  ∀ node v, Visits visitMem listAddr w node v → Room node 28

theorem returns_walkTaskList : Returns (walkTaskList listAddr) w ↔ TasksFit listAddr w :=
  returns_walkList.trans <|
    forall_congr' fun _ => forall_congr' fun _ => forall_congr' fun _ => returns_visitTask

theorem returns_walkMemList : Returns (walkMemList listAddr) w ↔ MemFits listAddr w :=
  returns_walkList.trans <|
    forall_congr' fun _ => forall_congr' fun _ => forall_congr' fun _ => returns_visitMem

theorem returns_findLibraryBase :
    Returns (findLibraryBase listAddr intuitionName) w ↔ LibrariesFit listAddr w := by
  unfold findLibraryBase
  rw [returns_map, returns_walkList]
  exact forall_congr' fun _ => forall_congr' fun _ => forall_congr' fun _ => returns_visitLibrary

/-! ## Resident modules -/

/-- The elements of the array that are read, and the `Resident`s behind them, end in the address
space. -/
def ResidentsFit (arrayAddr : Long) (w : Watched δ ρ π) : Prop :=
  arrayAddr ≠ 0 → ∀ c v, Enters (residentRound arrayAddr) maxWalkEntries (0, []) w c v →
    Room arrayAddr (c.1 * 4) ∧
      ∀ entry u, readLong (arrayAddr + BitVec.ofNat 32 (c.1 * 4)) v = some (entry, u) →
        entry ≠ 0 → (u.bus.readWord entry).1 = Resident.matchWord → Room entry 18

/-- The rounds of the walk count the elements. -/
theorem index_of_enters {n : Nat} {c d : Nat × List ResidentEntry} {v : Watched δ ρ π}
    (h : Enters (residentRound arrayAddr) n c w d v) : d.1 < c.1 + n := by
  induction h with
  | here => omega
  | @next n c c' d w w' v hround _ ih =>
    have hindex : c'.1 = c.1 + 1 := by
      unfold residentRound at hround
      rw [bind_apply] at hround
      obtain ⟨⟨entry, u⟩, -, hround⟩ := Option.bind_eq_some_iff.mp hround
      dsimp only at hround
      split at hround
      · cases hround
      · rw [bind_apply] at hround
        obtain ⟨⟨matchWord, u'⟩, -, hround⟩ := Option.bind_eq_some_iff.mp hround
        dsimp only at hround
        split at hround
        · cases hround
        · rw [bind_apply] at hround
          obtain ⟨⟨resident, u''⟩, -, hround⟩ := Option.bind_eq_some_iff.mp hround
          cases hround
          rfl
    omega

theorem wordAt_zero (base : Long) (w : Watched δ ρ π) : wordAt base 0 w = readWord base w := by
  unfold wordAt
  rw [bind_apply, address_of_room (room_zero base), show base + 0 = base from BitVec.add_zero base]
  rfl

theorem returns_residentRound {c : Nat × List ResidentEntry} {v : Watched δ ρ π}
    (hindex : c.1 < maxWalkEntries) :
    Returns (residentRound arrayAddr c) v ↔ Room arrayAddr (c.1 * 4) ∧
      ∀ entry u, readLong (arrayAddr + BitVec.ofNat 32 (c.1 * 4)) v = some (entry, u) →
        entry ≠ 0 → (u.bus.readWord entry).1 = Resident.matchWord → Room entry 18 := by
  have hoffset : (BitVec.ofNat 32 (c.1 * 4)).toNat = c.1 * 4 := by
    have : maxWalkEntries = 512 := rfl
    rw [BitVec.toNat_ofNat]
    omega
  unfold residentRound
  rw [returns_bind, returns_longAt, hoffset]
  refine and_congr_right fun hroom => ?_
  unfold After
  rw [longAt_of_room (by rwa [hoffset])]
  refine forall_congr' fun entry => forall_congr' fun u => forall_congr' fun _ => ?_
  have hrest : Returns (wordAt entry Resident.rtMatchWord >>= fun matchWord =>
      if matchWord ≠ Resident.matchWord then pure (false, c)
      else residentEntry entry >>= fun resident =>
        pure (true, (c.1 + 1, c.2 ++ [resident]))) u ↔
        ((u.bus.readWord entry).1 = Resident.matchWord → Room entry 18) := by
    rw [returns_bind_of (returns_wordAt.mpr (room_zero entry))]
    unfold After
    rw [wordAt_zero]
    constructor
    · intro h hmatch
      have := (returns_ite.mp (h _ _ rfl)).2 (not_not_intro hmatch)
      exact returns_residentEntry.mp (returns_map.mp this)
    · intro h matchWord t hat
      cases hat
      rw [returns_ite]
      exact ⟨fun _ => returns_pure _ _, fun hmatch =>
        returns_map.mpr (returns_residentEntry.mpr (h (not_not.mp hmatch)))⟩
  refine returns_ite.trans ?_
  constructor
  · rintro ⟨-, h⟩ hne
    exact hrest.mp (h hne)
  · intro h
    exact ⟨fun _ => returns_pure _ u, fun hne => hrest.mpr (h hne)⟩

theorem returns_walkResidentModules :
    Returns (walkResidentModules arrayAddr) w ↔ ResidentsFit arrayAddr w := by
  unfold walkResidentModules ResidentsFit
  rw [returns_ite]
  have hwalk : Returns (rounds (residentRound arrayAddr) maxWalkEntries (0, []) >>=
      fun c => pure c.2) w ↔ ∀ c v, Enters (residentRound arrayAddr) maxWalkEntries (0, []) w c v →
        Returns (residentRound arrayAddr c) v := by
    rw [returns_map, returns_rounds]
  constructor
  · rintro ⟨-, h⟩ hne c v hent
    have hindex := index_of_enters hent
    exact (returns_residentRound (by omega)).mp (hwalk.mp (h hne) c v hent)
  · intro h
    refine ⟨fun _ => returns_pure _ w, fun hne => hwalk.mpr fun c v hent => ?_⟩
    have hindex := index_of_enters hent
    exact (returns_residentRound (by omega)).mpr (h hne c v hent)

/-! ## ExecBase -/

theorem lt_of_room (h : Room base offset.toNat) :
    (base + offset).toNat = base.toNat + offset.toNat := by
  have hlt : base.toNat + offset.toNat < 0x100000000 := h
  rw [BitVec.toNat_add]
  omega

theorem returns_sumWords {last : Long} {words k : Nat} {addr : Long} {sum : Word}
    (hk : addr.toNat + 2 * k = last.toNat) (hwords : k < words) :
    Returns (sumWords last words addr sum) w := by
  induction words generalizing k addr sum w with
  | zero => omega
  | succ words ih =>
    unfold sumWords
    have htwo : (2 : Long).toNat = 2 := rfl
    refine returns_ite.mpr ⟨fun hlt => ?_, fun _ => returns_pure _ w⟩
    have hlt' : addr.toNat < last.toNat := hlt
    refine returns_bind.mpr ⟨returns_readWord addr w, fun word t _ => ?_⟩
    have hroom : Room addr (2 : Long).toNat := by
      have := last.isLt
      unfold Room
      omega
    refine returns_bind.mpr ⟨returns_address.mpr hroom, ?_⟩
    intro addr' t' hat
    rw [address_of_room hroom] at hat
    cases hat
    have hnext := lt_of_room hroom
    exact ih (k := k - 1) (by omega) (by omega)

/-- The checksum covers 42 words. -/
theorem returns_chkSumConsistent (h : Room base 84) : Returns (chkSumConsistent base) w := by
  unfold chkSumConsistent
  have hchk : Room base ExecBase.chkSum.toNat := h.mono (by decide)
  have hsum := lt_of_room hchk
  have heighty : ExecBase.chkSum.toNat = 82 := rfl
  have htwo : (2 : Long).toNat = 2 := rfl
  have hlast : Room (base + ExecBase.chkSum) (2 : Long).toNat := by
    unfold Room at *
    omega
  have hend := lt_of_room hlast
  refine returns_bind.mpr ⟨returns_address.mpr hchk, ?_⟩
  intro chkSum t hat
  rw [address_of_room hchk] at hat
  cases hat
  refine returns_bind.mpr ⟨returns_address.mpr hlast, ?_⟩
  intro last t hat
  rw [address_of_room hlast] at hat
  cases hat
  exact returns_map.mpr (returns_sumWords (k := 42) (by omega) (by decide))

theorem returns_readHeader (h : Room base 296) : Returns (readHeader base) w := by
  unfold readHeader
  refine Returns.bind (returns_wordAt.mpr (h.mono (by decide))) fun _ _ => ?_
  refine Returns.bind (returns_wordAt.mpr (h.mono (by decide))) fun _ _ => ?_
  refine Returns.bind (returns_wordAt.mpr (h.mono (by decide))) fun _ _ => ?_
  refine Returns.bind (returns_longAt.mpr (h.mono (by decide))) fun _ _ => ?_
  refine Returns.bind (returns_wordAt.mpr h) fun _ _ => ?_
  exact returns_map.mpr (returns_chkSumConsistent (h.mono (by decide)))

theorem returns_alertAt (hoffset : offset.toNat ≤ 12) :
    Returns (alertAt base offset) w ↔ Room base (514 + offset.toNat) := by
  have halert : ExecBase.lastAlert.toNat = 514 := rfl
  unfold alertAt
  rw [returns_bind, returns_address]
  constructor
  · rintro ⟨hroom, h⟩
    have hlong := returns_longAt.mp (h _ _ (address_of_room hroom w))
    have hsum := lt_of_room hroom
    unfold Room at *
    omega
  · intro h
    have hroom : Room base ExecBase.lastAlert.toNat := h.mono (by omega)
    refine ⟨hroom, fun a t hat => ?_⟩
    rw [address_of_room hroom] at hat
    obtain ⟨rfl, rfl⟩ := Prod.mk.inj (Option.some.inj hat)
    have hsum := lt_of_room hroom
    refine returns_longAt.mpr ?_
    unfold Room at *
    omega

/-- The last longword of `LastAlert` is the end of what is read of `ExecBase`. -/
theorem returns_readPointers : Returns (readPointers base) w ↔ Room base 526 := by
  have h : Returns (readPointers base) w ↔ Room base 38 ∧ Room base 300 ∧ Room base 514 ∧
      Room base 518 ∧ Room base 522 ∧ Room base 526 ∧ Room base 276 ∧ True :=
    returns_bind_iff returns_longAt fun _ _ =>
      returns_bind_iff returns_longAt fun _ _ =>
        returns_bind_iff returns_longAt fun _ _ =>
          returns_bind_iff (returns_alertAt (by decide)) fun _ _ =>
            returns_bind_iff (returns_alertAt (by decide)) fun _ _ =>
              returns_bind_iff (returns_alertAt (by decide)) fun _ _ =>
                returns_bind_iff returns_longAt fun _ u => iff_true_intro (returns_pure _ u)
  rw [h]
  constructor
  · rintro ⟨-, -, -, -, -, hlast, -⟩
    exact hlast
  · intro h
    exact ⟨h.mono (by decide), h.mono (by decide), h.mono (by decide), h.mono (by decide),
      h.mono (by decide), h, h.mono (by decide), trivial⟩

theorem returns_readIntuition {base : Option Long} :
    Returns (readIntuition base) w ↔ ∀ i, base = some i → Room i 70 := by
  cases base with
  | none => exact iff_of_true (returns_pure _ w) fun i hi => nomatch hi
  | some base =>
    have h : Returns (readIntuition (some base)) w ↔
        Room base 70 ∧ Room base 68 ∧ Room base 56 ∧ True :=
      returns_bind_iff returns_wordAt fun _ _ =>
        returns_bind_iff returns_wordAt fun _ _ =>
          returns_bind_iff returns_longAt fun _ u => iff_true_intro (returns_pure _ u)
    rw [h]
    constructor
    · rintro ⟨hroom, -⟩ i ⟨⟩
      exact hroom
    · intro hroom
      have hbase := hroom base rfl
      exact ⟨hbase, hbase.mono (by decide), hbase.mono (by decide), trivial⟩

/-- Memory is granted up to the type of the node. -/
theorem returns_findExecBase (w : Watched δ ρ π) : Returns findExecBase w := by
  unfold findExecBase
  refine returns_bind.mpr ⟨returns_readLong 4 w, fun ptr t _ => ?_⟩
  refine returns_bind.mpr ⟨rfl, fun v t' hat => ?_⟩
  cases hat
  refine returns_ite.mpr ⟨fun ⟨_, _, hslice⟩ => ?_, fun _ => returns_pure _ t⟩
  obtain ⟨bs, hbs⟩ := Option.isSome_iff_exists.mp hslice
  have hwrap := LawfulGuestMemory.noWrap hbs
  have hnine : (ExecBase.libNodeLnType + 1).toNat = 9 := rfl
  have hroom : Room ptr ExecBase.libNodeLnType.toNat := by
    have height : ExecBase.libNodeLnType.toNat = 8 := rfl
    unfold Room
    omega
  exact returns_map.mpr (returns_byteAt.mpr hroom)

/-! ## The report -/

/-- Every structure behind `ExecBase` that the report reads through ends in the address space. -/
def BaseFits (base : Long) (w : Watched δ ρ π) : Prop :=
  Room base 526 ∧ After (readPointers base) w fun pointers w =>
    LibrariesFit (base + ExecBase.libList) w ∧
    After (findLibraryBase (base + ExecBase.libList) intuitionName) w fun intuitionBase w =>
      (∀ i, intuitionBase = some i → Room i 70) ∧
      After (readIntuition intuitionBase) w fun _ w => After (readHeader base) w fun _ w =>
        ResidentsFit pointers.resModules w ∧
        After (walkResidentModules pointers.resModules) w fun _ w =>
          TasksFit (base + ExecBase.taskReady) w ∧
          After (walkTaskList (base + ExecBase.taskReady)) w fun _ w =>
            TasksFit (base + ExecBase.taskWait) w ∧
            After (walkTaskList (base + ExecBase.taskWait)) w fun _ w =>
              TaskFits pointers.thisTask w ∧
              After (readTask pointers.thisTask) w fun _ w => MemFits (base + ExecBase.memList) w

def Fits (w : Watched δ ρ π) : Prop :=
  After findExecBase w fun execBase w => ∀ base, execBase = some base → BaseFits base w

omit [BlockDevice δ] [PacketBackend ρ] [PciBackend π] in
theorem returns_address_bind {α : Type} {f : Long → Inspect δ ρ π α} (h : Room base offset.toNat) :
    Returns (address base offset >>= f) w ↔ Returns (f (base + offset)) w := by
  unfold Returns
  rw [bind_apply, address_of_room h]
  rfl

theorem returns_inspectBase : Returns (inspectBase base) w ↔ BaseFits base w := by
  by_cases hroom : Room base 526
  · unfold inspectBase BaseFits
    refine returns_bind_after returns_readPointers fun pointers w _ => ?_
    refine (returns_address_bind (hroom.mono (by decide))).trans ?_
    refine returns_bind_after returns_findLibraryBase fun intuitionBase w _ => ?_
    refine returns_bind_after returns_readIntuition fun intuition w _ => ?_
    have hheader : Returns (readHeader base) w := returns_readHeader (hroom.mono (by decide))
    refine (returns_bind_of hheader).trans (after_congr fun header w _ => ?_)
    refine returns_bind_after returns_walkResidentModules fun residentModules w _ => ?_
    refine (returns_address_bind (hroom.mono (by decide))).trans ?_
    refine returns_bind_after returns_walkTaskList fun taskReady w _ => ?_
    refine (returns_address_bind (hroom.mono (by decide))).trans ?_
    refine returns_bind_after returns_walkTaskList fun taskWait w _ => ?_
    refine returns_bind_after returns_readTask fun thisTask w _ => ?_
    refine (returns_address_bind (hroom.mono (by decide))).trans ?_
    exact returns_map.trans returns_walkMemList
  · refine iff_of_false (fun h => hroom ?_) fun h => hroom h.1
    exact returns_readPointers.mp (returns_bind.mp h).1

theorem returns_inspect : Returns inspect w ↔ Fits w := by
  unfold inspect Fits
  refine (returns_bind_of (returns_findExecBase w)).trans (after_congr fun execBase w _ => ?_)
  cases execBase with
  | none => exact iff_of_true (returns_pure _ w) fun base hbase => nomatch hbase
  | some base =>
    refine returns_inspectBase.trans ⟨?_, fun h => h base rfl⟩
    rintro h _ ⟨⟩
    exact h

/-! ## Reads -/

abbrev Reads {α : Type} (m : Inspect δ ρ π α) (n : Nat) : Prop := Costs Watched.reads m n

omit [BlockDevice δ] [PacketBackend ρ] [PciBackend π] in
theorem reads_address (base offset : Long) :
    Reads (address base offset : Inspect δ ρ π Long) 0 := by
  intro w a t h
  unfold address at h
  obtain ⟨b, -, hb⟩ := Option.map_eq_some_iff.mp h
  obtain ⟨rfl, rfl⟩ := Prod.mk.inj hb
  exact Nat.le_refl _

theorem reads_readByte : Reads (readByte a : Inspect δ ρ π Byte) 1 := by
  rintro w _ _ ⟨⟩
  exact Nat.le_refl _

theorem reads_readWord : Reads (readWord a : Inspect δ ρ π Word) 1 := by
  rintro w _ _ ⟨⟩
  exact Nat.le_refl _

theorem reads_readLong : Reads (readLong a : Inspect δ ρ π Long) 1 := by
  rintro w _ _ ⟨⟩
  exact Nat.le_refl _

theorem reads_byteAt (base offset : Long) : Reads (byteAt base offset : Inspect δ ρ π Byte) 1 :=
  (reads_address base offset).bind reads_readByte

theorem reads_wordAt (base offset : Long) : Reads (wordAt base offset : Inspect δ ρ π Word) 1 :=
  (reads_address base offset).bind reads_readWord

theorem reads_longAt (base offset : Long) : Reads (longAt base offset : Inspect δ ρ π Long) 1 :=
  (reads_address base offset).bind reads_readLong

theorem reads_readCstr : Reads (readCstr a : Inspect δ ρ π (List Byte)) 96 := by
  have hround : ∀ c, Reads (cstrRound c : Inspect δ ρ π _) 1 := fun c =>
    (reads_readByte c.1).bind fun byte => Costs.ite (Costs.pure _) (Costs.pure _)
  refine Costs.ite ((Costs.pure []).mono (Nat.zero_le 96)) ?_
  exact (Costs.rounds hround maxStringLen (a, [])).bind fun c => Costs.pure c.2

theorem reads_readNodeName (node : Long) : Reads (readNodeName node : Inspect δ ρ π _) 98 :=
  (reads_longAt node _).bind fun ptr => (reads_readCstr ptr).bind fun name =>
    (reads_byteAt node _).bind fun pri => Costs.pure (name, pri)

theorem reads_walkList {β : Type} {visit : Long → Inspect δ ρ π (List β × Bool)} {n : Nat}
    (h : ∀ node, Reads (visit node) n) (listAddr : Long) :
    Reads (walkList visit listAddr) (1 + maxWalkEntries * (1 + n)) := by
  have hround : ∀ c, Reads (listRound visit c) (1 + n) := fun c =>
    (reads_longAt c.1 _).bind fun succ =>
      Costs.ite ((Costs.pure _).mono (Nat.zero_le n)) ((h c.1).bind fun found => Costs.pure _)
  exact (reads_longAt listAddr _).bind fun head =>
    (Costs.rounds hround maxWalkEntries (head, [])).bind fun c => Costs.pure c.2

theorem reads_taskEntry (task : Long) : Reads (taskEntry task : Inspect δ ρ π TaskEntry) 100 :=
  (reads_readNodeName task).bind fun _ => (reads_byteAt task _).bind fun _ =>
    (reads_longAt task _).bind fun _ => Costs.pure _

theorem reads_visitTask (node : Long) : Reads (visitTask node : Inspect δ ρ π _) 101 :=
  (reads_byteAt node _).bind fun _ =>
    Costs.ite ((reads_taskEntry node).bind fun _ => Costs.pure _)
      ((Costs.pure _).mono (Nat.zero_le 100))

theorem reads_visitMem (node : Long) : Reads (visitMem node : Inspect δ ρ π _) 102 :=
  (reads_readNodeName node).bind fun _ => (reads_wordAt node _).bind fun _ =>
    (reads_longAt node _).bind fun _ => (reads_longAt node _).bind fun _ =>
      (reads_longAt node _).bind fun _ => Costs.pure _

theorem reads_visitLibrary (name : List Byte) (node : Long) :
    Reads (visitLibrary name node : Inspect δ ρ π _) 99 :=
  (reads_byteAt node _).bind fun _ =>
    Costs.ite
      ((reads_readNodeName node).bind fun _ => Costs.ite (Costs.pure _) (Costs.pure _))
      ((Costs.pure _).mono (Nat.zero_le 98))

theorem reads_findLibraryBase (listAddr : Long) (name : List Byte) :
    Reads (findLibraryBase listAddr name : Inspect δ ρ π _) 51201 :=
  (reads_walkList (reads_visitLibrary name) listAddr).bind fun _ => Costs.pure _

theorem reads_readTask (task : Long) : Reads (readTask task : Inspect δ ρ π _) 101 :=
  Costs.ite ((Costs.pure _).mono (Nat.zero_le 101)) <|
    (reads_byteAt task _).bind fun _ =>
      Costs.ite ((Costs.pure _).mono (Nat.zero_le 100))
        ((reads_taskEntry task).bind fun _ => Costs.pure _)

theorem reads_residentEntry (entry : Long) : Reads (residentEntry entry : Inspect δ ρ π _) 197 :=
  (reads_longAt entry _).bind fun namePtr => (reads_longAt entry _).bind fun idPtr =>
    (reads_readCstr namePtr).bind fun _ => (reads_readCstr idPtr).bind fun _ =>
      (reads_byteAt entry _).bind fun _ => (reads_byteAt entry _).bind fun _ =>
        (reads_byteAt entry _).bind fun _ => Costs.pure _

theorem reads_walkResidentModules (arrayAddr : Long) :
    Reads (walkResidentModules arrayAddr : Inspect δ ρ π _) (maxWalkEntries * 199) := by
  have hround : ∀ c, Reads (residentRound arrayAddr c : Inspect δ ρ π _) 199 := fun c =>
    (reads_longAt arrayAddr _).bind fun entry =>
      Costs.ite ((Costs.pure _).mono (Nat.zero_le 198)) <|
        (reads_wordAt entry _).bind fun _ =>
          Costs.ite ((Costs.pure _).mono (Nat.zero_le 197))
            ((reads_residentEntry entry).bind fun _ => Costs.pure _)
  refine Costs.ite ((Costs.pure _).mono (Nat.zero_le _)) ?_
  exact (Costs.rounds hround maxWalkEntries (0, [])).bind fun _ => Costs.pure _

theorem reads_sumWords (last : Long) (words : Nat) (addr : Long) (sum : Word) :
    Reads (sumWords last words addr sum : Inspect δ ρ π Word) words := by
  induction words generalizing addr sum with
  | zero => rintro w _ _ ⟨⟩
  | succ words ih =>
    refine Costs.mono (n := 1 + (0 + words)) ?_ (by omega)
    refine Costs.ite ?_ ((Costs.pure sum).mono (Nat.zero_le _))
    exact (reads_readWord addr).bind fun word =>
      (reads_address addr 2).bind fun next => ih next (sum + word)

theorem reads_chkSumConsistent (base : Long) :
    Reads (chkSumConsistent base : Inspect δ ρ π Bool) 43 :=
  (reads_address base _).bind fun chkSum => (reads_address chkSum 2).bind fun last =>
    (reads_sumWords last 43 base 0).bind fun _ => Costs.pure _

theorem reads_findExecBase : Reads (findExecBase : Inspect δ ρ π (Option Long)) 2 := by
  have hget : Reads (get : Inspect δ ρ π _) 0 := by
    rintro w _ _ ⟨⟩
    exact Nat.le_refl _
  exact (reads_readLong 4).bind fun ptr => hget.bind fun w =>
    Costs.ite ((reads_byteAt ptr _).bind fun _ => Costs.pure _)
      ((Costs.pure none).mono (Nat.zero_le 1))

theorem reads_alertAt (base offset : Long) : Reads (alertAt base offset : Inspect δ ρ π Long) 1 :=
  (reads_address base _).bind fun lastAlert => reads_longAt lastAlert offset

theorem reads_readPointers (base : Long) : Reads (readPointers base : Inspect δ ρ π _) 7 :=
  (reads_longAt base _).bind fun _ => (reads_longAt base _).bind fun _ =>
    (reads_longAt base _).bind fun _ => (reads_alertAt base _).bind fun _ =>
      (reads_alertAt base _).bind fun _ => (reads_alertAt base _).bind fun _ =>
        (reads_longAt base _).bind fun _ => Costs.pure _

theorem reads_readIntuition (base : Option Long) :
    Reads (readIntuition base : Inspect δ ρ π _) 3 := by
  cases base with
  | none => exact (Costs.pure none).mono (Nat.zero_le 3)
  | some base =>
    exact (reads_wordAt base _).bind fun _ => (reads_wordAt base _).bind fun _ =>
      (reads_longAt base _).bind fun _ => Costs.pure _

theorem reads_readHeader (base : Long) : Reads (readHeader base : Inspect δ ρ π _) 48 :=
  (reads_wordAt base _).bind fun _ => (reads_wordAt base _).bind fun _ =>
    (reads_wordAt base _).bind fun _ => (reads_longAt base _).bind fun _ =>
      (reads_wordAt base _).bind fun _ => (reads_chkSumConsistent base).bind fun _ => Costs.pure _

theorem reads_walkTaskList (listAddr : Long) :
    Reads (walkTaskList listAddr : Inspect δ ρ π _) 52225 :=
  reads_walkList reads_visitTask listAddr

theorem reads_walkMemList (listAddr : Long) :
    Reads (walkMemList listAddr : Inspect δ ρ π _) 52737 :=
  reads_walkList reads_visitMem listAddr

theorem reads_inspectBase (base : Long) :
    Reads (inspectBase base : Inspect δ ρ π Report) 310435 :=
  (reads_readPointers base).bind fun pointers => (reads_address base _).bind fun libList =>
    (reads_findLibraryBase libList intuitionName).bind fun intuitionBase =>
      (reads_readIntuition intuitionBase).bind fun _ => (reads_readHeader base).bind fun _ =>
        (reads_walkResidentModules pointers.resModules).bind fun _ =>
          (reads_address base _).bind fun readyList => (reads_walkTaskList readyList).bind fun _ =>
            (reads_address base _).bind fun waitList => (reads_walkTaskList waitList).bind fun _ =>
              (reads_readTask pointers.thisTask).bind fun _ =>
                (reads_address base _).bind fun memList => (reads_walkMemList memList).bind fun _ =>
                  Costs.pure _

theorem reads_inspect : Reads (inspect : Inspect δ ρ π Report) 310437 := by
  have hfind : Reads (findExecBase : Inspect δ ρ π (Option Long)) 2 := reads_findExecBase
  refine Costs.bind (k := 310435) hfind fun execBase => ?_
  cases execBase with
  | none => exact (Costs.pure Report.absent).mono (Nat.zero_le _)
  | some base => exact reads_inspectBase base

/-- **The report is made, in a fixed number of reads, if and only if what it reads ends in the
address space.** -/
theorem inspect_returns_iff (w : Watched δ ρ π) :
    (∃ report v, inspect w = some (report, v) ∧ v.reads ≤ w.reads + 310437) ↔ Fits w := by
  refine Iff.trans ?_ returns_inspect
  constructor
  · rintro ⟨report, v, hinspect, -⟩
    exact Option.isSome_iff_exists.mpr ⟨_, hinspect⟩
  · intro h
    obtain ⟨⟨report, v⟩, hinspect⟩ := Option.isSome_iff_exists.mp h
    exact ⟨report, v, hinspect, reads_inspect w report v hinspect⟩

/-- An `ExecBase` at `$1000` whose library list begins eight bytes below 2^32. -/
def highLibrary : MachineBus MemDisk Empty Empty :=
  Transition.run MachineBus.step (MachineBus.new (fun _ => 0) (ByteSlice.zero 0))
    [.guest (.access (.writeByte 0xBFE201 0x03)), .guest (.access (.writeByte 0xBFE001 0x00)),
      .guest (.access (.writeLong 4 0x1000)), .guest (.access (.writeByte 0x1008 ntLibrary)),
      .guest (.access (.writeLong 0x117A 0xFFFFFFF8))]

theorem highLibrary_stops :
    highLibrary.Reachable ∧ (inspect ⟨highLibrary, 0⟩).isNone = true := by
  refine ⟨(Transition.Reachable.start ⟨_, _, rfl⟩).run _, ?_⟩
  decide

end Introspect

end M68kMachine
