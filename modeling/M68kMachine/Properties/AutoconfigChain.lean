import M68kMachine.Core.Autoconfig
import M68kMachine.Library.Transition
import Mathlib.Data.List.Induction

/-!
# The order of the AUTOCONFIG chain

What holds over every sequence of `add_board` calls and guest writes, from an empty chain.

* `placing` — the placement one write makes, if it makes one
* `chain_places_in_order` — only the current board is placed, once, and placements stay
* `romByte_read` — the nibbles of the window give back the current board's identity
-/

namespace M68kMachine

open Autoconfig

/-- What the machine and the guest do to the chain. -/
inductive ChainOp
  | addBoard (spec : BoardSpec)
  | write (address : Long) (value : Byte)

namespace AutoConfig

/-- The bus address of the configuration register at `offset`. -/
def registerAt (offset : Nat) : Long := BitVec.ofNat 32 (autoconfigBase + offset)

def isZorroII (spec : BoardSpec) : Bool := spec.boardType &&& 0xC0 = ertZorroII

def isZorroIII (spec : BoardSpec) : Bool := spec.boardType &&& 0xC0 = ertZorroIII

/-- The base a Zorro III board gets from the two bytes of its base register. -/
def z3Base (hi lo : Byte) : Long := (hi.setWidth 32 <<< 24) ||| (lo.setWidth 32 <<< 16)

/-- The base a Zorro II board gets from its single byte. -/
def z2Base (value : Byte) : Long := value.setWidth 32 <<< 16

/-- The placement that a write of `value` at `address` makes. -/
def placing (a : AutoConfig) (address : Long) (value : Byte) : Option Configured :=
  match a.currentSpec with
  | none => none
  | some spec =>
    if address = registerAt (Ec.z3Baseaddress + 1) ∧ isZorroIII spec then
      a.z3BaseHi.map fun hi => ⟨z3Base hi value, spec.sizeBytes⟩
    else if address = registerAt Ec.baseaddress ∧ isZorroII spec then
      some ⟨z2Base value, spec.sizeBytes⟩
    else none

def apply (a : AutoConfig) : ChainOp → AutoConfig
  | .addBoard spec => (a.addBoard spec).2
  | .write address value => a.write address value

/-- The chain after the operations `ops`. -/
def history (ops : List ChainOp) : AutoConfig := Transition.run apply new ops

theorem history_append (ops later : List ChainOp) :
    history (ops ++ later) = Transition.run apply (history ops) later :=
  Transition.run_append ..

theorem history_concat (ops : List ChainOp) (op : ChainOp) :
    history (ops ++ [op]) = (history ops).apply op := history_append ops [op]

/-! ## One write -/

variable {address : Long}

theorem offset_eq_iff {offset : Nat} (h : offset < 0x10000) :
    (address - BitVec.ofNat 32 autoconfigBase).toNat = offset ↔ address = registerAt offset := by
  have hbase : autoconfigBase = 0xE80000 := rfl
  have hlt := address.isLt
  unfold registerAt
  rw [← BitVec.toNat_inj, BitVec.toNat_sub, BitVec.toNat_ofNat, BitVec.toNat_ofNat, hbase]
  omega

/-- **What one write does**: it places or retires the current board, latches a high byte, or
nothing. -/
theorem write_effect (a : AutoConfig) (address : Long) (value : Byte) :
    (∃ p, a.placing address value = some p ∧
        a.write address value =
          { a with placed := a.placed.setIfInBounds a.current (some p),
                   current := a.current + 1, z3BaseHi := none }) ∨
      a.placing address value = none ∧
        (a.write address value = a ∧
            (address = registerAt Ec.z3Baseaddress →
              ∀ spec, a.currentSpec = some spec → isZorroIII spec = false) ∨
          a.write address value = a.advance ∧ address = registerAt Ec.shutup ∨
          a.write address value = { a with z3BaseHi := some value } ∧
            address = registerAt Ec.z3Baseaddress ∧
            ∃ spec, a.currentSpec = some spec ∧ isZorroIII spec = true) := by
  have hz3 : Ec.z3Baseaddress = 0x44 := rfl
  have hz2 : Ec.baseaddress = 0x48 := rfl
  have hlo : Ec.baseaddressLo = 0x4A := rfl
  have hshut : Ec.shutup = 0x4C := rfl
  unfold write placing
  cases hcur : a.currentSpec with
  | none => exact .inr ⟨rfl, .inl ⟨rfl, fun _ spec h => by cases h⟩⟩
  | some spec =>
    dsimp only
    simp only [offset_eq_iff (show Ec.z3Baseaddress < 0x10000 by decide),
      offset_eq_iff (show Ec.z3Baseaddress + 1 < 0x10000 by decide),
      offset_eq_iff (show Ec.baseaddress < 0x10000 by decide),
      offset_eq_iff (show Ec.baseaddressLo < 0x10000 by decide),
      offset_eq_iff (show Ec.shutup < 0x10000 by decide)]
    have hIII : (spec.boardType &&& 0xC0 = ertZorroIII) ↔ isZorroIII spec = true := by
      simp [isZorroIII]
    have hII : (spec.boardType &&& 0xC0 = ertZorroII) ↔ isZorroII spec = true := by
      simp [isZorroII]
    simp only [hIII, hII]
    by_cases hhi : address = registerAt Ec.z3Baseaddress ∧ isZorroIII spec = true
    · obtain ⟨rfl, hspec⟩ := hhi
      have hne : registerAt Ec.z3Baseaddress ≠ registerAt (Ec.z3Baseaddress + 1) := by decide
      have hne' : registerAt Ec.z3Baseaddress ≠ registerAt Ec.baseaddress := by decide
      simp only [hne, hne', false_and, if_false, hspec, and_self, if_true]
      exact .inr ⟨trivial, .inr (.inr ⟨trivial, trivial, spec, rfl, hspec⟩)⟩
    · rw [if_neg hhi]
      -- an inert write at the latch's address finds a board that is not Zorro III
      have hinert : address = registerAt Ec.z3Baseaddress →
          ∀ spec', some spec = some spec' → isZorroIII spec' = false := by
        rintro haddr spec' ⟨rfl⟩
        exact Bool.eq_false_iff.mpr fun h => hhi ⟨haddr, h⟩
      split_ifs with hlow hz hl hs
      · cases hlatch : a.z3BaseHi with
        | none => exact .inr ⟨rfl, .inl ⟨rfl, hinert⟩⟩
        | some hi => exact .inl ⟨_, rfl, rfl⟩
      · exact .inl ⟨_, rfl, rfl⟩
      · exact .inr ⟨rfl, .inl ⟨rfl, hinert⟩⟩
      · exact .inr ⟨rfl, .inr (.inl ⟨rfl, hs⟩)⟩
      · exact .inr ⟨rfl, .inl ⟨rfl, hinert⟩⟩

variable {a : AutoConfig} {p : Configured}

/-- A placement has a base formed for the current board, from the latched high byte for Zorro
III. -/
theorem placing_eq_some {value : Byte} (h : a.placing address value = some p) :
    ∃ spec, a.currentSpec = some spec ∧ p.sizeBytes = spec.sizeBytes ∧
      ((isZorroIII spec = true ∧ address = registerAt (Ec.z3Baseaddress + 1) ∧
          ∃ hi, a.z3BaseHi = some hi ∧ p.base = z3Base hi value) ∨
        isZorroII spec = true ∧ address = registerAt Ec.baseaddress ∧ p.base = z2Base value) := by
  unfold placing at h
  cases hcur : a.currentSpec with
  | none =>
    rw [hcur] at h
    cases h
  | some spec =>
    rw [hcur] at h
    dsimp only at h
    refine ⟨spec, rfl, ?_⟩
    split_ifs at h with hlow hz
    · cases hlatch : a.z3BaseHi with
      | none =>
        rw [hlatch] at h
        cases h
      | some hi =>
        rw [hlatch] at h
        cases h
        exact ⟨rfl, .inl ⟨hlow.2, hlow.1, hi, rfl, rfl⟩⟩
    · cases h
      exact ⟨rfl, .inr ⟨hz.2, hz.1, rfl⟩⟩

/-! ## Adding a board -/

/-- Adding a board fills the first empty place of the chain and leaves the others. -/
theorem addBoard_effect (a : AutoConfig) (spec : BoardSpec) :
    (a.addBoard spec).2.z3BaseHi = a.z3BaseHi ∧
      ∀ spec', a.currentSpec = some spec' → (a.addBoard spec).2.currentSpec = some spec' := by
  unfold addBoard
  split
  · exact ⟨rfl, fun _ h => h⟩
  · rename_i idx hidx
    refine ⟨rfl, ?_⟩
    intro spec' h
    unfold currentSpec at h ⊢
    have hne : a.current ≠ idx := by
      rintro rfl
      obtain ⟨hlt, hnone, -⟩ := List.findIdx?_eq_some_iff_getElem.mp hidx
      have hlt' : a.current < 8 := by simpa using hlt
      rw [Vector.getElem?_eq_getElem hlt'] at h
      have hsome : a.specs[a.current] = some spec' := by simpa using h
      rw [Vector.getElem_toList, hsome] at hnone
      cases hnone
    simp only [Vector.getElem?_setIfInBounds]
    rw [if_neg (fun he => hne he.symm)]
    exact h

/-! ## The latch -/

/-- A latched high byte is the last one written since `ops` began, for the current board. -/
structure LatchedBy (ops : List ChainOp) (a : AutoConfig) (hi : Byte) : Prop where
  zorroIII : ∃ spec, a.currentSpec = some spec ∧ isZorroIII spec = true
  written : ∃ before after, ops = before ++ .write (registerAt Ec.z3Baseaddress) hi :: after ∧
    (history before).current = a.current ∧
    ∀ value, .write (registerAt Ec.z3Baseaddress) value ∉ after

/-- An operation that leaves the latch, the current board and its identity alone. -/
theorem LatchedBy.keep {ops : List ChainOp} {a' : AutoConfig} {hi : Byte} (op : ChainOp)
    (h : LatchedBy ops a hi) (hcur : a'.current = a.current)
    (hspec : ∀ spec, a.currentSpec = some spec → a'.currentSpec = some spec)
    (hop : ∀ value, op ≠ .write (registerAt Ec.z3Baseaddress) value) :
    LatchedBy (ops ++ [op]) a' hi := by
  obtain ⟨⟨spec, hs, hz⟩, before, after, hops, hbefore, hlast⟩ := h
  refine ⟨⟨spec, hspec spec hs, hz⟩, before, after ++ [op], ?_, ?_, ?_⟩
  · rw [hops, List.append_assoc, List.cons_append]
  · rw [hbefore, hcur]
  · intro value hmem
    rcases List.mem_append.mp hmem with hmem | hmem
    · exact hlast value hmem
    · exact hop value (List.mem_singleton.mp hmem).symm

theorem latchedBy_history (ops : List ChainOp) {hi : Byte}
    (h : (history ops).z3BaseHi = some hi) : LatchedBy ops (history ops) hi := by
  induction ops using List.reverseRecOn generalizing hi with
  | nil => cases h
  | append_singleton ops op ih =>
    rw [history_concat] at h ⊢
    generalize ha : history ops = a at h ih ⊢
    cases op with
    | addBoard spec =>
      obtain ⟨hlatch, hspec⟩ := a.addBoard_effect spec
      have hprev : a.z3BaseHi = some hi := hlatch ▸ h
      exact (ih hprev).keep _ (a.addBoard_chain spec).2 hspec (fun _ he => by cases he)
    | write address value =>
      have hstep : a.apply (.write address value) = a.write address value := rfl
      rw [hstep] at h ⊢
      rcases a.write_effect address value with
        ⟨p, -, hw⟩ | ⟨-, ⟨hw, hinert⟩ | ⟨hw, -⟩ | ⟨hw, haddr, spec, hcur, hspec⟩⟩
      · rw [hw] at h
        cases h
      · rw [hw] at h ⊢
        have hkeep := ih h
        refine hkeep.keep _ rfl (fun _ hs => hs) ?_
        rintro value' ⟨haddr, -⟩
        obtain ⟨spec, hcur, hspec⟩ := hkeep.zorroIII
        rw [hinert rfl spec hcur] at hspec
        cases hspec
      · rw [hw] at h
        cases h
      · rw [hw] at h ⊢
        have hval : value = hi := by simpa using h
        subst hval haddr
        refine ⟨⟨spec, hcur, hspec⟩, ops, [], rfl, ?_, fun _ hmem => by cases hmem⟩
        rw [ha]

/-! ## The chain -/

theorem apply_keeps_unplaced (a : AutoConfig) (op : ChainOp) (h : a.Unplaced) :
    (a.apply op).Unplaced := by
  cases op with
  | addBoard spec => exact h.addBoard spec
  | write address value => exact h.write address value

theorem unplaced_history (ops : List ChainOp) : (history ops).Unplaced :=
  Transition.run_invariant apply_keeps_unplaced ops unplaced_new

variable {i : Nat}

theorem placement_apply (h : a.Unplaced) (op : ChainOp) (hp : a.placement i = some p) :
    (a.apply op).placement i = some p := by
  cases op with
  | addBoard spec =>
    show (a.addBoard spec).2.placement i = some p
    rw [placement_of_placed (a.addBoard_chain spec).1, hp]
  | write address value => exact placement_write h hp address value

/-- A placement stays along everything that follows. -/
theorem placement_run (h : a.Unplaced) (later : List ChainOp) (hp : a.placement i = some p) :
    (Transition.run apply a later).placement i = some p :=
  (Transition.run_invariant (P := fun a => a.Unplaced ∧ a.placement i = some p)
    (fun a op ⟨hu, hi⟩ => ⟨apply_keeps_unplaced a op hu, placement_apply hu op hi⟩)
    later ⟨h, hp⟩).2

/-- An operation that changes the placement of board `i` is the write that places it. -/
theorem placement_changes (h : a.Unplaced) {op : ChainOp}
    (hne : (a.apply op).placement i ≠ a.placement i) :
    ∃ address value, op = .write address value ∧ i = a.current ∧ a.placement i = none ∧
      (a.apply op).placement i = a.placing address value ∧
      (a.apply op).current = a.current + 1 := by
  cases op with
  | addBoard spec => exact absurd (placement_of_placed (a.addBoard_chain spec).1 i) hne
  | write address value =>
    have hstep : a.apply (.write address value) = a.write address value := rfl
    rw [hstep] at hne ⊢
    rcases a.write_effect address value with
      ⟨p, hp, hw⟩ | ⟨-, ⟨hw, -⟩ | ⟨hw, -⟩ | ⟨hw, -⟩⟩
    · rw [hw] at hne ⊢
      have hi : i = a.current := by
        by_contra hi
        refine hne ?_
        unfold placement
        simp only [Vector.getElem?_setIfInBounds]
        rw [if_neg (fun he => hi he.symm)]
      subst hi
      refine ⟨address, value, rfl, rfl, h _ (Nat.le_refl _), ?_, rfl⟩
      rw [hp]
      have hnone := h a.current (Nat.le_refl _)
      unfold placement at hne ⊢
      simp only [Vector.getElem?_setIfInBounds] at hne ⊢
      unfold placement at hnone
      rw [if_pos trivial] at hne
      rw [if_pos trivial]
      by_cases hlt : a.current < 8
      · rw [if_pos hlt]
        rfl
      · rw [if_neg hlt, hnone] at hne
        exact absurd rfl hne
    · exact absurd (placement_of_placed (by rw [hw]) i) hne
    · exact absurd (placement_of_placed (by rw [hw]; rfl) i) hne
    · exact absurd (placement_of_placed (by rw [hw]) i) hne

/-! ## The nibble ROM -/

/-- Byte `i` of the ROM as two nibbles, complemented except in `er_Type`. -/
def romByte (a : AutoConfig) (i : Nat) : Byte :=
  let physical :=
    (a.read (registerAt (4 * i)) &&& 0xF0) ||| (a.read (registerAt (4 * i + 2)) >>> 4)
  if i = 0 then physical else ~~~physical

theorem nibbles (b : Byte) :
    ((b >>> 4 <<< 4) &&& 0xF0) ||| (((b &&& 0x0F) <<< 4) >>> 4) = b := by
  revert b
  decide

variable {spec : BoardSpec}

theorem read_registerAt (h : a.currentSpec = some spec) (hi : i < 16) :
    let physical :=
      if i = 0 then (romBytes spec).getD i 0 else ~~~(romBytes spec).getD i 0
    a.read (registerAt (4 * i)) = physical >>> 4 <<< 4 ∧
      a.read (registerAt (4 * i + 2)) = (physical &&& 0x0F) <<< 4 := by
  have hoff : ∀ off, off < 0x10000 →
      registerAt off - BitVec.ofNat 32 autoconfigBase = BitVec.ofNat 32 off := by
    intro off hlt
    have h : (registerAt off - BitVec.ofNat 32 autoconfigBase).toNat = off :=
      (offset_eq_iff hlt).2 rfl
    rw [← BitVec.toNat_inj, h, BitVec.toNat_ofNat, Nat.mod_eq_of_lt (by omega)]
  unfold read
  rw [h]
  dsimp only
  rw [hoff (4 * i) (by omega), hoff (4 * i + 2) (by omega)]
  have hrom : autoconfigRomBytes = 16 := rfl
  have heven : ∀ i < 16, BitVec.ofNat 32 (4 * i) &&& 1 = 0 ∧ BitVec.ofNat 32 (4 * i) &&& 2 = 0 ∧
      BitVec.ofNat 32 (4 * i + 2) &&& 1 = 0 ∧ BitVec.ofNat 32 (4 * i + 2) &&& 2 ≠ 0 := by
    decide
  obtain ⟨h1, h2, h3, h4⟩ := heven i hi
  have hidx : (BitVec.ofNat 32 (4 * i)).toNat / 4 = i := by
    rw [BitVec.toNat_ofNat, Nat.mod_eq_of_lt (by omega)]
    omega
  have hidx' : (BitVec.ofNat 32 (4 * i + 2)).toNat / 4 = i := by
    rw [BitVec.toNat_ofNat, Nat.mod_eq_of_lt (by omega)]
    omega
  rw [hidx, hidx', hrom]
  constructor
  · rw [if_neg (not_not_intro h1), if_neg (by omega : ¬16 ≤ i), if_pos h2]
  · rw [if_neg (not_not_intro h3), if_neg (by omega : ¬16 ≤ i), if_neg h4]

/-- **The nibbles give the ROM back.** -/
theorem romByte_read (h : a.currentSpec = some spec) (hi : i < 16) :
    a.romByte i = (romBytes spec).getD i 0 := by
  obtain ⟨hhigh, hlow⟩ := read_registerAt h hi
  unfold romByte
  dsimp only at hhigh hlow ⊢
  rw [hhigh, hlow, nibbles]
  split
  · rfl
  · exact BitVec.not_not

/-- The identity read back from the window. -/
theorem identity_read (h : a.currentSpec = some spec) :
    a.romByte 0 = spec.boardType ∧ a.romByte 1 = spec.product ∧ a.romByte 2 = spec.flags ∧
      be16 (a.romByte 4) (a.romByte 5) = spec.manufacturer ∧
      be32 (a.romByte 6) (a.romByte 7) (a.romByte 8) (a.romByte 9) = spec.serial ∧
      be16 (a.romByte 10) (a.romByte 11) = spec.initDiagVec := by
  have hword : ∀ w : Word, be16 (w.extractLsb' 8 8) (w.extractLsb' 0 8) = w := by
    intro w
    unfold be16
    have h := @BitVec.extractLsb'_append_extractLsb' 8 8 w
    exact h
  rw [romByte_read h (i := 0) (by decide), romByte_read h (i := 1) (by decide),
    romByte_read h (i := 2) (by decide), romByte_read h (i := 4) (by decide),
    romByte_read h (i := 5) (by decide), romByte_read h (i := 6) (by decide),
    romByte_read h (i := 7) (by decide), romByte_read h (i := 8) (by decide),
    romByte_read h (i := 9) (by decide), romByte_read h (i := 10) (by decide),
    romByte_read h (i := 11) (by decide)]
  exact ⟨rfl, rfl, rfl, hword _, be32_byteOf _, hword _⟩

/-! ## The chain as the guest sees it -/

/-- A Zorro III board is placed by the last high byte latched, while it was the current one. -/
theorem z3_placement_latched {ops : List ChainOp} {value : Byte}
    (hcur : (history ops).currentSpec = some spec) (hz : isZorroIII spec = true)
    (hp : ((history ops).write address value).placement (history ops).current = some p) :
    ∃ before hi after, ops = before ++ .write (registerAt Ec.z3Baseaddress) hi :: after ∧
      (history before).current = (history ops).current ∧
      (∀ later, .write (registerAt Ec.z3Baseaddress) later ∉ after) ∧
      p = ⟨z3Base hi value, spec.sizeBytes⟩ := by
  have hun := unplaced_history ops
  have hnone := hun _ (Nat.le_refl _)
  have hne : ((history ops).apply (.write address value)).placement (history ops).current ≠
      (history ops).placement (history ops).current := by
    show ((history ops).write address value).placement _ ≠ _
    rw [hp, hnone]
    simp
  obtain ⟨address', value', hop, -, -, hplace, -⟩ := placement_changes hun hne
  cases hop
  have hplacing : (history ops).placing address value = some p := hplace.symm.trans hp
  obtain ⟨spec', hcur', hsize, ⟨-, -, hi, hlatch, hbase⟩ | ⟨hII, -⟩⟩ := placing_eq_some hplacing
  · obtain rfl : spec = spec' := by simpa [hcur] using hcur'
    obtain ⟨-, before, after, hops, hbefore, hlast⟩ := latchedBy_history ops hlatch
    refine ⟨before, hi, after, hops, hbefore, hlast, ?_⟩
    cases p
    cases hsize
    cases hbase
    rfl
  · obtain rfl : spec = spec' := by simpa [hcur] using hcur'
    -- the two board classes differ in the top bits of `er_Type`
    simp only [isZorroIII, isZorroII, decide_eq_true_eq] at hz hII
    rw [hz] at hII
    cases hII

/-- **The chain places each board at most once, in order.** After any `add_board` calls and guest
writes: placed boards lie below the current one; an operation places only the current board and goes
past it; placements stay; a Zorro III base uses a high byte latched for the same board; and the
window shows the current board's identity. -/
theorem chain_places_in_order (ops : List ChainOp) :
    (∀ i p, (history ops).placement i = some p → i < (history ops).current) ∧
      (∀ op i, (history (ops ++ [op])).placement i ≠ (history ops).placement i →
        i = (history ops).current ∧ (history ops).placement i = none ∧
          (history (ops ++ [op])).current = (history ops).current + 1 ∧
          ∃ address value, op = .write address value) ∧
      (∀ later i p, (history ops).placement i = some p →
        (history (ops ++ later)).placement i = some p) ∧
      (∀ address value spec p, (history ops).currentSpec = some spec → isZorroIII spec = true →
        (history (ops ++ [.write address value])).placement (history ops).current = some p →
        ∃ before hi after, ops = before ++ .write (registerAt Ec.z3Baseaddress) hi :: after ∧
          (history before).current = (history ops).current ∧
          (∀ later, .write (registerAt Ec.z3Baseaddress) later ∉ after) ∧
          p = ⟨z3Base hi value, spec.sizeBytes⟩) ∧
      ∀ spec, (history ops).currentSpec = some spec →
        (∀ i < 16, (history ops).romByte i = (romBytes spec).getD i 0) ∧
        (history ops).romByte 0 = spec.boardType ∧ (history ops).romByte 1 = spec.product ∧
        (history ops).romByte 2 = spec.flags ∧
        be16 ((history ops).romByte 4) ((history ops).romByte 5) = spec.manufacturer ∧
        be32 ((history ops).romByte 6) ((history ops).romByte 7) ((history ops).romByte 8)
          ((history ops).romByte 9) = spec.serial ∧
        be16 ((history ops).romByte 10) ((history ops).romByte 11) = spec.initDiagVec := by
  have hun := unplaced_history ops
  refine ⟨?_, ?_, ?_, ?_, ?_⟩
  · intro i p hp
    by_contra hge
    rw [hun i (by omega)] at hp
    cases hp
  · intro op i hne
    rw [history_concat] at hne ⊢
    obtain ⟨address, value, hop, hi, hnone, -, hcur⟩ := placement_changes hun hne
    exact ⟨hi, hnone, hcur, address, value, hop⟩
  · intro later i p hp
    rw [history_append]
    exact placement_run hun later hp
  · intro address value spec p hcur hz hp
    rw [history_concat] at hp
    exact z3_placement_latched hcur hz hp
  · intro spec hcur
    exact ⟨fun i hi => romByte_read hcur hi, identity_read hcur⟩

end AutoConfig

end M68kMachine
