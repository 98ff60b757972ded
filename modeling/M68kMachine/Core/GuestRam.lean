import Mathlib.Algebra.Group.Nat.Defs
import M68kMachine.Core.GuestMemory

/-!
# Chip RAM, fast RAM and the device-write log

`GuestRam` of `lib.rs`: the two RAM regions of the machine. Chip RAM is fixed at address zero; fast
RAM answers in the window AUTOCONFIG gave its board, as far as its buffer reaches.

* `DeviceWriteLog` — the log of spans granted for writing, adjacent spans merged
* `GuestRam` — the regions, with `chipRamSpan` and `fastRamSpan` deciding what a span names
-/

namespace M68kMachine

abbrev chipRamSize : Nat := 0x200000
abbrev chipRamBase : Nat := 0x00000000
abbrev chipRamEnd : Nat := chipRamBase + chipRamSize

/-- `&mut [u8]` storage a board layer lends the machine. -/
structure ByteSlice where
  size : Nat
  bytes : Buffer Byte size

namespace ByteSlice

def get? (b : ByteSlice) (i : Nat) : Option Byte := b.bytes.get? i

def set (b : ByteSlice) (i : Nat) (value : Byte) : ByteSlice :=
  { b with bytes := b.bytes.set i value }

def zero (size : Nat) : ByteSlice := ⟨size, fun _ => 0⟩

end ByteSlice

/-! ## The device-write log -/

/-- Written spans, oldest first. A full log drops the newest and remembers that it did. -/
structure DeviceWriteLog where
  spans : List (Long × Long)
  capacity : Nat
  overflowed : Bool
  length_le : spans.length ≤ capacity

namespace DeviceWriteLog

def new (capacity : Nat) : DeviceWriteLog where
  spans := []
  capacity := capacity
  overflowed := false
  length_le := Nat.zero_le capacity

/-- The last span extended by the write `[addr, addr + len)`, when the two are adjacent. -/
def merged (last : Long × Long) (addr len : Long) : Option (Long × Long) :=
  match checkedAdd last.2 len with
  | none => none
  | some newLen =>
    if checkedAdd last.1 last.2 = some addr then some (last.1, newLen)
    else if checkedAdd addr len = some last.1 then some (addr, newLen)
    else none

def record (log : DeviceWriteLog) (addr len : Long) : DeviceWriteLog :=
  if len = 0 then log
  else
    match hlast : log.spans.getLast?.bind fun last => merged last addr len with
    | some span =>
      { log with
        spans := log.spans.dropLast ++ [span]
        length_le := by
          have hne : log.spans ≠ [] := by
            rintro h
            simp [h] at hlast
          have hpos := List.length_pos_iff.mpr hne
          have hle := log.length_le
          simp only [List.length_append, List.length_dropLast, List.length_singleton]
          omega }
    | none =>
      if h : log.spans.length < log.capacity then
        { log with
          spans := log.spans ++ [(addr, len)]
          length_le := by
            rw [List.length_append, List.length_singleton]
            exact h }
      else { log with overflowed := true }

def clear (log : DeviceWriteLog) : DeviceWriteLog := new log.capacity

end DeviceWriteLog

/-! ## The RAM regions -/

structure GuestRam where
  chipRam : Buffer Byte chipRamSize
  fastRam : Option ByteSlice
  /-- The place of fast RAM's board in the AUTOCONFIG chain. -/
  fastRamBoard : Option Nat
  /-- The base and length AUTOCONFIG gave that board, `none` until it is configured. -/
  fastWindow : Option (Long × Long)
  writeLog : Option DeviceWriteLog

namespace GuestRam

def new (chipRam : Buffer Byte chipRamSize) : GuestRam where
  chipRam := chipRam
  fastRam := none
  fastRamBoard := none
  fastWindow := none
  writeLog := none

/-- Record a granted span in the log, when one is attached. -/
def recordWriteSpan (r : GuestRam) (addr len : Long) : GuestRam :=
  { r with writeLog := r.writeLog.map fun log => log.record addr len }

/-- The place of `[addr, addr + len)` in chip RAM, when it lies inside it. -/
def chipRamSpan (addr len : Long) : Option (Span chipRamSize) :=
  match checkedAdd addr len with
  | none => none
  | some last =>
    if h : last.toNat ≤ chipRamEnd ∧ addr.toNat + len.toNat ≤ chipRamSize then
      some ⟨addr.toNat, len.toNat, h.2⟩
    else none

/-- The place of `[addr, addr + len)` in fast RAM, inside both the window and the buffer. -/
def fastRamSpan (window : Option (Long × Long)) (size : Nat) (addr len : Long) :
    Option (Span size) :=
  match window with
  | none => none
  | some (base, windowLen) =>
    match checkedAdd addr len, checkedAdd base windowLen with
    | some last, some windowEnd =>
      if addr.toNat < base.toNat ∨ windowEnd.toNat < last.toNat then none
      else if h : addr.toNat - base.toNat + len.toNat ≤ size then
        some ⟨addr.toNat - base.toNat, len.toNat, h⟩
      else none
    | _, _ => none

/-- Store a slice of fast RAM back. -/
def putFast (r : GuestRam) (mem : ByteSlice) (s : Span mem.size) (bs : List Byte) : GuestRam :=
  { r with fastRam := some { mem with bytes := mem.bytes.put s bs } }

def putChip (r : GuestRam) (s : Span chipRamSize) (bs : List Byte) : GuestRam :=
  { r with chipRam := r.chipRam.put s bs }

instance : GuestMemory GuestRam where
  ramSlice r addr len :=
    match chipRamSpan addr len with
    | some s => some (r.chipRam.slice s)
    | none => r.fastRam.bind fun mem =>
        (fastRamSpan r.fastWindow mem.size addr len).map mem.bytes.slice
  ramSliceMut r addr len :=
    match chipRamSpan addr len with
    | some s =>
      some (r.chipRam.slice s, fun bs => (r.recordWriteSpan addr len).putChip s bs)
    | none => r.fastRam.bind fun mem =>
        (fastRamSpan r.fastWindow mem.size addr len).map fun s =>
          (mem.bytes.slice s, fun bs => (r.recordWriteSpan addr len).putFast mem s bs)

/-! ## What a span names -/

theorem toNat_of_checkedAdd {w : Nat} {a b c : BitVec w} (h : checkedAdd a b = some c) :
    c.toNat = a.toNat + b.toNat ∧ a.toNat + b.toNat < 2 ^ w := by
  unfold checkedAdd at h
  split at h
  · cases h
  · rename_i hov
    cases h
    simp only [BitVec.uaddOverflow, ge_iff_le, decide_eq_true_eq, Nat.not_le] at hov
    exact ⟨by rw [BitVec.toNat_add, Nat.mod_eq_of_lt hov], hov⟩

theorem checkedAdd_isSome {w : Nat} {a b : BitVec w} :
    (checkedAdd a b).isSome ↔ a.toNat + b.toNat < 2 ^ w := by
  unfold checkedAdd
  rw [BitVec.uaddOverflow]
  split <;> simp_all

variable {addr len : Long}

theorem chipRamSpan_eq_some {s : Span chipRamSize} (h : chipRamSpan addr len = some s) :
    s.start = addr.toNat ∧ s.len = len.toNat := by
  unfold chipRamSpan at h
  split at h
  · cases h
  · split at h
    · cases h
      exact ⟨rfl, rfl⟩
    · cases h

theorem fastRamSpan_eq_some {window : Option (Long × Long)} {size : Nat} {s : Span size}
    (h : fastRamSpan window size addr len = some s) :
    ∃ base windowLen, window = some (base, windowLen) ∧ base.toNat ≤ addr.toNat ∧
      s.start = addr.toNat - base.toNat ∧ s.len = len.toNat ∧
      addr.toNat + len.toNat < 0x100000000 := by
  unfold fastRamSpan at h
  split at h
  · cases h
  · rename_i base windowLen
    split at h
    · rename_i last windowEnd hlast hend
      split at h
      · cases h
      · rename_i hin
        split at h
        · cases h
          exact ⟨base, windowLen, rfl, by omega, rfl, rfl, (toNat_of_checkedAdd hlast).2⟩
        · cases h
    · cases h

variable {r : GuestRam}

/-- The two ways a mutable view comes about. -/
theorem ramSliceMut_cases {old : List Byte} {put : List Byte → GuestRam}
    (h : GuestMemory.ramSliceMut r addr len = some (old, put)) :
    (∃ s, chipRamSpan addr len = some s ∧ old = r.chipRam.slice s ∧
      put = fun bs => (r.recordWriteSpan addr len).putChip s bs) ∨
    (∃ mem s, chipRamSpan addr len = none ∧ r.fastRam = some mem ∧
      fastRamSpan r.fastWindow mem.size addr len = some s ∧ old = mem.bytes.slice s ∧
      put = fun bs => (r.recordWriteSpan addr len).putFast mem s bs) := by
  simp only [GuestMemory.ramSliceMut] at h
  cases hc : chipRamSpan addr len with
  | some s =>
    rw [hc] at h
    cases h
    exact .inl ⟨s, rfl, rfl, rfl⟩
  | none =>
    rw [hc] at h
    obtain ⟨mem, hmem, h⟩ := Option.bind_eq_some_iff.mp h
    obtain ⟨s, hs, h⟩ := Option.map_eq_some_iff.mp h
    cases h
    exact .inr ⟨mem, s, rfl, hmem, hs, rfl, rfl⟩

/-- The address map: where fast RAM answers and how far its buffer reaches. -/
def sameMap (r r' : GuestRam) : Prop :=
  r'.fastWindow = r.fastWindow ∧ r'.fastRamBoard = r.fastRamBoard ∧
    r'.fastRam.map (·.size) = r.fastRam.map (·.size)

theorem sameMap.symm {r r' : GuestRam} (h : r.sameMap r') : r'.sameMap r :=
  ⟨h.1.symm, h.2.1.symm, h.2.2.symm⟩

theorem sameMap.trans {r r' r'' : GuestRam} (h : r.sameMap r') (h' : r'.sameMap r'') :
    r.sameMap r'' :=
  ⟨h'.1.trans h.1, h'.2.1.trans h.2.1, h'.2.2.trans h.2.2⟩

theorem sameMap_put {old : List Byte} {put : List Byte → GuestRam}
    (h : GuestMemory.ramSliceMut r addr len = some (old, put)) (bs : List Byte) :
    r.sameMap (put bs) := by
  rcases ramSliceMut_cases h with ⟨s, -, -, rfl⟩ | ⟨mem, s, -, hmem, -, -, rfl⟩
  · exact ⟨rfl, rfl, rfl⟩
  · exact ⟨rfl, rfl, by rw [hmem]; rfl⟩

theorem isSome_ramSlice (r : GuestRam) (addr len : Long) :
    (GuestMemory.ramSlice r addr len).isSome =
      ((chipRamSpan addr len).isSome ||
        (r.fastRam.map (·.size)).any fun n => (fastRamSpan r.fastWindow n addr len).isSome) := by
  simp only [GuestMemory.ramSlice]
  cases chipRamSpan addr len with
  | some s => rfl
  | none => cases r.fastRam <;> simp

/-- Which spans are RAM is decided by the address map. -/
theorem isSome_of_sameMap {r' : GuestRam} (h : r.sameMap r') (addr len : Long) :
    (GuestMemory.ramSlice r' addr len).isSome = (GuestMemory.ramSlice r addr len).isSome := by
  obtain ⟨hw, -, hs⟩ := h
  rw [isSome_ramSlice, isSome_ramSlice, hw, hs]

instance : LawfulGuestMemory GuestRam where
  length_ramSlice := by
    intro r addr len bs h
    simp only [GuestMemory.ramSlice] at h
    cases hc : chipRamSpan addr len with
    | some s =>
      rw [hc] at h
      cases h
      rw [Buffer.length_slice, (chipRamSpan_eq_some hc).2]
    | none =>
      rw [hc] at h
      obtain ⟨mem, -, h⟩ := Option.bind_eq_some_iff.mp h
      obtain ⟨s, hs, rfl⟩ := Option.map_eq_some_iff.mp h
      obtain ⟨-, -, -, -, -, hlen, -⟩ := fastRamSpan_eq_some hs
      rw [Buffer.length_slice, hlen]
  noWrap := by
    intro r addr len bs h
    simp only [GuestMemory.ramSlice] at h
    cases hc : chipRamSpan addr len with
    | some s =>
      have hin := s.inside
      obtain ⟨h1, h2⟩ := chipRamSpan_eq_some hc
      rw [h1, h2] at hin
      simp only [chipRamSize] at hin
      omega
    | none =>
      rw [hc] at h
      obtain ⟨mem, -, h⟩ := Option.bind_eq_some_iff.mp h
      obtain ⟨s, hs, -⟩ := Option.map_eq_some_iff.mp h
      obtain ⟨-, -, -, -, -, -, hlt⟩ := fastRamSpan_eq_some hs
      exact Nat.le_of_lt hlt
  ramSliceMut_fst := by
    intro r addr len
    simp only [GuestMemory.ramSliceMut, GuestMemory.ramSlice]
    cases chipRamSpan addr len with
    | some s => rfl
    | none => cases r.fastRam <;> simp [Function.comp_def]
  isSome_put := by
    intro r addr len old put bs h b k
    exact isSome_of_sameMap (sameMap_put h bs) b k
  slice_put := by
    intro r addr len old bs put h hlen
    rcases ramSliceMut_cases h with ⟨s, hs, -, rfl⟩ | ⟨mem, s, hc, -, hs, -, rfl⟩
    · simp only [GuestMemory.ramSlice, hs, putChip]
      rw [Buffer.slice_put_self _ _ (by rw [hlen, (chipRamSpan_eq_some hs).2])]
    · obtain ⟨-, -, -, -, -, hsl, -⟩ := fastRamSpan_eq_some hs
      simp only [GuestMemory.ramSlice, hc, putFast, recordWriteSpan, Option.bind_some, hs,
        Option.map_some]
      rw [Buffer.slice_put_self _ _ (by rw [hlen, hsl])]
  slice_put_disjoint := by
    intro r addr len old put bs b k h hdis
    unfold SpanDisjoint at hdis
    rcases ramSliceMut_cases h with ⟨s, hs, -, rfl⟩ | ⟨mem, s, hc, hmem, hs, -, rfl⟩
    · simp only [GuestMemory.ramSlice, putChip, recordWriteSpan]
      cases ht : chipRamSpan b k with
      | none => rfl
      | some t =>
        obtain ⟨hs1, hs2⟩ := chipRamSpan_eq_some hs
        obtain ⟨ht1, ht2⟩ := chipRamSpan_eq_some ht
        simp only
        rw [Buffer.slice_put_disjoint]
        unfold Span.Disjoint
        omega
    · simp only [GuestMemory.ramSlice, putFast, recordWriteSpan, hmem, Option.bind_some]
      cases chipRamSpan b k with
      | some t => rfl
      | none =>
        cases ht : fastRamSpan r.fastWindow mem.size b k with
        | none => rfl
        | some t =>
          obtain ⟨base, len1, hw1, hb1, hs1, hs2, -⟩ := fastRamSpan_eq_some hs
          obtain ⟨base', len2, hw2, hb2, ht1, ht2, -⟩ := fastRamSpan_eq_some ht
          rw [hw1] at hw2
          cases hw2
          simp only [Option.map_some]
          rw [Buffer.slice_put_disjoint]
          unfold Span.Disjoint
          omega

theorem isSome_chipRamSpan_part {a n b k : Long} (h : (chipRamSpan a n).isSome)
    (hlo : a.toNat ≤ b.toNat) (hhi : b.toNat + k.toNat ≤ a.toNat + n.toNat) :
    (chipRamSpan b k).isSome := by
  unfold chipRamSpan at h ⊢
  split at h
  · cases h
  · rename_i last hlast
    obtain ⟨hval, hlt⟩ := toNat_of_checkedAdd hlast
    obtain ⟨last', hlast'⟩ :=
      Option.isSome_iff_exists.mp (checkedAdd_isSome.mpr (by omega : b.toNat + k.toNat < 2 ^ 32))
    have hval' := (toNat_of_checkedAdd hlast').1
    rw [hlast']
    split at h
    · simp only
      rw [dif_pos (by omega)]
      rfl
    · cases h

theorem isSome_fastRamSpan_part {window : Option (Long × Long)} {size : Nat} {a n b k : Long}
    (h : (fastRamSpan window size a n).isSome) (hlo : a.toNat ≤ b.toNat)
    (hhi : b.toNat + k.toNat ≤ a.toNat + n.toNat) : (fastRamSpan window size b k).isSome := by
  unfold fastRamSpan at h ⊢
  split at h
  · cases h
  · rename_i base windowLen
    split at h
    · rename_i last windowEnd hlast hend
      obtain ⟨hval, hlt⟩ := toNat_of_checkedAdd hlast
      obtain ⟨last', hlast'⟩ :=
        Option.isSome_iff_exists.mp (checkedAdd_isSome.mpr (by omega : b.toNat + k.toNat < 2 ^ 32))
      have hval' := (toNat_of_checkedAdd hlast').1
      rw [hlast', hend]
      simp only
      split at h
      · cases h
      · split at h
        · rw [if_neg (by omega), dif_pos (by omega)]
          rfl
        · cases h
    · cases h

instance : ConvexGuestMemory GuestRam where
  isSome_part := by
    intro r a n b k h hlo hhi
    rw [isSome_ramSlice, Bool.or_eq_true] at h ⊢
    rcases h with hchip | hfast
    · exact .inl (isSome_chipRamSpan_part hchip hlo hhi)
    · cases hsize : r.fastRam.map (·.size) with
      | none =>
        rw [hsize] at hfast
        cases hfast
      | some size =>
        rw [hsize] at hfast
        exact .inr (isSome_fastRamSpan_part hfast hlo hhi)

end GuestRam

/-! ## Memory changed through the seam -/

/-- **A device cannot move the address map.** -/
theorem GuestRam.sameMap_of_touched {r r' : GuestRam} (h : GuestMemory.Touched r r') :
    r.sameMap r' := by
  induction h with
  | refl => exact ⟨rfl, rfl, rfl⟩
  | put bs _ hgrant ih => exact ih.trans (sameMap_put hgrant bs)

end M68kMachine
