import M68kMachine.Core.Blitter

/-!
# What the device-write log covers

The log of `lib.rs` and the stores it stands for. The log merges adjacent spans, which keeps every
span in one RAM region as long as no store to chip RAM is continued by one to fast RAM.

* `Cell`, `extent` — the bytes of RAM and the cells a span names
* `Recorded` — one store and its entry in the log
* `SeamFree` — fast RAM does not go on where chip RAM ends
* `Logged` — the log covers what changed, each of its spans in one region
* `replaySpans` — the recorder's and the player's side of the log
-/

namespace M68kMachine

/-- The two RAM regions. -/
inductive RamId
  | chip
  | fast
  deriving DecidableEq

/-- A byte of RAM. -/
structure Cell where
  ram : RamId
  index : Nat

/-- Consecutive bytes of one region. -/
structure Extent where
  ram : RamId
  start : Nat
  len : Nat
  deriving DecidableEq

def Extent.Holds (e : Extent) (c : Cell) : Prop :=
  e.ram = c.ram ∧ e.start ≤ c.index ∧ c.index < e.start + e.len

instance (e : Extent) (c : Cell) : Decidable (e.Holds c) := by unfold Extent.Holds; infer_instance

namespace GuestRam

/-- The byte in a cell, when the region reaches that far. -/
def cell (r : GuestRam) (c : Cell) : Option Byte :=
  match c.ram with
  | .chip => r.chipRam.get? c.index
  | .fast => r.fastRam.bind fun mem => mem.bytes.get? c.index

/-- The cells a span names, as `ram_slice` finds them. -/
def extent (r : GuestRam) (addr len : Long) : Option Extent :=
  match chipRamSpan addr len with
  | some s => some ⟨.chip, s.start, s.len⟩
  | none => (r.fastRam.bind fun mem => fastRamSpan r.fastWindow mem.size addr len |>.map
      fun s => (s.start, s.len)).map fun s => ⟨.fast, s.1, s.2⟩

/-! ## Extents -/

variable {r : GuestRam}

theorem extent_of_sameMap {r' : GuestRam} (h : r.sameMap r') (addr len : Long) :
    r'.extent addr len = r.extent addr len := by
  obtain ⟨hw, -, hs⟩ := h
  unfold extent
  cases chipRamSpan addr len with
  | some s => rfl
  | none =>
    rw [hw]
    cases hf : r.fastRam with
    | none =>
      rw [hf, Option.map_none, Option.map_eq_none_iff] at hs
      rw [hs]
    | some mem =>
      rw [hf, Option.map_some, Option.map_eq_some_iff] at hs
      obtain ⟨mem', hmem', hsize⟩ := hs
      rw [hmem', Option.bind_some, Option.bind_some, hsize]

variable {addr len : Long}

theorem chipRamSpan_isSome :
    (chipRamSpan addr len).isSome ↔ addr.toNat + len.toNat ≤ chipRamEnd := by
  unfold chipRamSpan
  cases h : checkedAdd addr len with
  | none =>
    have hno : ¬ (checkedAdd addr len).isSome := by simp [h]
    rw [checkedAdd_isSome] at hno
    simp only [Option.isSome_none, Bool.false_eq_true, false_iff, chipRamEnd, chipRamBase,
      chipRamSize]
    omega
  | some last =>
    have hlast := (GuestRam.toNat_of_checkedAdd h).1
    simp only [hlast, chipRamEnd, chipRamBase, chipRamSize, Nat.zero_add, and_self]
    split <;> simp_all

/-- A span inside chip RAM names chip RAM. -/
theorem extent_chip (r : GuestRam) (h : addr.toNat + len.toNat ≤ chipRamEnd) :
    r.extent addr len = some ⟨.chip, addr.toNat, len.toNat⟩ := by
  obtain ⟨s, hs⟩ := Option.isSome_iff_exists.mp (chipRamSpan_isSome.mpr h)
  obtain ⟨h1, h2⟩ := chipRamSpan_eq_some hs
  simp only [extent, hs, h1, h2]

theorem chipRamSpan_eq_none :
    chipRamSpan addr len = none ↔ chipRamEnd < addr.toNat + len.toNat := by
  rw [← Option.not_isSome_iff_eq_none, chipRamSpan_isSome, Nat.not_le]

/-- The spans fast RAM serves: beyond chip RAM, inside the placed window and the buffer. -/
theorem extent_fast_iff {e : Extent} (h : chipRamEnd < addr.toNat + len.toNat) :
    r.extent addr len = some e ↔
      ∃ mem base windowLen, r.fastRam = some mem ∧ r.fastWindow = some (base, windowLen) ∧
        base.toNat ≤ addr.toNat ∧ base.toNat + windowLen.toNat < 0x100000000 ∧
        addr.toNat + len.toNat ≤ base.toNat + windowLen.toNat ∧
        addr.toNat - base.toNat + len.toNat ≤ mem.size ∧
        e = ⟨.fast, addr.toNat - base.toNat, len.toNat⟩ := by
  unfold extent
  rw [chipRamSpan_eq_none.mpr h]
  simp only
  cases hf : r.fastRam with
  | none => simp
  | some mem =>
    unfold fastRamSpan
    cases hw : r.fastWindow with
    | none => simp
    | some window =>
      obtain ⟨base, windowLen⟩ := window
      simp only [Option.bind_some]
      cases hlast : checkedAdd addr len with
      | none =>
        have hno : ¬ (checkedAdd addr len).isSome := by simp [hlast]
        rw [checkedAdd_isSome] at hno
        simp
        omega
      | some last =>
        cases hend : checkedAdd base windowLen with
        | none =>
          have hno : ¬ (checkedAdd base windowLen).isSome := by simp [hend]
          rw [checkedAdd_isSome] at hno
          simp
          omega
        | some windowEnd =>
          obtain ⟨h1, h2⟩ := toNat_of_checkedAdd hlast
          obtain ⟨h3, h4⟩ := toNat_of_checkedAdd hend
          simp only [h1, h3]
          split
          · simp
            omega
          · split
            · simp only [Option.map_some, Option.some.injEq]
              constructor
              · rintro rfl
                exact ⟨mem, base, windowLen, rfl, rfl, by omega, h4, by omega, by omega, rfl⟩
              · rintro ⟨mem', base', windowLen', rfl, hw', -, -, -, -, rfl⟩
                cases hw'
                rfl
            · simp only [Option.map_none, reduceCtorEq, false_iff]
              rintro ⟨mem', base', windowLen', hmem', hw', -, -, -, hsize, -⟩
              cases hmem'
              cases hw'
              omega

/-- Fast RAM does not go on where chip RAM ends, as far as the buffer reaches. -/
def SeamFree (r : GuestRam) : Prop :=
  ∀ mem base windowLen, r.fastRam = some mem → r.fastWindow = some (base, windowLen) →
    base.toNat + windowLen.toNat < 0x100000000 →
      chipRamEnd < base.toNat ∨ base.toNat + min windowLen.toNat mem.size ≤ chipRamEnd

theorem SeamFree.of_sameMap {r' : GuestRam} (hseam : SeamFree r') (h : r.sameMap r') :
    SeamFree r := by
  obtain ⟨hw, -, hs⟩ := h
  intro mem base windowLen hmem hwin hend
  rw [hmem, Option.map_some, Option.map_eq_some_iff] at hs
  obtain ⟨mem', hmem', hsize⟩ := hs
  rw [← hsize]
  exact hseam mem' base windowLen hmem' (hw.trans hwin) hend

/-- Two spans end to end name the cells of both, in one region. -/
theorem extent_append (hseam : SeamFree r) {a n b k : Long} {e₁ e₂ : Extent}
    (hab : a.toNat + n.toNat = b.toNat) (hlen : len.toNat = n.toNat + k.toNat) (hk : k ≠ 0)
    (h₁ : r.extent a n = some e₁) (h₂ : r.extent b k = some e₂) :
    ∃ e, r.extent a len = some e ∧ ∀ c, e.Holds c ↔ e₁.Holds c ∨ e₂.Holds c := by
  have hkpos : 0 < k.toNat := by
    rcases Nat.eq_zero_or_pos k.toNat with h | h
    · exact absurd (BitVec.eq_of_toNat_eq h) hk
    · exact h
  by_cases hchip : b.toNat + k.toNat ≤ chipRamEnd
  · rw [extent_chip r (by omega)] at h₁
    rw [extent_chip r hchip] at h₂
    cases h₁
    cases h₂
    refine ⟨_, extent_chip r (by omega), ?_⟩
    intro c
    by_cases hram : RamId.chip = c.ram <;>
      simp only [Extent.Holds, hram, true_and, false_and, or_self]
    omega
  · obtain ⟨mem, base, windowLen, hmem, hwin, hlo, hend, hhi, hsize, rfl⟩ :=
      (extent_fast_iff (by omega)).mp h₂
    -- the second span is in fast RAM, so it starts beyond chip RAM and the first one ends there
    have hb : chipRamEnd < b.toNat := by
      rcases hseam mem base windowLen hmem hwin hend with h | h <;> omega
    obtain ⟨mem', base', windowLen', hmem', hwin', hlo', -, hhi', hsize', rfl⟩ :=
      (extent_fast_iff (by omega)).mp h₁
    rw [hmem] at hmem'
    cases hmem'
    rw [hwin] at hwin'
    cases hwin'
    refine ⟨⟨.fast, a.toNat - base.toNat, len.toNat⟩, (extent_fast_iff (by omega)).mpr
      ⟨mem, base, windowLen, hmem, hwin, hlo', hend, by omega, by omega, rfl⟩, ?_⟩
    intro c
    by_cases hram : RamId.fast = c.ram <;>
      simp only [Extent.Holds, hram, true_and, false_and, or_self]
    omega

end GuestRam

/-! ## The log -/

namespace DeviceWriteLog

/-- A span that is not empty extends the last entry, is appended, or overflows. -/
theorem record_cases (log : DeviceWriteLog) {addr len : Long} (hlen : len ≠ 0) :
    (∃ init last span, log.spans = init ++ [last] ∧ merged last addr len = some span ∧
      (log.record addr len).spans = init ++ [span] ∧
      (log.record addr len).overflowed = log.overflowed) ∨
    ((log.record addr len).spans = log.spans ++ [(addr, len)] ∧
      (log.record addr len).overflowed = log.overflowed) ∨
    (log.record addr len).overflowed = true := by
  unfold record
  rw [if_neg hlen]
  split
  · rename_i span hlast
    obtain ⟨last, hget, hmerged⟩ := Option.bind_eq_some_iff.mp hlast
    obtain ⟨init, hsplit⟩ := List.getLast?_eq_some_iff.mp hget
    exact .inl ⟨init, last, span, hsplit, hmerged, by simp [hsplit], rfl⟩
  · split
    · exact .inr (.inl ⟨rfl, rfl⟩)
    · exact .inr (.inr rfl)

theorem record_zero (log : DeviceWriteLog) (addr : Long) : log.record addr 0 = log := if_pos rfl

/-- The two ways spans merge. -/
theorem merged_cases {last : Long × Long} {addr len : Long} {span : Long × Long}
    (h : merged last addr len = some span) :
    span.2.toNat = last.2.toNat + len.toNat ∧
      ((span.1 = last.1 ∧ last.1.toNat + last.2.toNat = addr.toNat) ∨
        (span.1 = addr ∧ addr.toNat + len.toNat = last.1.toNat)) := by
  unfold merged at h
  split at h
  · cases h
  · rename_i newLen hnew
    have hlen := (GuestRam.toNat_of_checkedAdd hnew).1
    split at h
    · rename_i hend
      cases h
      exact ⟨hlen, .inl ⟨rfl, (GuestRam.toNat_of_checkedAdd hend).1.symm⟩⟩
    · split at h
      · rename_i hend
        cases h
        exact ⟨by omega, .inr ⟨rfl, (GuestRam.toNat_of_checkedAdd hend).1.symm⟩⟩
      · cases h

end DeviceWriteLog

/-! ## Recorded stores -/

/-- `r'` comes from `r` by one store that the log has an entry for. -/
structure Recorded (r r' : GuestRam) (addr len : Long) : Prop where
  map : r.sameMap r'
  log : r'.writeLog = r.writeLog.map fun log => log.record addr len
  granted : ∃ e, r.extent addr len = some e ∧ ∀ c, ¬ e.Holds c → r'.cell c = r.cell c

/-- The log covers every change since `old`: every changed byte lies in an entry, each a span of one
region. -/
structure Covers (old r : GuestRam) (spans : List (Long × Long)) : Prop where
  placed : ∀ span ∈ spans, span.2 ≠ 0 ∧ ∃ e, r.extent span.1 span.2 = some e
  covered : ∀ c, r.cell c ≠ old.cell c →
    ∃ span ∈ spans, ∃ e, r.extent span.1 span.2 = some e ∧ e.Holds c

/-- The attached log, unless it overflowed, covers the changes since `old`. -/
def Logged (old r : GuestRam) : Prop :=
  ∀ log, r.writeLog = some log → log.overflowed = false → Covers old r log.spans

variable {old r r' : GuestRam} {addr len : Long}

theorem Covers.append {spans : List (Long × Long)} (h : Covers old r spans)
    (hs : Recorded r r' addr len) (hlen : len ≠ 0) : Covers old r' (spans ++ [(addr, len)]) := by
  obtain ⟨e, he, hout⟩ := hs.granted
  have hmap := GuestRam.extent_of_sameMap hs.map
  constructor
  · intro span hspan
    rw [hmap]
    rcases List.mem_append.mp hspan with hold | hnew
    · exact h.placed span hold
    · cases List.mem_singleton.mp hnew
      exact ⟨hlen, e, he⟩
  · intro c hc
    by_cases hin : e.Holds c
    · exact ⟨(addr, len), by simp, e, by rw [hmap]; exact he, hin⟩
    · rw [hout c hin] at hc
      obtain ⟨span, hspan, e', he', hin'⟩ := h.covered c hc
      exact ⟨span, List.mem_append_left _ hspan, e', by rw [hmap]; exact he', hin'⟩

/-- Merging the last two entries covers the same bytes. -/
theorem Covers.merge {init : List (Long × Long)} {last span : Long × Long} (hseam : r.SeamFree)
    (hlen : len ≠ 0) (hm : DeviceWriteLog.merged last addr len = some span)
    (h : Covers old r (init ++ [last] ++ [(addr, len)])) : Covers old r (init ++ [span]) := by
  obtain ⟨hl, e₁, he₁⟩ := h.placed last (by simp)
  obtain ⟨-, e₂, he₂⟩ := h.placed (addr, len) (by simp)
  obtain ⟨hlens, hends⟩ := DeviceWriteLog.merged_cases hm
  have hunion : ∃ e, r.extent span.1 span.2 = some e ∧
      ∀ c, e.Holds c ↔ e₁.Holds c ∨ e₂.Holds c := by
    rcases hends with ⟨hstart, hend⟩ | ⟨hstart, hend⟩
    · rw [hstart]
      exact GuestRam.extent_append hseam hend hlens hlen he₁ he₂
    · rw [hstart]
      obtain ⟨e, he, hin⟩ := GuestRam.extent_append hseam hend (hlens.trans (Nat.add_comm _ _))
        hl he₂ he₁
      exact ⟨e, he, fun c => (hin c).trans or_comm⟩
  obtain ⟨e, he, hin⟩ := hunion
  have hne : span.2 ≠ 0 := by
    rintro hzero
    rw [hzero] at hlens
    exact hlen (BitVec.eq_of_toNat_eq (by simpa using (Nat.add_eq_zero_iff.mp hlens.symm).2))
  constructor
  · intro s hs
    rcases List.mem_append.mp hs with hold | hnew
    · exact h.placed s (by simp [hold])
    · cases List.mem_singleton.mp hnew
      exact ⟨hne, e, he⟩
  · intro c hc
    obtain ⟨s, hs, e', he', hin'⟩ := h.covered c hc
    rcases List.mem_append.mp hs with hs | hs
    · rcases List.mem_append.mp hs with hold | hlast
      · exact ⟨s, List.mem_append_left _ hold, e', he', hin'⟩
      · cases List.mem_singleton.mp hlast
        rw [he₁] at he'
        cases he'
        exact ⟨span, by simp, e, he, (hin c).mpr (.inl hin')⟩
    · cases List.mem_singleton.mp hs
      rw [he₂] at he'
      cases he'
      exact ⟨span, by simp, e, he, (hin c).mpr (.inr hin')⟩

/-- A store of no bytes changes nothing. -/
theorem Recorded.eq_of_empty (hs : Recorded r r' addr 0) : ∀ c, r'.cell c = r.cell c := by
  obtain ⟨e, he, hout⟩ := hs.granted
  intro c
  have hzero : e.len = 0 := by
    by_cases hchip : addr.toNat + (0 : Long).toNat ≤ chipRamEnd
    · rw [GuestRam.extent_chip r hchip] at he
      cases he
      rfl
    · obtain ⟨mem, base, windowLen, -, -, -, -, -, -, rfl⟩ :=
        (GuestRam.extent_fast_iff (by omega)).mp he
      rfl
  apply hout
  rintro ⟨-, hlo, hhi⟩
  omega

/-- **A recorded store keeps the log complete.** -/
theorem Logged.store (h : Logged old r) (hseam : r.SeamFree) (hs : Recorded r r' addr len) :
    Logged old r' := by
  intro log' hlog' hover
  rw [hs.log, Option.map_eq_some_iff] at hlog'
  obtain ⟨log, hlog, rfl⟩ := hlog'
  by_cases hlen : len = 0
  · subst hlen
    rw [DeviceWriteLog.record_zero] at hover ⊢
    have hold := h log hlog hover
    have hmap := GuestRam.extent_of_sameMap hs.map
    constructor
    · intro span hspan
      rw [hmap]
      exact hold.placed span hspan
    · intro c hc
      rw [hs.eq_of_empty c] at hc
      simp only [hmap]
      exact hold.covered c hc
  · rcases @DeviceWriteLog.record_cases log addr _ hlen with
      ⟨init, last, span, hspans, hm, hrec, hov⟩ | ⟨hrec, hov⟩ | hov
    · rw [hov] at hover
      have hadd := (h log hlog hover).append hs hlen
      rw [hspans] at hadd
      rw [hrec]
      exact hadd.merge (hseam.of_sameMap hs.map.symm) hlen hm
    · rw [hov] at hover
      rw [hrec]
      exact (h log hlog hover).append hs hlen
    · rw [hov] at hover
      cases hover

/-- A store over a granted view is recorded. -/
theorem recorded_put {before : List Byte} {put : List Byte → GuestRam}
    (h : GuestMemory.ramSliceMut r addr len = some (before, put)) (bs : List Byte) :
    Recorded r (put bs) addr len := by
  refine ⟨GuestRam.sameMap_put h bs, ?_, ?_⟩
  · rcases GuestRam.ramSliceMut_cases h with ⟨s, -, -, rfl⟩ | ⟨mem, s, -, -, -, -, rfl⟩ <;> rfl
  · rcases GuestRam.ramSliceMut_cases h with ⟨s, hs, -, rfl⟩ | ⟨mem, s, hc, hmem, hs, -, rfl⟩
    · refine ⟨⟨.chip, s.start, s.len⟩, by simp only [GuestRam.extent, hs], ?_⟩
      rintro ⟨ram, i⟩ hout
      cases ram with
      | fast => rfl
      | chip =>
        simp only [GuestRam.cell, GuestRam.putChip, GuestRam.recordWriteSpan]
        apply Buffer.get?_put_of_outside
        simp only [Extent.Holds, true_and] at hout
        omega
    · refine ⟨⟨.fast, s.start, s.len⟩, by simp [GuestRam.extent, hc, hmem, hs], ?_⟩
      rintro ⟨ram, i⟩ hout
      cases ram with
      | chip => rfl
      | fast =>
        simp only [GuestRam.cell, GuestRam.putFast, GuestRam.recordWriteSpan, hmem,
          Option.bind_some]
        apply Buffer.get?_put_of_outside
        simp only [Extent.Holds, true_and] at hout
        omega

/-- Devices that store through granted views only keep the log complete. -/
theorem Logged.touched (h : Logged old r) (hseam : r.SeamFree) (ht : GuestMemory.Touched r r') :
    Logged old r' := by
  induction ht with
  | refl => exact h
  | put bs ht hgrant ih =>
    have hseam' := hseam.of_sameMap (GuestRam.sameMap_of_touched ht).symm
    exact ih.store hseam' (recorded_put hgrant bs)

/-! ## Blits -/

namespace GuestRam

/-- RAM after a blit. -/
def withBlit (r : GuestRam) (m : Blitter.BlitRam) : GuestRam :=
  { r with chipRam := m.ram, writeLog := m.log }

end GuestRam

/-- A word a blit stores is recorded. -/
theorem recorded_writeWord (r : GuestRam) (m : Blitter.BlitRam) (ptr : Long) (value : Word) :
    Recorded (r.withBlit m) (r.withBlit (m.writeWord ptr value))
      (BitVec.ofNat 32 (Blitter.chipAddr ptr)) 2 := by
  have hlt := Blitter.chipAddr_lt ptr
  have haddr : (BitVec.ofNat 32 (Blitter.chipAddr ptr)).toNat = Blitter.chipAddr ptr := by
    rw [BitVec.toNat_ofNat, Nat.mod_eq_of_lt]
    simp only [chipRamSize] at hlt
    omega
  have htwo : (2 : Long).toNat = 2 := rfl
  refine ⟨⟨rfl, rfl, rfl⟩, rfl, ⟨.chip, Blitter.chipAddr ptr, 2⟩, ?_, ?_⟩
  · rw [GuestRam.extent_chip, haddr, htwo]
    rw [haddr, htwo]
    simp only [chipRamEnd, chipRamBase]
    omega
  · rintro ⟨ram, i⟩ hout
    cases ram with
    | fast => rfl
    | chip =>
      simp only [Extent.Holds, true_and] at hout
      simp only [GuestRam.cell, GuestRam.withBlit, Blitter.BlitRam.writeWord]
      rw [Buffer.get?_set, Buffer.get?_set, if_neg (by omega), if_neg (by omega)]

/-- **A blit keeps the log complete.** -/
theorem Logged.blit {m m' : Blitter.BlitRam} (h : Logged old (r.withBlit m)) (hseam : r.SeamFree)
    (hs : Blitter.Stored m m') : Logged old (r.withBlit m') := by
  induction hs with
  | refl => exact h
  | word ptr value _ ih => exact ih.store hseam (recorded_writeWord r _ ptr value)

/-! ## Replaying the log -/

/-- An entry as it travels: the recorder takes the bytes of its span in `r`, the player stores them
through the same span of its own RAM, and one that names no RAM is skipped on both sides. -/
def replaySpan (r m : GuestRam) (span : Long × Long) : GuestRam :=
  match GuestMemory.ramSlice r span.1 span.2 with
  | none => m
  | some bytes => (GuestMemory.store m span.1 bytes).getD m

def replaySpans (r m : GuestRam) (spans : List (Long × Long)) : GuestRam :=
  spans.foldl (replaySpan r) m

/-- The bytes a span names are those of its extent. -/
theorem ramSlice_extent {e : Extent} (h : r.extent addr len = some e) :
    ∃ bytes, GuestMemory.ramSlice r addr len = some bytes ∧ bytes.length = e.len ∧
      ∀ i < e.len, bytes[i]? = r.cell ⟨e.ram, e.start + i⟩ := by
  unfold GuestRam.extent at h
  simp only [GuestMemory.ramSlice]
  cases hc : GuestRam.chipRamSpan addr len with
  | some s =>
    rw [hc] at h
    cases h
    exact ⟨_, rfl, Buffer.length_slice _ _, fun i hi => Buffer.getElem?_slice _ _ hi⟩
  | none =>
    rw [hc] at h
    obtain ⟨⟨start, k⟩, hs, rfl⟩ := Option.map_eq_some_iff.mp h
    obtain ⟨mem, hmem, hs⟩ := Option.bind_eq_some_iff.mp hs
    obtain ⟨s, hspan, hs⟩ := Option.map_eq_some_iff.mp hs
    cases hs
    simp only [hmem, Option.bind_some, hspan, Option.map_some]
    refine ⟨_, rfl, Buffer.length_slice _ _, ?_⟩
    intro i hi
    rw [Buffer.getElem?_slice _ _ hi]
    simp [GuestRam.cell, hmem]

theorem cell_replaySpan {m : GuestRam} (hmap : r.sameMap m) {span : Long × Long} {e : Extent}
    (he : r.extent span.1 span.2 = some e) :
    r.sameMap (replaySpan r m span) ∧
      ∀ c, (replaySpan r m span).cell c = if e.Holds c then r.cell c else m.cell c := by
  obtain ⟨bytes, hbytes, hlen, hget⟩ := ramSlice_extent he
  have hback : BitVec.ofNat 32 bytes.length = span.2 := by
    rw [LawfulGuestMemory.length_ramSlice hbytes, BitVec.ofNat_toNat, BitVec.setWidth_eq]
  have hsome : (GuestMemory.ramSliceMut m span.1 span.2).isSome := by
    rw [← Option.isSome_map, LawfulGuestMemory.ramSliceMut_fst, GuestRam.isSome_of_sameMap hmap,
      hbytes]
    rfl
  obtain ⟨⟨before, put⟩, hgrant⟩ := Option.isSome_iff_exists.mp hsome
  have hreplay : replaySpan r m span = put bytes := by
    simp only [replaySpan, hbytes, GuestMemory.store, hback, hgrant, Option.map_some,
      Option.getD_some]
  rw [hreplay]
  refine ⟨hmap.trans (GuestRam.sameMap_put hgrant bytes), ?_⟩
  obtain ⟨e', he', hout⟩ := (recorded_put hgrant bytes).granted
  rw [GuestRam.extent_of_sameMap hmap, he] at he'
  cases he'
  rintro ⟨ram, i⟩
  by_cases hin : e.Holds ⟨ram, i⟩
  · rw [if_pos hin]
    obtain ⟨hram, hlo, hhi⟩ := hin
    simp only at hram hlo hhi
    have hr := hget (i - e.start) (by omega)
    rw [show e.start + (i - e.start) = i by omega, hram] at hr
    rw [← hr]
    have he'' : m.extent span.1 span.2 = some e := by rw [GuestRam.extent_of_sameMap hmap, he]
    rcases GuestRam.ramSliceMut_cases hgrant with ⟨s, hs, -, rfl⟩ | ⟨mem, s, hc, hmem, hs, -, rfl⟩
    · simp only [GuestRam.extent, hs, Option.some.injEq] at he''
      subst he''
      cases hram
      exact Buffer.get?_put_of_inside _ _ hlen hlo hhi
    · simp only [GuestRam.extent, hc, hmem, Option.bind_some, hs, Option.map_some,
        Option.some.injEq] at he''
      subst he''
      cases hram
      exact Buffer.get?_put_of_inside _ _ hlen hlo hhi
  · rw [if_neg hin]
    exact hout _ hin

/-- Replaying a list of spans takes the cells they name over. -/
theorem cell_replaySpans {r : GuestRam} : ∀ (spans : List (Long × Long)) {m : GuestRam},
    r.sameMap m → (∀ span ∈ spans, ∃ e, r.extent span.1 span.2 = some e) →
      r.sameMap (replaySpans r m spans) ∧ ∀ c,
        ((∃ span ∈ spans, ∃ e, r.extent span.1 span.2 = some e ∧ e.Holds c) ∧
            (replaySpans r m spans).cell c = r.cell c) ∨
          (¬ (∃ span ∈ spans, ∃ e, r.extent span.1 span.2 = some e ∧ e.Holds c) ∧
            (replaySpans r m spans).cell c = m.cell c)
  | [], _, hmap, _ => ⟨hmap, fun _ => .inr ⟨by simp, rfl⟩⟩
  | span :: spans, m, hmap, hplaced => by
    obtain ⟨e, he⟩ := hplaced span List.mem_cons_self
    obtain ⟨hmap₁, hcell₁⟩ := cell_replaySpan hmap he
    obtain ⟨hmap', hcell⟩ := cell_replaySpans spans hmap₁
      fun s hs => hplaced s (List.mem_cons_of_mem span hs)
    refine ⟨hmap', fun c => ?_⟩
    rcases hcell c with ⟨⟨s, hs, hin⟩, hc⟩ | ⟨hno, hc⟩
    · exact .inl ⟨⟨s, List.mem_cons_of_mem span hs, hin⟩, hc⟩
    · rw [hcell₁ c] at hc
      by_cases hin : e.Holds c
      · rw [if_pos hin] at hc
        exact .inl ⟨⟨span, List.mem_cons_self, e, he, hin⟩, hc⟩
      · rw [if_neg hin] at hc
        refine .inr ⟨?_, hc⟩
        rintro ⟨s, hs, e', he', hin'⟩
        rcases List.mem_cons.mp hs with rfl | hs
        · rw [he] at he'
          cases he'
          exact hin hin'
        · exact hno ⟨s, hs, e', he', hin'⟩

theorem eq_of_cell {m : GuestRam} (hmap : r.sameMap m) (h : ∀ c, m.cell c = r.cell c) :
    m.chipRam = r.chipRam ∧ m.fastRam = r.fastRam := by
  constructor
  · funext i
    have hi := h ⟨.chip, i⟩
    simpa [GuestRam.cell, Buffer.get?_eq_some i.isLt] using hi
  · obtain ⟨-, -, hsize⟩ := hmap
    cases hm : m.fastRam with
    | none =>
      cases hr : r.fastRam with
      | none => rfl
      | some mem => simp [hm, hr] at hsize
    | some mem' =>
      cases hr : r.fastRam with
      | none => simp [hm, hr] at hsize
      | some mem =>
        simp only [hm, hr, Option.map_some, Option.some.injEq] at hsize
        obtain ⟨n, bytes⟩ := mem
        obtain ⟨n', bytes'⟩ := mem'
        simp only at hsize
        subst hsize
        congr 2
        funext i
        have hi := h ⟨.fast, i⟩
        simpa [GuestRam.cell, hm, hr, Buffer.get?_eq_some i.isLt] using hi

/-- **Replaying a complete log reproduces RAM.** -/
theorem Covers.replay {spans : List (Long × Long)} (h : Covers old r spans) (hmap : old.sameMap r) :
    (replaySpans r old spans).chipRam = r.chipRam ∧
      (replaySpans r old spans).fastRam = r.fastRam := by
  obtain ⟨hmap', hcell⟩ := cell_replaySpans spans hmap.symm fun span hs => (h.placed span hs).2
  refine eq_of_cell hmap' fun c => ?_
  rcases hcell c with ⟨-, hc⟩ | ⟨hno, hc⟩
  · exact hc
  · rw [hc]
    by_contra hne
    exact hno (h.covered c (Ne.symm hne))

end M68kMachine
