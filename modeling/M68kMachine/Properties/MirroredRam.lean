import M68kMachine.Hosted.Recorder
import M68kMachine.Properties.DirectMap

/-!
# RAM on both sides of a replay log

The RAM of a player and of the machine that was recorded agree outside the spans that are still in
the device-write log. `Logged` says so with the player's RAM in the place of the old one, and is
kept by everything done to both: a load reads the same bytes unless they are pending, and draining
the log leaves nothing pending.

* `StoredAt` — a store over a span of RAM, cell by cell
* `ramSlice_mirrored`, `Logged.stored` — loads and stores
* `drained_mirrored` — the records of the log make the two the same
-/

namespace M68kMachine

open Autoconfig AutoConfig BusDevices MachineBus

/-! ## Spans -/

namespace GuestRam

variable {r : GuestRam} {a n b k : Long} {e e' : Extent}

theorem exists_extent (h : (GuestMemory.ramSlice r a n).isSome) : ∃ e, r.extent a n = some e := by
  rw [isSome_ramSlice, Bool.or_eq_true] at h
  unfold extent
  cases hchip : chipRamSpan a n with
  | some s => exact ⟨_, rfl⟩
  | none =>
    rw [hchip] at h
    cases hmem : r.fastRam with
    | none =>
      rw [hmem] at h
      simp at h
    | some mem =>
      rw [hmem] at h
      obtain ⟨s, hs⟩ := Option.isSome_iff_exists.mp (h.resolve_left (by simp))
      simp only [Option.bind_some, hs, Option.map_some]
      exact ⟨_, rfl⟩

theorem len_of_extent (h : r.extent a n = some e) : e.len = n.toNat := by
  by_cases hchip : a.toNat + n.toNat ≤ chipRamEnd
  · rw [extent_chip r hchip] at h
    cases h
    rfl
  · obtain ⟨_, _, _, -, -, -, -, -, -, rfl⟩ := (extent_fast_iff (by omega)).mp h
    rfl

/-- Spans that share no address share no cell. -/
theorem extent_apart (h : r.extent a n = some e) (h' : r.extent b k = some e')
    (hapart : SpanDisjoint a n b k) {c : Cell} (hc : e.Holds c) : ¬e'.Holds c := by
  rintro ⟨hram', hlo', hhi'⟩
  obtain ⟨hram, hlo, hhi⟩ := hc
  unfold SpanDisjoint at hapart
  by_cases hchip : a.toNat + n.toNat ≤ chipRamEnd
  · rw [extent_chip r hchip] at h
    cases h
    by_cases hchip' : b.toNat + k.toNat ≤ chipRamEnd
    · rw [extent_chip r hchip'] at h'
      cases h'
      simp only at hlo hhi hlo' hhi'
      omega
    · obtain ⟨_, _, _, -, -, -, -, -, -, rfl⟩ := (extent_fast_iff (by omega)).mp h'
      cases hram.trans hram'.symm
  · obtain ⟨mem, base, len, hmem, hw, hle, -, -, -, rfl⟩ := (extent_fast_iff (by omega)).mp h
    by_cases hchip' : b.toNat + k.toNat ≤ chipRamEnd
    · rw [extent_chip r hchip'] at h'
      cases h'
      cases hram.trans hram'.symm
    · obtain ⟨mem', base', len', hmem', hw', hle', -, -, -, rfl⟩ :=
        (extent_fast_iff (by omega)).mp h'
      cases hw.symm.trans hw'
      simp only at hlo hhi hlo' hhi'
      omega

end GuestRam

/-! ## Loads -/

variable {m r : GuestRam} {a n : Long}

/-- **A load of bytes that are not pending reads the same on both sides.** -/
theorem ramSlice_mirrored (h : Logged m r) (hmap : r.sameMap m) {log : DeviceWriteLog}
    (hlog : r.writeLog = some log) (hover : log.overflowed = false)
    (hsettled : ∀ span ∈ log.spans, SpanDisjoint a n span.1 span.2)
    (hsome : (GuestMemory.ramSlice r a n).isSome) :
    GuestMemory.ramSlice m a n = GuestMemory.ramSlice r a n := by
  obtain ⟨e, he⟩ := GuestRam.exists_extent hsome
  obtain ⟨bs, hbs, hlen, hget⟩ := ramSlice_extent he
  obtain ⟨bs', hbs', hlen', hget'⟩ :=
    ramSlice_extent ((GuestRam.extent_of_sameMap hmap a n).trans he)
  rw [hbs, hbs', Option.some.injEq]
  refine List.ext_getElem? fun i => ?_
  by_cases hi : i < e.len
  · rw [hget i hi, hget' i hi]
    by_contra hne
    obtain ⟨span, hspan, e', he', hin⟩ := (h log hlog hover).covered _ (Ne.symm hne)
    refine GuestRam.extent_apart he he' (hsettled span hspan) ?_ hin
    exact ⟨rfl, Nat.le_add_right _ _, Nat.add_lt_add_left hi _⟩
  · rw [List.getElem?_eq_none (by omega), List.getElem?_eq_none (by omega)]

/-! ## Stores of the CPU -/

/-- `bs` was stored over the span, and nothing else changed. -/
structure StoredAt (r r' : GuestRam) (a n : Long) (bs : List Byte) : Prop where
  map : r.sameMap r'
  cells : ∃ e, r.extent a n = some e ∧
    ∀ c, r'.cell c = if e.Holds c then bs[c.index - e.start]? else r.cell c

theorem storedAt_put {old : List Byte} {put : List Byte → GuestRam}
    (h : GuestMemory.ramSliceMut r a n = some (old, put)) {bs : List Byte}
    (hlen : bs.length = n.toNat) : StoredAt r (put bs) a n bs := by
  obtain ⟨e, he, hout⟩ := (recorded_put h bs).granted
  refine ⟨GuestRam.sameMap_put h bs, e, he, fun c => ?_⟩
  by_cases hin : e.Holds c
  · rw [if_pos hin]
    obtain ⟨ram, i⟩ := c
    obtain ⟨hram, hlo, hhi⟩ := hin
    rcases GuestRam.ramSliceMut_cases h with ⟨s, hs, -, rfl⟩ | ⟨mem, s, hc, hmem, hs, -, rfl⟩
    · simp only [GuestRam.extent, hs, Option.some.injEq] at he
      subst he
      cases hram
      exact Buffer.get?_put_of_inside _ _ (hlen.trans (GuestRam.chipRamSpan_eq_some hs).2.symm)
        hlo hhi
    · simp only [GuestRam.extent, hc, hmem, Option.bind_some, hs, Option.map_some,
        Option.some.injEq] at he
      subst he
      cases hram
      obtain ⟨-, -, -, -, -, hs2, -⟩ := GuestRam.fastRamSpan_eq_some hs
      exact Buffer.get?_put_of_inside _ _ (hlen.trans hs2.symm) hlo hhi
  · rw [if_neg hin]
    exact hout c hin

theorem get?_setFrom {α : Type} {n : Nat} : ∀ (vs : List α) (b : Buffer α n) (i j : Nat),
    i + vs.length ≤ n → (b.setFrom i vs).get? j =
      if i ≤ j ∧ j < i + vs.length then vs[j - i]? else b.get? j
  | [], b, i, j, _ => by
    rw [if_neg (by simp only [List.length_nil]; omega)]
    rfl
  | v :: vs, b, i, j, h => by
    rw [List.length_cons] at h ⊢
    rw [Buffer.setFrom, get?_setFrom vs _ (i + 1) j (by omega), Buffer.get?_set]
    by_cases hj : j = i
    · rw [if_neg (by omega), if_pos (by omega), if_pos (by omega), hj, Nat.sub_self]
      rfl
    · by_cases hin : i + 1 ≤ j ∧ j < i + 1 + vs.length
      · rw [if_pos hin, if_pos (by omega), show j - i = j - (i + 1) + 1 by omega,
          List.getElem?_cons_succ]
      · rw [if_neg hin, if_neg (by omega), if_neg (by omega)]

section Region

variable {δ ρ π : Type} {d : BusDevices δ ρ π} {a n : Long} {e : Extent}

/-- A span of RAM is one the machine stores to directly. -/
theorem storeSpan_of_extent (hhigh : HighWindow d.ram) (hn : 0 < n.toNat)
    (h : d.ram.extent a n = some e) : ∃ region off, StoreSpan d a n.toNat region off ∧
      ∀ bs : List Byte, bs.length = n.toNat →
        StoredAt d.ram (storeRegion d.ram region off bs) a n bs := by
  by_cases hchip : a.toNat + n.toNat ≤ chipRamEnd
  · rw [GuestRam.extent_chip d.ram hchip] at h
    cases h
    have hin : inRange chipRamBase chipRamEnd a = true :=
      inRange_iff.mpr ⟨Nat.zero_le _, by omega⟩
    have hfits : a.toNat + n.toNat ≤ chipRamSize := hchip
    refine ⟨.chip, a.toNat, ⟨by unfold fastRegionMut; rw [hin]; rfl, hfits⟩, fun bs hlen => ?_⟩
    refine ⟨⟨rfl, rfl, rfl⟩, _, GuestRam.extent_chip d.ram hchip, ?_⟩
    rintro ⟨ram, i⟩
    cases ram with
    | fast =>
      rw [if_neg (by simp [Extent.Holds])]
      rfl
    | chip =>
      simp only [GuestRam.cell, storeRegion]
      rw [get?_setFrom bs _ _ _ (by omega)]
      simp only [Extent.Holds, true_and, hlen]
  · obtain ⟨mem, base, len, hmem, hw, hle, hend, hhi, hsize, rfl⟩ :=
      (GuestRam.extent_fast_iff (by omega)).mp h
    have hregion := (fastRegion_fast (a := a) hhigh hw hmem hle (by omega)).2
    refine ⟨.fast mem, a.toNat - base.toNat, ⟨hregion, hsize⟩, fun bs hlen => ?_⟩
    refine ⟨⟨rfl, rfl, by rw [hmem]; rfl⟩, _, h, ?_⟩
    rintro ⟨ram, i⟩
    cases ram with
    | chip =>
      rw [if_neg (by simp [Extent.Holds])]
      rfl
    | fast =>
      simp only [GuestRam.cell, storeRegion, hmem, Option.bind_some]
      rw [get?_setFrom bs _ _ _ (by omega)]
      simp only [Extent.Holds, true_and, hlen]

end Region

/-- **A store of the CPU on both sides leaves the two in agreement**, pending or not. -/
theorem Logged.stored {m' r' : GuestRam} (h : Logged m r) (hmap : r.sameMap m) {bs : List Byte}
    (hm : StoredAt m m' a n bs) (hr : StoredAt r r' a n bs) (hlog : r'.writeLog = r.writeLog) :
    Logged m' r' := by
  obtain ⟨e, he, hcell⟩ := hr.cells
  obtain ⟨e', he', hcell'⟩ := hm.cells
  cases he.symm.trans ((GuestRam.extent_of_sameMap hmap a n).symm.trans he')
  intro log hl hover
  have hold := h log (hlog ▸ hl) hover
  refine ⟨fun span hspan => ?_, fun c hc => ?_⟩
  · rw [GuestRam.extent_of_sameMap hr.map]
    exact hold.placed span hspan
  · have hne : r.cell c ≠ m.cell c := by
      rw [hcell c, hcell' c] at hc
      by_cases hin : e.Holds c
      · rw [if_pos hin, if_pos hin] at hc
        exact absurd rfl hc
      · rwa [if_neg hin, if_neg hin] at hc
    obtain ⟨span, hspan, e', he', hin⟩ := hold.covered c hne
    exact ⟨span, hspan, e', by rw [GuestRam.extent_of_sameMap hr.map]; exact he', hin⟩

/-! ## The drain -/

/-- The records of the pending spans. -/
def spanEvents (ordinal : Nat) (r : GuestRam) (spans : List (Long × Long)) : List Event :=
  spans.filterMap fun span =>
    (GuestMemory.ramSlice r span.1 span.2).map (Event.deviceWrite ordinal span.1)

/-- Applying the records is replaying the spans. -/
theorem applyTo_spanEvents (ordinal : Nat) (r : GuestRam) : ∀ (spans : List (Long × Long))
    (m : GuestRam), (spanEvents ordinal r spans).foldl Event.applyTo m = replaySpans r m spans
  | [], _ => rfl
  | span :: spans, m => by
    have hfirst : replaySpans r m (span :: spans) = replaySpans r (replaySpan r m span) spans := rfl
    rw [hfirst, ← applyTo_spanEvents ordinal r spans]
    cases hs : GuestMemory.ramSlice r span.1 span.2 with
    | none => simp only [spanEvents, List.filterMap_cons, hs, Option.map_none, replaySpan]
    | some bytes =>
      simp only [spanEvents, List.filterMap_cons, hs, Option.map_some, List.foldl_cons, replaySpan,
        Event.applyTo, Player.applyDeviceWrite, GuestMemory.store]
      cases GuestMemory.ramSliceMut m span.1 (BitVec.ofNat 32 bytes.length) <;> rfl

/-- **The records of the log make the two sides the same.** -/
theorem drained_mirrored (h : Logged m r) (hmap : r.sameMap m) {log : DeviceWriteLog}
    (hlog : r.writeLog = some log) (hover : log.overflowed = false) :
    r.sameMap (replaySpans r m log.spans) ∧
      (replaySpans r m log.spans).chipRam = r.chipRam ∧
      (replaySpans r m log.spans).fastRam = r.fastRam := by
  have hcovers := h log hlog hover
  obtain ⟨hmap', -⟩ := cell_replaySpans log.spans hmap fun span hs => (hcovers.placed span hs).2
  exact ⟨hmap', hcovers.replay hmap.symm⟩

/-- A log without entries covers RAM that is the same. -/
theorem logged_of_same (hchip : m.chipRam = r.chipRam) (hfast : m.fastRam = r.fastRam)
    (hempty : ∀ log, r.writeLog = some log → log.spans = []) : Logged m r := by
  intro log hlog _
  rw [hempty log hlog]
  refine ⟨by simp, fun c hc => absurd ?_ hc⟩
  unfold GuestRam.cell
  rw [hchip, hfast]

theorem ramDigests_congr (hmap : r.sameMap m) (hchip : m.chipRam = r.chipRam)
    (hfast : m.fastRam = r.fastRam) : ramDigests m = ramDigests r := by
  have hslice (a n : Long) : GuestMemory.ramSlice m a n = GuestMemory.ramSlice r a n := by
    simp only [GuestMemory.ramSlice, hchip, hfast, hmap.1]
  unfold ramDigests
  simp only [hslice, hmap.1]

/-! ## Placement -/

/-- What was pending before fast RAM was placed lies in chip RAM. -/
theorem Logged.placed (h : Logged m r) (w w' : Option (Long × Long))
    (hstay : ∀ v, r.fastWindow = some v → w = some v) :
    Logged { m with fastWindow := w' } { r with fastWindow := w } := by
  have hextent (a n : Long) (e : Extent) (he : r.extent a n = some e) :
      ({ r with fastWindow := w } : GuestRam).extent a n = some e := by
    by_cases hchip : a.toNat + n.toNat ≤ chipRamEnd
    · rw [GuestRam.extent_chip r hchip] at he
      rw [GuestRam.extent_chip _ hchip, he]
    · obtain ⟨mem, base, len, hmem, hw, hrest⟩ := (GuestRam.extent_fast_iff (by omega)).mp he
      exact (GuestRam.extent_fast_iff (by omega)).mpr ⟨mem, base, len, hmem, hstay _ hw, hrest⟩
  intro log hlog hover
  obtain ⟨hplaced, hcovered⟩ := h log hlog hover
  refine ⟨fun span hspan => ?_, fun c hc => ?_⟩
  · obtain ⟨hne, e, he⟩ := hplaced span hspan
    exact ⟨hne, e, hextent _ _ e he⟩
  · obtain ⟨span, hspan, e, he, hin⟩ := hcovered c hc
    exact ⟨span, hspan, e, hextent _ _ e he, hin⟩

end M68kMachine
