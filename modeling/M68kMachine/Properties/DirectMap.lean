import M68kMachine.Properties.PageAccess
import M68kMachine.Properties.Wiring

/-!
# The direct map is the machine

The adapter with the direct map in place, against the machine alone. Between two syncs the map's
table was built for the placements there are, and what it types as memory is mapped to the bytes the
machine would have read. Only a write can make the map stale.

* `Coherent` — what holds of a map and its machine between accesses
* `coherent_sync` — a sync after a write of the machine makes them coherent again
* `direct_map_run` — a run with the map is one of the machine, and never faults
-/

namespace M68kMachine

open Autoconfig AutoConfig BusDevices MachineBus

variable {δ ρ π : Type} {d d' : BusDevices δ ρ π}

/-- Chip RAM and the ROM are mapped at their places, and what is mapped of fast RAM at its
window. -/
structure Backed (dm : DirectMap) (d : BusDevices δ ρ π) : Prop where
  full : dm.romIsFullWindow = decide (d.rom.size = romWindowSize)
  mappedIn : MappedIn d.ram dm.fastAlias
  chip : ∀ a, a < chipRamSize → dm.reservation.lookup a = some (.chipRam, a)
  rom : ∀ a, romBase ≤ a → a < romEnd →
    dm.reservation.lookup a = some (.romCopy (DirectMap.romCopy d.rom), a - romBase)
  fast : ∀ base len, dm.fastAlias = some (base, len) → ∀ a, base.toNat ≤ a →
    a < base.toNat + len.toNat → dm.reservation.lookup a = some (.fastRam, a - base.toNat)

/-- A map and its machine between accesses. -/
structure Coherent (dm : DirectMap) (d : BusDevices δ ρ π) : Prop extends Backed dm d where
  pages : dm.pages = buildPageTable d (d.rom.size = romWindowSize) dm.fastAlias
  fingerprint : dm.fingerprint = Fingerprint.of d

theorem Classifiable.high (h : Classifiable d) : HighWindow d.ram :=
  fun _ _ hw => h.above hw

/-! ## What is behind a page -/

section Pages

variable {d : BusDevices δ ρ π} {dm : DirectMap} {a : Long}

theorem Coherent.promise (h : Coherent dm d) (hc : Classifiable d) :
    Promise d (d.rom.size = romWindowSize) dm.fastAlias (List.range maxBoards) a
      (dm.pageType a) := by
  unfold DirectMap.pageType
  rw [h.pages]
  exact promise_buildPageTable hc.aligned

theorem lt_of_placement {c : AutoConfig} {i : Nat} {p : Configured}
    (h : c.placement i = some p) : i < maxBoards := by
  by_contra hge
  unfold AutoConfig.placement at h
  rw [Vector.getElem?_eq_none (by simpa [maxBoards] using hge)] at h
  cases h

/-- The window a board's placement makes does not hold an address beside it. -/
theorem Beside.window (h : Beside d (List.range maxBoards) a) {board : Option Nat}
    {base len : Long} (hw : windowOf d.autoconfig board = some (base, len)) :
    ¬(base.toNat ≤ a.toNat ∧ a.toNat - base.toNat < len.toNat) := by
  obtain ⟨i, p, -, hp, rfl, rfl⟩ := windowOf_eq_some hw
  have hbeside := h i (List.mem_range.mpr (lt_of_placement hp)) p hp
  unfold Configured.contains at hbeside
  rw [Bool.and_eq_false_iff, decide_eq_false_iff_not, decide_eq_false_iff_not] at hbeside
  omega

/-- No board is there, so neither RAM nor the PCI bridge is. -/
theorem Beside.absent (hinv : d.ChainInv) (h : Beside d (List.range maxBoards) a) :
    Absent d a := by
  refine ⟨?_, ?_, ?_⟩
  · unfold fastOffset
    split
    · rfl
    · rename_i base len hw
      exact if_neg (h.window (hinv.fast ▸ hw))
  · unfold pcibridgeTarget
    split
    · rfl
    · rename_i base len hw
      have hout := h.window (hinv.bridge ▸ hw)
      exact if_pos (by omega)
  · refine List.find?_eq_none.mpr fun i hi hany => ?_
    cases hp : d.autoconfig.placement i with
    | none =>
      rw [hp] at hany
      cases hany
    | some p =>
      rw [hp, Option.any_some, h i hi p hp] at hany
      cases hany

/-- Nothing answers on an open-bus page. -/
theorem Coherent.silent (h : Coherent dm d) (hc : Classifiable d)
    (ht : dm.pageType a = .openBus) : Silent d a := by
  have hpromise := h.promise hc (a := a)
  rw [ht] at hpromise
  exact ⟨hpromise.2.absent hc.inv, hpromise.1⟩

/-- A page of memory is backed by the byte that the machine reads there. -/
theorem Coherent.memory (h : Coherent dm d) (hc : Classifiable d)
    (ht : DirectMap.ramOk (dm.pageType a) = true) :
    Spot d a ∧ dm.load d.ram a.toNat = some (byteAt d a) := by
  have hpromise := h.promise hc (a := a)
  have hspot (hs : Spot d a) {region : ByteSlice} {off : Nat}
      (hregion : fastRegion d a = some (region, off))
      (hload : dm.load d.ram a.toNat = region.get? off) :
      Spot d a ∧ dm.load d.ram a.toNat = some (byteAt d a) :=
    ⟨hs, hload.trans (hs.get hc.high hregion)⟩
  cases htype : dm.pageType a with
  | openBus =>
    rw [htype] at ht
    cases ht
  | io =>
    rw [htype] at ht
    cases ht
  | ram =>
    rw [htype] at hpromise
    rcases hpromise with ⟨hchip, hover⟩ | ⟨base, len, hmapped, hle, hlt⟩
    · refine hspot (.chip hchip hover) (fastRegion_chip hchip hover) ?_
      unfold DirectMap.load
      rw [h.chip a.toNat hchip]
      rfl
    · obtain ⟨mem, windowLen, hmem, hw, hlen, hsize⟩ := h.mappedIn base len hmapped
      refine hspot (.fast hw hmem hle (by omega) (by omega))
        (fastRegion_fast hc.high hw hmem hle (by omega)).1 ?_
      unfold DirectMap.load
      rw [h.fast base len hmapped a.toNat hle hlt]
      simp only
      rw [hmem, Option.bind_some]
  | rom =>
    rw [htype] at hpromise
    obtain ⟨hfull, hrom, -⟩ := hpromise
    have hsize := of_decide_eq_true hfull
    refine hspot (.rom hsize hrom) (fastRegion_rom hc.high hsize hrom) ?_
    obtain ⟨hlo, hhi⟩ := inRange_iff.mp hrom
    unfold DirectMap.load
    rw [h.rom a.toNat hlo hhi]
    have hlt : a.toNat - romBase < d.rom.size := by
      simp only [romEnd] at hhi
      omega
    have hlt' : a.toNat - romBase < romWindowSize := hsize ▸ hlt
    simp only
    rw [Buffer.get?_eq_some hlt', ByteSlice.get?, Buffer.get?_eq_some hlt]
    simp only [DirectMap.romCopy, ByteSlice.get?]
    rw [Buffer.get?_eq_some hlt, Option.getD_some]

/-- Bytes stored through the alias of chip RAM. -/
theorem storeBytes_chip : ∀ (bs : List Byte) (g : GuestRam) (a : Nat),
    (∀ k, k < bs.length → dm.reservation.lookup (a + k) = some (.chipRam, a + k)) →
    a + bs.length ≤ chipRamSize →
    dm.storeBytes g a bs = some (storeRegion g .chip a bs)
  | [], _, _, _, _ => rfl
  | v :: bs, g, a, hlookup, hsize => by
    rw [List.length_cons] at hlookup hsize
    have hfirst := hlookup 0 (by omega)
    rw [Nat.add_zero] at hfirst
    have hstore : dm.store g a v = some { g with chipRam := g.chipRam.set a v } := by
      unfold DirectMap.store
      rw [hfirst]
      exact if_pos (by omega)
    have hrest := storeBytes_chip bs { g with chipRam := g.chipRam.set a v } (a + 1)
      (fun k hk => by
        rw [Nat.add_assoc, Nat.add_comm 1]
        exact hlookup (k + 1) (by omega))
      (by omega)
    unfold DirectMap.storeBytes
    rw [hstore, Option.bind_some, hrest]
    rfl

/-- Bytes stored through the alias of fast RAM. -/
theorem storeBytes_fast : ∀ (bs : List Byte) (g : GuestRam) (mem : ByteSlice) (a off : Nat),
    g.fastRam = some mem →
    (∀ k, k < bs.length → dm.reservation.lookup (a + k) = some (.fastRam, off + k)) →
    off + bs.length ≤ mem.size →
    dm.storeBytes g a bs = some (storeRegion g (.fast mem) off bs)
  | [], g, mem, _, off, hmem, _, _ => by
    have hself : storeRegion g (.fast mem) off [] = g := by
      show { g with fastRam := some mem } = g
      rw [← hmem]
    rw [hself]
    rfl
  | v :: bs, g, mem, a, off, hmem, hlookup, hsize => by
    rw [List.length_cons] at hlookup hsize
    have hfirst := hlookup 0 (by omega)
    simp only [Nat.add_zero] at hfirst
    have hstore : dm.store g a v = some { g with fastRam := some (mem.set off v) } := by
      unfold DirectMap.store
      rw [hfirst]
      simp only
      rw [hmem, Option.bind_some]
      exact if_pos (by omega)
    have hrest := storeBytes_fast bs { g with fastRam := some (mem.set off v) } (mem.set off v)
      (a + 1) (off + 1) rfl
      (fun k hk => by
        rw [Nat.add_assoc, Nat.add_comm 1, Nat.add_assoc off, Nat.add_comm 1]
        exact hlookup (k + 1) (by omega))
      (by show off + 1 + bs.length ≤ mem.size; omega)
    unfold DirectMap.storeBytes
    rw [hstore, Option.bind_some, hrest]
    rfl

/-- A store to pages of RAM is the store of the machine. -/
theorem Coherent.store (h : Coherent dm d) (hc : Classifiable d) {bs : List Byte}
    (hn : 0 < bs.length) (hnoWrap : a.toNat + bs.length ≤ 0x100000000)
    (hfirst : dm.pageType a = .ram) (hlast : dm.pageType (nth a (bs.length - 1)) = .ram)
    (hshort : bs.length ≤ 4) :
    ∃ region off, StoreSpan d a bs.length region off ∧
      dm.storeBytes d.ram a.toNat bs = some (storeRegion d.ram region off bs) := by
  have hto := toNat_nth (a := a) (k := bs.length - 1) (by omega)
  have hpromise := h.promise hc (a := a)
  have hpromise' := h.promise hc (a := nth a (bs.length - 1))
  rw [hfirst] at hpromise
  rw [hlast] at hpromise'
  rcases hpromise with ⟨hchip, -⟩ | ⟨base, len, hmapped, hle, hlt⟩
  · have hend : a.toNat + bs.length ≤ chipRamSize := by
      simp only [chipRamEnd, chipRamBase, chipRamSize] at hchip ⊢
      rcases hpromise' with ⟨hchip', -⟩ | ⟨base, len, hmapped, hle, -⟩
      · simp only [chipRamEnd, chipRamBase, chipRamSize] at hchip'
        omega
      · obtain ⟨_, _, _, hw, -⟩ := h.mappedIn base len hmapped
        have habove := hc.above hw
        omega
    refine ⟨.chip, a.toNat, ⟨?_, hend⟩, storeBytes_chip bs d.ram a.toNat (fun k hk => ?_) hend⟩
    · have hin : inRange chipRamBase chipRamEnd a = true :=
        inRange_iff.mpr ⟨Nat.zero_le _, hchip⟩
      unfold fastRegionMut
      rw [hin]
      rfl
    · exact h.chip _ (by omega)
  · obtain ⟨mem, windowLen, hmem, hw, hlen, hsize⟩ := h.mappedIn base len hmapped
    have habove := hc.above hw
    have hend : a.toNat + bs.length ≤ base.toNat + len.toNat := by
      rcases hpromise' with ⟨hchip', -⟩ | ⟨base', len', hmapped', -, hlt'⟩
      · simp only [chipRamEnd, chipRamBase, chipRamSize] at hchip'
        omega
      · cases hmapped.symm.trans hmapped'
        omega
    have hregion := (fastRegion_fast hc.high hw hmem hle (by omega)).2
    have hfits : a.toNat - base.toNat + bs.length ≤ mem.size := by omega
    refine ⟨.fast mem, a.toNat - base.toNat, ⟨hregion, hfits⟩,
      storeBytes_fast bs d.ram mem a.toNat _ hmem (fun k hk => ?_) hfits⟩
    rw [h.fast base len hmapped (a.toNat + k) (by omega) (by omega), Option.some.injEq,
      Prod.mk.injEq]
    exact ⟨rfl, by omega⟩

/-- The bytes of a short access are on the pages of its first and its last byte. -/
theorem accessPages_eq_some {n : Nat} (hn : 0 < n ∧ n ≤ 4) {t0 t1 : PageType}
    (h : dm.accessPages a n = some (t0, t1)) :
    a.toNat + n ≤ 0x100000000 ∧ t0 = dm.pageType a ∧ t1 = dm.pageType (nth a (n - 1)) ∧
      ∀ k, k < n → dm.pageType (nth a k) = t0 ∨ dm.pageType (nth a k) = t1 := by
  obtain ⟨last, hlast, hpair⟩ := Option.map_eq_some_iff.mp h
  obtain ⟨hsum, hlt⟩ := GuestRam.toNat_of_checkedAdd hlast
  rw [BitVec.toNat_ofNat, Nat.mod_eq_of_lt (by omega)] at hsum hlt
  have heq : last = nth a (n - 1) := by
    rw [← BitVec.toNat_inj, hsum, toNat_nth (by omega)]
  cases hpair
  refine ⟨by omega, rfl, by rw [heq], fun k hk => ?_⟩
  -- At most one page boundary is crossed.
  have hpages : pageOf (nth a k) = pageOf a ∨ pageOf (nth a k) = pageOf last := by
    have hto := toNat_nth (a := a) (k := k) (by omega)
    unfold pageOf
    simp only [Fin.mk.injEq]
    omega
  unfold DirectMap.pageType
  rcases hpages with hpage | hpage
  · exact .inl (by rw [hpage])
  · exact .inr (by rw [hpage])

end Pages

/-! ## Staying coherent -/

theorem fastRamWindow_of_sameMap (h : d.ram.sameMap d'.ram) :
    d'.fastRamWindow = d.fastRamWindow := by
  obtain ⟨hw, -, hsize⟩ := h
  unfold fastRamWindow
  rw [hw]
  cases hmem : d.ram.fastRam with
  | none =>
    rw [hmem, Option.map_none, Option.map_eq_none_iff] at hsize
    rw [hsize]
  | some mem =>
    rw [hmem, Option.map_some, Option.map_eq_some_iff] at hsize
    obtain ⟨mem', hmem', heq⟩ := hsize
    rw [hmem']
    cases d.ram.fastWindow with
    | none => rfl
    | some window => simp only [heq]

theorem BusDevices.Steady.fingerprint (h : Steady d d') : Fingerprint.of d' = Fingerprint.of d := by
  unfold Fingerprint.of
  rw [h.overlay, h.chain, fastRamWindow_of_sameMap h.map]

theorem MappedIn.of_sameMap {r r' : GuestRam} {mapped : Option (Long × Long)}
    (h : MappedIn r mapped) (hmap : r.sameMap r') : MappedIn r' mapped := by
  intro base len hm
  obtain ⟨mem, windowLen, hmem, hw, hlen, hsize⟩ := h base len hm
  obtain ⟨hw', -, hsize'⟩ := hmap
  rw [hmem] at hsize'
  obtain ⟨mem', hmem', heq⟩ := Option.map_eq_some_iff.mp hsize'
  exact ⟨mem', windowLen, hmem', hw'.trans hw, hlen, by rw [heq]; exact hsize⟩

/-- The table is a function of the fingerprint. -/
theorem buildPageTable_congr (h : Fingerprint.of d' = Fingerprint.of d) (romFull : Bool)
    (mapped : Option (Long × Long)) :
    buildPageTable d' romFull mapped = buildPageTable d romFull mapped := by
  have hoverlay : d'.overlay = d.overlay := congrArg Fingerprint.overlay h
  have hwindow : d'.fastRamWindow = d.fastRamWindow := congrArg Fingerprint.fastWindow h
  have hplaced : ∀ i ∈ List.range maxBoards,
      d'.autoconfig.placement i = d.autoconfig.placement i := by
    intro i hi
    have hall : ((List.range maxBoards).map fun i =>
          (d'.autoconfig.placement i).map fun p => (p.base, p.sizeBytes)) =
        (List.range maxBoards).map fun i =>
          (d.autoconfig.placement i).map fun p => (p.base, p.sizeBytes) :=
      congrArg Fingerprint.placements h
    have hpair := List.map_inj_left.mp hall i hi
    cases hp : d.autoconfig.placement i <;> cases hp' : d'.autoconfig.placement i <;>
      simp only [hp, hp', Option.map_none, Option.map_some, Option.some.injEq, Prod.mk.injEq,
        reduceCtorEq] at hpair
    · rfl
    · rename_i p q
      obtain ⟨hbase, hsize⟩ := hpair
      cases p
      cases q
      cases hbase
      cases hsize
      rfl
  unfold buildPageTable
  rw [hoverlay]
  refine List.foldl_ext _ _ _ fun pages i hi => ?_
  unfold placePages
  rw [hplaced i hi, hwindow]

theorem Coherent.steady {dm : DirectMap} (h : Coherent dm d) (hs : Steady d d') :
    Coherent dm d' where
  full := by rw [h.full, hs.rom]
  mappedIn := h.mappedIn.of_sameMap hs.map
  chip := h.chip
  rom := by
    rw [hs.rom]
    exact h.rom
  fast := h.fast
  pages := by rw [h.pages, buildPageTable_congr hs.fingerprint, hs.rom]
  fingerprint := by rw [h.fingerprint, hs.fingerprint]

/-- A store within a region moves nothing. -/
theorem steady_storeRegion {a : Long} {n off : Nat} {region : RamRegion}
    (h : StoreSpan d a n region off) (bs : List Byte) :
    Steady d { d with ram := storeRegion d.ram region off bs } := by
  cases region with
  | chip => exact ⟨⟨⟨rfl, rfl, rfl, rfl, rfl⟩, rfl⟩, rfl, ⟨rfl, rfl, rfl⟩⟩
  | fast mem =>
    obtain ⟨-, -, hmem⟩ := fastRegionMut_fast h.1
    exact ⟨⟨⟨rfl, rfl, rfl, rfl, rfl⟩, rfl⟩, rfl, ⟨rfl, rfl, by rw [hmem]; rfl⟩⟩

/-- Once fast RAM has a window, it keeps it. -/
structure Grows (d d' : BusDevices δ ρ π) : Prop where
  rom : d'.rom = d.rom
  window : ∀ w, d.ram.fastWindow = some w → d.ram.sameMap d'.ram

theorem fastRamWindow_eq_some {base len : Long} (h : d.fastRamWindow = some (base, len)) :
    ∃ mem windowLen, d.ram.fastRam = some mem ∧
      d.ram.fastWindow = some (base, windowLen) ∧ len.toNat ≤ windowLen.toNat ∧
      len.toNat ≤ mem.size := by
  unfold fastRamWindow at h
  cases hw : d.ram.fastWindow with
  | none =>
    rw [hw] at h
    cases h
  | some window =>
    cases hmem : d.ram.fastRam with
    | none =>
      rw [hw, hmem] at h
      cases h
    | some mem =>
      rw [hw, hmem] at h
      simp only [Option.some.injEq, Prod.mk.injEq] at h
      obtain ⟨rfl, rfl⟩ := h
      have hle : mem.size % 2 ^ 32 ≤ mem.size := Nat.mod_le _ _
      refine ⟨mem, window.2, rfl, rfl, ?_, ?_⟩
      · split <;> omega
      · split
        · rw [BitVec.toNat_ofNat]
          exact hle
        · rename_i hge
          rw [BitVec.toNat_ofNat] at hge
          omega

/-- Rebuilding the table is all that is missing. -/
theorem Backed.rebuild {dm : DirectMap} {d : BusDevices δ ρ π} (h : Backed dm d) :
    Coherent { dm.rebuild d with fingerprint := Fingerprint.of d } d where
  toBacked := ⟨h.full, h.mappedIn, h.chip, h.rom, h.fast⟩
  pages := by
    unfold DirectMap.rebuild
    rw [h.full]
  fingerprint := rfl

theorem toNat_sub_mod_le (len n : Long) : (len - len % n).toNat ≤ len.toNat := by
  have hmod : (len % n).toNat ≤ len.toNat := by
    rw [BitVec.toNat_umod]
    exact Nat.mod_le _ _
  rw [BitVec.toNat_sub_of_le (BitVec.le_def.mpr hmod)]
  exact Nat.sub_le _ _

/-- Fast RAM is mapped for the first time. -/
theorem Backed.moveAlias {dm : DirectMap} {d : BusDevices δ ρ π} (h : Backed dm d)
    (hhigh : HighWindow d.ram) (hnone : dm.fastAlias = none) (mmapOk : Bool) :
    Backed (dm.moveAlias d.fastRamWindow mmapOk) d := by
  unfold DirectMap.moveAlias
  rw [hnone]
  simp only
  split
  · rename_i base len hfd hwindow
    split
    · rename_i hmapped
      obtain ⟨mem, windowLen, hmem, hw, hlen, hsize⟩ := fastRamWindow_eq_some hwindow
      have habove := hhigh _ _ hw
      have hle := toNat_sub_mod_le len 65536
      have hpos : (len - len % 65536).toNat ≠ 0 := Nat.ne_of_gt hmapped.1
      unfold DirectMap.aliased
      rw [if_neg hpos]
      refine ⟨h.full, ?_, ?_, ?_, ?_⟩
      · rintro base' len' ⟨⟩
        exact ⟨mem, windowLen, hmem, hw, by omega, by omega⟩
      · intro a ha
        simp only [chipRamSize] at ha
        rw [Reservation.lookup_mmap_outside _ _ (.inl (by omega))]
        exact h.chip a ha
      · intro a hlo hhi
        simp only [romEnd, romBase, romWindowSize] at hhi
        rw [Reservation.lookup_mmap_outside _ _ (.inl (by omega))]
        exact h.rom a hlo (by simpa only [romEnd, romBase, romWindowSize] using hhi)
      · rintro base' len' ⟨⟩ a hlo hhi
        exact Reservation.lookup_mmap_inside _ _ hlo hhi
    · exact h
  · exact h

/-- **A sync after a write of the machine makes the map coherent again.** -/
theorem coherent_sync {dm : DirectMap} (h : Coherent dm d) (hgrows : Grows d d')
    (hhigh : HighWindow d'.ram) (mmapOk : Bool) : Coherent (dm.sync d' mmapOk) d' := by
  have hmapped : MappedIn d'.ram dm.fastAlias := by
    intro base len hm
    obtain ⟨-, windowLen, -, hw, -⟩ := h.mappedIn base len hm
    exact h.mappedIn.of_sameMap (hgrows.window _ hw) base len hm
  have hbacked : Backed dm d' :=
    ⟨by rw [h.full, hgrows.rom], hmapped, h.chip, by rw [hgrows.rom]; exact h.rom, h.fast⟩
  unfold DirectMap.sync
  simp only
  split
  · rename_i hsame
    rw [h.fingerprint] at hsame
    refine ⟨hbacked, ?_, h.fingerprint.trans hsame.symm⟩
    rw [h.pages, buildPageTable_congr hsame, hgrows.rom]
  · split
    · rename_i hmoved
      -- A window that moved is a new one: an old one would still be there.
      have hnone : dm.fastAlias = none := by
        cases halias : dm.fastAlias with
        | none => rfl
        | some placed =>
          obtain ⟨-, windowLen, -, hw, -⟩ := h.mappedIn placed.1 placed.2 halias
          refine absurd ?_ hmoved
          rw [h.fingerprint]
          exact fastRamWindow_of_sameMap (hgrows.window _ hw)
      exact (hbacked.moveAlias hhigh hnone mmapOk).rebuild
    · exact hbacked.rebuild

/-- The map as it is built. -/
theorem coherent_new (fastFd : Bool) (d : BusDevices δ ρ π) :
    Coherent (DirectMap.new fastFd d) d := by
  refine Backed.rebuild ⟨rfl, ?_, ?_, ?_, ?_⟩
  · rintro base len ⟨⟩
  · intro a ha
    simp only [chipRamSize] at ha
    unfold DirectMap.mapRom DirectMap.aliased
    rw [Reservation.lookup_mmap_outside _ _ (.inl (by simp only [romBase]; omega)),
      if_neg (by decide), Reservation.lookup_mmap_inside _ _ (Nat.zero_le a)
        (by simp only [chipRamSize]; omega)]
    rfl
  · intro a hlo hhi
    exact Reservation.lookup_mmap_inside _ _ hlo (by simpa only [romEnd] using hhi)
  · rintro base len ⟨⟩

/-! ## Accesses -/

section Accesses

variable [BlockDevice δ] [PacketBackend ρ] [PciBackend π] {s : DirectBus δ ρ π} {a : Long}

omit [BlockDevice δ] [PacketBackend ρ] [PciBackend π] in
/-- **A read with the map is the read of the machine**, of every width. -/
theorem read_coherent {α : Type} {n : Nat} {compose : List Byte → α} {openBus : α}
    {slow : MachineBus δ ρ π → α × MachineBus δ ρ π} (h : Coherent s.map s.bus.devices)
    (hc : Classifiable s.bus.devices) (hn : 0 < n ∧ n ≤ 4)
    (hmemory : MemorySpan s.bus.devices a n →
      slow s.bus = (compose (bytesAt s.bus.devices a n), s.bus))
    (hopen : (∀ k, k < n → Silent s.bus.devices (nth a k)) → slow s.bus = (openBus, s.bus)) :
    s.read (s.map.readWidth s.bus.devices.ram a n compose openBus) slow =
      some ((slow s.bus).1, { s with bus := (slow s.bus).2 }) := by
  unfold DirectMap.readWidth
  cases hpages : s.map.accessPages a n with
  | none => rfl
  | some types =>
    obtain ⟨t0, t1⟩ := types
    obtain ⟨hnoWrap, -, -, htypes⟩ := accessPages_eq_some hn hpages
    simp only
    split
    · rename_i hram
      rw [Bool.and_eq_true] at hram
      have hbacked (k : Nat) (hk : k < n) := h.memory hc (a := nth a k) (by
        rcases htypes k hk with ht | ht
        · rw [ht, hram.1]
        · rw [ht, hram.2])
      have hload : s.map.loadBytes s.bus.devices.ram a.toNat n =
          some (bytesAt s.bus.devices a n) := by
        refine mapM_eq_map fun k hk => ?_
        rw [List.mem_range] at hk
        rw [← toNat_nth (by omega)]
        exact (hbacked k hk).2
      rw [hload, hmemory ⟨fun k hk => (hbacked k hk).1, hnoWrap⟩]
      rfl
    · split
      · rename_i hboth
        rw [hopen fun k hk => h.silent hc (by
          rcases htypes k hk with ht | ht
          · rw [ht, hboth.1]
          · rw [ht, hboth.2])]
        rfl
      · rfl

omit [BlockDevice δ] [PacketBackend ρ] [PciBackend π] in
/-- **A write with the map is the write of the machine**, by the map or by the machine and a
sync. -/
theorem write_coherent (bs : List Byte) {slow : MachineBus δ ρ π → MachineBus δ ρ π}
    (h : Coherent s.map s.bus.devices) (hc : Classifiable s.bus.devices)
    (hn : 0 < bs.length ∧ bs.length ≤ 4)
    (hstore : ∀ region off, StoreSpan s.bus.devices a bs.length region off →
      Spot s.bus.devices a → slow s.bus = s.bus.mapDevices fun d =>
        { d with ram := storeRegion d.ram region off bs })
    (hopen : (∀ k, k < bs.length → Silent s.bus.devices (nth a k)) → slow s.bus = s.bus)
    (hgrows : Grows s.bus.devices (slow s.bus).devices)
    (hhigh : HighWindow (slow s.bus).devices.ram) (mmapOk : Bool) :
    ∃ dm, s.write (s.map.writeWidth s.bus.devices.ram a bs) slow mmapOk =
      some ⟨slow s.bus, dm⟩ ∧ Coherent dm (slow s.bus).devices := by
  unfold DirectMap.writeWidth
  cases hpages : s.map.accessPages a bs.length with
  | none => exact ⟨_, rfl, coherent_sync h hgrows hhigh mmapOk⟩
  | some types =>
    obtain ⟨t0, t1⟩ := types
    obtain ⟨hnoWrap, hfirst, hlast, htypes⟩ := accessPages_eq_some hn hpages
    simp only
    split
    · rename_i hram
      rw [hram.1] at hfirst
      rw [hram.2] at hlast
      obtain ⟨region, off, hspan, hstored⟩ :=
        h.store hc hn.1 hnoWrap hfirst.symm hlast.symm hn.2
      have hspot := (h.memory hc (a := a) (by rw [← hfirst]; rfl)).1
      rw [hstored, hstore region off hspan hspot]
      exact ⟨_, rfl, h.steady (steady_storeRegion hspan bs)⟩
    · split
      · rename_i hboth
        rw [hopen fun k hk => h.silent hc (by
          rcases htypes k hk with ht | ht
          · rw [ht, hboth.1]
          · rw [ht, hboth.2])]
        exact ⟨_, rfl, h⟩
      · exact ⟨_, rfl, coherent_sync h hgrows hhigh mmapOk⟩

theorem readByte_coherent (h : Coherent s.map s.bus.devices) (hc : Classifiable s.bus.devices) :
    s.read (s.map.readByte s.bus.devices.ram a) (·.readByte a) =
      some ((s.bus.readByte a).1, { s with bus := (s.bus.readByte a).2 }) := by
  have hzero : nth a 0 = a := BitVec.add_zero a
  refine read_coherent h hc (by omega) (fun hm => ?_) fun ho => readByte_silent (hzero ▸ ho 0 ?_)
  · rw [readByte_spot hc.high (hzero ▸ hm.spot 0 (by omega))]
    simp [bytesAt, hzero]
  · omega

theorem readWord_coherent (h : Coherent s.map s.bus.devices) (hc : Classifiable s.bus.devices) :
    s.read (s.map.readWord s.bus.devices.ram a) (·.readWord a) =
      some ((s.bus.readWord a).1, { s with bus := (s.bus.readWord a).2 }) := by
  have hzero : nth a 0 = a := BitVec.add_zero a
  refine read_coherent h hc (by omega) (fun hm => ?_) fun ho =>
    readWord_silent (hzero ▸ ho 0 (by omega)) (ho 1 (by omega))
  rw [readWord_memory hc.high hm]
  simp [bytesAt, List.range_succ, hzero]

theorem readLong_coherent (h : Coherent s.map s.bus.devices) (hc : Classifiable s.bus.devices) :
    s.read (s.map.readLong s.bus.devices.ram a) (·.readLong a) =
      some ((s.bus.readLong a).1, { s with bus := (s.bus.readLong a).2 }) := by
  have hzero : nth a 0 = a := BitVec.add_zero a
  refine read_coherent h hc (by omega) (fun hm => ?_) readLong_silent
  rw [readLong_memory hc.high hm]
  simp [bytesAt, List.range_succ, hzero]

section Write

variable (h : Coherent s.map s.bus.devices) (hc : Classifiable s.bus.devices)

include h hc

theorem writeByte_coherent (value : Byte)
    (hgrows : Grows s.bus.devices (s.bus.writeByte a value).devices)
    (hhigh : HighWindow (s.bus.writeByte a value).devices.ram) (mmapOk : Bool) :
    ∃ dm, s.write (s.map.writeByte s.bus.devices.ram a value) (·.writeByte a value) mmapOk =
      some ⟨s.bus.writeByte a value, dm⟩ ∧ Coherent dm (s.bus.writeByte a value).devices :=
  write_coherent [value] h hc (by simp)
    (fun _ _ hspan _ => writeByte_span hspan)
    (fun ho => writeByte_deaf (BitVec.add_zero a ▸ (ho 0 Nat.one_pos).deaf) value)
    hgrows hhigh mmapOk

theorem writeWord_coherent (value : Word)
    (hgrows : Grows s.bus.devices (s.bus.writeWord a value).devices)
    (hhigh : HighWindow (s.bus.writeWord a value).devices.ram) (mmapOk : Bool) :
    ∃ dm, s.write (s.map.writeWord s.bus.devices.ram a value) (·.writeWord a value) mmapOk =
      some ⟨s.bus.writeWord a value, dm⟩ ∧ Coherent dm (s.bus.writeWord a value).devices :=
  write_coherent (toBytes16 value) h hc (by simp [toBytes16])
    (fun _ _ hspan hspot => writeWord_span (hspot.not_custom hc.high) hspan)
    (fun ho => writeWord_deaf (BitVec.add_zero a ▸ (ho 0 Nat.zero_lt_two).deaf)
      (ho 1 Nat.one_lt_two).deaf value)
    hgrows hhigh mmapOk

theorem writeLong_coherent (value : Long)
    (hgrows : Grows s.bus.devices (s.bus.writeLong a value).devices)
    (hhigh : HighWindow (s.bus.writeLong a value).devices.ram) (mmapOk : Bool) :
    ∃ dm, s.write (s.map.writeLong s.bus.devices.ram a value) (·.writeLong a value) mmapOk =
      some ⟨s.bus.writeLong a value, dm⟩ ∧ Coherent dm (s.bus.writeLong a value).devices :=
  write_coherent (toBytes32 value) h hc (by simp [toBytes32])
    (fun _ _ hspan _ => writeLong_span hspan)
    (fun ho => writeLong_deaf (fun k hk => (ho k hk).deaf) value) hgrows hhigh mmapOk

end Write

end Accesses

/-! ## What a run keeps -/

/-- What the classification rests on, apart from where fast RAM is. -/
structure OnChain (d : BusDevices δ ρ π) : Prop where
  inv : d.ChainInv
  sizes : d.autoconfig.PlacedSizes
  aligned : d.autoconfig.PageAligned

theorem OnChain.mapInv (h : OnChain d) : d.MapInv :=
  ⟨h.inv.fast, h.inv.unplaced⟩

theorem OnChain.classifiable (h : OnChain d) (hclear : FastClear d.ram) :
    Classifiable d := ⟨h.inv, h.sizes, h.aligned, hclear⟩

theorem AutoConfig.PageAligned.writes {c : AutoConfig} (h : c.PageAligned) :
    ∀ bytes : List (Long × Byte), (c.writes bytes).PageAligned :=
  fun bytes => Transition.run_invariant (P := PageAligned) (fun _ byte hc => hc.write byte.1 byte.2)
    bytes h

theorem OnChain.moved (h : OnChain d) (hm : Moved d d') (hinv : d'.ChainInv) : OnChain d' := by
  obtain ⟨bytes, hbytes⟩ := hm.chain
  exact ⟨hinv, hbytes ▸ h.sizes.writes bytes, hbytes ▸ h.aligned.writes bytes⟩

/-- A window that is clear later was clear when it was placed. -/
theorem FastClear.before (h : FastClear d'.ram) (hk : Kept d d') (hinv : d.MapInv) :
    FastClear d.ram := by
  cases hw : d.ram.fastWindow with
  | none =>
    refine ⟨fun a off hoff => ?_, fun base len hwin => ?_⟩
    · unfold fastOffset at hoff
      rw [hw] at hoff
      cases hoff
    · rw [hw] at hwin
      cases hwin
  | some w =>
    have hsame := (hk.window hinv w hw).1
    refine ⟨fun a off hoff => h.apart a off ?_, fun base len hwin => h.ends base len ?_⟩
    · unfold fastOffset at hoff ⊢
      rwa [hsame]
    · rwa [hsame]

section Runs

variable [BlockDevice δ] [PacketBackend ρ] [PciBackend π] [LawfulPacketBackend ρ]
  [LawfulPciBackend π] {b : MachineBus δ ρ π}

theorem steady_reads (b : MachineBus δ ρ π) (a : Long) :
    Steady b.devices (b.readByte a).2.devices ∧ Steady b.devices (b.readWord a).2.devices ∧
      Steady b.devices (b.readLong a).2.devices :=
  ⟨(stirred_readByte b a).steady, (stirred_readWord b a).steady, (stirred_readLong b a).steady⟩

omit [BlockDevice δ] [PacketBackend ρ] [LawfulPacketBackend ρ] [LawfulPciBackend π] in
theorem steady_stepHost (b : MachineBus δ ρ π) (op : HostOp) :
    Steady b.devices (b.stepHost op).devices := by
  unfold stepHost
  split
  · exact .refl _
  · exact steady_host _ _

omit [BlockDevice δ] [PacketBackend ρ] [PciBackend π] [LawfulPacketBackend ρ]
  [LawfulPciBackend π] in
theorem OnChain.steady {d d' : BusDevices δ ρ π} (h : OnChain d) (hs : Steady d d') :
    OnChain d' :=
  ⟨(Written.of_steady hs).inv h.inv, hs.chain ▸ h.sizes, hs.chain ▸ h.aligned⟩

/-- What an operation of a running machine does to the chain and to a placed window. -/
theorem live_keeps (hb : OnChain b.devices) (op : LiveOp) :
    OnChain (b.live op).2.devices ∧ Kept b.devices (b.live op).2.devices ∧
      Written b.devices (b.live op).2.devices := by
  have hguest (op : GuestOp) : OnChain (b.stepGuest op).devices ∧
      Kept b.devices (b.stepGuest op).devices ∧ Written b.devices (b.stepGuest op).devices := by
    have hc := changed_stepGuest b op
    exact ⟨hb.moved hc.moved (hc.written.inv hb.inv), hc.kept, hc.written⟩
  cases op with
  | tick cpuClocks => exact hguest (.tick cpuClocks)
  | access a => exact hguest (.access a)
  | host op =>
    have hs := steady_stepHost b op
    exact ⟨hb.steady hs, kept_stepHost b op, .of_steady hs⟩

/-- **One operation.** The adapter answers as the machine does, and the map stays coherent. -/
theorem live_coherent {s : DirectBus δ ρ π} (h : Coherent s.map s.bus.devices)
    (hs : OnChain s.bus.devices) (op : LiveOp)
    (hclear : FastClear (s.bus.live op).2.devices.ram) (mmapOk : Bool) :
    ∃ dm, s.live mmapOk op = some ((s.bus.live op).1, ⟨(s.bus.live op).2, dm⟩) ∧
      Coherent dm (s.bus.live op).2.devices := by
  obtain ⟨hchain, hkept, hwritten⟩ := live_keeps hs op
  have hc := hs.classifiable (hclear.before hkept hs.mapInv)
  have hc' := hchain.classifiable hclear
  have hgrows : Grows s.bus.devices (s.bus.live op).2.devices :=
    ⟨hwritten.rom, hkept.window hs.mapInv⟩
  have hread {α : Type} {direct : Option (DirectMap.ReadOutcome α)}
      {slow : MachineBus δ ρ π → α × MachineBus δ ρ π} (f : α → Long)
      (hr : s.read direct slow = some ((slow s.bus).1, { s with bus := (slow s.bus).2 }))
      (hsteady : Steady s.bus.devices (slow s.bus).2.devices) :
      ∃ dm, (s.read direct slow).map (fun r => (f r.1, r.2)) =
        some (f (slow s.bus).1, ⟨(slow s.bus).2, dm⟩) ∧ Coherent dm (slow s.bus).2.devices := by
    rw [hr]
    exact ⟨s.map, rfl, h.steady hsteady⟩
  have hwrite {t : Option (DirectBus δ ρ π)} {b' : MachineBus δ ρ π}
      (hw : ∃ dm, t = some ⟨b', dm⟩ ∧ Coherent dm b'.devices) :
      ∃ dm, t.map (fun s => ((0 : Long), s)) = some (0, ⟨b', dm⟩) ∧ Coherent dm b'.devices := by
    obtain ⟨dm, rfl, hcoherent⟩ := hw
    exact ⟨dm, rfl, hcoherent⟩
  cases op with
  | tick cpuClocks => exact ⟨s.map, rfl, h.steady (stirred_tick s.bus cpuClocks).steady⟩
  | host op => exact ⟨s.map, rfl, h.steady (steady_stepHost s.bus op)⟩
  | access a =>
    cases a with
    | readByte a => exact hread _ (readByte_coherent h hc) (steady_reads s.bus a).1
    | readWord a => exact hread _ (readWord_coherent h hc) (steady_reads s.bus a).2.1
    | readLong a =>
      exact ⟨s.map, readLong_coherent h hc, h.steady (steady_reads s.bus a).2.2⟩
    | writeByte a value => exact hwrite (writeByte_coherent h hc value hgrows hc'.high mmapOk)
    | writeWord a value => exact hwrite (writeWord_coherent h hc value hgrows hc'.high mmapOk)
    | writeLong a value => exact hwrite (writeLong_coherent h hc value hgrows hc'.high mmapOk)

theorem liveRun_kept : ∀ (ops : List LiveOp) {b : MachineBus δ ρ π}, OnChain b.devices →
    Kept b.devices (b.liveRun ops).2.devices
  | [], b, _ => .refl b.devices
  | op :: ops, b, h => by
    obtain ⟨hchain, hkept, -⟩ := live_keeps h op
    exact hkept.trans (liveRun_kept ops hchain)

theorem liveRun_coherent : ∀ (ops : List (LiveOp × Bool)) {s : DirectBus δ ρ π},
    Coherent s.map s.bus.devices → OnChain s.bus.devices →
    FastClear (s.bus.liveRun (ops.map Prod.fst)).2.devices.ram →
    ∃ dm, s.liveRun ops = some ((s.bus.liveRun (ops.map Prod.fst)).1,
      ⟨(s.bus.liveRun (ops.map Prod.fst)).2, dm⟩)
  | [], s, _, _, _ => ⟨s.map, rfl⟩
  | (op, mmapOk) :: ops, s, h, hs, hclear => by
    obtain ⟨hchain, -, -⟩ := live_keeps hs op
    have hkept := liveRun_kept (ops.map Prod.fst) hchain
    obtain ⟨dm, hlive, hcoherent⟩ :=
      live_coherent h hs op (FastClear.before hclear hkept hchain.mapInv) mmapOk
    obtain ⟨dm', hrun⟩ :=
      liveRun_coherent ops (s := ⟨(s.bus.live op).2, dm⟩) hcoherent hchain hclear
    refine ⟨dm', ?_⟩
    unfold DirectBus.liveRun
    rw [hlive]
    simp only [Option.bind_eq_bind, Option.bind_some]
    rw [hrun]
    rfl

omit [LawfulPacketBackend ρ] [LawfulPciBackend π] in
theorem onChain_withCards (chipRam : Buffer Byte chipRamSize) (rom : ByteSlice)
    (cards : List (Attach δ ρ π)) : OnChain (withCards chipRam rom cards).devices := by
  have hfresh := fresh_withCards chipRam rom cards
  have hblank {i : Nat} {p : Configured}
      (h : (withCards chipRam rom cards).devices.autoconfig.placement i = some p) : False := by
    rw [hfresh.blank i] at h
    cases h
  exact ⟨hfresh.inv, fun _ _ hp => (hblank hp).elim, fun _ _ hp => (hblank hp).elim⟩

/-- **The direct map is invisible.** Whatever the guest and the board layer do and whichever system
calls fail, a machine with the map reads what the machine alone reads, ends as it does, and takes no
fault, as long as the guest puts fast RAM clear of chip RAM and the ROM. -/
theorem direct_map_run (chipRam : Buffer Byte chipRamSize) (rom : ByteSlice)
    (cards : List (Attach δ ρ π)) (fastFd : Bool) (ops : List (LiveOp × Bool))
    (hclear : FastClear
      ((withCards chipRam rom cards).liveRun (ops.map Prod.fst)).2.devices.ram) :
    ∃ dm, (DirectBus.new fastFd (withCards chipRam rom cards)).liveRun ops =
      some (((withCards chipRam rom cards).liveRun (ops.map Prod.fst)).1,
        ⟨((withCards chipRam rom cards).liveRun (ops.map Prod.fst)).2, dm⟩) :=
  liveRun_coherent ops (s := DirectBus.new fastFd (withCards chipRam rom cards))
    (coherent_new fastFd _) (onChain_withCards chipRam rom cards) hclear

end Runs

/-- The overlay is switched off, and 16 MB of fast RAM at `$10000000` placed and used. -/
def placingGuest : List (LiveOp × Bool) :=
  [(.access (.writeByte 0xBFE001 0), true), (.access (.writeByte 0xE80044 0x10), true),
    (.access (.writeByte 0xE80045 0x00), true),
    (.access (.writeLong 0x10000002 0x12345678), true), (.tick 1000, true),
    (.access (.readLong 0x10000002), true)]

theorem fastWindow_placingGuest :
    (fastBuilt.liveRun (placingGuest.map Prod.fst)).2.devices.ram.fastWindow =
      some (0x10000000, 0x01000000) := by decide

theorem direct_map_run_placed :
    ∃ dm, (DirectBus.new true fastBuilt).liveRun placingGuest =
      some ((fastBuilt.liveRun (placingGuest.map Prod.fst)).1,
        ⟨(fastBuilt.liveRun (placingGuest.map Prod.fst)).2, dm⟩) := by
  refine direct_map_run _ _ [.fastRam (ByteSlice.zero 0x01000000)] true placingGuest ⟨?_, ?_⟩
  · intro a off hoff
    obtain ⟨base, len, hw, hle, rfl, hlt⟩ := fastOffset_eq_some hoff
    cases hw.symm.trans fastWindow_placingGuest
    have hbase : (0x10000000 : Long).toNat = 0x10000000 := rfl
    have hchip : chipRamEnd = 0x200000 := rfl
    have hrom : romEnd = 0x01000000 := rfl
    rw [inRange_eq_false, inRange_eq_false]
    omega
  · intro base len hw
    cases hw.symm.trans fastWindow_placingGuest
    decide

end M68kMachine
