import M68kMachine.Hosted.DirectMap
import M68kMachine.Properties.FastRamBacking

/-!
# What a page type promises

The table of page types against the machine it was built for. A board is typed where it was placed,
so the promise is carried through the loop over the chain, one board at a time.

* `PageAligned` — boards are placed at the beginning of a page
* `FastClear` — where fast RAM may be placed for the table to be right
* `Promise`, `promise_buildPageTable` — the meaning of a page type, and that the table keeps it
-/

namespace M68kMachine

open Autoconfig AutoConfig MachineBus

variable {δ ρ π : Type}

/-! ## Bases -/

/-- Placed boards begin at a page. -/
def AutoConfig.PageAligned (a : AutoConfig) : Prop :=
  ∀ i p, a.placement i = some p → p.base.toNat % 65536 = 0

theorem AutoConfig.PageAligned.write {a : AutoConfig} (h : a.PageAligned) (address : Long)
    (value : Byte) : (a.write address value).PageAligned := by
  intro i p hp
  rcases a.write_effect address value with ⟨q, hplacing, hw⟩ | ⟨-, ⟨hw, -⟩ | ⟨hw, -⟩ | ⟨hw, -⟩⟩
  · have hold : p = q ∨ a.placement i = some p := by
      rw [hw] at hp
      unfold AutoConfig.placement at hp ⊢
      simp only [Vector.getElem?_setIfInBounds] at hp
      split_ifs at hp
      · exact .inl (Option.some.inj hp).symm
      · cases hp
      · exact .inr hp
    rcases hold with rfl | hold
    · obtain ⟨spec, -, -, ⟨-, -, hi, -, hbase⟩ | ⟨-, -, hbase⟩⟩ := placing_eq_some hplacing
      · rw [hbase, toNat_z3Base, Nat.mul_mod_left]
      · rw [hbase, toNat_z2Base, Nat.mul_mod_left]
    · exact h i p hold
  all_goals
    rw [hw] at hp
    exact h i p hp

/-! ## Where fast RAM may be -/

/-- Fast RAM was placed clear of chip RAM and the ROM, inside the address space. -/
structure FastClear (r : GuestRam) : Prop where
  apart : MachineBus.WindowApart r
  ends : ∀ base len, r.fastWindow = some (base, len) → base.toNat + len.toNat ≤ 0x100000000

/-- What the classification rests on. -/
structure Classifiable (d : BusDevices δ ρ π) : Prop where
  inv : d.ChainInv
  sizes : d.autoconfig.PlacedSizes
  aligned : d.autoconfig.PageAligned
  clear : FastClear d.ram

/-- The window is the place of a board on the chain. -/
theorem Classifiable.placed {d : BusDevices δ ρ π} (h : Classifiable d) {base len : Long}
    (hw : d.ram.fastWindow = some (base, len)) : ∃ i,
      d.ram.fastRamBoard = some i ∧ d.autoconfig.placement i = some ⟨base, len⟩ ∧
      0x00E90000 ≤ len.toNat := by
  rw [h.inv.fast] at hw
  obtain ⟨i, p, hi, hp, rfl, rfl⟩ := BusDevices.windowOf_eq_some hw
  obtain ⟨spec, hspec, hsize⟩ := h.sizes i p hp
  obtain ⟨spec', hspec', -, hlarge⟩ := h.inv.cached i (.inl hi)
  rw [hspec'.unique hspec, ← hsize] at hlarge
  exact ⟨i, hi, hp, hlarge⟩

/-- A window that is clear of chip RAM and ROM is above both: it is too long to fit between. -/
theorem Classifiable.above {d : BusDevices δ ρ π} (h : Classifiable d) {base len : Long}
    (hw : d.ram.fastWindow = some (base, len)) : 0x01000000 ≤ base.toNat := by
  obtain ⟨i, -, -, hlarge⟩ := h.placed hw
  have hin (a : Long) (hle : base.toNat ≤ a.toNat) (hlt : a.toNat - base.toNat < len.toNat) :
      inRange chipRamBase chipRamEnd a = false ∧ inRange romBase romEnd a = false := by
    refine h.clear.apart a (a.toNat - base.toNat) ?_
    unfold fastOffset
    rw [hw]
    exact if_pos ⟨hle, hlt⟩
  by_contra hlow
  by_cases hrom : base.toNat ≤ 0xF80000
  · -- The window would begin below the ROM and hold its first byte, or begin in chip RAM.
    have hchip := (hin base (Nat.le_refl _) (by omega)).1
    have hfirst := (hin 0xF80000 hrom (by
      show 0xF80000 - base.toNat < len.toNat
      rw [inRange_eq_false] at hchip
      simp only [chipRamBase, chipRamEnd, chipRamSize] at hchip
      omega)).2
    exact absurd hfirst (by decide)
  · have hself := (hin base (Nat.le_refl _) (by omega)).2
    rw [inRange_eq_false] at hself
    simp only [romBase, romEnd, romWindowSize] at hself
    omega

/-! ## What a type promises -/

/-- None of the boards `is` was placed over `a`. -/
def Beside (d : BusDevices δ ρ π) (is : List Nat) (a : Long) : Prop :=
  ∀ i ∈ is, ∀ p, d.autoconfig.placement i = some p → p.contains a = false

/-- `a` lies in the part of fast RAM that is mapped. -/
def InMapped (mapped : Option (Long × Long)) (a : Long) : Prop :=
  ∃ base len, mapped = some (base, len) ∧ base.toNat ≤ a.toNat ∧
    a.toNat < base.toNat + len.toNat

/-- What answers at a page of this type, once the boards `is` were gone through. -/
def Promise (d : BusDevices δ ρ π) (romFull : Bool) (mapped : Option (Long × Long))
    (is : List Nat) (a : Long) : PageType → Prop
  | .ram => (a.toNat < chipRamEnd ∧ overlaid d a = false) ∨ InMapped mapped a
  | .rom => romFull = true ∧ inRange romBase romEnd a = true ∧ Beside d is a
  | .openBus => OutsideFixed a ∧ Beside d is a
  | .io => True

section Table

variable {d : BusDevices δ ρ π} {romFull : Bool} {mapped : Option (Long × Long)} {a : Long}
  {pages : PageTable} {t : PageType} {is : List Nat} {i : Nat} {cfg : Configured}

theorem fill_cases {P : PageType → Prop} {first last : Nat}
    (hin : first ≤ a.toNat / 65536 → a.toNat / 65536 < last → P t)
    (hout : a.toNat / 65536 < first ∨ last ≤ a.toNat / 65536 → P (pages (pageOf a))) :
    P (pages.fill first last t (pageOf a)) := by
  have hpage : (pageOf a).val = a.toNat / 65536 := rfl
  unfold PageTable.fill
  rw [hpage]
  split
  · rename_i h
    exact hin h.1 h.2
  · exact hout (by omega)

theorem fillBeside_cases {P : PageType → Prop} {first last : Nat} (hin : P t)
    (hout : (pages (pageOf a) ≠ .ram → a.toNat / 65536 < first ∨ last ≤ a.toNat / 65536) →
      P (pages (pageOf a))) : P (pages.fillBeside first last t (pageOf a)) := by
  have hpage : (pageOf a).val = a.toNat / 65536 := rfl
  unfold PageTable.fillBeside
  rw [hpage]
  split
  · exact hin
  · rename_i h
    refine hout fun hram => ?_
    by_contra hbetween
    exact h ⟨by omega, by omega, hram⟩

/-- The fixed ranges keep their promise before any board is placed. -/
theorem promise_fixed : Promise d romFull mapped [] a
    (PageTable.fixed d.overlay romFull (pageOf a)) := by
  have hbeside : Beside d [] a := fun i hi => by simp at hi
  have hnum : PageTable.number chipRamBase = 0 ∧ PageTable.number chipRamEnd = 0x20 ∧
      PageTable.number overlayEnd = 0x08 ∧ PageTable.number ciaBase = 0xA0 ∧
      PageTable.number ciaEnd = 0xC0 ∧ PageTable.number customBase = 0xDF ∧
      PageTable.number autoconfigBase = 0xE8 ∧ PageTable.number autoconfigEnd = 0xE9 ∧
      PageTable.number extRomBase = 0xE0 ∧
      PageTable.number (extRomBase + extRomWindowSize) = 0xE8 ∧
      PageTable.number romBase = 0xF8 ∧ PageTable.number romEnd = 0x100 := by decide
  obtain ⟨h1, h2, h3, h4, h5, h6, h7, h8, h9, h10, h11, h12⟩ := hnum
  simp only [PageTable.fixed, h1, h2, h3, h4, h5, h6, h7, h8, h9, h10, h11, h12]
  -- The ranges in the reverse of their order in the table: the later one wins.
  refine fill_cases (fun hlo hhi => ?_) fun hrom => ?_
  · cases romFull with
    | false => trivial
    | true =>
      refine ⟨rfl, ?_, hbeside⟩
      rw [inRange_iff]
      simp only [romBase, romEnd, romWindowSize]
      omega
  refine fill_cases (fun _ _ => trivial) fun hext => ?_
  refine fill_cases (fun _ _ => trivial) fun hconfig => ?_
  refine fill_cases (fun _ _ => trivial) fun hcustom => ?_
  refine fill_cases (fun _ _ => trivial) fun hcia => ?_
  -- What is left is chip RAM and the pages nothing answers on.
  have hchip (hoverlay : d.overlay = true → 8 ≤ a.toNat / 65536) :
      Promise d romFull mapped [] a
        (PageTable.fill (fun _ => PageType.openBus) 0 0x20 .ram (pageOf a)) := by
    refine fill_cases (fun _ hhi => .inl ⟨?_, ?_⟩) fun hchip => ⟨?_, hbeside⟩
    · simp only [chipRamEnd, chipRamBase, chipRamSize]
      omega
    · unfold overlaid
      rw [Bool.and_eq_false_iff, decide_eq_false_iff_not]
      simp only [overlayEnd]
      cases hov : d.overlay with
      | false => exact .inl rfl
      | true =>
        have hle := hoverlay hov
        exact .inr (by omega)
    · refine ⟨?_, ?_, ?_, ?_, ?_, ?_⟩
      · simp only [chipRamEnd, chipRamBase, chipRamSize]
        omega
      · rw [Bool.eq_false_iff, ne_eq, respondsTo_iff]
        omega
      all_goals
        rw [inRange_eq_false]
        simp only [ciaBase, ciaEnd, customBase, customEnd, extRomBase, extRomWindowSize, romBase,
          romEnd, romWindowSize]
        omega
  cases hov : d.overlay with
  | false => exact hchip fun h => by rw [hov] at h; cases h
  | true =>
    simp only [if_true]
    refine fill_cases (fun _ _ => trivial) fun hout => hchip fun _ => ?_
    omega

/-! ## The loop over the chain -/

/-- A page keeps its type past a board that is not on it. -/
theorem Promise.snoc (h : Promise d romFull mapped is a t)
    (hboard : t ≠ .ram → ∀ p, d.autoconfig.placement i = some p → p.contains a = false) :
    Promise d romFull mapped (is ++ [i]) a t := by
  have hsnoc (hbeside : Beside d is a)
      (hnew : ∀ p, d.autoconfig.placement i = some p → p.contains a = false) :
      Beside d (is ++ [i]) a := by
    intro j hj p hp
    rcases List.mem_append.mp hj with hj | hj
    · exact hbeside j hj p hp
    · rw [List.mem_singleton.mp hj] at hp
      exact hnew p hp
  cases t with
  | ram => exact h
  | rom => exact ⟨h.1, h.2.1, hsnoc h.2.2 (hboard (by simp))⟩
  | openBus => exact ⟨h.1, hsnoc h.2 (hboard (by simp))⟩
  | io => trivial

theorem not_contains
    (h : a.toNat < cfg.base.toNat ∨ cfg.base.toNat + cfg.sizeBytes.toNat ≤ a.toNat) :
    cfg.contains a = false := by
  unfold Configured.contains
  rw [Bool.and_eq_false_iff, decide_eq_false_iff_not, decide_eq_false_iff_not]
  omega

/-- A board typed over its whole window takes its addresses away. -/
theorem promise_placeBoard (hcfg : d.autoconfig.placement i = some cfg)
    (h : Promise d romFull mapped is a (pages (pageOf a))) :
    Promise d romFull mapped (is ++ [i]) a (pages.placeBoard cfg (pageOf a)) := by
  have hlt := a.isLt
  refine fill_cases (fun _ _ => trivial) fun hout => h.snoc fun _ p hp => ?_
  cases hcfg.symm.trans hp
  refine not_contains ?_
  simp only [PageTable.number, PageTable.saturating] at hout
  omega

/-- Of fast RAM's board the mapped pages are RAM, and the others are taken away. -/
theorem promise_placeFastRam (hcfg : d.autoconfig.placement i = some cfg)
    (halign : cfg.base.toNat % 65536 = 0) {len : Nat}
    (hlen : 0 < len → ∃ l : Long, mapped = some (cfg.base, l) ∧ l.toNat = len)
    (h : Promise d romFull mapped is a (pages (pageOf a))) :
    Promise d romFull mapped (is ++ [i]) a (pages.placeFastRam cfg len (pageOf a)) := by
  have hlt := a.isLt
  refine fillBeside_cases trivial ?_
  refine fill_cases (P := fun t => (t ≠ .ram → _ ∨ _) → Promise d romFull mapped (is ++ [i]) a t)
    (fun hlo hhi _ => ?_) fun hout hrest => h.snoc fun hram p hp => ?_
  · simp only [PageTable.number, PageTable.saturating] at hlo hhi
    obtain ⟨l, hl, rfl⟩ := hlen (by omega)
    exact .inr ⟨cfg.base, l, hl, by omega, by omega⟩
  · cases hcfg.symm.trans hp
    have hbehind := hrest hram
    refine not_contains ?_
    simp only [PageTable.number, PageTable.saturating] at hout hbehind
    omega

/-- What the caller says is mapped is the beginning of fast RAM's window and of its buffer. -/
def MappedIn (r : GuestRam) (mapped : Option (Long × Long)) : Prop :=
  ∀ base len, mapped = some (base, len) → ∃ mem windowLen, r.fastRam = some mem ∧
    r.fastWindow = some (base, windowLen) ∧ len.toNat ≤ windowLen.toNat ∧ len.toNat ≤ mem.size

theorem promise_placePages (haligned : d.autoconfig.PageAligned) (i : Nat)
    (h : Promise d romFull mapped is a (pages (pageOf a))) :
    Promise d romFull mapped (is ++ [i]) a (placePages d mapped pages i (pageOf a)) := by
  cases hcfg : d.autoconfig.placement i with
  | none =>
    have hsame : placePages d mapped pages i = pages := by
      unfold placePages
      rw [hcfg]
    rw [hsame]
    refine h.snoc fun _ p hp => ?_
    rw [hcfg] at hp
    cases hp
  | some cfg =>
    by_cases hfast : d.fastRamWindow.any fun window => window.1 = cfg.base
    · have hplace : placePages d mapped pages i = pages.placeFastRam cfg
          ((mapped.filter fun m => m.1 = cfg.base).elim 0 fun m => m.2.toNat) := by
        unfold placePages
        rw [hcfg]
        exact if_pos hfast
      rw [hplace]
      refine promise_placeFastRam hcfg (haligned i cfg hcfg) (fun hpos => ?_) h
      cases mapped with
      | none => exact absurd hpos (Nat.lt_irrefl 0)
      | some m =>
        by_cases hbase : m.1 = cfg.base
        · refine ⟨m.2, by rw [← hbase], ?_⟩
          simp [Option.filter, hbase]
        · simp [Option.filter, hbase] at hpos
    · have hplace : placePages d mapped pages i = pages.placeBoard cfg := by
        unfold placePages
        rw [hcfg]
        exact if_neg hfast
      rw [hplace]
      exact promise_placeBoard hcfg h

/-- **The table keeps the promise of every page type**, each board of the chain gone through. -/
theorem promise_buildPageTable (haligned : d.autoconfig.PageAligned) :
    Promise d romFull mapped (List.range maxBoards) a
      (buildPageTable d romFull mapped (pageOf a)) := by
  have hall : ∀ (rest before : List Nat) (pages : PageTable),
      Promise d romFull mapped before a (pages (pageOf a)) →
      Promise d romFull mapped (before ++ rest) a
        (rest.foldl (placePages d mapped) pages (pageOf a)) := by
    intro rest
    induction rest with
    | nil =>
      intro before pages h
      rwa [List.append_nil]
    | cons i rest ih =>
      intro before pages h
      have hnext := ih (before ++ [i]) _ (promise_placePages haligned i h)
      rwa [List.append_assoc] at hnext
  exact hall (List.range maxBoards) [] _ promise_fixed

end Table

end M68kMachine
