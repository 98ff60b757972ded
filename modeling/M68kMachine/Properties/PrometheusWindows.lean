import M68kMachine.Properties.PrometheusBars

/-!
# The windows prometheus.library hands out

The walk gives each BAR it assigns a place of its own in the aperture, and leaves the others alone.
`COMMAND` is enabled for every recorded function, so a window that was not assigned may meet
another.

* `Enumerating` — the walk at a position
* `Enumerated`, `enumerateBus0_enumerated` — what it ends with
* `wideBus_overlap` — two windows that were not assigned
-/

namespace M68kMachine

open Pci Pcibridge BumpAllocator

namespace Prometheus

/-! ## The walk -/

section

variable {d : PciBridge Population} {dev fn : Byte} {offset : Word} {width : AccessWidth}

theorem backend_cfgCycle_read (hnamed : Named dev fn offset width) (wdata : Long) :
    (cfgCycle d 0 dev fn offset (widthByte width) opRead wdata).bridge.backend = d.backend := by
  rw [cfgCycle_read d hnamed]
  show (PciBackend.configRead d.backend ⟨0, dev, fn⟩ offset width).2 = d.backend
  unfold PciBackend.configRead
  dsimp only [Population.instPciBackend]
  split <;> rfl

/-- A function that gives a vendor exists. -/
theorem exists_of_present {s : Scan Population} (hslot : Slot dev fn)
    (hpresent : ¬ absent (readVendor s 0 dev fn).1 = true) :
    ∃ h, s.bridge.backend.functionAt ⟨0, dev, fn⟩ = some h := by
  refine Option.ne_none_iff_exists'.mp fun hnone => hpresent ?_
  have hnamed : Named dev fn PciCfg.vendorDevice .w32 :=
    ⟨hslot.dev_lt, hslot.fn_lt, by decide, by decide⟩
  have hvalue : (readVendor s 0 dev fn).1 = allOnes .w32 := by
    unfold readVendor
    rw [show (4 : Byte) = widthByte .w32 from rfl, cfgCycle_read s.bridge hnamed]
    simp only [PciBackend.configRead, hnone]
  rw [hvalue]
  decide

/-- Recording a function is assigning its BARs, from a board that has none. -/
theorem recordFunction_eq {s s' : Scan Population} (hslot : Slot dev fn)
    (h : recordFunction s 0 dev fn = some s') :
    ∃ a, a.bridge.backend = s.bridge.backend ∧ a.f.bdf = ⟨0, dev, fn⟩ ∧
      (∀ i, a.f.barPci i = 0 ∧ a.f.barSize i = 0) ∧ a.nextFree = s.nextFree ∧
      s' = ⟨(assignBars a).bridge, s.boards ++ [(assignBars a).f], (assignBars a).nextFree⟩ := by
  have hread : ∀ (d : PciBridge Population) offset (width : AccessWidth), offset.toNat < 0x1000 →
      offset.toNat % width.bytes = 0 →
      (cfgCycle d 0 dev fn offset (widthByte width) opRead 0).bridge.backend = d.backend :=
    fun d offset width hlt haligned =>
      backend_cfgCycle_read ⟨hslot.dev_lt, hslot.fn_lt, hlt, haligned⟩ 0
  unfold recordFunction at h
  split at h
  · exact absurd h (Option.some_ne_none _).symm
  · cases Option.some.inj h
    refine ⟨⟨_, _, s.nextFree⟩, ?_, rfl, fun i => ⟨rfl, rfl⟩, rfl, rfl⟩
    refine (hread _ PciCfg.intPin .w8 (by decide) (by decide)).trans ?_
    refine (hread _ PciCfg.subClass .w8 (by decide) (by decide)).trans ?_
    refine (hread _ PciCfg.class' .w8 (by decide) (by decide)).trans ?_
    refine (hread _ PciCfg.revision .w8 (by decide) (by decide)).trans ?_
    exact hread _ PciCfg.vendorDevice .w32 (by decide) (by decide)

end

/-- The boards recorded so far, in order, of the population `p`. -/
structure Enumerating (p : Population) (n : Nat) (s : Scan Population) : Prop where
  behind (f : PciFunction) (hf : f ∈ s.boards) :
    f.bus = 0 ∧ Slot f.dev f.fn ∧ position f.dev f.fn < n
  ordered : s.boards.Pairwise fun f g => position f.dev f.fn < position g.dev g.fn
  recorded (f : PciFunction) (hf : f ∈ s.boards) : ∃ h₀ h, p.functionAt f.bdf = some h₀ ∧
    s.bridge.backend.functionAt f.bdf = some h ∧ Recorded h₀ h f s.nextFree
  others (b : Bdf) (hb : ∀ f ∈ s.boards, f.bdf ≠ b) :
    s.bridge.backend.functionAt b = p.functionAt b
  cursor : Cursor s.boards s.nextFree

theorem Enumerating.backend {p : Population} {n : Nat} {s : Scan Population}
    (h : Enumerating p n s) {d : PciBridge Population} (hd : d.backend = s.bridge.backend) :
    Enumerating p n { s with bridge := d } where
  behind := h.behind
  ordered := h.ordered
  recorded f hf := by
    show ∃ h₀ h, _ ∧ d.backend.functionAt f.bdf = some h ∧ _
    rw [hd]
    exact h.recorded f hf
  others b hb := by
    show d.backend.functionAt b = _
    rw [hd]
    exact h.others b hb
  cursor := h.cursor

theorem Recorded.mono {h₀ h : Header} {f : PciFunction} {cursor cursor' : Long}
    (hr : Recorded h₀ h f cursor) (hle : cursor.toNat ≤ cursor'.toNat) :
    Recorded h₀ h f cursor' where
  command := hr.command
  layout := hr.layout
  settled := hr.settled
  full i := (hr.full i).mono hle

/-- **One function more.** -/
theorem Enumerating.record {p : Population} {n : Nat} {s s' : Scan Population} {dev fn : Byte}
    (h : Enumerating p n s) (hslot : Slot dev fn) (hn : n ≤ position dev fn)
    (hpresent : ∃ h, s.bridge.backend.functionAt ⟨0, dev, fn⟩ = some h)
    (hrecord : recordFunction s 0 dev fn = some s') :
    Enumerating p (position dev fn + 1) s' := by
  obtain ⟨a, hback, hbdf, hbare, hnext, rfl⟩ := recordFunction_eq hslot hrecord
  obtain ⟨h₀, hat⟩ := hpresent
  have hdev : a.f.dev = dev := congrArg Bdf.device hbdf
  have hfn : a.f.fn = fn := congrArg Bdf.function hbdf
  have hnew : ∀ f ∈ s.boards, f.bdf ≠ ⟨0, dev, fn⟩ := by
    intro f hf heq
    have hlt := (h.behind f hf).2.2
    have hfdev : f.dev = dev := congrArg Bdf.device heq
    have hffn : f.fn = fn := congrArg Bdf.function heq
    rw [hfdev, hffn] at hlt
    omega
  obtain ⟨a', h', hassign, hsame, hat', hrec, hothers, hgrown, hcursor⟩ :=
    @assignBars_spec s.bridge.backend s.boards h₀ a
      (by rw [hdev, hfn]; exact hslot) (by rw [hback, hbdf, hat])
      (fun b _ => by rw [hback]) hbare (hnext ▸ h.cursor)
  rw [hassign]
  rw [hbdf] at hsame hat' hothers
  have hbus' : a'.f.bus = 0 := congrArg Bdf.bus hsame
  have hdev' : a'.f.dev = dev := congrArg Bdf.device hsame
  have hfn' : a'.f.fn = fn := congrArg Bdf.function hsame
  refine ⟨fun f hf => ?_, ?_, fun f hf => ?_, fun b hb => ?_, hcursor⟩
  · rcases List.mem_append.mp hf with hold | hlast
    · obtain ⟨hbus, hf', hlt⟩ := h.behind f hold
      exact ⟨hbus, hf', by omega⟩
    · cases List.mem_singleton.mp hlast
      rw [hdev', hfn']
      exact ⟨hbus', hslot, Nat.lt_succ_self _⟩
  · refine List.pairwise_append.mpr ⟨h.ordered, List.pairwise_singleton .., fun f hf g hg => ?_⟩
    cases List.mem_singleton.mp hg
    rw [hdev', hfn']
    exact (h.behind f hf).2.2.trans_le hn
  · rcases List.mem_append.mp hf with hold | hlast
    · obtain ⟨h₁, h₂, hp, hs, hr⟩ := h.recorded f hold
      exact ⟨h₁, h₂, hp, (hothers f.bdf (hnew f hold)).trans hs, hr.mono (hnext ▸ hgrown)⟩
    · cases List.mem_singleton.mp hlast
      refine ⟨h₀, h', ?_, hsame ▸ hat', hrec⟩
      rw [hsame, ← h.others _ hnew, hat]
  · rw [hothers b fun heq => ?_, h.others b fun f hf => hb f (List.mem_append_left _ hf)]
    exact hb a'.f (List.mem_append_right _ (List.mem_singleton_self _)) (hsame.trans heq.symm)

theorem Enumerating.walked (p : Population) : Walked (Enumerating p) where
  read n s dev fn offset width hnamed h := h.backend (backend_cfgCycle_read hnamed 0)
  record n s s' dev fn hslot hn hpresent hrecord h := by
    have hnamed : Named dev fn PciCfg.vendorDevice .w32 :=
      ⟨hslot.dev_lt, hslot.fn_lt, by decide, by decide⟩
    have hback : (readVendor s 0 dev fn).2.bridge.backend = s.bridge.backend :=
      backend_cfgCycle_read hnamed 0
    exact (h.backend hback).record hslot hn (hback ▸ exists_of_present hslot hpresent) hrecord
  skip n m s hnm h :=
    { behind := fun f hf => ⟨(h.behind f hf).1, (h.behind f hf).2.1,
        (h.behind f hf).2.2.trans_le hnm⟩
      ordered := h.ordered
      recorded := h.recorded
      others := h.others
      cursor := h.cursor }

theorem Enumerating.start (d : PciBridge Population) :
    Enumerating d.backend 0 ⟨d, [], pciMemBase⟩ where
  behind f hf := (nomatch hf)
  ordered := List.Pairwise.nil
  recorded f hf := (nomatch hf)
  others b _ := rfl
  cursor := ⟨(Arena.empty _).sub fun k w hw => by
    obtain ⟨f, hf, -⟩ := hw
    exact (nomatch hf), Nat.le_refl _, (by decide : pciMemBase.toNat ≤ apertureEnd)⟩

/-! ## Every window its own place -/

/-- A BAR with a place: its own size, aligned to it, inside the aperture, and decoded there. -/
structure InPlace (h : Header) (f : PciFunction) (i : Fin 6) : Prop where
  own : ∃ log prefetch, h.layout.form i = .mem32 log prefetch ∧
    (f.window i).size = 2 ^ (log.val + 4)
  aligned : (f.window i).size ∣ (f.window i).base
  above : pciMemBase.toNat ≤ (f.window i).base
  below : (f.window i).base + (f.window i).size ≤ pciMemBase.toNat + pciMemBytes.toNat
  decoded : h.window i = some (f.window i)

/-- A BAR left without a window reads as before, and if it is a 32-bit memory BAR there is no
room. -/
structure LeftAlone (h₀ h : Header) (f : PciFunction) (cursor : Long) (i : Fin 6) : Prop where
  none : f.barPci i = 0 ∧ f.barSize i = 0
  register : h.register i = h₀.register i
  full (log : Fin 28) (prefetch : Bool) (hform : h₀.layout.form i = .mem32 log prefetch) :
    pciMemBase.toNat + pciMemBytes.toNat <
      alignUp cursor.toNat (2 ^ (log.val + 4)) + 2 ^ (log.val + 4)

/-- What the walk made of the population `p`. -/
structure Enumerated (p : Population) (s : Scan Population) : Prop where
  recorded (f : PciFunction) (hf : f ∈ s.boards) : ∃ h₀ h, p.functionAt f.bdf = some h₀ ∧
    s.bridge.backend.functionAt f.bdf = some h ∧ h.layout = h₀.layout ∧
    h.command = pciCmdMemory ||| pciCmdMaster ∧
    ∀ i, InPlace h f i ∨ LeftAlone h₀ h f s.nextFree i
  distinct : s.boards.Pairwise fun f g => f.bdf ≠ g.bdf
  apart (f g : PciFunction) (hf : f ∈ s.boards) (hg : g ∈ s.boards) (i j : Fin 6)
    (hne : (f.bdf, i) ≠ (g.bdf, j)) (hfi : f.barSize i ≠ 0) (hgj : g.barSize j ≠ 0) :
    (f.window i).Apart (g.window j)
  overlap (f g : PciFunction) (hf : f ∈ s.boards) (hg : g ∈ s.boards) (i j : Fin 6)
    (hne : (f.bdf, i) ≠ (g.bdf, j)) (h k : Header) (w v : Window)
    (hh : s.bridge.backend.functionAt f.bdf = some h) (hw : h.window i = some w)
    (hk : s.bridge.backend.functionAt g.bdf = some k) (hv : k.window j = some v)
    (hmeet : ¬ w.Apart v) : f.barSize i = 0 ∨ g.barSize j = 0
  others (b : Bdf) (hb : ∀ f ∈ s.boards, f.bdf ≠ b) :
    s.bridge.backend.functionAt b = p.functionAt b

/-- A recorded window is the one that is decoded. -/
theorem window_of_bars {h : Header} {f : PciFunction} {i : Fin 6} {log : Fin 28} {prefetch : Bool}
    (hcommand : h.command = pciCmdMemory ||| pciCmdMaster)
    (hform : h.layout.form i = .mem32 log prefetch) (hbars : h.bars i = f.barPci i)
    (hsize : (f.window i).size = 2 ^ (log.val + 4))
    (haligned : (f.window i).size ∣ (f.window i).base) : h.window i = some (f.window i) := by
  have hdecodes : ¬ h.command &&& pciCmdMemory = 0 := by
    rw [hcommand]
    decide
  have haddress : h.address i = (f.window i).base := by
    rw [Header.address_of_bars hform (by rw [hbars, ← hsize]; exact haligned), hbars]
    rfl
  unfold Header.window
  rw [if_neg hdecodes, hform]
  dsimp only
  rw [haddress, ← hsize]

theorem Enumerating.inPlace {p : Population} {n : Nat} {s : Scan Population}
    (h : Enumerating p n s) {f : PciFunction} (hf : f ∈ s.boards) {h₀ h₁ : Header}
    (hr : Recorded h₀ h₁ f s.nextFree) (i : Fin 6) :
    InPlace h₁ f i ∨ LeftAlone h₀ h₁ f s.nextFree i := by
  cases hr.settled i with
  | unassigned hpci hsize hregister =>
    exact .inr ⟨⟨hpci, hsize⟩, hregister, hr.full i hsize⟩
  | assigned log prefetch hform hsize hbars =>
    have hwindow : (f.window i).size = 2 ^ (log.val + 4) := by
      rw [← toNat_sizeOf log prefetch, ← hsize]
      rfl
    have hne : f.barSize i ≠ 0 := by
      intro hzero
      have hpow : (f.window i).size = 0 := congrArg BitVec.toNat hzero
      exact absurd (hwindow.symm.trans hpow) (Nat.two_pow_pos _).ne'
    have hheld : Held s.boards (f.bdf, i) (f.window i) := ⟨f, hf, rfl, hne, rfl⟩
    have haligned := h.cursor.arena.aligned hheld
    have hform' : h₁.layout.form i = .mem32 log prefetch := by rw [hr.layout, hform]
    exact .inl ⟨⟨log, prefetch, hform', hwindow⟩, haligned, h.cursor.arena.above hheld,
      (h.cursor.arena.below hheld).trans h.cursor.below,
      window_of_bars hr.command hform' hbars hwindow haligned⟩

/-- **Every assigned BAR has its own place**, whatever functions the bus has: of its size, aligned
to it, inside the aperture and disjoint from the others; what has no place is left as it was.
Decoded windows meet only where one of them was not assigned. -/
theorem enumerateBus0_enumerated (d : PciBridge Population) :
    Enumerated d.backend (enumerateBus0 d) := by
  obtain ⟨n, h⟩ := enumerateBus0_of (Enumerating.walked d.backend) (Enumerating.start d)
  have hapart : ∀ f g, f ∈ (enumerateBus0 d).boards → g ∈ (enumerateBus0 d).boards → ∀ i j,
      (f.bdf, i) ≠ (g.bdf, j) → f.barSize i ≠ 0 → g.barSize j ≠ 0 →
      (f.window i).Apart (g.window j) :=
    fun f g hf hg i j hne hfi hgj =>
      h.cursor.arena.apart hne ⟨f, hf, rfl, hfi, rfl⟩ ⟨g, hg, rfl, hgj, rfl⟩
  have hwindow : ∀ f ∈ (enumerateBus0 d).boards, ∀ i h₁ w, f.barSize i ≠ 0 →
      (enumerateBus0 d).bridge.backend.functionAt f.bdf = some h₁ → h₁.window i = some w →
      w = f.window i := by
    intro f hf i h₁ w hne hat hw
    obtain ⟨h₀, h₂, -, hat', hr⟩ := h.recorded f hf
    cases Option.some.inj (hat.symm.trans hat')
    rcases h.inPlace hf hr i with hplace | halone
    · exact Option.some.inj (hw.symm.trans hplace.decoded)
    · exact absurd halone.none.2 hne
  refine ⟨fun f hf => ?_, h.ordered.imp ?_, hapart, ?_, h.others⟩
  · obtain ⟨h₀, h₁, hp, hat, hr⟩ := h.recorded f hf
    exact ⟨h₀, h₁, hp, hat, hr.layout, hr.command, h.inPlace hf hr⟩
  · intro f g hlt heq
    have hdev : f.dev = g.dev := congrArg Bdf.device heq
    have hfn : f.fn = g.fn := congrArg Bdf.function heq
    rw [hdev, hfn] at hlt
    exact Nat.lt_irrefl _ hlt
  · intro f g hf hg i j hne h₁ k w v hh hw hk hv hmeet
    by_contra hboth
    obtain ⟨hfi, hgj⟩ := not_or.mp hboth
    rw [hwindow f hf i h₁ w hfi hh hw, hwindow g hg j k v hgj hk hv] at hmeet
    exact hmeet (hapart f g hf hg i j hne hfi hgj)

/-! ## Windows that are not assigned -/

/-- The walk, past a function 0 of device 0. -/
structure Met (p : Population) (n : Nat) (s : Scan Population) : Prop
    extends Enumerating p n s where
  first : ∃ f ∈ s.boards, f.bdf = ⟨0, 0, 0⟩

theorem Met.walked (p : Population) : Walked (Met p) where
  read n s dev fn offset width hnamed h :=
    ⟨(Enumerating.walked p).read n s dev fn offset width hnamed h.toEnumerating, h.first⟩
  record n s s' dev fn hslot hn hpresent hrecord h := by
    refine ⟨(Enumerating.walked p).record n s s' dev fn hslot hn hpresent hrecord
      h.toEnumerating, ?_⟩
    obtain ⟨f, hf, hbdf⟩ := h.first
    obtain ⟨a, -, -, -, -, rfl⟩ := recordFunction_eq hslot hrecord
    exact ⟨f, List.mem_append_left _ hf, hbdf⟩
  skip n m s hnm h := ⟨(Enumerating.walked p).skip n m s hnm h.toEnumerating, h.first⟩

/-- The first function of the bus is recorded: no board is before it. -/
theorem Met.of_present {d : PciBridge Population} {h : Header}
    (hat : d.backend.functionAt ⟨0, 0, 0⟩ = some h)
    (hvendor : ¬ absent (h.read PciCfg.vendorDevice .w32) = true) :
    ∃ n, Met d.backend n (enumerateBus0 d) := by
  have hslot : Slot 0 0 := ⟨by decide, by decide⟩
  have hpresent : ¬ absent (readVendor ⟨d, [], pciMemBase⟩ 0 0 0).1 = true := by
    unfold readVendor
    rw [show (4 : Byte) = widthByte .w32 from rfl,
      cfgCycle_read d ⟨by decide, by decide, by decide, by decide⟩]
    simpa only [PciBackend.configRead, hat] using hvendor
  obtain ⟨s', hrecord⟩ : ∃ s', recordFunction (readVendor ⟨d, [], pciMemBase⟩ 0 0 0).2 0 0 0 =
      some s' := ⟨_, if_neg (by decide : ¬ maxBoards ≤ ([] : List PciFunction).length)⟩
  have hfirst := (Enumerating.walked d.backend).record 0 _ s' 0 0 hslot (Nat.zero_le _) hpresent
    hrecord (Enumerating.start d)
  have hmet : Met d.backend (position 0 0 + 1) s' := by
    obtain ⟨a, -, -, -, -, rfl⟩ := recordFunction_eq hslot hrecord
    have hmem : (assignBars a).f ∈ [] ++ [(assignBars a).f] := List.mem_singleton_self _
    obtain ⟨hbus, -, hpos⟩ := hfirst.behind _ hmem
    have hzero : position (assignBars a).f.dev (assignBars a).f.fn < 1 := hpos
    unfold position at hzero
    have hdev : (assignBars a).f.dev = 0 := BitVec.eq_of_toNat_eq (by simp; omega)
    have hfn : (assignBars a).f.fn = 0 := BitVec.eq_of_toNat_eq (by simp; omega)
    refine ⟨hfirst, _, hmem, ?_⟩
    unfold PciFunction.bdf
    rw [hbus, hdev, hfn]
  have hdevice : Met d.backend 8 (scanDevice ⟨d, [], pciMemBase⟩ 0).1 := by
    unfold scanDevice
    dsimp only
    rw [if_neg hpresent, hrecord]
    exact (Met.walked d.backend).siblings (by decide) hmet
  have hlist : (List.range 32).map (BitVec.ofNat 8) =
      0 :: ((List.range 31).map fun i => BitVec.ofNat 8 (i + 1)) := by decide
  unfold enumerateBus0
  rw [hlist]
  unfold scanDevices
  dsimp only
  split
  · refine (Met.walked d.backend).scanDevices _ 8 _ (fun dev hdev => ?_) (by decide) hdevice
    revert dev
    decide
  · exact ⟨8, hdevice⟩

/-- Two 64-bit BARs of 16 KiB. -/
def wideForm (i : Fin 6) : BarForm :=
  if i.val = 0 ∨ i.val = 2 then .mem64 10 false
  else if i.val = 1 ∨ i.val = 3 then .upper else .absent

theorem wideForm_first : ∀ i : Fin 6, i.val = 0 → wideForm i ≠ .upper := by decide

theorem wideForm_upper : ∀ i j : Fin 6, j.val = i.val + 1 →
    (wideForm j = .upper ↔ (wideForm i).wide = true) := by decide

theorem wideForm_ne_mem32 (i : Fin 6) (log : Fin 28) (prefetch : Bool) :
    wideForm i ≠ .mem32 log prefetch := by
  unfold wideForm
  split_ifs <;> exact BarForm.noConfusion

/-- A function as reset leaves it: both BARs at zero, and decoding off. -/
def wideHeader : Header where
  command := 0
  layout := ⟨wideForm, wideForm_first, wideForm_upper⟩
  bars := fun _ => 0
  other := fun offset _ => if offset = PciCfg.vendorDevice then 0x10411AF4 else 0

/-- It is alone on the bus. -/
def wideBus : Population where
  functionAt b := if b = ⟨0, 0, 0⟩ then some wideHeader else none

/-- The function once decoding is on. -/
def wideEnabled : Header := { wideHeader with command := pciCmdMemory ||| pciCmdMaster }

theorem wideEnabled_window : ∀ i : Fin 6, i.val = 0 ∨ i.val = 2 →
    wideEnabled.window i = some ⟨0, 16384⟩ := by decide

/-- **Enabled, not placed**: both BARs decode address zero when the walk is over. -/
theorem wideBus_overlap : ∃ h w v,
    (enumerateBus0 (PciBridge.new wideBus)).bridge.backend.functionAt ⟨0, 0, 0⟩ = some h ∧
      h.window ⟨0, by decide⟩ = some w ∧ h.window ⟨2, by decide⟩ = some v ∧ ¬ w.Apart v := by
  have hat : (PciBridge.new wideBus).backend.functionAt ⟨0, 0, 0⟩ = some wideHeader := rfl
  obtain ⟨n, hmet⟩ := Met.of_present hat (by decide)
  obtain ⟨f, hf, hbdf⟩ := hmet.first
  obtain ⟨h₀, h, hp, hs, hr⟩ := hmet.recorded f hf
  rw [hbdf] at hp hs
  cases Option.some.inj (hp.symm.trans hat)
  have hregister : ∀ i, h.register i = wideHeader.register i := by
    intro i
    cases hr.settled i with
    | unassigned _ _ hsame => exact hsame
    | assigned log prefetch hform _ _ => exact absurd hform (wideForm_ne_mem32 i log prefetch)
  have hwindow : ∀ i : Fin 6, i.val = 0 ∨ i.val = 2 → h.window i = some ⟨0, 16384⟩ := by
    intro i hi
    rw [← wideEnabled_window i hi]
    exact @Header.window_congr h wideEnabled hr.command hr.layout hregister i
  refine ⟨h, _, _, hs, hwindow _ (.inl rfl), hwindow _ (.inr rfl), fun happart => ?_⟩
  have hzero : 0 ∈ (⟨0, 16384⟩ : Window).addresses := ⟨Nat.le_refl _, by decide⟩
  exact Set.disjoint_left.mp happart hzero hzero

end Prometheus

end M68kMachine
