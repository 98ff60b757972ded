import M68kMachine.Drivers.PciPopulation
import M68kMachine.Properties.PrometheusWalk

/-!
# The BARs prometheus.library assigns

Whatever functions bus 0 has, the walk hands out windows as a bump allocator does: each starts at
the cursor, rounded up to its size, and a BAR that would pass the end of the aperture keeps what it
had.

* `assignBar_spec` — one BAR
* `Assigning` — a function while its BARs are assigned
* `Recorded`, `assignBars_spec` — the whole function
-/

namespace M68kMachine

open Pci Pcibridge BumpAllocator

namespace Prometheus

/-- The first address behind the aperture. -/
abbrev apertureEnd : Nat := (pciMemBase + pciMemBytes).toNat

/-! ## Sizes -/

/-- The size of a memory BAR, as the library computes it from the bits that stick. -/
def sizeOf (log : Fin 28) (prefetch : Bool) : Long := ~~~(BarForm.mem32 log prefetch).writable + 1

theorem toNat_sizeOf : ∀ log prefetch, (sizeOf log prefetch).toNat = 2 ^ (log.val + 4) := by decide

theorem not_sizeOf_sub_one : ∀ log prefetch,
    ~~~(sizeOf log prefetch - 1) = BitVec.allOnes 32 <<< (log.val + 4) := by decide

theorem toNat_sizeOf_sub_one : ∀ log prefetch,
    (sizeOf log prefetch - 1).toNat = 2 ^ (log.val + 4) - 1 := by decide

theorem probed_mask : ∀ log prefetch,
    ((0xFFFFFFFF &&& (BarForm.mem32 log prefetch).writable) |||
      (BarForm.mem32 log prefetch).wired) &&& ~~~0xF = (BarForm.mem32 log prefetch).writable := by
  decide

theorem writable_ne_zero : ∀ log prefetch, (BarForm.mem32 log prefetch).writable ≠ 0 := by decide

theorem size_le : ∀ log : Fin 28, 2 ^ (log.val + 4) ≤ 2147483648 := by decide

variable {cursor : Long}

/-- **The rounding of the library** does not wrap from a cursor inside the aperture. -/
theorem toNat_aligned (h : cursor.toNat ≤ apertureEnd) (log : Fin 28) (prefetch : Bool) :
    ((cursor + (sizeOf log prefetch - 1)) &&& ~~~(sizeOf log prefetch - 1)).toNat
      = alignUp cursor.toNat (2 ^ (log.val + 4)) := by
  have hlog := log.isLt
  have hsize := size_le log
  have hpos : 0 < 2 ^ (log.val + 4) := Nat.two_pow_pos _
  have hend : apertureEnd = 545259520 := rfl
  rw [not_sizeOf_sub_one]
  exact toNat_add_and_high _ _ (toNat_sizeOf_sub_one log prefetch) (by omega)

/-- The two checks of the library are one comparison: a sum that wraps is below its summand. -/
theorem exceeds_iff (aligned size : Long) : (pciMemBase + pciMemBytes).toNat <
      (aligned + size).toNat ∨ (aligned + size).toNat < aligned.toNat ↔
    apertureEnd < aligned.toNat + size.toNat := by
  have hend : (pciMemBase + pciMemBytes).toNat = 545259520 := rfl
  have haligned := aligned.isLt
  have hsize := size.isLt
  unfold apertureEnd
  rw [hend, BitVec.toNat_add]
  generalize aligned.toNat = x at *
  generalize size.toNat = y at *
  simp only [Nat.reducePow] at haligned hsize ⊢
  omega

/-! ## Registers -/

/-- The wired bits of a register are not the latch's. -/
theorem and_or_low {x m f c : Long} (h : m &&& c = 0) : ((x &&& m) ||| f) &&& c = f &&& c := by
  rw [BitVec.and_or_distrib_right, BitVec.and_assoc, h]
  exact (congrArg (· ||| f &&& c) BitVec.and_zero).trans BitVec.zero_or

theorem type_bits {x m f : Long} (h : m >>> 1 &&& pciBarTypeMask = 0) :
    ((x &&& m) ||| f) >>> 1 &&& pciBarTypeMask = f >>> 1 &&& pciBarTypeMask := by
  rw [BitVec.ushiftRight_or_distrib, BitVec.ushiftRight_and_distrib]
  exact and_or_low h

namespace Header

variable (h : Header) (i : Fin 6)

/-- The space a BAR register names, by its form. -/
theorem register_space {h : Header} {i : Fin 6} (hform : h.layout.form i ≠ .upper) :
    h.register i &&& pciBarIoSpace ≠ 0 ↔ ∃ log, h.layout.form i = .io log := by
  have hio : ∀ log : Fin 30, (BarForm.io log).writable &&& pciBarIoSpace = 0 := by decide
  have hmem32 : ∀ log prefetch, (BarForm.mem32 log prefetch).writable &&& pciBarIoSpace = 0 ∧
      (BarForm.mem32 log prefetch).wired &&& pciBarIoSpace = 0 := by decide
  have hmem64 : ∀ log prefetch, (BarForm.mem64 log prefetch).writable &&& pciBarIoSpace = 0 ∧
      (BarForm.mem64 log prefetch).wired &&& pciBarIoSpace = 0 := by decide
  unfold register
  cases hkind : h.layout.form i with
  | absent => simp [BarForm.writable, BarForm.wired]
  | io log =>
    rw [and_or_low (hio log)]
    exact iff_of_true (show (1 : Long) &&& pciBarIoSpace ≠ 0 by decide) ⟨log, rfl⟩
  | mem32 log prefetch =>
    rw [and_or_low (hmem32 log prefetch).1, (hmem32 log prefetch).2]
    simp
  | mem64 log prefetch =>
    rw [and_or_low (hmem64 log prefetch).1, (hmem64 log prefetch).2]
    simp
  | upper => exact absurd hkind hform

/-- The type of a memory BAR. -/
theorem register_type {h : Header} {i : Fin 6} (hform : h.layout.form i ≠ .upper)
    (hio : ¬ ∃ log, h.layout.form i = .io log) :
    h.register i >>> 1 &&& pciBarTypeMask = pciBarType64Bit ↔
      (h.layout.form i).wide = true := by
  have hmem32 : ∀ log prefetch,
      (BarForm.mem32 log prefetch).writable >>> 1 &&& pciBarTypeMask = 0 ∧
      (BarForm.mem32 log prefetch).wired >>> 1 &&& pciBarTypeMask ≠ pciBarType64Bit := by decide
  have hmem64 : ∀ log prefetch,
      (BarForm.mem64 log prefetch).writable >>> 1 &&& pciBarTypeMask = 0 ∧
      (BarForm.mem64 log prefetch).wired >>> 1 &&& pciBarTypeMask = pciBarType64Bit := by decide
  unfold register
  cases hkind : h.layout.form i with
  | absent => simp [BarForm.writable, BarForm.wired, BarForm.wide]
  | io log => exact absurd ⟨log, hkind⟩ hio
  | mem32 log prefetch =>
    rw [type_bits (hmem32 log prefetch).1]
    exact iff_of_false (hmem32 log prefetch).2 Bool.false_ne_true
  | mem64 log prefetch =>
    rw [type_bits (hmem64 log prefetch).1]
    exact iff_of_true (hmem64 log prefetch).2 rfl
  | upper => exact absurd hkind hform

theorem barAt_bar : ∀ i, barAt (barOffset i) .w32 = some i := by decide

theorem barOffset_ne_command : ∀ i, barOffset i ≠ PciCfg.command := by decide

@[simp] theorem read_bar : h.read (barOffset i) .w32 = h.register i := by
  unfold read
  rw [if_neg fun hcommand => barOffset_ne_command i hcommand.1, barAt_bar]

@[simp] theorem write_bar (value : Long) :
    h.write (barOffset i) .w32 value = h.latch i value := by
  unfold write
  rw [if_neg fun hcommand => barOffset_ne_command i hcommand.1, barAt_bar]

@[simp] theorem write_command (value : Long) :
    h.write PciCfg.command .w16 value = { h with command := value.setWidth 16 } := by
  unfold write
  rw [if_pos ⟨rfl, rfl⟩]

/-- A register that was sized and restored reads as it did. -/
theorem register_restored (value : Long) :
    ((h.latch i value).latch i (h.register i)).register i = h.register i := by
  have hwired : ∀ form : BarForm, form.wired &&& form.writable = 0#32 := by
    intro form
    cases form with
    | absent => rfl
    | io log => revert log; decide
    | mem32 log prefetch => revert log prefetch; decide
    | mem64 log prefetch => revert log prefetch; decide
    | upper => rfl
  unfold register latch
  dsimp only
  rw [Function.update_self, BitVec.and_or_distrib_right, hwired, BitVec.or_zero, BitVec.and_assoc,
    BitVec.and_self]

theorem bars_latch_of_ne {h : Header} {i j : Fin 6} (hne : j ≠ i) (value : Long) :
    (h.latch i value).bars j = h.bars j := Function.update_of_ne hne ..

/-- What a probe reads back: the bits of the size. -/
theorem register_probed {h : Header} {i : Fin 6} {log : Fin 28} {prefetch : Bool}
    (hform : h.layout.form i = .mem32 log prefetch) :
    (h.latch i 0xFFFFFFFF).register i &&& ~~~0xF = (BarForm.mem32 log prefetch).writable := by
  unfold register latch
  dsimp only
  rw [Function.update_self, hform, probed_mask]

/-- What a function decodes is said by its registers. -/
theorem window_congr {h h' : Header} (hcommand : h.command = h'.command)
    (hlayout : h.layout = h'.layout) (hregister : ∀ i, h.register i = h'.register i) (i : Fin 6) :
    h.window i = h'.window i := by
  unfold window address upperHalf
  simp only [hcommand, hlayout, hregister]

/-- A BAR that latched a multiple of its size holds it. -/
theorem address_of_bars {h : Header} {i : Fin 6} {log : Fin 28} {prefetch : Bool}
    (hform : h.layout.form i = .mem32 log prefetch)
    (haligned : 2 ^ (log.val + 4) ∣ (h.bars i).toNat) : h.address i = (h.bars i).toNat := by
  have hhigh : ∀ log prefetch, (BarForm.mem32 log prefetch).writable &&& ~~~0xF =
      (BarForm.mem32 log prefetch).writable ∧
      (BarForm.mem32 log prefetch).wired &&& ~~~0xF = 0#32 := by decide
  have hlog := log.isLt
  unfold address register
  rw [hform, BitVec.and_or_distrib_right, BitVec.and_assoc, (hhigh log prefetch).1,
    (hhigh log prefetch).2, BitVec.or_zero]
  exact (toNat_and_high _ _).trans (Nat.div_mul_cancel haligned)

theorem register_of_bars {h h' : Header} {i : Fin 6} (hlayout : h'.layout = h.layout)
    (hbars : h'.bars i = h.bars i) : h'.register i = h.register i := by
  unfold register
  rw [hlayout, hbars]

end Header

/-! ## Cycles to a function -/

section

variable {a : Assign Population} {h : Header} (hslot : Slot a.f.dev a.f.fn)
  (hat : a.bridge.backend.functionAt a.f.bdf = some h) {offset : Word} {width : AccessWidth}
  (hoffset : offset.toNat < 0x1000 ∧ offset.toNat % width.bytes = 0)

include hslot hat hoffset

theorem read_at : ∃ d : PciBridge Population, d.backend = a.bridge.backend ∧
    a.read offset (widthByte width) = (h.read offset width, { a with bridge := d }) := by
  have hread : PciBackend.configRead a.bridge.backend a.f.bdf offset width =
      (h.read offset width, a.bridge.backend) := by
    simp only [PciBackend.configRead, hat]
  unfold Assign.read
  rw [cfgCycle_read _ ⟨hslot.dev_lt, hslot.fn_lt, hoffset.1, hoffset.2⟩]
  refine ⟨cycled a.bridge a.f.bus a.f.dev a.f.fn offset width _ _, ?_,
    congrArg (fun value => (value, _)) (congrArg Prod.fst hread)⟩
  exact congrArg Prod.snd hread

theorem write_at (value : Long) : ∃ d : PciBridge Population,
    d.backend = a.bridge.backend.set a.f.bdf (h.write offset width value) ∧
    a.write offset (widthByte width) value = { a with bridge := d } := by
  have hwrite : PciBackend.configWrite a.bridge.backend a.f.bdf offset width value =
      a.bridge.backend.set a.f.bdf (h.write offset width value) := by
    simp only [PciBackend.configWrite, hat]
  unfold Assign.write
  rw [cfgCycle_write _ ⟨hslot.dev_lt, hslot.fn_lt, hoffset.1, hoffset.2⟩]
  exact ⟨cycled a.bridge a.f.bus a.f.dev a.f.fn offset width value _, hwrite, rfl⟩

end

theorem barOffset_reach : ∀ i, (barOffset i).toNat < 0x1000 ∧
    (barOffset i).toNat % AccessWidth.w32.bytes = 0 := by decide

@[simp] theorem Population.set_set (p : Population) (bdf : Bdf) (h h' : Header) :
    (p.set bdf h).set bdf h' = p.set bdf h' := by
  simp [Population.set]

theorem Population.functionAt_set (p : Population) (bdf : Bdf) (h : Header) :
    (p.set bdf h).functionAt bdf = some h := by
  simp [Population.set]

theorem Population.set_self {p : Population} {bdf : Bdf} {h : Header}
    (hat : p.functionAt bdf = some h) : p.set bdf h = p := by
  simp [Population.set, ← hat]

/-! ## One BAR -/

/-- What one round leaves besides the header `h'` of the function: nothing, or a window. -/
inductive Round (a : Assign Population) (h h' : Header) (i : Fin 6) (d : PciBridge Population) :
    Assign Population × Nat → Prop
  | kept (n : Nat) (hn : n = if (h.layout.form i).wide then 2 else 1)
      (hregister : h'.register i = h.register i)
      (hfull : ∀ log prefetch, h.layout.form i = .mem32 log prefetch →
        apertureEnd < alignUp a.nextFree.toNat (2 ^ (log.val + 4)) + 2 ^ (log.val + 4)) :
      Round a h h' i d ({ a with bridge := d }, n)
  | placed (log : Fin 28) (prefetch : Bool) (aligned : Long)
      (hform : h.layout.form i = .mem32 log prefetch)
      (haligned : aligned.toNat = alignUp a.nextFree.toNat (2 ^ (log.val + 4)))
      (hfits : aligned.toNat + 2 ^ (log.val + 4) ≤ apertureEnd) (hbars : h'.bars i = aligned) :
      Round a h h' i d ({ a.place i aligned (sizeOf log prefetch) with bridge := d }, 1)

variable {i : Fin 6}

/-- **One BAR**: of the function's registers only the one at `i` moves, restored or with a window
that fits. -/
theorem assignBar_spec {a : Assign Population} {h : Header} (hslot : Slot a.f.dev a.f.fn)
    (hat : a.bridge.backend.functionAt a.f.bdf = some h) (hform : h.layout.form i ≠ .upper)
    (hcursor : a.nextFree.toNat ≤ apertureEnd) :
    ∃ d h', d.backend = a.bridge.backend.set a.f.bdf h' ∧ h'.command = h.command ∧
      h'.layout = h.layout ∧ (∀ j ≠ i, h'.bars j = h.bars j) ∧
      Round a h h' i d (assignBar a i) := by
  have hwidth : (4 : Byte) = widthByte .w32 := rfl
  have hreach := barOffset_reach i
  obtain ⟨d₁, hd₁, horig⟩ := read_at hslot hat hreach
  rw [Header.read_bar] at horig
  have hsame : d₁.backend = a.bridge.backend.set a.f.bdf h := by
    rw [hd₁, Population.set_self hat]
  by_cases hio : ∃ log, h.layout.form i = .io log
  · have hround : assignBar a i = ({ a with bridge := d₁ }, 1) := by
      simp only [assignBar, hwidth, horig, if_pos ((Header.register_space hform).mpr hio)]
    obtain ⟨log, hlog⟩ := hio
    rw [hround]
    exact ⟨d₁, h, hsame, rfl, rfl, fun _ _ => rfl, .kept 1 (by rw [hlog]; rfl) rfl (by simp [hlog])⟩
  have hspace := mt (Header.register_space hform).mp hio
  by_cases hwide : (h.layout.form i).wide = true
  · have hround : assignBar a i = ({ a with bridge := d₁ }, 2) := by
      simp only [assignBar, hwidth, horig, if_neg hspace,
        if_pos ((Header.register_type hform hio).mpr hwide)]
    rw [hround]
    refine ⟨d₁, h, hsame, rfl, rfl, fun _ _ => rfl, .kept 2 (if_pos hwide).symm rfl ?_⟩
    intro log prefetch hmem
    rw [hmem] at hwide
    exact absurd hwide Bool.false_ne_true
  have htype := mt (Header.register_type hform hio).mp hwide
  -- the probe: all ones in, what sticks out, and the latch back
  have hat₁ : d₁.backend.functionAt a.f.bdf = some h := by rw [hd₁, hat]
  obtain ⟨d₂, hd₂, hones⟩ := write_at (a := { a with bridge := d₁ }) hslot hat₁ hreach 0xFFFFFFFF
  rw [Header.write_bar] at hd₂
  have hat₂ : d₂.backend.functionAt a.f.bdf = some (h.latch i 0xFFFFFFFF) :=
    hd₂ ▸ Population.functionAt_set d₁.backend a.f.bdf _
  obtain ⟨d₃, hd₃, hprobed⟩ := read_at (a := { a with bridge := d₂ }) hslot hat₂ hreach
  have hat₃ : d₃.backend.functionAt a.f.bdf = some (h.latch i 0xFFFFFFFF) := by
    rw [hd₃]
    exact hat₂
  obtain ⟨d₄, hd₄, hrestored⟩ :=
    write_at (a := { a with bridge := d₃ }) hslot hat₃ hreach (h.register i)
  rw [Header.read_bar] at hprobed
  rw [Header.write_bar, hd₃, hd₂, hd₁] at hd₄
  have hback : d₄.backend =
      a.bridge.backend.set a.f.bdf ((h.latch i 0xFFFFFFFF).latch i (h.register i)) :=
    hd₄.trans (Population.set_set ..)
  have hothers : ∀ j ≠ i, ((h.latch i 0xFFFFFFFF).latch i (h.register i)).bars j = h.bars j :=
    fun j hj => (Header.bars_latch_of_ne hj _).trans (Header.bars_latch_of_ne hj _)
  have hrest := Header.register_restored h i 0xFFFFFFFF
  generalize hh₄ : (h.latch i 0xFFFFFFFF).latch i (h.register i) = h₄ at hback hothers hrest
  have hlayout₄ : h₄.layout = h.layout := by rw [← hh₄]; rfl
  have hcommand₄ : h₄.command = h.command := by rw [← hh₄]; rfl
  cases hkind : h.layout.form i with
  | io log => exact absurd ⟨log, hkind⟩ hio
  | mem64 log prefetch => exact absurd (congrArg BarForm.wide hkind) hwide
  | upper => exact absurd hkind hform
  | absent =>
    have hmask : (h.latch i 0xFFFFFFFF).register i &&& ~~~0xF = 0 := by
      simp [Header.register, Header.latch, hkind, BarForm.writable, BarForm.wired]
    have hround : assignBar a i = ({ a with bridge := d₄ }, 1) := by
      simp only [assignBar, hwidth, horig, if_neg hspace, if_neg htype, hones, hprobed, hrestored,
        if_pos hmask]
    rw [hround]
    exact ⟨d₄, h₄, hback, hcommand₄, hlayout₄, hothers,
      .kept 1 (by rw [hkind]; rfl) hrest (by simp [hkind])⟩
  | mem32 log prefetch =>
    have hmask := Header.register_probed hkind
    have hne : ¬ (h.latch i 0xFFFFFFFF).register i &&& ~~~0xF = 0 := by
      rw [hmask]
      exact writable_ne_zero log prefetch
    have haligned := toNat_aligned hcursor log prefetch
    have hsize : ~~~((h.latch i 0xFFFFFFFF).register i &&& ~~~0xF) + 1 = sizeOf log prefetch := by
      rw [hmask]
      rfl
    have hexceeds := exceeds_iff
      ((a.nextFree + (sizeOf log prefetch - 1)) &&& ~~~(sizeOf log prefetch - 1))
      (sizeOf log prefetch)
    rw [toNat_sizeOf] at hexceeds
    generalize hx : (a.nextFree + (sizeOf log prefetch - 1)) &&& ~~~(sizeOf log prefetch - 1) =
      aligned at haligned hexceeds
    by_cases hfull : apertureEnd < aligned.toNat + 2 ^ (log.val + 4)
    · have hround : assignBar a i = ({ a with bridge := d₄ }, 1) := by
        simp only [assignBar, hwidth, horig, if_neg hspace, if_neg htype, hones, hprobed,
          hrestored, if_neg hne, hsize, hx, if_pos (hexceeds.mpr hfull)]
      rw [hround]
      refine ⟨d₄, h₄, hback, hcommand₄, hlayout₄, hothers, .kept 1 (by rw [hkind]; rfl) hrest ?_⟩
      intro log' prefetch' hkind'
      cases hkind.symm.trans hkind'
      rw [← haligned]
      exact hfull
    · have hat₄ : d₄.backend.functionAt a.f.bdf = some h₄ :=
        hback ▸ Population.functionAt_set a.bridge.backend a.f.bdf _
      obtain ⟨d₅, hd₅, hplaced⟩ :=
        write_at (a := { a.place i aligned (sizeOf log prefetch) with bridge := d₄ }) hslot hat₄
          hreach aligned
      rw [Header.write_bar] at hd₅
      have hround : assignBar a i =
          ({ a.place i aligned (sizeOf log prefetch) with bridge := d₅ }, 1) := by
        simp only [assignBar, hwidth, horig, if_neg hspace, if_neg htype, hones, hprobed,
          hrestored, if_neg hne, hsize, hx, if_neg (mt hexceeds.mp hfull)]
        exact congrArg (fun a => (a, 1)) hplaced
      rw [hround]
      refine ⟨d₅, h₄.latch i aligned, ?_, hcommand₄, hlayout₄, fun j hj =>
        (Header.bars_latch_of_ne hj _).trans (hothers j hj),
        .placed log prefetch aligned hkind haligned (Nat.not_lt.mp hfull)
          (Function.update_self ..)⟩
      rw [hd₅]
      show d₄.backend.set a.f.bdf (h₄.latch i aligned) = _
      rw [hback, Population.set_set]

/-! ## One function -/

/-- A BAR of a recorded function: it holds the window that was recorded, or it was left alone. -/
inductive Settled (h₀ h : Header) (f : PciFunction) (i : Fin 6) : Prop
  | unassigned (hpci : f.barPci i = 0) (hsize : f.barSize i = 0)
      (hregister : h.register i = h₀.register i)
  | assigned (log : Fin 28) (prefetch : Bool) (hform : h₀.layout.form i = .mem32 log prefetch)
      (hsize : f.barSize i = sizeOf log prefetch) (hbars : h.bars i = f.barPci i)

/-- A memory BAR of 32 bits that was left alone has no place above the cursor. -/
def Full (h₀ : Header) (f : PciFunction) (cursor : Long) (i : Fin 6) : Prop :=
  f.barSize i = 0 → ∀ log prefetch, h₀.layout.form i = .mem32 log prefetch →
    apertureEnd < alignUp cursor.toNat (2 ^ (log.val + 4)) + 2 ^ (log.val + 4)

/-- The windows of a list of boards, each under its function and its index. -/
def Held (boards : List PciFunction) (k : Bdf × Fin 6) (w : Window) : Prop :=
  ∃ f ∈ boards, f.bdf = k.1 ∧ f.barSize k.2 ≠ 0 ∧ w = f.window k.2

/-- The cursor and what lies below it. -/
structure Cursor (boards : List PciFunction) (cursor : Long) : Prop where
  arena : Arena pciMemBase.toNat cursor.toNat (Held boards)
  above : pciMemBase.toNat ≤ cursor.toNat
  below : cursor.toNat ≤ apertureEnd

/-- A function at BAR `i`: its header `h₀`, what was recorded of it `f₀`, what came before it
`boards`, and where the cursor was `low`. -/
structure Assigning (p : Population) (boards : List PciFunction) (low : Nat) (h₀ : Header)
    (f₀ : PciFunction) (i : Nat) (a : Assign Population) : Prop where
  same : a.f.bdf = f₀.bdf
  here : ∃ h, a.bridge.backend.functionAt a.f.bdf = some h ∧ h.layout = h₀.layout ∧
    ∀ j, Settled h₀ h a.f j
  others (b : Bdf) (hb : b ≠ f₀.bdf) : a.bridge.backend.functionAt b = p.functionAt b
  boundary (j : Fin 6) (hj : j.val = i) : h₀.layout.form j ≠ .upper
  pending (j : Fin 6) (hj : i ≤ j.val) : a.f.barPci j = 0 ∧ a.f.barSize j = 0
  full (j : Fin 6) (hj : j.val < i) : Full h₀ a.f a.nextFree j
  cursor : Cursor (boards ++ [a.f]) a.nextFree
  grown : low ≤ a.nextFree.toNat

variable {f : PciFunction}

theorem Settled.of_bars {h₀ h h' : Header} {f' : PciFunction} (hs : Settled h₀ h f i)
    (hlayout : h'.layout = h.layout) (hbars : h'.bars i = h.bars i)
    (hpci : f'.barPci i = f.barPci i) (hsize : f'.barSize i = f.barSize i) :
    Settled h₀ h' f' i := by
  cases hs with
  | unassigned hpci' hsize' hregister =>
    exact .unassigned (hpci.trans hpci') (hsize.trans hsize')
      ((Header.register_of_bars hlayout hbars).trans hregister)
  | assigned log prefetch hform hsize' hbars' =>
    exact .assigned log prefetch hform (hsize.trans hsize') (hbars.trans (hbars'.trans hpci.symm))

theorem Full.mono {h₀ : Header} {cursor' : Long} (h : Full h₀ f cursor i)
    (hle : cursor.toNat ≤ cursor'.toNat) : Full h₀ f cursor' i := by
  intro hsize log prefetch hform
  exact (h hsize log prefetch hform).trans_le (Nat.add_le_add_right (alignUp_mono hle) _)

/-- A window is behind the cursor it was placed at. -/
theorem Cursor.place {boards : List PciFunction} {f : PciFunction} {cursor aligned : Long}
    (h : Cursor (boards ++ [f]) cursor) (i : Fin 6) {log : Fin 28} (prefetch : Bool)
    (haligned : aligned.toNat = alignUp cursor.toNat (2 ^ (log.val + 4)))
    (hfits : aligned.toNat + 2 ^ (log.val + 4) ≤ apertureEnd) :
    cursor.toNat ≤ (aligned + sizeOf log prefetch).toNat ∧
    Cursor (boards ++ [{ f with
        barPci := Function.update f.barPci i aligned
        barSize := Function.update f.barSize i (sizeOf log prefetch) }])
      (aligned + sizeOf log prefetch) := by
  have hpos : 0 < 2 ^ (log.val + 4) := Nat.two_pow_pos _
  have hsum : (aligned + sizeOf log prefetch).toNat = aligned.toNat + 2 ^ (log.val + 4) := by
    have hend : apertureEnd = 545259520 := rfl
    rw [BitVec.toNat_add, toNat_sizeOf]
    refine Nat.mod_eq_of_lt (hfits.trans_lt ?_)
    rw [hend]
    decide
  have hge : cursor.toNat ≤ aligned.toNat := haligned ▸ le_alignUp hpos
  have hle : cursor.toNat ≤ (aligned + sizeOf log prefetch).toNat := by
    rw [hsum]
    exact hge.trans (Nat.le_add_right ..)
  refine ⟨hle, ⟨?_, h.above.trans hle, hsum ▸ hfits⟩⟩
  rw [hsum, haligned]
  refine h.arena.place h.above hpos (f.bdf, i) ?_
  rintro ⟨bdf, j⟩ w ⟨g, hg, hbdf, hsize, rfl⟩
  rcases List.mem_append.mp hg with hold | hlast
  · exact .inl ⟨g, List.mem_append_left _ hold, hbdf, hsize, rfl⟩
  · cases List.mem_singleton.mp hlast
    by_cases hj : j = i
    · subst hj
      refine .inr ⟨congrArg (·, j) hbdf.symm, ?_⟩
      unfold PciFunction.window
      dsimp only
      rw [Function.update_self, Function.update_self, toNat_sizeOf, haligned]
    · refine .inl ⟨f, List.mem_append_right _ (List.mem_singleton_self _), hbdf, ?_, ?_⟩
      · simpa only [Function.update_of_ne hj] using hsize
      · unfold PciFunction.window
        dsimp only
        rw [Function.update_of_ne hj, Function.update_of_ne hj]

theorem Assign.barPci_place (a : Assign Population) (i : Fin 6) (aligned size : Long) :
    (a.place i aligned size).f.barPci i = aligned := Function.update_self ..

theorem Assign.barSize_place (a : Assign Population) (i : Fin 6) (aligned size : Long) :
    (a.place i aligned size).f.barSize i = size := Function.update_self ..

theorem Slot.of_bdf {f₀ : PciFunction} (h : Slot f₀.dev f₀.fn) (hsame : f.bdf = f₀.bdf) :
    Slot f.dev f.fn := by
  have hdev : f.dev = f₀.dev := congrArg Bdf.device hsame
  have hfn : f.fn = f₀.fn := congrArg Bdf.function hsame
  rw [hdev, hfn]
  exact h

theorem Population.functionAt_set_of_ne (p : Population) {bdf b : Bdf} (hne : b ≠ bdf)
    (h : Header) : (p.set bdf h).functionAt b = p.functionAt b :=
  Function.update_of_ne hne ..

/-- The register a round goes on with is not a high half. -/
theorem Layout.next_ne_upper (l : Layout) {j : Fin 6}
    (hj : j.val = i.val + if (l.form i).wide then 2 else 1) : l.form j ≠ .upper := by
  by_cases hwide : (l.form i).wide = true
  · rw [if_pos hwide] at hj
    have hlt := j.isLt
    have hmid : l.form ⟨i.val + 1, by omega⟩ = .upper :=
      (l.upper i ⟨i.val + 1, by omega⟩ rfl).mpr hwide
    intro hupper
    have hmidWide := (l.upper ⟨i.val + 1, by omega⟩ j hj).mp hupper
    rw [hmid] at hmidWide
    exact Bool.false_ne_true hmidWide
  · rw [if_neg hwide] at hj
    exact fun hupper => hwide ((l.upper i j hj).mp hupper)

section

variable {p : Population} {boards : List PciFunction} {low : Nat} {h₀ : Header} {f₀ : PciFunction}
  {a : Assign Population} {i : Fin 6}

theorem Assigning.bar (hslot : Slot f₀.dev f₀.fn) (h : Assigning p boards low h₀ f₀ i.val a) :
    Assigning p boards low h₀ f₀ (i.val + (assignBar a i).2) (assignBar a i).1 := by
  obtain ⟨h₁, hat, hlayout, hsettled⟩ := h.here
  have hform : h₁.layout.form i ≠ .upper := hlayout ▸ h.boundary i rfl
  obtain ⟨d, h', hd, hcommand, hlayout', hbars, hround⟩ :=
    assignBar_spec (hslot.of_bdf h.same) hat hform h.cursor.below
  have hat' : d.backend.functionAt a.f.bdf = some h' :=
    hd ▸ Population.functionAt_set a.bridge.backend a.f.bdf h'
  have hothers : ∀ b, b ≠ f₀.bdf → d.backend.functionAt b = p.functionAt b := by
    intro b hb
    rw [hd, Population.functionAt_set_of_ne _ (h.same ▸ hb), h.others b hb]
  obtain ⟨hpci, hsize⟩ := h.pending i (Nat.le_refl _)
  generalize assignBar a i = r at hround
  cases hround with
  | kept n hn hregister hfull =>
    rw [hlayout] at hn hfull
    refine ⟨h.same, ⟨h', hat', hlayout'.trans hlayout, fun j => ?_⟩, hothers, fun j hj => ?_,
      fun j hj => h.pending j (by omega), fun j hj => ?_, h.cursor, h.grown⟩
    · by_cases hji : j = i
      · subst hji
        cases hsettled j with
        | unassigned _ _ hold => exact .unassigned hpci hsize (hregister.trans hold)
        | assigned log prefetch _ hassigned _ =>
          have hzero := congrArg BitVec.toNat (hsize.symm.trans hassigned)
          rw [toNat_sizeOf] at hzero
          exact absurd hzero.symm (Nat.two_pow_pos _).ne'
      · exact (hsettled j).of_bars hlayout' (hbars j hji) rfl rfl
    · exact h₀.layout.next_ne_upper (hj.trans (by rw [hn]))
    · rcases Nat.lt_or_ge j.val i.val with hlt | hge
      · exact h.full j hlt
      intro _ log prefetch hmem
      rcases Nat.eq_or_lt_of_le hge with heq | hgt
      · rw [← Fin.ext heq] at hmem
        exact hfull log prefetch hmem
      -- the high half behind a 64-bit BAR
      · by_cases hwide : (h₀.layout.form i).wide = true
        · rw [hn, if_pos hwide] at hj
          have hupper := (h₀.layout.upper i j (by omega)).mpr hwide
          exact BarForm.noConfusion (hmem.symm.trans hupper)
        · rw [hn, if_neg hwide] at hj
          omega
  | placed log prefetch aligned hkind haligned hfits hbar =>
    rw [hlayout] at hkind
    obtain ⟨hle, hcursor⟩ := h.cursor.place i prefetch haligned hfits
    have hwide : (h₀.layout.form i).wide = false := by rw [hkind]; rfl
    refine ⟨h.same, ⟨h', hat', hlayout'.trans hlayout, fun j => ?_⟩, hothers, fun j hj => ?_,
      fun j hj => ?_, fun j hj => ?_, hcursor, h.grown.trans hle⟩
    · by_cases hji : j = i
      · subst hji
        exact .assigned log prefetch hkind (a.barSize_place ..)
          (hbar.trans (a.barPci_place ..).symm)
      · exact (hsettled j).of_bars hlayout' (hbars j hji) (Function.update_of_ne hji ..)
          (Function.update_of_ne hji ..)
    · exact h₀.layout.next_ne_upper (hj.trans (by rw [hwide]; rfl))
    · have hji : j ≠ i := fun heq => by
        rw [heq] at hj
        exact absurd hj (Nat.not_succ_le_self _)
      obtain ⟨hpci', hsize'⟩ := h.pending j (Nat.le_of_succ_le hj)
      exact ⟨(Function.update_of_ne hji ..).trans hpci',
        (Function.update_of_ne hji ..).trans hsize'⟩
    · intro hzero
      by_cases hji : j = i
      · subst hji
        have hsizeOf : sizeOf log prefetch = 0 := (a.barSize_place ..).symm.trans hzero
        have hpow := toNat_sizeOf log prefetch
        rw [hsizeOf] at hpow
        exact absurd hpow.symm (Nat.two_pow_pos _).ne'
      · have hlt : j.val < i.val :=
          Nat.lt_of_le_of_ne (Nat.lt_succ_iff.mp hj) fun heq => hji (Fin.ext heq)
        exact (h.full j hlt).mono hle ((Function.update_of_ne hji ..).symm.trans hzero)

end

/-- A recorded function: what the walk made of the one it met. -/
structure Recorded (h₀ h : Header) (f : PciFunction) (cursor : Long) : Prop where
  command : h.command = pciCmdMemory ||| pciCmdMaster
  layout : h.layout = h₀.layout
  settled (i : Fin 6) : Settled h₀ h f i
  full (i : Fin 6) : Full h₀ f cursor i

theorem Cursor.append {boards : List PciFunction} (h : Cursor boards cursor)
    (hsize : ∀ i, f.barSize i = 0) : Cursor (boards ++ [f]) cursor := by
  refine ⟨h.arena.sub ?_, h.above, h.below⟩
  rintro k w ⟨g, hg, hbdf, hne, rfl⟩
  rcases List.mem_append.mp hg with hold | hlast
  · exact ⟨g, hold, hbdf, hne, rfl⟩
  · cases List.mem_singleton.mp hlast
    exact absurd (hsize k.2) hne

/-- **One function**, from the state the walk met it in. -/
theorem assignBars_spec {p : Population} {boards : List PciFunction} {h₀ : Header}
    {a : Assign Population} (hslot : Slot a.f.dev a.f.fn)
    (hat : a.bridge.backend.functionAt a.f.bdf = some h₀)
    (hothers : ∀ b ≠ a.f.bdf, a.bridge.backend.functionAt b = p.functionAt b)
    (hbare : ∀ i, a.f.barPci i = 0 ∧ a.f.barSize i = 0) (hcursor : Cursor boards a.nextFree) :
    ∃ a' h, assignBars a = a' ∧ a'.f.bdf = a.f.bdf ∧
      a'.bridge.backend.functionAt a.f.bdf = some h ∧ Recorded h₀ h a'.f a'.nextFree ∧
      (∀ b ≠ a.f.bdf, a'.bridge.backend.functionAt b = p.functionAt b) ∧
      a.nextFree.toNat ≤ a'.nextFree.toNat ∧ Cursor (boards ++ [a'.f]) a'.nextFree := by
  have hreach : PciCfg.command.toNat < 0x1000 ∧
      PciCfg.command.toNat % AccessWidth.w16.bytes = 0 := by decide
  have hwidth : (2 : Byte) = widthByte .w16 := rfl
  obtain ⟨d₁, hd₁, hcmd⟩ := read_at hslot hat hreach
  have hat₁ : d₁.backend.functionAt a.f.bdf = some h₀ := by rw [hd₁, hat]
  obtain ⟨d₂, hd₂, hclear⟩ := write_at (a := { a with bridge := d₁ }) hslot hat₁ hreach
    (((h₀.read PciCfg.command .w16).setWidth 16 &&& ~~~pciCmdMemory).setWidth 32)
  obtain ⟨h₁, hset, hlayout₁, hbars₁⟩ : ∃ h₁, d₂.backend = d₁.backend.set a.f.bdf h₁ ∧
      h₁.layout = h₀.layout ∧ h₁.bars = h₀.bars := by
    rw [Header.write_command] at hd₂
    exact ⟨_, hd₂, rfl, rfl⟩
  have hstart : Assigning p boards a.nextFree.toNat h₀ a.f 0 { a with bridge := d₂ } := by
    refine ⟨rfl, ⟨h₁, ?_, hlayout₁, fun j => ?_⟩, fun b hb => ?_, fun j hj => h₀.layout.first j hj,
      fun j _ => hbare j, fun j hj => absurd hj (Nat.not_lt_zero _),
      hcursor.append fun i => (hbare i).2, Nat.le_refl _⟩
    · exact hset ▸ Population.functionAt_set d₁.backend a.f.bdf h₁
    · exact .unassigned (hbare j).1 (hbare j).2
        (Header.register_of_bars hlayout₁ (congrFun hbars₁ j))
    · show d₂.backend.functionAt b = _
      rw [hset, Population.functionAt_set_of_ne _ hb, hd₁, hothers b hb]
  obtain ⟨n, hn, hend⟩ := assignFrom_of
    (fun b i hb => hb.bar hslot) 6 0 { a with bridge := d₂ } (by omega) hstart
  obtain ⟨h₂, hat₂, hlayout₂, hsettled⟩ := hend.here
  generalize hloop : assignFrom 6 0 { a with bridge := d₂ } = b at hend hat₂ hsettled
  obtain ⟨d₃, hd₃, henable⟩ := write_at (hslot.of_bdf hend.same) hat₂ hreach
    ((pciCmdMemory ||| pciCmdMaster).setWidth 32)
  obtain ⟨h₃, hset₃, hcommand₃, hlayout₃, hbars₃⟩ : ∃ h₃,
      d₃.backend = b.bridge.backend.set b.f.bdf h₃ ∧ h₃.command = pciCmdMemory ||| pciCmdMaster ∧
      h₃.layout = h₂.layout ∧ h₃.bars = h₂.bars := by
    rw [Header.write_command] at hd₃
    exact ⟨_, hd₃, rfl, rfl, rfl⟩
  have hassign : assignBars a = { b with bridge := d₃ } := by
    simp only [assignBars, hwidth, hcmd, hclear, hloop, henable]
  have hback : d₃.backend.functionAt b.f.bdf = some h₃ :=
    hset₃ ▸ Population.functionAt_set b.bridge.backend b.f.bdf h₃
  have hsame : b.f.bdf = a.f.bdf := hend.same
  refine ⟨_, h₃, hassign, hsame, hsame ▸ hback, ⟨hcommand₃, hlayout₃.trans hlayout₂, fun i => ?_,
    fun i => ?_⟩, fun c hc => ?_, hend.grown, hend.cursor⟩
  · exact (hsettled i).of_bars hlayout₃ (congrFun hbars₃ i) rfl rfl
  · exact hend.full i (i.isLt.trans_le hn)
  · show d₃.backend.functionAt c = _
    rw [hset₃, Population.functionAt_set_of_ne _ (hsame ▸ hc), hend.others c hc]

end Prometheus

end M68kMachine
