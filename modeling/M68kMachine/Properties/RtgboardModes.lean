import M68kMachine.Cards.Rtgboard
import M68kMachine.Library.Transition

/-!
# The applied mode of the RTG board

`COMMIT` is the only register that touches the applied mode, and takes the staged values whole or
not at all. Its checks in wrapping arithmetic accept exactly the modes that fit VRAM.

* `Admits` — the modes a board takes
* `commit_admitted`, `commit_refused` — the two outcomes of a commit
* `write_cases` — what one byte written to the window can do
-/

namespace M68kMachine.RtgBoard

open Rtgboard Transition

/-! ## The checks of a commit -/

/-- The board offers the geometry, a row fits the stride, and the last row ends inside VRAM. -/
structure Admits (r : RtgBoard) (m : AppliedMode) : Prop where
  offered : (⟨m.width, m.height, m.format⟩ : ModeDescriptor) ∈ r.catalog
  row : ∃ bpp, Format.bytesPerPixel m.format = some bpp ∧
    m.width.toNat * bpp.toNat ≤ m.stride.toNat
  frame : m.fbOffset.toNat + m.height.toNat * m.stride.toNat ≤ r.vram.size

theorem checkedMul_eq_some_iff {w : Nat} {a b c : BitVec w} :
    checkedMul a b = some c ↔ c.toNat = a.toNat * b.toNat := by
  unfold checkedMul BitVec.umulOverflow
  simp only [ge_iff_le, decide_eq_true_eq]
  constructor
  · intro h
    split at h
    · cases h
    · rename_i hlt
      obtain rfl := Option.some.inj h
      exact BitVec.toNat_mul_of_lt (Nat.not_le.mp hlt)
  · intro h
    have hlt : a.toNat * b.toNat < 2 ^ w := h ▸ c.isLt
    rw [if_neg (Nat.not_le.mpr hlt)]
    exact congrArg some (BitVec.eq_of_toNat_eq ((BitVec.toNat_mul_of_lt hlt).trans h.symm))

theorem checkedAdd_eq_some_iff {w : Nat} {a b c : BitVec w} :
    checkedAdd a b = some c ↔ c.toNat = a.toNat + b.toNat := by
  unfold checkedAdd BitVec.uaddOverflow
  simp only [ge_iff_le, decide_eq_true_eq]
  constructor
  · intro h
    split at h
    · cases h
    · rename_i hlt
      obtain rfl := Option.some.inj h
      exact BitVec.toNat_add_of_lt (Nat.not_le.mp hlt)
  · intro h
    have hlt : a.toNat + b.toNat < 2 ^ w := h ▸ c.isLt
    rw [if_neg (Nat.not_le.mpr hlt)]
    exact congrArg some (BitVec.eq_of_toNat_eq ((BitVec.toNat_add_of_lt hlt).trans h.symm))

/-- A product that does not fit 32 bits is past every bound a register can hold. -/
theorem exists_checkedMul {a b : Long} (bound : Long) (h : a.toNat * b.toNat ≤ bound.toNat) :
    ∃ c, checkedMul a b = some c ∧ c.toNat = a.toNat * b.toNat := by
  have hlt : a.toNat * b.toNat < 2 ^ 32 := Nat.lt_of_le_of_lt h bound.isLt
  have hnat : (a * b).toNat = a.toNat * b.toNat := BitVec.toNat_mul_of_lt hlt
  exact ⟨a * b, checkedMul_eq_some_iff.mpr hnat, hnat⟩

/-- **The checked arithmetic decides the integer bounds.** -/
theorem modeFits_iff {width stride fbOffset height vramLen : Long} {format : Byte} :
    modeFits width format stride fbOffset height vramLen = true ↔
      (∃ bpp, Format.bytesPerPixel format = some bpp ∧
        width.toNat * bpp.toNat ≤ stride.toNat) ∧
      fbOffset.toNat + height.toNat * stride.toNat ≤ vramLen.toNat := by
  unfold modeFits
  cases Format.bytesPerPixel format with
  | none => simp
  | some bpp =>
    constructor
    · intro h
      dsimp only at h
      split at h
      · rename_i rowBytes span hrow hspan
        split at h
        · rename_i frameEnd hend
          rw [checkedMul_eq_some_iff] at hrow hspan
          rw [checkedAdd_eq_some_iff] at hend
          simp only [Bool.and_eq_true, decide_eq_true_eq] at h
          exact ⟨⟨bpp, rfl, hrow ▸ h.1⟩, by omega⟩
        · cases h
      · cases h
    · rintro ⟨⟨_, hbpp, hrow⟩, hframe⟩
      obtain rfl := Option.some.inj hbpp
      obtain ⟨rowBytes, hr, hrn⟩ := exists_checkedMul _ hrow
      obtain ⟨span, hs, hsn⟩ := exists_checkedMul (a := height) (b := stride) vramLen (by omega)
      have hlt : fbOffset.toNat + span.toNat < 2 ^ 32 := by
        have := vramLen.isLt
        omega
      have hen : (fbOffset + span).toNat = fbOffset.toNat + span.toNat :=
        BitVec.toNat_add_of_lt hlt
      simp only [hr, hs, checkedAdd_eq_some_iff.mpr hen, Bool.and_eq_true, decide_eq_true_eq]
      omega

variable {r : RtgBoard}

theorem vramLen_toNat (h : r.vram.size < 2 ^ 32) : r.vramLen.toNat = r.vram.size :=
  Nat.mod_eq_of_lt h

/-- The test `COMMIT` makes. -/
theorem commit_test_iff (h : r.vram.size < 2 ^ 32) :
    ((r.catalog.any fun m => m = ⟨r.setWidth, r.setHeight, r.setFormat⟩) &&
      modeFits r.setWidth r.setFormat r.setStride r.setFbOffset r.setHeight r.vramLen) = true ↔
      r.Admits r.staged := by
  rw [Bool.and_eq_true, modeFits_iff, vramLen_toNat h, List.any_eq_true]
  constructor
  · rintro ⟨⟨m, hm, he⟩, hrow, hframe⟩
    exact ⟨of_decide_eq_true he ▸ hm, hrow, hframe⟩
  · rintro ⟨hm, hrow, hframe⟩
    exact ⟨⟨_, hm, decide_eq_true rfl⟩, hrow, hframe⟩

theorem commit_admitted (h : r.vram.size < 2 ^ 32) (ha : r.Admits r.staged) :
    r.commit = { r with current := some r.staged, status := Status.applied } :=
  if_pos ((commit_test_iff h).mpr ha)

theorem commit_refused (h : r.vram.size < 2 ^ 32) (ha : ¬r.Admits r.staged) :
    r.commit = { r with status := Status.rejected } :=
  if_neg (mt (commit_test_iff h).mp ha)

/-- What `Admits` asks of a board does not depend on its registers. -/
theorem Admits.congr {r' : RtgBoard} {m : AppliedMode} (h : r.Admits m)
    (hc : r'.catalog = r.catalog) (hv : r'.vram.size = r.vram.size) : r'.Admits m :=
  ⟨hc ▸ h.offered, h.row, hv ▸ h.frame⟩

/-! ## One byte written to the window -/

/-- A byte commits, or lands in a register the applied mode does not depend on, or in VRAM. -/
theorem write_cases (r : RtgBoard) (o : Nat) (value : Byte) :
    (o = Reg.commit + 3 ∧ r.write o value = r.commit) ∨
    (o ≠ Reg.commit + 3 ∧ o < vramBase ∧ (r.write o value).current = r.current ∧
      (r.write o value).catalog = r.catalog ∧ (r.write o value).vram = r.vram) ∨
    (vramBase ≤ o ∧
      ∃ vram, r.write o value = { r with vram := vram } ∧ vram.size = r.vram.size) := by
  rcases Nat.lt_or_ge o vramBase with ho | ho
  · -- below the aperture, by the slot the byte lies in
    have hnone : r.vramOffset o = none := if_neg fun h => Nat.not_le.mpr ho h.1
    by_cases hc : o = Reg.commit + 3
    · subst hc
      exact .inl ⟨rfl, rfl⟩
    · refine .inr (.inl ⟨hc, ho, ?_⟩)
      have hlane : ¬(inSlot o Reg.commit = true ∧ o - Reg.commit = 3) := by
        rw [inSlot_iff]
        omega
      unfold write
      rw [hnone]
      split_ifs <;> first | exact ⟨rfl, rfl, rfl⟩ | exact absurd ⟨‹_›, ‹_›⟩ hlane
  · refine .inr (.inr ⟨ho, ?_⟩)
    have hslot : ∀ base, base + 4 ≤ vramBase → inSlot o base = false := by
      rintro base hb
      rw [Bool.eq_false_iff]
      exact not_inSlot (.inr (hb.trans ho))
    unfold write
    simp (disch := decide) only [hslot, Bool.false_eq_true, if_false]
    cases r.vramOffset o with
    | none => exact ⟨r.vram, rfl, rfl⟩
    | some i => exact ⟨r.vram.set i value, rfl, rfl⟩

/-- The status shows in its own register only. -/
theorem read_status_congr (r : RtgBoard) (status : Byte) {p : Nat}
    (hp : ¬inSlot p Reg.status = true) :
    ({ r with status := status } : RtgBoard).read p = r.read p := by
  unfold read
  dsimp only
  rw [if_neg hp, if_neg hp]
  rfl

/-- The registers do not show what is in VRAM. -/
theorem read_register_congr (r : RtgBoard) {vram : ByteSlice} (h : vram.size = r.vram.size)
    {p : Nat} (hp : p < vramBase) : ({ r with vram := vram } : RtgBoard).read p = r.read p := by
  have hlen : ({ r with vram := vram } : RtgBoard).vramLen = r.vramLen := by
    unfold vramLen
    rw [h]
  have hnone : ∀ r : RtgBoard, r.vramOffset p = none := fun r =>
    if_neg fun h => Nat.not_le.mpr hp h.1
  unfold read
  rw [hlen, hnone, hnone]
  rfl

/-! ## Runs -/

/-- A byte written at an offset into the window. -/
def writeByte (r : RtgBoard) (w : Nat × Byte) : RtgBoard := r.write w.1 w.2

/-- The catalog and VRAM's length stay, and the applied mode is one the board takes. -/
structure Sound (r₀ r : RtgBoard) : Prop where
  catalog : r.catalog = r₀.catalog
  size : r.vram.size = r₀.vram.size
  applied : ∀ m, r.current = some m → r.Admits m

theorem Sound.commit {r₀ : RtgBoard} (hlen : r₀.vram.size < 2 ^ 32) (h : Sound r₀ r) :
    Sound r₀ r.commit := by
  have hlen' : r.vram.size < 2 ^ 32 := h.size ▸ hlen
  by_cases ha : r.Admits r.staged
  · rw [commit_admitted hlen' ha]
    refine ⟨h.catalog, h.size, fun m hm => ?_⟩
    obtain rfl := Option.some.inj hm
    exact ha.congr rfl rfl
  · rw [commit_refused hlen' ha]
    exact ⟨h.catalog, h.size, fun m hm => (h.applied m hm).congr rfl rfl⟩

theorem Sound.write {r₀ r : RtgBoard} (hlen : r₀.vram.size < 2 ^ 32) (h : Sound r₀ r) (o : Nat)
    (value : Byte) : Sound r₀ (r.write o value) := by
  obtain ⟨-, hw⟩ | ⟨-, -, hcur, hcat, hvram⟩ | ⟨-, vram, hw, hsize⟩ := write_cases r o value
  · rw [hw]
    exact h.commit hlen
  · refine ⟨hcat.trans h.catalog, (congrArg ByteSlice.size hvram).trans h.size, fun m hm => ?_⟩
    exact (h.applied m (hcur ▸ hm)).congr hcat (congrArg ByteSlice.size hvram)
  · rw [hw]
    exact ⟨h.catalog, hsize.trans h.size, fun m hm => (h.applied m hm).congr rfl hsize⟩

theorem sound_new (vram : ByteSlice) (catalog : List ModeDescriptor) :
    Sound (new vram catalog) (new vram catalog) :=
  ⟨rfl, rfl, fun _ hm => nomatch hm⟩

theorem sound_run {vram : ByteSlice} (hlen : vram.size < 2 ^ 32) (catalog : List ModeDescriptor)
    (writes : List (Nat × Byte)) :
    Sound (new vram catalog) (run writeByte (new vram catalog) writes) :=
  run_invariant (P := Sound (new vram catalog)) (fun _ w h => h.write hlen w.1 w.2) writes
    (sound_new vram catalog)

/-- **The applied mode is always one the board takes, and changes whole.** After any writes it is a
mode of the catalog that fits VRAM; only `COMMIT`'s low byte changes it, to the staged one, and sets
one of the two status bits; a refusal leaves the `CUR_*` registers. Registers and VRAM do not reach
each other. -/
theorem applied_mode_sound {vram : ByteSlice} (hlen : vram.size < 2 ^ 32)
    (catalog : List ModeDescriptor) (writes : List (Nat × Byte)) :
    let r := run writeByte (new vram catalog) writes
    (∀ m, r.current = some m →
      (⟨m.width, m.height, m.format⟩ : ModeDescriptor) ∈ catalog ∧
      (∃ bpp, Format.bytesPerPixel m.format = some bpp ∧
        m.width.toNat * bpp.toNat ≤ m.stride.toNat) ∧
      m.fbOffset.toNat + m.height.toNat * m.stride.toNat ≤ vram.size) ∧
    ∀ o value,
      ((r.write o value).current ≠ r.current →
        o = Reg.commit + 3 ∧ (r.write o value).current = some r.staged) ∧
      (o = Reg.commit + 3 →
        (r.write o value).status = Status.applied ∧ (r.write o value).current = some r.staged ∨
        (r.write o value).status = Status.rejected ∧
          ∀ p, Reg.curWidth ≤ p → p < Reg.vramBytes → (r.write o value).read p = r.read p) ∧
      (o < vramBase → (r.write o value).vram = r.vram) ∧
      (vramBase ≤ o → (∃ vram', r.write o value = { r with vram := vram' }) ∧
        ∀ p < vramBase, (r.write o value).read p = r.read p) := by
  intro r
  have hs : Sound (new vram catalog) r := sound_run hlen catalog writes
  have hlen' : r.vram.size < 2 ^ 32 := hs.size ▸ hlen
  refine ⟨fun m hm => ?_, fun o value => ?_⟩
  · obtain ⟨hoff, hrow, hframe⟩ := hs.applied m hm
    have hcat : r.catalog = catalog := hs.catalog
    exact ⟨hcat ▸ hoff, hrow, hframe.trans_eq hs.size⟩
  · obtain ⟨rfl, hw⟩ | ⟨hne, ho, hcur, -, hvram⟩ | ⟨ho, vram', hw, hsize⟩ :=
      write_cases r o value
    · rw [hw]
      by_cases ha : r.Admits r.staged
      · rw [commit_admitted hlen' ha]
        exact ⟨fun _ => ⟨rfl, rfl⟩, fun _ => .inl ⟨rfl, rfl⟩, fun _ => rfl,
          fun h => absurd h (by decide)⟩
      · rw [commit_refused hlen' ha]
        refine ⟨fun h => absurd rfl h, fun _ => .inr ⟨rfl, fun p hlo hhi => ?_⟩, fun _ => rfl,
          fun h => absurd h (by decide)⟩
        exact read_status_congr r _ (not_inSlot (.inr hlo))
    · exact ⟨fun h => absurd hcur h, fun h => absurd h hne, fun _ => hvram,
        fun h => absurd ho (Nat.not_lt.mpr h)⟩
    · rw [hw]
      have hne : o ≠ Reg.commit + 3 := fun h => absurd (h ▸ ho) (by decide)
      exact ⟨fun h => absurd rfl h, fun h => absurd h hne, fun h => absurd h (Nat.not_lt.mpr ho),
        fun _ => ⟨⟨vram', rfl⟩, fun p hp => read_register_congr r hsize hp⟩⟩

theorem applied_mode_sound_at_the_end_of_vram :
    let r := run writeByte (new (ByteSlice.zero 16) [⟨2, 2, Format.rgb565⟩])
      [(0x17, 2), (0x1B, 2), (0x1F, 0), (0x23, 4), (0x27, 8), (0x2B, 1)]
    r.current = some ⟨2, 2, Format.rgb565, 4, 8⟩ ∧ 8 + 2 * 4 ≤ 16 := by
  refine ⟨by decide, ?_⟩
  have h := applied_mode_sound (show (ByteSlice.zero 16).size < 2 ^ 32 by decide)
    [⟨2, 2, Format.rgb565⟩] [(0x17, 2), (0x1B, 2), (0x1F, 0), (0x23, 4), (0x27, 8), (0x2B, 1)]
  exact (h.1 ⟨2, 2, Format.rgb565, 4, 8⟩ (by decide)).2.2

end M68kMachine.RtgBoard
