import M68kMachine.Vp.Interp
import Mathlib.Data.Set.Basic

/-!
# What the VP decoder reads

An instruction decodes the same from two memories that hold the same bytes where it stands, and a
block does when this holds of each of its instructions.

* `IrBlock.code` — the addresses of the instructions of a block
* `decodeInstr_congr`, `decodeBlock_congr`
-/

namespace M68kMachine

namespace Vp

/-- The same `n` bytes from `addr` on. -/
def SameBytes (mem mem' : VpMemory) (addr : Long) (n : Nat) : Prop :=
  ∀ k < n, mem'.readU8 (addr + BitVec.ofNat 32 k) = mem.readU8 (addr + BitVec.ofNat 32 k)

namespace SameBytes

variable {mem mem' : VpMemory} {addr : Long} {n : Nat}

theorem readU16 (h : SameBytes mem mem' addr n) (hn : 2 ≤ n) :
    mem'.readU16 addr = mem.readU16 addr := by
  have h0 : mem'.readU8 addr = mem.readU8 addr := by
    have := h 0 (by omega)
    rwa [BitVec.add_zero] at this
  have h1 : mem'.readU8 (addr + 1) = mem.readU8 (addr + 1) := h 1 (by omega)
  rw [VpMemory.readU16, VpMemory.readU16, h0, h1]

theorem drop (h : SameBytes mem mem' addr n) (m : Nat) :
    SameBytes mem mem' (addr + BitVec.ofNat 32 m) (n - m) := by
  intro k hk
  have := h (m + k) (by omega)
  rwa [BitVec.ofNat_add, ← BitVec.add_assoc] at this

theorem readU32 (h : SameBytes mem mem' addr n) (hn : 4 ≤ n) :
    mem'.readU32 addr = mem.readU32 addr := by
  have hlo : mem'.readU16 (addr + 2) = mem.readU16 (addr + 2) :=
    (h.drop 2).readU16 (by omega)
  rw [VpMemory.readU32, VpMemory.readU32, h.readU16 (by omega), hlo]

theorem mono (h : SameBytes mem mem' addr n) {m : Nat} (hm : m ≤ n) :
    SameBytes mem mem' addr m := fun k hk => h k (by omega)

/-- An extension word behind the opcode word. -/
theorem ext (h : SameBytes mem mem' addr n) (hn : 4 ≤ n) :
    mem'.readU16 (addr + 2) = mem.readU16 (addr + 2) :=
  (h.drop 2).readU16 (by omega)

end SameBytes

variable {mem mem' : VpMemory} {n : Nat} {op1 : Word} {d : Decoded} {pc : Long} {size : Size}
  {b b' : IrBlock}

/-! ## Shapes -/

/-- At least a word long, and at least one op. -/
structure Decoded.Proper (d : Decoded) : Prop where
  two_le : 2 ≤ d.len
  ops_ne : d.ops ≠ []

theorem Decoded.Proper.plain (op : Op) (h : 2 ≤ n) : (Decoded.plain op n).Proper :=
  ⟨h, List.cons_ne_nil _ _⟩

theorem decodeBranchTarget_len (mem : VpMemory) (pc : Long) (op1 : Word) :
    2 ≤ (decodeBranchTarget mem pc op1).2 := by
  unfold decodeBranchTarget
  split_ifs <;> simp

theorem decodeQuick_proper (hd : decodeQuick op1 = some d) : d.Proper := by
  unfold decodeQuick at hd
  dsimp only at hd
  split at hd
  · split at hd <;> cases hd
    exact .plain _ (Nat.le_refl 2)
  · split at hd <;> cases hd
    exact .plain _ (Nat.le_refl 2)
  · split at hd <;> cases hd
    exact .plain _ (Nat.le_refl 2)
  · cases hd

theorem decodeMoveq_proper (hd : decodeMoveq op1 = some d) : d.Proper := by
  unfold decodeMoveq at hd
  split_ifs at hd
  cases hd
  exact .plain _ (Nat.le_refl 2)

theorem decodeMove_proper (hd : decodeMove mem pc op1 size = some d) : d.Proper := by
  unfold decodeMove at hd
  split at hd
  · cases hd
  split at hd
  · cases hd
  obtain ⟨op, -, rfl⟩ := Option.map_eq_some_iff.mp hd
  exact .plain _ (by omega)

theorem decodeMovem_eq_some (hd : decodeMovem mem pc op1 = some d) :
    ∃ ops, ops ≠ [] ∧ d = ⟨ops, 4, false⟩ := by
  unfold decodeMovem at hd
  dsimp only at hd
  rw [Option.ite_none_left_eq_some] at hd
  obtain ⟨-, hd⟩ := hd
  refine ⟨_, ?_, (Option.some.inj hd).symm⟩
  by_cases hregs : movemRegs (mem.readU16 (pc + 2)) (decide (field op1 10 1 = 0)) = []
  · rw [if_pos hregs]
    exact List.cons_ne_nil _ _
  · rw [if_neg hregs]
    simpa using hregs

theorem decodeMovem_proper (hd : decodeMovem mem pc op1 = some d) : d.Proper := by
  obtain ⟨ops, hops, rfl⟩ := decodeMovem_eq_some hd
  exact ⟨by simp, hops⟩

theorem decodeBitfield_len (hd : decodeBitfield mem pc op1 = some d) : d.len = 4 := by
  unfold decodeBitfield at hd
  dsimp only at hd
  split at hd
  · cases hd
  · split at hd <;> cases hd <;> rfl

theorem decodeBitfield_proper (hd : decodeBitfield mem pc op1 = some d) : d.Proper := by
  refine ⟨by rw [decodeBitfield_len hd]; decide, ?_⟩
  unfold decodeBitfield at hd
  dsimp only at hd
  split at hd
  · cases hd
  · split at hd <;> cases hd <;> exact List.cons_ne_nil _ _

theorem decodeLea_proper (hd : decodeLea mem pc op1 = some d) : d.Proper := by
  unfold decodeLea at hd
  dsimp only at hd
  split at hd <;> cases hd
  · exact .plain _ (Nat.le_refl 2)
  · exact .plain _ (by decide)

theorem decodeMisc_proper (hd : decodeMisc mem pc op1 = some d) : d.Proper := by
  unfold decodeMisc at hd
  dsimp only at hd
  split_ifs at hd
  · cases hd; exact .plain _ (Nat.le_refl 2)
  · cases hd; exact .plain _ (Nat.le_refl 2)
  · cases hd; exact .plain _ (Nat.le_refl 2)
  · cases hd; exact .plain _ (Nat.le_refl 2)
  · exact decodeLea_proper hd
  · exact decodeMovem_proper hd

theorem decodeAlu_proper (hd : decodeAlu op1 = some d) : d.Proper := by
  unfold decodeAlu at hd
  dsimp only at hd
  split at hd
  all_goals
    first
      | (cases hd; done)
      | (cases hd; exact .plain _ (Nat.le_refl 2))
      | (split_ifs at hd; cases hd; exact .plain _ (Nat.le_refl 2))

theorem decodeShift_proper (hd : decodeShift op1 = some d) : d.Proper := by
  unfold decodeShift at hd
  dsimp only at hd
  split at hd <;> cases hd
  exact .plain _ (Nat.le_refl 2)

/-- **An instruction is at least a word long and becomes at least one op.** -/
theorem decodeInstr_proper (hd : decodeInstr mem pc = some d) : d.Proper := by
  unfold decodeInstr at hd
  dsimp only at hd
  generalize field (mem.readU16 pc) 12 4 = nib at hd
  split at hd
  · cases hd
    exact ⟨Nat.le_refl 2, List.cons_ne_nil _ _⟩
  split at hd
  · cases hd
    exact .plain _ (Nat.le_refl 2)
  split at hd
  · cases hd
    exact ⟨decodeBranchTarget_len mem pc _, List.cons_ne_nil _ _⟩
  split at hd
  · cases hd
    exact ⟨decodeBranchTarget_len mem pc _, List.cons_ne_nil _ _⟩
  split at hd
  · exact decodeQuick_proper hd
  · exact decodeMoveq_proper hd
  · exact decodeMove_proper hd
  · exact decodeMove_proper hd
  · exact decodeMove_proper hd
  · exact decodeMisc_proper hd
  · exact decodeAlu_proper hd
  · exact decodeAlu_proper hd
  · exact decodeAlu_proper hd
  · exact decodeAlu_proper hd
  · exact decodeAlu_proper hd
  · split at hd
    · exact decodeBitfield_proper hd
    · exact decodeShift_proper hd
  · cases hd

/-! ## The same bytes -/

theorem decodeSrc_congr {cursor : Long} {mode reg : Nat} {src : Source}
    (hd : decodeSrc mem cursor mode reg size = some (src, n)) (h : SameBytes mem mem' cursor n) :
    decodeSrc mem' cursor mode reg size = some (src, n) := by
  unfold decodeSrc at hd ⊢
  split at hd
  · exact hd
  · exact hd
  · exact hd
  · exact hd
  · exact hd
  · obtain ⟨rfl, rfl⟩ : _ = src ∧ 2 = n := by simpa only [Option.some.injEq, Prod.mk.injEq] using hd
    simp only [h.readU16 (Nat.le_refl 2)]
  · split_ifs at hd ⊢ with hreg hsize
    · obtain ⟨rfl, rfl⟩ : _ = src ∧ 4 = n := by
        simpa only [Option.some.injEq, Prod.mk.injEq] using hd
      rw [h.readU32 (Nat.le_refl 4)]
    · obtain ⟨rfl, rfl⟩ : _ = src ∧ 2 = n := by
        simpa only [Option.some.injEq, Prod.mk.injEq] using hd
      rw [h.readU16 (Nat.le_refl 2)]
  · cases hd

theorem decodeDst_congr {cursor : Long} {mode reg : Nat} {dst : DstKind}
    (hd : decodeDst mem cursor mode reg = some (dst, n)) (h : SameBytes mem mem' cursor n) :
    decodeDst mem' cursor mode reg = some (dst, n) := by
  unfold decodeDst at hd ⊢
  split at hd
  · exact hd
  · exact hd
  · exact hd
  · exact hd
  · exact hd
  · obtain ⟨rfl, rfl⟩ : _ = dst ∧ 2 = n := by simpa only [Option.some.injEq, Prod.mk.injEq] using hd
    simp only [h.readU16 (Nat.le_refl 2)]
  · cases hd

theorem decodeMove_congr (hd : decodeMove mem pc op1 size = some d)
    (h : SameBytes mem mem' pc d.len) : decodeMove mem' pc op1 size = some d := by
  unfold decodeMove at hd ⊢
  split at hd
  · cases hd
  rename_i src srcLen hsrc
  split at hd
  · cases hd
  rename_i dst dstLen hdst
  obtain ⟨op, hop, rfl⟩ := Option.map_eq_some_iff.mp hd
  have hlen : (Decoded.plain op (2 + srcLen + dstLen)).len = 2 + srcLen + dstLen := rfl
  rw [hlen] at h
  rw [decodeSrc_congr hsrc ((h.drop 2).mono (by omega))]
  have hdst' : decodeDst mem' (pc + 2 + BitVec.ofNat 32 srcLen) (field op1 6 3)
      (field op1 9 3) = some (dst, dstLen) := by
    refine decodeDst_congr hdst ?_
    exact ((h.drop 2).drop srcLen).mono (by omega)
  simp only [hdst', hop, Option.map_some]

theorem decodeMovem_congr (hd : decodeMovem mem pc op1 = some d) (h : SameBytes mem mem' pc d.len) :
    decodeMovem mem' pc op1 = some d := by
  have hlen : d.len = 4 := by
    obtain ⟨ops, -, rfl⟩ := decodeMovem_eq_some hd
    rfl
  have hext := h.ext hlen.ge
  rw [← hd]
  simp only [decodeMovem, hext]

theorem decodeBitfield_congr (hd : decodeBitfield mem pc op1 = some d)
    (h : SameBytes mem mem' pc d.len) : decodeBitfield mem' pc op1 = some d := by
  have hext := h.ext (decodeBitfield_len hd).ge
  rw [← hd]
  simp only [decodeBitfield, hext]

theorem decodeLea_congr (hd : decodeLea mem pc op1 = some d) (h : SameBytes mem mem' pc d.len) :
    decodeLea mem' pc op1 = some d := by
  unfold decodeLea at hd ⊢
  dsimp only at hd ⊢
  split at hd
  · exact hd
  · cases hd
    rw [h.ext (Nat.le_refl 4)]
  · cases hd

theorem decodeMisc_congr (hd : decodeMisc mem pc op1 = some d) (h : SameBytes mem mem' pc d.len) :
    decodeMisc mem' pc op1 = some d := by
  unfold decodeMisc at hd ⊢
  dsimp only at hd ⊢
  split_ifs at hd ⊢
  · exact hd
  · exact hd
  · exact hd
  · exact hd
  · exact decodeLea_congr hd h
  · exact decodeMovem_congr hd h

theorem decodeBranchTarget_congr (h : SameBytes mem mem' pc (decodeBranchTarget mem pc op1).2) :
    decodeBranchTarget mem' pc op1 = decodeBranchTarget mem pc op1 := by
  unfold decodeBranchTarget at h ⊢
  split_ifs at h ⊢
  · rw [h.ext (Nat.le_refl 4)]
  · rfl

/-- **An instruction decodes the same from the same bytes.** -/
theorem decodeInstr_congr (hd : decodeInstr mem pc = some d) (h : SameBytes mem mem' pc d.len) :
    decodeInstr mem' pc = some d := by
  have hop1 : mem'.readU16 pc = mem.readU16 pc := h.readU16 (decodeInstr_proper hd).two_le
  unfold decodeInstr at hd ⊢
  simp only [hop1] at hd ⊢
  generalize field (mem.readU16 pc) 12 4 = nib at hd ⊢
  split_ifs at hd ⊢ with h1 h2 h3 h4 hbf
  · exact hd
  · exact hd
  · cases hd
    rw [decodeBranchTarget_congr h]
  · cases hd
    rw [decodeBranchTarget_congr h]
  all_goals
    split at hd
    · exact hd
    · exact hd
    · exact decodeMove_congr hd h
    · exact decodeMove_congr hd h
    · exact decodeMove_congr hd h
    · exact decodeMisc_congr hd h
    · exact hd
    · exact hd
    · exact hd
    · exact hd
    · exact hd
    · first
        | exact hd
        | exact decodeBitfield_congr hd h
    · cases hd

/-! ## Blocks -/

/-- The addresses of the instructions of a block. -/
def IrBlock.code (block : IrBlock) : Set Long :=
  {a | ∃ i ∈ block.instrs, ∃ k < i.len, a = i.pc + BitVec.ofNat 32 k}

theorem pushAll_instrs {is : List IrInstr} (h : b.pushAll is = some b') :
    b'.instrs = b.instrs ++ is := by
  induction is generalizing b with
  | nil => cases h; simp
  | cons i is ih =>
    rw [IrBlock.pushAll, Option.bind_eq_some_iff] at h
    obtain ⟨b₁, hpush, hrest⟩ := h
    unfold IrBlock.push at hpush
    split_ifs at hpush
    cases hpush
    rw [ih hrest, List.append_assoc]
    rfl

/-- The first op of an instruction has its address and its length. -/
theorem exists_mem_instrs (h : d.Proper) (pc : Long) :
    ∃ i ∈ d.instrs pc, i.pc = pc ∧ i.len = d.len := by
  rcases hops : d.ops with _ | ⟨op, ops⟩
  · exact absurd hops h.ops_ne
  · exact ⟨⟨op, pc, d.len, _⟩, by simp only [Decoded.instrs, hops, List.mapIdx_cons]; exact .head _,
      rfl, rfl⟩

theorem decodeLoop_prefix {fuel : Nat} (h : decodeLoop mem fuel b pc = some b') :
    b.instrs <+: b'.instrs := by
  induction fuel generalizing b pc with
  | zero => cases h
  | succ fuel ih =>
    rw [decodeLoop, Option.bind_eq_some_iff] at h
    obtain ⟨⟨b₁, len, term⟩, hone, hrest⟩ := h
    unfold decodeOne at hone
    obtain ⟨d, -, hone⟩ := Option.bind_eq_some_iff.mp hone
    obtain ⟨b₂, hpush, heq⟩ := Option.map_eq_some_iff.mp hone
    cases heq
    have h₁ : b.instrs <+: b₁.instrs := by rw [pushAll_instrs hpush]; exact List.prefix_append _ _
    dsimp only at hrest
    split_ifs at hrest
    · cases hrest; exact h₁
    · exact h₁.trans (ih hrest)

theorem decodeLoop_congr {fuel : Nat} (h : decodeLoop mem fuel b pc = some b')
    (hsame : ∀ a ∈ b'.code, mem'.readU8 a = mem.readU8 a) :
    decodeLoop mem' fuel b pc = some b' := by
  induction fuel generalizing b pc with
  | zero => cases h
  | succ fuel ih =>
    have hwhole := h
    rw [decodeLoop, Option.bind_eq_some_iff] at h
    obtain ⟨⟨b₁, len, term⟩, hone, hrest⟩ := h
    have hone' := hone
    unfold decodeOne at hone'
    obtain ⟨d, hd, hmap⟩ := Option.bind_eq_some_iff.mp hone'
    obtain ⟨b₂, hpush, heq⟩ := Option.map_eq_some_iff.mp hmap
    cases heq
    -- the instruction just decoded is one of the block
    have hpre : b₁.instrs <+: b'.instrs := by
      dsimp only at hrest
      split_ifs at hrest
      · cases hrest; exact List.prefix_refl _
      · exact decodeLoop_prefix hrest
    obtain ⟨i, hi, hpc, hlen⟩ := exists_mem_instrs (decodeInstr_proper hd) pc
    have hmem : i ∈ b'.instrs := by
      refine hpre.subset ?_
      rw [pushAll_instrs hpush]
      exact List.mem_append_right _ hi
    have hbytes : SameBytes mem mem' pc d.len := by
      intro k hk
      exact hsame _ ⟨i, hmem, k, by rwa [hlen], by rw [hpc]⟩
    have hone₂ : decodeOne b mem' pc = some (b₁, d.len, d.terminator) := by
      rw [decodeOne, decodeInstr_congr hd hbytes]
      simp [hpush]
    rw [decodeLoop, hone₂]
    simp only [Option.bind_some] at hrest ⊢
    split_ifs at hrest ⊢
    · exact hrest
    · exact ih hrest

/-- **A block decodes the same as long as its instructions stay as they are.** -/
theorem decodeBlock_congr (h : decodeBlock mem pc = some b)
    (hsame : ∀ a ∈ b.code, mem'.readU8 a = mem.readU8 a) : decodeBlock mem' pc = some b :=
  decodeLoop_congr h hsame

end Vp

end M68kMachine
