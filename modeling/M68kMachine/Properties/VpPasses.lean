import M68kMachine.Vp.Interp

/-!
# What the passes of the VP core keep

`flag_liveness` takes flags away from ops and `peephole` takes a `lea` away. Beside the block it was
made from, the result keeps the registers and memory; of the flags it keeps the Z of the last op
whose Z was kept. A `bne` goes the same way when the true Z is that value, or both ways lead to the
same address.

* `Agree` — two states that differ in the flags only
* `keptZ` — Z as the passes leave it
* `BranchesOnKept` — every `bne` of a block finds the kept Z
* `execOps_passes` — a block before and after the passes
-/

namespace M68kMachine

namespace Vp

/-! ## The flags of a state -/

/-- The Z flag. -/
def VpCpu.z (cpu : VpCpu) : Bool := cpu.flags.getLsbD 2

theorem and_fZ_eq_zero_iff (flags : Byte) : flags &&& fZ = 0 ↔ flags.getLsbD 2 = false := by
  revert flags
  decide

variable (cpu : VpCpu) {s t : VpState} {i : IrInstr}

theorem z_applyFlags (computed wanted : Byte) :
    (cpu.applyFlags computed wanted).z =
      if wanted.getLsbD 2 then computed.getLsbD 2 else cpu.z := by
  simp only [VpCpu.z, VpCpu.applyFlags, BitVec.getLsbD_or, BitVec.getLsbD_and, BitVec.getLsbD_not]
  cases wanted.getLsbD 2 <;> simp

/-- Merging fewer flags merges the same Z, or leaves it alone. -/
theorem z_applyFlags_narrow (cpu' : VpCpu) (computed flags needed : Byte) :
    (cpu'.applyFlags computed (flags &&& needed)).z =
      if (flags &&& needed).getLsbD 2 then (cpu.applyFlags computed flags).z else cpu'.z := by
  rw [z_applyFlags, z_applyFlags, BitVec.getLsbD_and]
  cases flags.getLsbD 2 <;> simp

@[simp] theorem z_setReg (r : Reg) (v : Long) : (cpu.setReg r v).z = cpu.z := rfl

@[simp] theorem z_setRegSized (r : Reg) (v : Long) (size : Size) :
    (cpu.setRegSized r v size).z = cpu.z := rfl

@[simp] theorem z_resolveEa (ea : Ea) (size : Size) : (resolveEa cpu ea size).2.z = cpu.z := by
  cases ea <;> rfl

/-- Two states that differ in the flags only. -/
structure Agree (s t : VpState) : Prop where
  regs : t.cpu.regs = s.cpu.regs
  pc : t.cpu.pc = s.cpu.pc
  mem : t.mem = s.mem

theorem Agree.refl (s : VpState) : Agree s s := ⟨rfl, rfl, rfl⟩

/-! ## Ops with fewer flags -/

/-- An op that computes no more than the flags in `needed`. -/
def Op.narrow (needed : Byte) : Op → Op
  | .aluBinReg op dst src size flags => .aluBinReg op dst src size (flags &&& needed)
  | .aluImm op dst imm size flags => .aluImm op dst imm size (flags &&& needed)
  | .aluUnary op dst size flags => .aluUnary op dst size (flags &&& needed)
  | .shift left arith dst count size flags => .shift left arith dst count size (flags &&& needed)
  | op => op

/-- The flags the decoder asked for, of the ops the pass narrows. -/
def Op.wanted : Op → Option Byte
  | .aluBinReg _ _ _ _ flags | .aluImm _ _ _ _ flags | .aluUnary _ _ _ flags
  | .shift _ _ _ _ _ flags => some flags
  | _ => none

/-- What an op leaves of the flags that are needed after it. -/
def Op.neededBefore (op : Op) (needed : Byte) : Byte :=
  match op with
  | .bne _ _ => fZ
  | op => if op.wanted = none then needed else fNone

theorem flagLiveness_cons (i : IrInstr) (is : List IrInstr) :
    flagLiveness (i :: is) =
      ({ i with op := i.op.narrow (flagLiveness is).2 } :: (flagLiveness is).1,
        i.op.neededBefore (flagLiveness is).2) := by
  obtain ⟨op, pc, len, retire⟩ := i
  cases op <;> rfl

/-- The pass keeps the Z of this op, which `needed` follow; `moveq` is not narrowed. -/
def Op.keepsZ (op : Op) (needed : Byte) : Bool :=
  match op with
  | .moveqImm _ _ => true
  | op => match op.wanted with
    | some flags => (flags &&& needed).getLsbD 2
    | none => false

/-- **An op and its narrowed form agree on everything but the flags**, `bne` apart. -/
theorem execOp_narrow (h : Agree s t) (i : IrInstr) (needed : Byte)
    (hbne : ∀ target fallthrough, i.op ≠ .bne target fallthrough) :
    Agree (execOp s i).1 (execOp t { i with op := i.op.narrow needed }).1 ∧
      (execOp t { i with op := i.op.narrow needed }).2 = (execOp s i).2 := by
  obtain ⟨⟨regs, pc, fs⟩, mem⟩ := s
  obtain ⟨⟨regs', pc', ft⟩, mem'⟩ := t
  obtain ⟨rfl, rfl, rfl⟩ := h
  obtain ⟨op, ipc, len, retire⟩ := i
  cases op with
  | bne target fallthrough => exact absurd rfl (hbne target fallthrough)
  | loadReg dst src size => cases src <;> exact ⟨⟨rfl, rfl, rfl⟩, rfl⟩
  | moveMem src dst size =>
    cases dst <;> cases src with
    | ea src => cases src <;> exact ⟨⟨rfl, rfl, rfl⟩, rfl⟩
    | _ => exact ⟨⟨rfl, rfl, rfl⟩, rfl⟩
  | aluBinReg op dst src size flags => cases op <;> exact ⟨⟨rfl, rfl, rfl⟩, rfl⟩
  | aluUnary op dst size flags => cases op <;> exact ⟨⟨rfl, rfl, rfl⟩, rfl⟩
  | bitfield op base reg offset width => cases op <;> exact ⟨⟨rfl, rfl, rfl⟩, rfl⟩
  | _ => exact ⟨⟨rfl, rfl, rfl⟩, rfl⟩

/-- **The Z after a narrowed op** is the op's where it is kept, and the Z before it elsewhere. -/
theorem z_execOp_narrow (h : Agree s t) (i : IrInstr) (needed : Byte) :
    (execOp t { i with op := i.op.narrow needed }).1.cpu.z =
      if i.op.keepsZ needed then (execOp s i).1.cpu.z else t.cpu.z := by
  obtain ⟨⟨regs, pc, fs⟩, mem⟩ := s
  obtain ⟨⟨regs', pc', ft⟩, mem'⟩ := t
  obtain ⟨rfl, rfl, rfl⟩ := h
  obtain ⟨op, ipc, len, retire⟩ := i
  cases op with
  | loadReg dst src size => cases src <;> rfl
  | moveMem src dst size =>
    cases dst <;> cases src with
    | ea src => cases src <;> rfl
    | _ => rfl
  | bitfield op base reg offset width => cases op <;> rfl
  | moveqImm dst imm =>
    simp only [execOp, Op.narrow, Op.keepsZ, if_true, z_applyFlags]
    rfl
  | aluBinReg op dst src size flags => cases op <;> exact z_applyFlags_narrow _ _ _ _ _
  | aluImm op dst imm size flags => exact z_applyFlags_narrow _ _ _ _ _
  | aluUnary op dst size flags => cases op <;> exact z_applyFlags_narrow _ _ _ _ _
  | shift left arith dst count size flags => exact z_applyFlags_narrow _ _ _ _ _
  | _ => rfl

/-- A `bne` is taken when Z is clear. -/
theorem execOp_bne {target fallthrough : Long} (hop : i.op = .bne target fallthrough)
    (s : VpState) : execOp s i = (s, some (if s.cpu.z = false then target else fallthrough)) := by
  rw [execOp, hop]
  simp only [VpCpu.z, ← and_fZ_eq_zero_iff]

/-- A `lea (An),An` is a no-op. -/
theorem execOp_peephole (s : VpState) (i : IrInstr) : execOp s (peephole i) = execOp s i := by
  unfold peephole
  split
  · rename_i dst base hop
    split_ifs with hbase
    · subst hbase
      have hset : s.setReg base (s.cpu.reg base) = s := by
        obtain ⟨⟨regs, pc, flags⟩, mem⟩ := s
        simp only [VpState.setReg, VpCpu.setReg, VpCpu.reg]
        congr
        funext r
        unfold Buffer.set
        split_ifs with hr
        · rw [Fin.ext hr]
        · rfl
      simp [execOp, hop, hset]
    · rfl
  · rfl

@[simp] theorem peephole_retire (i : IrInstr) : (peephole i).retire = i.retire := by
  unfold peephole
  split
  · split_ifs <;> rfl
  · rfl

/-! ## Blocks -/

/-- **Z as the passes leave it** at the end: that of the last op whose Z is kept. -/
def keptZ : List IrInstr → VpState → Bool → Bool
  | [], _, kept => kept
  | i :: is, s, kept =>
    let kept := if i.op.keepsZ (flagLiveness is).2 then (execOp s i).1.cpu.z else kept
    match execOp s i with
    | (_, some _) => kept
    | (s, none) => keptZ is s kept

/-- A `bne` at the end finds the Z that is kept, or goes to one address in either case. -/
def BranchesOnKept : List IrInstr → VpState → Bool → Prop
  | [], _, _ => True
  | i :: is, s, kept =>
    let kept := if i.op.keepsZ (flagLiveness is).2 then (execOp s i).1.cpu.z else kept
    match i.op with
    | .bne target fallthrough => s.cpu.z = kept ∨ target = fallthrough
    | _ =>
      match execOp s i with
      | (_, some _) => True
      | (s, none) => BranchesOnKept is s kept

theorem branchesOnKept_bne {target fallthrough : Long} (hop : i.op = .bne target fallthrough)
    (is : List IrInstr) (s : VpState) (kept : Bool) :
    BranchesOnKept (i :: is) s kept ↔ s.cpu.z = kept ∨ target = fallthrough := by
  simp [BranchesOnKept, hop, Op.keepsZ, Op.wanted]

theorem branchesOnKept_of_transfer {s' : VpState} {next : Long}
    (hbne : ∀ target fallthrough, i.op ≠ .bne target fallthrough)
    (he : execOp s i = (s', some next)) (is : List IrInstr) (kept : Bool) :
    BranchesOnKept (i :: is) s kept := by
  rw [BranchesOnKept]
  split
  · rename_i target fallthrough hop
    exact absurd hop (hbne target fallthrough)
  · simp [he]

theorem branchesOnKept_of_step {s' : VpState}
    (hbne : ∀ target fallthrough, i.op ≠ .bne target fallthrough) (he : execOp s i = (s', none))
    (is : List IrInstr) (kept : Bool) :
    BranchesOnKept (i :: is) s kept ↔
      BranchesOnKept is s' (if i.op.keepsZ (flagLiveness is).2 then s'.cpu.z else kept) := by
  rw [BranchesOnKept]
  split
  · rename_i target fallthrough hop
    exact absurd hop (hbne target fallthrough)
  · rw [he]

/-- What the passes make of the ops of a block. -/
def passed (is : List IrInstr) : List IrInstr := (flagLiveness is).1.map peephole

theorem passed_cons (i : IrInstr) (is : List IrInstr) :
    passed (i :: is) = peephole { i with op := i.op.narrow (flagLiveness is).2 } :: passed is := by
  simp [passed, flagLiveness_cons]

/-- **The ops before and after the passes**, from states that differ in flags only: they leave such
states again and retire the same count, the Z left is `keptZ`, and they go to the same address
exactly when `BranchesOnKept`. -/
theorem execOps_passes (is : List IrInstr) (h : Agree s t) (e : Long) :
    Agree (execOps s is).1 (execOps t (passed is)).1 ∧
      (execOps t (passed is)).2.1 = (execOps s is).2.1 ∧
      (execOps t (passed is)).1.cpu.z = keptZ is s t.cpu.z ∧
      ((execOps t (passed is)).2.2.getD e = (execOps s is).2.2.getD e ↔
        BranchesOnKept is s t.cpu.z) := by
  induction is generalizing s t with
  | nil => exact ⟨h, rfl, rfl, by simp [passed, flagLiveness, execOps, BranchesOnKept]⟩
  | cons i is ih =>
    have hz := z_execOp_narrow h i (flagLiveness is).2
    by_cases hbne : ∃ target fallthrough, i.op = .bne target fallthrough
    · obtain ⟨target, fallthrough, hop⟩ := hbne
      rw [branchesOnKept_bne hop]
      have hs := execOp_bne hop s
      have ht : execOp t (peephole { i with op := i.op.narrow (flagLiveness is).2 }) =
          (t, some (if t.cpu.z = false then target else fallthrough)) := by
        rw [execOp_peephole]
        exact execOp_bne (by rw [hop]; rfl) t
      have hkeeps : i.op.keepsZ (flagLiveness is).2 = false := by rw [hop]; rfl
      simp only [passed_cons, execOps, hs, ht, peephole_retire, keptZ, hkeeps, Option.getD_some,
        Bool.false_eq_true, if_false, true_and]
      refine ⟨h, ?_⟩
      cases s.cpu.z <;> cases t.cpu.z <;> simp [eq_comm]
    · have hbne' : ∀ target fallthrough, i.op ≠ .bne target fallthrough := by
        intro target fallthrough hop
        exact hbne ⟨target, fallthrough, hop⟩
      obtain ⟨hagree, hnext⟩ := execOp_narrow h i (flagLiveness is).2 hbne'
      rw [← execOp_peephole t] at hagree hnext hz
      rcases hs : execOp s i with ⟨s', next⟩
      rcases ht : execOp t (peephole { i with op := i.op.narrow (flagLiveness is).2 }) with
        ⟨t', next'⟩
      rw [hs, ht] at hagree hnext
      rw [hs, ht] at hz
      simp only at hagree hnext hz
      subst hnext
      cases next' with
      | some next =>
        simp only [passed_cons, execOps, hs, ht, peephole_retire, keptZ, Option.getD_some, true_iff,
          true_and]
        exact ⟨hagree, hz, branchesOnKept_of_transfer hbne' hs is _⟩
      | none =>
        obtain ⟨h1, h2, h3, h4⟩ := ih hagree
        rw [branchesOnKept_of_step hbne' hs, ← hz]
        simp only [passed_cons, execOps, hs, ht, peephole_retire, keptZ, h2, true_and]
        refine ⟨h1, ?_, h4⟩
        rw [h3, hz]

end Vp

end M68kMachine
