import M68kMachine.Properties.VpDecode

/-!
# A block is its instructions in sequence

The ops of a block executed in one go, against its instructions decoded and executed one at a time.
The two agree as long as a control transfer is reached before the block is full; a block that is
filled up first goes back to its own entry.

* `decodeInstr_cases` — an instruction that goes on, or a control transfer of one op
* `Straight` — the instructions from an address up to another one, none of them a control transfer
* `decodeLoop_cases`, `decodeLoop_of_straight` — what a block is decoded to
* `runInstrs_straight` — its instructions one at a time
-/

namespace M68kMachine

namespace Vp

/-! ## Ops that go on -/

/-- A control transfer. -/
def Op.transfers : Op → Bool
  | .bsr _ | .bne _ _ | .rts => true
  | _ => false

theorem execOp_transfers (s : VpState) (i : IrInstr) :
    (execOp s i).2.isSome = i.op.transfers := by
  unfold execOp
  rcases i.op with _ | _ | _ | _ | _ | _ | _ | _ | _ | _ | ⟨_ | _, _, _, _, _⟩ | _ | _ | _ | _ <;>
    rfl

variable {i : IrInstr}

theorem execOp_of_calm (h : i.op.transfers = false) (s : VpState) : (execOp s i).2 = none := by
  rw [← Option.not_isSome_iff_eq_none, execOp_transfers, h]
  exact Bool.false_ne_true

@[simp] theorem execOps_nil (s : VpState) : execOps s [] = (s, 0, none) := rfl

theorem execOps_cons_of_calm (h : i.op.transfers = false) (s : VpState) (is : List IrInstr) :
    execOps s (i :: is) =
      ((execOps (execOp s i).1 is).1, (if i.retire then 1 else 0) + (execOps (execOp s i).1 is).2.1,
        (execOps (execOp s i).1 is).2.2) := by
  have hstep : execOp s i = ((execOp s i).1, none) := Prod.ext rfl (execOp_of_calm h s)
  rw [execOps, hstep]

theorem execOps_cons_of_transfer (h : i.op.transfers = true) (s : VpState) (is : List IrInstr) :
    execOps s (i :: is) = ((execOp s i).1, (if i.retire then 1 else 0), (execOp s i).2) := by
  have hsome : (execOp s i).2.isSome = true := by rw [execOp_transfers, h]
  obtain ⟨next, hnext⟩ := Option.isSome_iff_exists.mp hsome
  have hstep : execOp s i = ((execOp s i).1, some next) := Prod.ext rfl hnext
  rw [execOps, hstep]

variable {is : List IrInstr}

/-- Ops without a control transfer retire what they say, and go on. -/
theorem execOps_of_calm (h : ∀ i ∈ is, i.op.transfers = false) (s : VpState) :
    (execOps s is).2 = (is.countP (·.retire), none) := by
  induction is generalizing s with
  | nil => rfl
  | cons i is ih =>
    rw [execOps_cons_of_calm (h i List.mem_cons_self),
      ih fun j hj => h j (List.mem_cons_of_mem i hj)]
    rw [List.countP_cons, Nat.add_comm]

/-- And what follows them is executed after them. -/
theorem execOps_append (h : ∀ i ∈ is, i.op.transfers = false) (s : VpState) (js : List IrInstr) :
    execOps s (is ++ js) =
      ((execOps (execOps s is).1 js).1, (execOps s is).2.1 + (execOps (execOps s is).1 js).2.1,
        (execOps (execOps s is).1 js).2.2) := by
  induction is generalizing s with
  | nil => simp
  | cons i is ih =>
    have hi := h i List.mem_cons_self
    rw [List.cons_append, execOps_cons_of_calm hi, execOps_cons_of_calm hi,
      ih fun j hj => h j (List.mem_cons_of_mem i hj), Nat.add_assoc]

/-! ## Instructions that go on -/

variable {mem : VpMemory} {n : Nat} {op1 : Word} {d : Decoded} {size : Size} {stop : Long}
  {ds : List Decoded}

/-- An instruction that goes on to the next one. -/
structure Decoded.Calm (d : Decoded) : Prop where
  terminator_eq : d.terminator = false
  calm : ∀ op ∈ d.ops, op.transfers = false
  len_le : d.len ≤ 8

/-- A control transfer. -/
structure Decoded.Transfer (d : Decoded) : Prop where
  terminator_eq : d.terminator = true
  single : ∃ op, d.ops = [op] ∧ op.transfers = true

theorem Decoded.Calm.plain {op : Op} (hop : op.transfers = false) (hn : n ≤ 8) :
    (Decoded.plain op n).Calm := by
  refine ⟨rfl, fun op' h => ?_, hn⟩
  rwa [List.mem_singleton.mp h]

theorem decodeQuick_calm (hd : decodeQuick op1 = some d) : d.Calm := by
  unfold decodeQuick at hd
  dsimp only at hd
  split at hd
  · split at hd <;> cases hd
    exact .plain rfl (by simp)
  · split at hd <;> cases hd
    exact .plain rfl (by simp)
  · split at hd <;> cases hd
    exact .plain rfl (by simp)
  · cases hd

theorem decodeMoveq_calm (hd : decodeMoveq op1 = some d) : d.Calm := by
  unfold decodeMoveq at hd
  split_ifs at hd
  cases hd
  exact .plain rfl (by simp)

theorem decodeSrc_len {cursor : Long} {mode reg : Nat} {src : Source}
    (h : decodeSrc mem cursor mode reg size = some (src, n)) : n ≤ 4 := by
  unfold decodeSrc at h
  split at h
  case h_7 =>
    split_ifs at h <;> cases h <;> decide
  all_goals cases h; try decide

theorem decodeDst_len {cursor : Long} {mode reg : Nat} {dst : DstKind}
    (h : decodeDst mem cursor mode reg = some (dst, n)) : n ≤ 2 := by
  unfold decodeDst at h
  split at h <;> cases h <;> decide

theorem moveOp_calm {src : Source} {dst : DstKind} {op : Op} (h : moveOp src dst size = some op) :
    op.transfers = false := by
  unfold moveOp at h
  split at h
  · split at h <;> cases h
    rfl
  · cases h
    rfl
  · split at h <;> cases h
    rfl
  · cases h

theorem decodeMove_calm {pc : Long} (hd : decodeMove mem pc op1 size = some d) : d.Calm := by
  unfold decodeMove at hd
  split at hd
  · cases hd
  case h_2 src srcLen hsrc =>
    split at hd
    · cases hd
    case h_2 dst dstLen hdst =>
      obtain ⟨op, hop, rfl⟩ := Option.map_eq_some_iff.mp hd
      have hsrcLen := decodeSrc_len hsrc
      have hdstLen := decodeDst_len hdst
      exact .plain (moveOp_calm hop) (by omega)

theorem decodeMovem_calm {pc : Long} (hd : decodeMovem mem pc op1 = some d) : d.Calm := by
  unfold decodeMovem at hd
  dsimp only at hd
  rw [Option.ite_none_left_eq_some] at hd
  obtain ⟨-, hd⟩ := hd
  cases hd
  refine ⟨rfl, fun op hop => ?_, by simp⟩
  dsimp only at hop
  split at hop
  · rw [List.mem_singleton.mp hop]
    rfl
  · obtain ⟨reg, -, rfl⟩ := List.mem_map.mp hop
    split <;> rfl

theorem decodeBitfield_calm {pc : Long} (hd : decodeBitfield mem pc op1 = some d) : d.Calm := by
  unfold decodeBitfield at hd
  dsimp only at hd
  split at hd
  · cases hd
  · split at hd <;> cases hd
    · exact .plain rfl (by simp)
    · exact .plain rfl (by simp)

theorem decodeLea_calm {pc : Long} (hd : decodeLea mem pc op1 = some d) : d.Calm := by
  unfold decodeLea at hd
  dsimp only at hd
  split at hd <;> cases hd
  · exact .plain rfl (by simp)
  · exact .plain rfl (by simp)

theorem decodeMisc_calm {pc : Long} (hd : decodeMisc mem pc op1 = some d) : d.Calm := by
  unfold decodeMisc at hd
  dsimp only at hd
  split_ifs at hd
  · cases hd; exact .plain rfl (by simp)
  · cases hd; exact .plain rfl (by simp)
  · cases hd; exact .plain rfl (by simp)
  · cases hd; exact .plain rfl (by simp)
  · exact decodeLea_calm hd
  · exact decodeMovem_calm hd

theorem decodeAlu_calm (hd : decodeAlu op1 = some d) : d.Calm := by
  unfold decodeAlu at hd
  dsimp only at hd
  split at hd
  all_goals
    first
      | (cases hd; done)
      | (cases hd; exact .plain rfl (by simp))
      | (split_ifs at hd; cases hd; exact .plain rfl (by simp))

theorem decodeShift_calm (hd : decodeShift op1 = some d) : d.Calm := by
  unfold decodeShift at hd
  dsimp only at hd
  split at hd <;> cases hd
  exact .plain rfl (by simp)

/-- **An instruction goes on, or it is a control transfer of one op.** -/
theorem decodeInstr_cases {pc : Long} (hd : decodeInstr mem pc = some d) : d.Calm ∨ d.Transfer := by
  unfold decodeInstr at hd
  dsimp only at hd
  generalize field (mem.readU16 pc) 12 4 = nib at hd
  split at hd
  · cases hd
    exact .inr ⟨rfl, _, rfl, rfl⟩
  split at hd
  · cases hd
    exact .inl (.plain rfl (by simp))
  split at hd
  · cases hd
    exact .inr ⟨rfl, _, rfl, rfl⟩
  split at hd
  · cases hd
    exact .inr ⟨rfl, _, rfl, rfl⟩
  left
  split at hd
  · exact decodeQuick_calm hd
  · exact decodeMoveq_calm hd
  · exact decodeMove_calm hd
  · exact decodeMove_calm hd
  · exact decodeMove_calm hd
  · exact decodeMisc_calm hd
  · exact decodeAlu_calm hd
  · exact decodeAlu_calm hd
  · exact decodeAlu_calm hd
  · exact decodeAlu_calm hd
  · exact decodeAlu_calm hd
  · split at hd
    · exact decodeBitfield_calm hd
    · exact decodeShift_calm hd
  · cases hd

theorem decodeInstr_calm {pc : Long} (hd : decodeInstr mem pc = some d) (h : d.terminator = false) :
    d.Calm := by
  rcases decodeInstr_cases hd with hcalm | htransfer
  · exact hcalm
  · rw [htransfer.terminator_eq] at h
    cases h

theorem decodeInstr_transfer {pc : Long} (hd : decodeInstr mem pc = some d)
    (h : d.terminator = true) : d.Transfer := by
  rcases decodeInstr_cases hd with hcalm | htransfer
  · rw [hcalm.terminator_eq] at h
    cases h
  · exact htransfer

/-! ## The ops of an instruction -/

@[simp] theorem length_instrs (d : Decoded) (pc : Long) : (d.instrs pc).length = d.ops.length :=
  List.length_mapIdx

theorem Decoded.Calm.instrs (h : d.Calm) {pc : Long} (hi : i ∈ d.instrs pc) :
    i.op.transfers = false := by
  obtain ⟨k, hk, rfl⟩ := List.mem_mapIdx.mp hi
  exact h.calm _ (List.getElem_mem hk)

/-- Only the last op of an instruction retires. -/
theorem countP_instrs (h : d.ops ≠ []) (pc : Long) : (d.instrs pc).countP (·.retire) = 1 := by
  obtain ⟨init, last, hops⟩ : ∃ init last, d.ops = init ++ [last] :=
    ⟨d.ops.dropLast, d.ops.getLast h, (List.dropLast_append_getLast h).symm⟩
  unfold Decoded.instrs
  rw [hops, List.mapIdx_concat, List.countP_append]
  have hinit : (init.mapIdx fun i op => (⟨op, pc, d.len, i + 1 = (init ++ [last]).length⟩ :
      IrInstr)).countP (·.retire) = 0 := by
    rw [List.countP_eq_zero]
    intro i hi
    obtain ⟨k, hk, rfl⟩ := List.mem_mapIdx.mp hi
    simp only [List.length_append, List.length_singleton, decide_eq_true_eq]
    omega
  rw [hinit]
  simp

/-- An instruction that goes on retires once. -/
theorem execOps_instrs_of_calm (h : d.Calm) (hops : d.ops ≠ []) (s : VpState) (pc : Long) :
    (execOps s (d.instrs pc)).2 = (1, none) := by
  rw [execOps_of_calm (fun _ hi => h.instrs hi), countP_instrs hops]

/-- A control transfer retires once, and says where it goes. -/
theorem execOps_instrs_of_transfer (h : d.Transfer) (s : VpState) (pc : Long) :
    ∃ next, (execOps s (d.instrs pc)).2 = (1, some next) := by
  obtain ⟨op, hops, hop⟩ := h.single
  have hinstrs : d.instrs pc = [⟨op, pc, d.len, true⟩] := by
    unfold Decoded.instrs
    rw [hops]
    rfl
  have hsome : (execOp s ⟨op, pc, d.len, true⟩).2.isSome = true := by rw [execOp_transfers, hop]
  obtain ⟨next, hnext⟩ := Option.isSome_iff_exists.mp hsome
  refine ⟨next, ?_⟩
  rw [hinstrs, execOps_cons_of_transfer hop, hnext]
  rfl

/-! ## Straight-line code -/

/-- `ds` stand one after the other from an address up to another one, and all of them go on. -/
inductive Straight (mem : VpMemory) : Long → List Decoded → Long → Prop
  | nil (pc : Long) : Straight mem pc [] pc
  | cons {pc stop : Long} {d : Decoded} {ds : List Decoded} (decoded : decodeInstr mem pc = some d)
      (goesOn : d.terminator = false) (rest : Straight mem (pc + BitVec.ofNat 32 d.len) ds stop) :
      Straight mem pc (d :: ds) stop

/-- The ops of instructions that stand one after the other. -/
def placed : Long → List Decoded → List IrInstr
  | _, [] => []
  | pc, d :: ds => d.instrs pc ++ placed (pc + BitVec.ofNat 32 d.len) ds

/-- The number of ops that instructions take. -/
def opCount (ds : List Decoded) : Nat := (ds.map fun d => d.ops.length).sum

@[simp] theorem opCount_nil : opCount [] = 0 := rfl

@[simp] theorem opCount_cons (d : Decoded) (ds : List Decoded) :
    opCount (d :: ds) = d.ops.length + opCount ds := by
  simp [opCount]

namespace Straight

variable {pc stop : Long} {ds : List Decoded}

/-- Every instruction takes an op. -/
theorem length_le (h : Straight mem pc ds stop) : ds.length ≤ opCount ds := by
  induction h with
  | nil => exact Nat.le_refl 0
  | cons decoded _ _ ih =>
    have hpos := List.length_pos_iff.mpr (decodeInstr_proper decoded).ops_ne
    rw [List.length_cons, opCount_cons]
    omega

theorem calm (h : Straight mem pc ds stop) :
    ∀ i ∈ placed pc ds, i.op.transfers = false := by
  induction h with
  | nil => exact fun i hi => absurd hi List.not_mem_nil
  | cons decoded goesOn _ ih =>
    intro i hi
    rcases List.mem_append.mp hi with hhead | hrest
    · exact (decodeInstr_calm decoded goesOn).instrs hhead
    · exact ih i hrest

/-- The bytes from the first instruction to the end. -/
theorem stop_eq (h : Straight mem pc ds stop) :
    ∃ n, 2 * ds.length ≤ n ∧ n ≤ 8 * ds.length ∧ stop = pc + BitVec.ofNat 32 n := by
  induction h with
  | nil => exact ⟨0, Nat.le_refl 0, Nat.le_refl 0, (BitVec.add_zero _).symm⟩
  | @cons pc stop d ds decoded goesOn _ ih =>
    obtain ⟨n, hlow, hhigh, hstop⟩ := ih
    have htwo := (decodeInstr_proper decoded).two_le
    have height := (decodeInstr_calm decoded goesOn).len_le
    refine ⟨d.len + n, ?_, ?_, ?_⟩
    · rw [List.length_cons]
      omega
    · rw [List.length_cons]
      omega
    · rw [hstop, BitVec.ofNat_add, BitVec.add_assoc]

/-- Straight-line code that fits a block does not come back to where it started. -/
theorem stop_ne (h : Straight mem pc ds stop) (hne : ds ≠ []) (hfits : opCount ds ≤ maxOps) :
    stop ≠ pc := by
  have hmax : maxOps = 64 := rfl
  have hlen := h.length_le
  have hpos := List.length_pos_iff.mpr hne
  obtain ⟨n, hlow, hhigh, rfl⟩ := h.stop_eq
  intro hback
  have hzero : BitVec.ofNat 32 n = 0 := by
    have := congrArg (· - pc) hback
    simpa [BitVec.add_sub_cancel] using this
  have hmod : n % 2 ^ 32 = 0 := congrArg BitVec.toNat hzero
  omega

end Straight

/-! ## What a block is decoded to -/

theorem pushAll_eq (is : List IrInstr) (b : IrBlock) (h : b.instrs.length + is.length ≤ maxOps) :
    b.pushAll is = some ⟨b.instrs ++ is, b.entryPc⟩ := by
  induction is generalizing b with
  | nil => rw [IrBlock.pushAll, List.append_nil]
  | cons i is ih =>
    rw [List.length_cons] at h
    have hpush : b.push i = some ⟨b.instrs ++ [i], b.entryPc⟩ := if_pos (by omega)
    rw [IrBlock.pushAll, hpush, Option.bind_some, ih]
    · rw [List.append_assoc]
      rfl
    · rw [List.length_append, List.length_singleton]
      omega

theorem pushAll_some {b b' : IrBlock} (h : b.pushAll is = some b') (hb : b.instrs.length ≤ maxOps) :
    b' = ⟨b.instrs ++ is, b.entryPc⟩ ∧ b.instrs.length + is.length ≤ maxOps := by
  induction is generalizing b with
  | nil =>
    cases h
    exact ⟨by rw [List.append_nil], hb⟩
  | cons i is ih =>
    rw [IrBlock.pushAll, Option.bind_eq_some_iff] at h
    obtain ⟨b₁, hpush, hrest⟩ := h
    unfold IrBlock.push at hpush
    split at hpush
    case isFalse => cases hpush
    case isTrue hroom =>
      cases hpush
      obtain ⟨rfl, hlen⟩ := ih hrest (by
        rw [List.length_append, List.length_singleton]
        exact hroom)
      rw [List.length_append, List.length_singleton] at hlen
      refine ⟨by rw [List.append_assoc]; rfl, ?_⟩
      rw [List.length_cons]
      omega

/-- **A block that is decoded** ends in a control transfer, or it is full. -/
theorem decodeLoop_cases {fuel : Nat} {b b' : IrBlock} {pc : Long}
    (h : decodeLoop mem fuel b pc = some b') (hb : b.instrs.length < maxOps) :
    ∃ ds stop, Straight mem pc ds stop ∧
      ((∃ d, decodeInstr mem stop = some d ∧ d.terminator = true ∧
          b.instrs.length + opCount ds + d.ops.length ≤ maxOps) ∨
        ds ≠ [] ∧ b.instrs.length + opCount ds = maxOps ∧
          b' = ⟨b.instrs ++ placed pc ds, b.entryPc⟩) := by
  induction fuel generalizing b pc with
  | zero => cases h
  | succ fuel ih =>
    rw [decodeLoop, Option.bind_eq_some_iff] at h
    obtain ⟨⟨b₁, len, terminator⟩, hone, hrest⟩ := h
    unfold decodeOne at hone
    obtain ⟨d, hd, hone⟩ := Option.bind_eq_some_iff.mp hone
    obtain ⟨b₂, hpush, heq⟩ := Option.map_eq_some_iff.mp hone
    cases heq
    obtain ⟨rfl, hroom⟩ := pushAll_some hpush (Nat.le_of_lt hb)
    rw [length_instrs] at hroom
    dsimp only at hrest
    cases hterm : d.terminator with
    | true => exact ⟨[], pc, .nil pc, .inl ⟨d, hd, hterm, by simpa using hroom⟩⟩
    | false =>
      have hlen : (b.instrs ++ d.instrs pc).length = b.instrs.length + d.ops.length := by
        rw [List.length_append, length_instrs]
      rw [hterm, hlen] at hrest
      split at hrest
      case isTrue hfull =>
        have hfull : maxOps ≤ b.instrs.length + d.ops.length := by simpa using hfull
        cases hrest
        refine ⟨[d], _, .cons hd hterm (.nil _), .inr ⟨List.cons_ne_nil _ _, ?_, ?_⟩⟩
        · rw [opCount_cons, opCount_nil]
          omega
        · rw [placed, placed, List.append_nil]
      case isFalse hfull =>
        obtain ⟨ds, stop, hstraight, hend⟩ := ih hrest (by
          rw [hlen]
          simpa using hfull)
        refine ⟨d :: ds, stop, .cons hd hterm hstraight, ?_⟩
        rw [hlen] at hend
        rcases hend with ⟨t, ht, htransfer, hfits⟩ | ⟨-, hcount, rfl⟩
        · refine .inl ⟨t, ht, htransfer, ?_⟩
          rw [opCount_cons]
          omega
        · refine .inr ⟨List.cons_ne_nil _ _, ?_, ?_⟩
          · rw [opCount_cons]
            omega
          · rw [placed, List.append_assoc]

/-- **Straight-line code that fits**, with the control transfer behind it, is a block. -/
theorem decodeLoop_of_straight {pc : Long} (h : Straight mem pc ds stop)
    (hd : decodeInstr mem stop = some d) (hterm : d.terminator = true) {fuel : Nat}
    (hfuel : ds.length < fuel) (b : IrBlock)
    (hfits : b.instrs.length + opCount ds + d.ops.length ≤ maxOps) :
    decodeLoop mem fuel b pc =
      some ⟨b.instrs ++ (placed pc ds ++ d.instrs stop), b.entryPc⟩ := by
  induction h generalizing fuel b with
  | nil pc =>
    obtain ⟨fuel, rfl⟩ := Nat.exists_eq_add_of_lt hfuel
    have hpush : b.pushAll (d.instrs pc) = some ⟨b.instrs ++ d.instrs pc, b.entryPc⟩ := by
      refine pushAll_eq _ b ?_
      rw [length_instrs]
      simpa using hfits
    rw [decodeLoop, decodeOne, hd, Option.bind_some, hpush]
    simp [hterm, placed]
  | @cons pc stop c ds hc goesOn rest ih =>
    obtain ⟨fuel, rfl⟩ := Nat.exists_eq_add_of_lt hfuel
    rw [opCount_cons] at hfits
    have hlast := List.length_pos_iff.mpr (decodeInstr_proper hd).ops_ne
    have hlen : (b.instrs ++ c.instrs pc).length = b.instrs.length + c.ops.length := by
      rw [List.length_append, length_instrs]
    have hpush : b.pushAll (c.instrs pc) = some ⟨b.instrs ++ c.instrs pc, b.entryPc⟩ := by
      refine pushAll_eq _ b ?_
      rw [length_instrs]
      omega
    have hroom : ¬(c.terminator = true ∨ maxOps ≤ (b.instrs ++ c.instrs pc).length) := by
      rw [goesOn, hlen]
      simp only [Bool.false_eq_true, false_or]
      omega
    rw [decodeLoop, decodeOne, hc, Option.bind_some, hpush, Option.map_some, Option.bind_some]
    dsimp only
    rw [if_neg hroom, ih hd (by rw [List.length_cons]; omega) _ (by dsimp only; omega), placed]
    simp only [List.append_assoc]

/-! ## One instruction at a time -/

/-- The instruction at an address, executed: the state, the count retired and where it goes on. -/
def stepInstr (code : VpMemory) (s : VpState) (pc : Long) : Option (VpState × Nat × Long) :=
  (decodeInstr code pc).map fun d =>
    let done := execOps s (d.instrs pc)
    (done.1, done.2.1, done.2.2.getD (pc + BitVec.ofNat 32 d.len))

/-- `n` instructions one at a time, each decoded in the code of the state before it. -/
def runInstrs (code : VpState → VpMemory) : Nat → VpState → Long → Option (VpState × Nat × Long)
  | 0, s, pc => some (s, 0, pc)
  | n + 1, s, pc =>
    (stepInstr (code s) s pc).bind fun first =>
      (runInstrs code n first.1 first.2.2).map fun rest =>
        (rest.1, first.2.1 + rest.2.1, rest.2.2)

variable {s : VpState} {pc : Long}

theorem stepInstr_eq (hd : decodeInstr mem pc = some d) (s : VpState) :
    stepInstr mem s pc = some ((execOps s (d.instrs pc)).1, (execOps s (d.instrs pc)).2.1,
      (execOps s (d.instrs pc)).2.2.getD (pc + BitVec.ofNat 32 d.len)) := by
  rw [stepInstr, hd, Option.map_some]

theorem runInstrs_succ (code : VpState → VpMemory) {s' : VpState} {retired : Nat} {pc' : Long}
    (h : stepInstr (code s) s pc = some (s', retired, pc')) (n : Nat) :
    runInstrs code (n + 1) s pc =
      (runInstrs code n s' pc').map fun r => (r.1, retired + r.2.1, r.2.2) := by
  rw [runInstrs, h, Option.bind_some]

/-- **Straight-line code** one instruction at a time, and in one go. -/
theorem runInstrs_straight (h : Straight mem pc ds stop) (s : VpState) (n : Nat) :
    (execOps s (placed pc ds)).2 = (ds.length, none) ∧
      runInstrs (fun _ => mem) (ds.length + n) s pc =
        (runInstrs (fun _ => mem) n (execOps s (placed pc ds)).1 stop).map fun r =>
          (r.1, ds.length + r.2.1, r.2.2) := by
  induction h generalizing s with
  | nil pc =>
    refine ⟨rfl, ?_⟩
    rw [List.length_nil, Nat.zero_add, placed, execOps_nil]
    simp
  | @cons pc stop d ds decoded goesOn rest ih =>
    have hcalm := decodeInstr_calm decoded goesOn
    have hone := execOps_instrs_of_calm hcalm (decodeInstr_proper decoded).ops_ne s pc
    obtain ⟨hall, hrun⟩ := ih (execOps s (d.instrs pc)).1
    have hstep : stepInstr mem s pc =
        some ((execOps s (d.instrs pc)).1, 1, pc + BitVec.ofNat 32 d.len) := by
      rw [stepInstr_eq decoded, hone]
      rfl
    rw [placed, execOps_append (fun _ hi => hcalm.instrs hi), hall, hone, List.length_cons]
    refine ⟨by rw [Nat.add_comm], ?_⟩
    have hcount : ds.length + 1 + n = ds.length + n + 1 := by omega
    rw [hcount, runInstrs_succ (fun _ => mem) hstep, hrun, Option.map_map]
    refine congrArg (Option.map · _) (funext fun r => ?_)
    simp only [Function.comp_apply]
    rw [← Nat.add_assoc, Nat.add_comm 1]

/-- The bytes of each of `n` instructions are, when it is reached, as they were. -/
def Untouched (mem : VpMemory) (s : VpState) (pc : Long) (n : Nat) : Prop :=
  ∀ k < n, ∀ s' retired pc', runInstrs (fun _ => mem) k s pc = some (s', retired, pc') →
    ∀ d, decodeInstr mem pc' = some d → SameBytes mem s'.mem pc' d.len

/-- Code that is left alone is the same in memory as it was at the start. -/
theorem runInstrs_of_untouched {r : VpState × Nat × Long} (h : Untouched mem s pc n)
    (hrun : runInstrs (fun _ => mem) n s pc = some r) : runInstrs VpState.mem n s pc = some r := by
  induction n generalizing s pc r with
  | zero => exact hrun
  | succ n ih =>
    obtain ⟨d, hd⟩ : ∃ d, decodeInstr mem pc = some d := by
      cases hd : decodeInstr mem pc with
      | none =>
        rw [runInstrs, stepInstr, hd] at hrun
        cases hrun
      | some d => exact ⟨d, rfl⟩
    have hsame := h 0 (Nat.succ_pos n) s 0 pc rfl d hd
    have hstep : stepInstr s.mem s pc = stepInstr mem s pc := by
      rw [stepInstr_eq (decodeInstr_congr hd hsame), stepInstr_eq hd]
    obtain ⟨⟨s', retired, pc'⟩, hnext⟩ : ∃ next, stepInstr mem s pc = some next :=
      ⟨_, stepInstr_eq hd s⟩
    rw [runInstrs_succ (fun _ => mem) hnext] at hrun
    obtain ⟨rest, hrest, rfl⟩ := Option.map_eq_some_iff.mp hrun
    have hlater : Untouched mem s' pc' n := by
      intro k hk t count at' hreach
      refine h (k + 1) (Nat.succ_lt_succ hk) t (retired + count) at' ?_
      rw [runInstrs_succ (fun _ => mem) hnext, hreach]
      rfl
    rw [runInstrs_succ VpState.mem (hstep.trans hnext), ih hlater hrest]
    rfl

/-! ## Blocks -/

theorem executeBlock_eq (s : VpState) (block : IrBlock) :
    executeBlock s block = ((execOps s block.instrs).1, (execOps s block.instrs).2.1,
      (execOps s block.instrs).2.2.getD block.entryPc) := rfl

/-- The decoder supports the straight-line code from an address on. -/
def Supported (mem : VpMemory) (entry : Long) : Prop :=
  ∀ ds stop, Straight mem entry ds stop → ∃ d, decodeInstr mem stop = some d

/-- The block at `entry` does what its instructions do one at a time, in the code as it stands at
the entry, or as each is reached unless the block writes over itself. -/
def InSequence (mem : VpMemory) (entry : Long) : Prop :=
  ∃ block, decodeBlock mem entry = some block ∧ ∀ cpu : VpCpu,
    runInstrs (fun _ => mem) (executeBlock ⟨cpu, mem⟩ block).2.1 ⟨cpu, mem⟩ entry =
      some (executeBlock ⟨cpu, mem⟩ block) ∧
    (Untouched mem ⟨cpu, mem⟩ entry (executeBlock ⟨cpu, mem⟩ block).2.1 →
      runInstrs VpState.mem (executeBlock ⟨cpu, mem⟩ block).2.1 ⟨cpu, mem⟩ entry =
        some (executeBlock ⟨cpu, mem⟩ block))

/-- A control transfer is reached, and the ops up to it and its own fit a block. -/
def ReachesTransfer (mem : VpMemory) (entry : Long) : Prop :=
  ∃ ds stop d, Straight mem entry ds stop ∧ decodeInstr mem stop = some d ∧
    d.terminator = true ∧ opCount ds + d.ops.length ≤ maxOps

theorem inSequence_of_reachesTransfer {entry : Long} (h : ReachesTransfer mem entry) :
    InSequence mem entry := by
  obtain ⟨ds, stop, d, hstraight, hd, hterm, hfits⟩ := h
  have hlast := List.length_pos_iff.mpr (decodeInstr_proper hd).ops_ne
  have hlen := hstraight.length_le
  have hblock : decodeBlock mem entry = some ⟨placed entry ds ++ d.instrs stop, entry⟩ :=
    decodeLoop_of_straight hstraight hd hterm (by omega) ⟨[], entry⟩ (by simpa using hfits)
  refine ⟨_, hblock, fun cpu => ?_⟩
  obtain ⟨hall, hrun⟩ := runInstrs_straight hstraight ⟨cpu, mem⟩ 1
  obtain ⟨next, hnext⟩ := execOps_instrs_of_transfer (decodeInstr_transfer hd hterm)
    (execOps ⟨cpu, mem⟩ (placed entry ds)).1 stop
  have hdone : executeBlock ⟨cpu, mem⟩ ⟨placed entry ds ++ d.instrs stop, entry⟩ =
      ((execOps (execOps ⟨cpu, mem⟩ (placed entry ds)).1 (d.instrs stop)).1, ds.length + 1,
        next) := by
    rw [executeBlock_eq, execOps_append hstraight.calm, hall, hnext]
    rfl
  have hseq : runInstrs (fun _ => mem) (ds.length + 1) ⟨cpu, mem⟩ entry =
      some ((execOps (execOps ⟨cpu, mem⟩ (placed entry ds)).1 (d.instrs stop)).1, ds.length + 1,
        next) := by
    rw [hrun, runInstrs, stepInstr_eq hd, hnext]
    rfl
  rw [hdone]
  exact ⟨hseq, fun huntouched => runInstrs_of_untouched huntouched hseq⟩

theorem reachesTransfer_of_inSequence {entry : Long} (h : InSequence mem entry) :
    ReachesTransfer mem entry := by
  obtain ⟨block, hblock, hsame⟩ := h
  obtain ⟨ds, stop, hstraight, ⟨d, hd, hterm, hfits⟩ | ⟨hne, hfull, hplaced⟩⟩ :=
    decodeLoop_cases hblock (Nat.succ_pos _)
  · exact ⟨ds, stop, d, hstraight, hd, hterm, by simpa using hfits⟩
  · -- a full block goes back to its entry, its instructions go on
    exfalso
    have hfull : opCount ds = maxOps := by simpa using hfull
    obtain rfl : block = ⟨placed entry ds, entry⟩ := by simpa using hplaced
    have cpu : VpCpu := ⟨fun _ => 0, 0, 0⟩
    obtain ⟨hall, hrun⟩ := runInstrs_straight hstraight ⟨cpu, mem⟩ 0
    have hdone : executeBlock ⟨cpu, mem⟩ ⟨placed entry ds, entry⟩ =
        ((execOps ⟨cpu, mem⟩ (placed entry ds)).1, ds.length, entry) := by
      rw [executeBlock_eq, hall]
      rfl
    have hseq := (hsame cpu).1
    rw [hdone] at hseq
    dsimp only at hseq
    rw [Nat.add_zero] at hrun
    rw [hrun, runInstrs, Option.map_some] at hseq
    have hback : stop = entry := by
      have := Option.some.inj hseq
      exact congrArg (fun r => r.2.2) this
    exact hstraight.stop_ne hne (Nat.le_of_eq hfull) hback

/-- **When a block is its instructions in sequence**: exactly when the straight-line code reaches a
control transfer before the block is full. -/
theorem in_sequence_iff (mem : VpMemory) (entry : Long) :
    InSequence mem entry ↔ ReachesTransfer mem entry :=
  ⟨reachesTransfer_of_inSequence, inSequence_of_reachesTransfer⟩

/-! ## Code without a control transfer -/

/-- Nothing but `nop`. -/
def nopMemory : VpMemory where
  bits := 1
  bits_le := by decide
  buf := fun i => [0x4E, 0x71].getD i 0

/-- Nothing but `movem.l d0-d2,-(a7)`, three ops each. -/
def saveMemory : VpMemory where
  bits := 2
  bits_le := by decide
  buf := fun i => [0x48, 0xE7, 0xE0, 0x00].getD i 0

/-- Where straight-line code gets to, when each instruction keeps a property of the address. -/
theorem Straight.stop_of {P : Long → Prop} {pc : Long} (h : Straight mem pc ds stop)
    (hstep : ∀ pc d, P pc → decodeInstr mem pc = some d → P (pc + BitVec.ofNat 32 d.len))
    (hpc : P pc) : P stop := by
  induction h with
  | nil => exact hpc
  | cons decoded _ _ ih => exact ih (hstep _ _ hpc decoded)

theorem decode_nopMemory {pc : Long} (h : pc.toNat % 2 = 0) :
    decodeInstr nopMemory pc = some (.plain .nop 2) := by
  have hword : nopMemory.readU16 pc = 0x4E71 := by
    have hnext : (pc + 1).toNat % 2 = 1 := by
      rw [BitVec.toNat_add]
      have hone : (1 : Long).toNat = 1 := rfl
      omega
    unfold VpMemory.readU16 VpMemory.readU8 VpMemory.idx nopMemory
    simp only [Nat.pow_one, h, hnext]
    rfl
  unfold decodeInstr
  rw [hword]
  rfl

theorem nopMemory_even (h : Straight nopMemory 0 ds stop) : stop.toNat % 2 = 0 := by
  refine h.stop_of (P := fun pc => pc.toNat % 2 = 0) (fun pc d hpc hd => ?_) rfl
  rw [decode_nopMemory hpc] at hd
  cases hd
  rw [BitVec.toNat_add]
  have htwo : (BitVec.ofNat 32 (Decoded.plain .nop 2).len).toNat = 2 := rfl
  omega

theorem decode_saveMemory {pc : Long} (h : pc.toNat % 4 = 0) :
    ∃ ops, decodeInstr saveMemory pc = some ⟨ops, 4, false⟩ := by
  have hword : saveMemory.readU16 pc = 0x48E7 := by
    have hnext : (pc + 1).toNat % 4 = 1 := by
      rw [BitVec.toNat_add]
      have hone : (1 : Long).toNat = 1 := rfl
      omega
    unfold VpMemory.readU16 VpMemory.readU8 VpMemory.idx saveMemory
    simp only [Nat.reducePow, h, hnext]
    rfl
  have hmovem : decodeInstr saveMemory pc = decodeMovem saveMemory pc 0x48E7 := by
    unfold decodeInstr
    rw [hword]
    rfl
  rw [hmovem, decodeMovem]
  exact ⟨_, if_neg (by decide)⟩

theorem saveMemory_aligned (h : Straight saveMemory 0 ds stop) : stop.toNat % 4 = 0 := by
  refine h.stop_of (P := fun pc => pc.toNat % 4 = 0) (fun pc d hpc hd => ?_) rfl
  obtain ⟨ops, hops⟩ := decode_saveMemory hpc
  rw [hops] at hd
  cases hd
  rw [BitVec.toNat_add]
  have hfour : (BitVec.ofNat 32 4).toNat = 4 := rfl
  dsimp only
  omega

/-- 64 times `nop` start over, and the 22nd `movem` of three registers does not fit. -/
theorem full_block_starts_over :
    Supported nopMemory 0 ∧ ¬InSequence nopMemory 0 ∧
      Supported saveMemory 0 ∧ decodeBlock saveMemory 0 = none := by
  refine ⟨fun ds stop h => ⟨_, decode_nopMemory (nopMemory_even h)⟩, fun h => ?_,
    fun ds stop h => ?_, by decide⟩
  · obtain ⟨ds, stop, d, hstraight, hd, hterm, -⟩ := reachesTransfer_of_inSequence h
    rw [decode_nopMemory (nopMemory_even hstraight)] at hd
    cases hd
    cases hterm
  · obtain ⟨ops, hops⟩ := decode_saveMemory (saveMemory_aligned h)
    exact ⟨_, hops⟩

end Vp

end M68kMachine
