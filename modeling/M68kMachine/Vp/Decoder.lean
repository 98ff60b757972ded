import M68kMachine.Vp.Ir

/-!
# The decoder of the VP core

`decoder.rs`, one instruction at a time and block by block. `none` stands for a panic: an
unsupported encoding, or a block without room.

* `decodeInstr` — one opcode word and its extension words
* `decodeBlock` — up to the next control transfer, or until the block is full
-/

namespace M68kMachine

namespace Vp

/-- Bits `lo … lo + n - 1` of an opcode or extension word. -/
def field (word : Word) (lo n : Nat) : Nat := (word.extractLsb' lo n).toNat

/-- What an instruction decodes to, its length in bytes, and whether it ends the block. -/
structure Decoded where
  ops : List Op
  len : Nat
  terminator : Bool
  deriving DecidableEq

/-- An instruction of one op that does not end the block. -/
def Decoded.plain (op : Op) (len : Nat) : Decoded := ⟨[op], len, false⟩

/-! ## Operands -/

/-- A source operand, and the number of bytes its extension words take. -/
def decodeSrc (mem : VpMemory) (cursor : Long) (mode reg : Nat) (size : Size) :
    Option (Source × Nat) :=
  match mode with
  | 0 => some (.reg (dreg reg), 0)
  | 1 => some (.reg (areg reg), 0)
  | 2 => some (.ea (.ind (areg reg)), 0)
  | 3 => some (.ea (.postInc (areg reg)), 0)
  | 4 => some (.ea (.preDec (areg reg)), 0)
  | 5 => some (.ea (.disp (areg reg) (mem.readU16 cursor)), 2)
  | 7 =>
    if reg = 4 then
      if size = .l then some (.imm (mem.readU32 cursor), 4)
      else some (.imm ((mem.readU16 cursor).setWidth 32 &&& size.mask), 2)
    else none
  | _ => none

inductive DstKind
  | reg (r : Reg)
  | ea (e : Ea)

def decodeDst (mem : VpMemory) (cursor : Long) (mode reg : Nat) : Option (DstKind × Nat) :=
  match mode with
  | 0 => some (.reg (dreg reg), 0)
  | 1 => some (.reg (areg reg), 0)
  | 2 => some (.ea (.ind (areg reg)), 0)
  | 3 => some (.ea (.postInc (areg reg)), 0)
  | 4 => some (.ea (.preDec (areg reg)), 0)
  | 5 => some (.ea (.disp (areg reg) (mem.readU16 cursor)), 2)
  | _ => none

/-! ## The instruction groups -/

/-- The register behind bit `k` of a `movem` list, which is reversed when predecrementing. -/
def movemRegForBit (predec : Bool) (k : Fin 16) : Reg := if predec then 15 - k else k

/-- The registers of a `movem` list, in the order they are moved. -/
def movemRegs (mask : Word) (predec : Bool) : List Reg :=
  ((List.finRange 16).filter fun k => mask.getLsbD k.val).map (movemRegForBit predec)

/-- One op per register; an empty list is a `nop`. -/
def decodeMovem (mem : VpMemory) (pc : Long) (op1 : Word) : Option Decoded :=
  let store : Bool := field op1 10 1 = 0
  let mode := field op1 3 3
  let an := areg (field op1 0 3)
  if mode ≠ (if store then 4 else 3) then none
  else
    let regs := movemRegs (mem.readU16 (pc + 2)) store
    let ops := regs.map fun reg =>
      if store then Op.moveMem (.reg reg) (.preDec an) .l else .loadReg reg (.postInc an) .l
    some ⟨if regs = [] then [.nop] else ops, 4, false⟩

def decodeBitfield (mem : VpMemory) (pc : Long) (op1 : Word) : Option Decoded :=
  let ext := mem.readU16 (pc + 2)
  if field op1 3 3 ≠ 2 ∨ field ext 11 1 ≠ 0 ∨ field ext 5 1 ≠ 0 then none
  else
    let width := if field ext 0 5 = 0 then 32 else field ext 0 5
    let op (op : BfOp) : Op :=
      .bitfield op (areg (field op1 0 3)) (dreg (field ext 12 3)) (field ext 6 5) width
    match field op1 8 3 with
    | 1 => some (.plain (op .extU) 4)
    | 7 => some (.plain (op .ins) 4)
    | _ => none

/-- The target of a branch and the length of the instruction. -/
def decodeBranchTarget (mem : VpMemory) (pc : Long) (op1 : Word) : Long × Nat :=
  if field op1 0 8 = 0 then (pc + 2 + (mem.readU16 (pc + 2)).signExtend 32, 4)
  else (pc + 2 + (op1.setWidth 8 : Byte).signExtend 32, 2)

/-- `addq` and `subq`, to a data register only. -/
def decodeQuick (op1 : Word) : Option Decoded :=
  let quick (size : Size) : Option Decoded :=
    if field op1 3 3 ≠ 0 then none
    else
      let imm : Long := if field op1 9 3 = 0 then 8 else BitVec.ofNat 32 (field op1 9 3)
      let op := if field op1 8 1 = 1 then AddSub.sub else .add
      some (.plain (.aluImm op (dreg (field op1 0 3)) imm size fAll) 2)
  match field op1 6 2 with
  | 0 => quick .b
  | 1 => quick .w
  | 2 => quick .l
  | _ => none

def decodeMoveq (op1 : Word) : Option Decoded :=
  if field op1 8 1 ≠ 0 then none
  else some (.plain (.moveqImm (dreg (field op1 9 3)) ((op1.setWidth 8 : Byte).signExtend 32)) 2)

/-- The op of a `move` between two operands. -/
def moveOp (src : Source) (dst : DstKind) (size : Size) : Option Op :=
  match src, dst with
  | .reg s, .reg d => if size = .l then some (.regMove d s) else none
  | src, .ea e => some (.moveMem src e size)
  | .ea e, .reg d => if d.val < 8 then some (.loadReg d e size) else none
  | .imm _, .reg _ => none

def decodeMove (mem : VpMemory) (pc : Long) (op1 : Word) (size : Size) : Option Decoded :=
  match decodeSrc mem (pc + 2) (field op1 3 3) (field op1 0 3) size with
  | none => none
  | some (src, srcLen) =>
    match decodeDst mem (pc + 2 + BitVec.ofNat 32 srcLen) (field op1 6 3) (field op1 9 3) with
    | none => none
    | some (dst, dstLen) =>
      (moveOp src dst size).map fun op => .plain op (2 + srcLen + dstLen)

def decodeLea (mem : VpMemory) (pc : Long) (op1 : Word) : Option Decoded :=
  let an := areg (field op1 0 3)
  let dst := areg (field op1 9 3)
  match field op1 3 3 with
  | 2 => some (.plain (.lea dst (.ind an)) 2)
  | 5 => some (.plain (.lea dst (.disp an (mem.readU16 (pc + 2)))) 4)
  | _ => none

/-- The `$4xxx` group. `ext.l` lies inside the mask of `movem` and is tried first. -/
def decodeMisc (mem : VpMemory) (pc : Long) (op1 : Word) : Option Decoded :=
  let unary (op : AluUn) : Option Decoded :=
    some (.plain (.aluUnary op (dreg (field op1 0 3)) .l fAll) 2)
  if op1 &&& 0xFFF8 = 0x4A80 then unary .tst
  else if op1 &&& 0xFFF8 = 0x4680 then unary .not
  else if op1 &&& 0xFFF8 = 0x4480 then unary .neg
  else if op1 &&& 0xFFF8 = 0x48C0 then unary .extL
  else if op1 &&& 0xF1C0 = 0x41C0 then decodeLea mem pc op1
  else if op1 &&& 0xFB80 = 0x4880 then decodeMovem mem pc op1
  else none

/-- Two-operand ALU ops. The addressing mode of a multiplication or division is not looked at. -/
def decodeAlu (op1 : Word) : Option Decoded :=
  let dn := dreg (field op1 9 3)
  let ea := dreg (field op1 0 3)
  let alu (op : AluBin) (dst src : Reg) : Option Decoded :=
    if field op1 3 3 ≠ 0 then none else some (.plain (.aluBinReg op dst src .l fAll) 2)
  match field op1 12 4, field op1 6 3 with
  | 0xD, 2 => alu .add dn ea
  | 0x9, 2 => alu .sub dn ea
  | 0x8, 2 => alu .or dn ea
  | 0x8, 3 => some (.plain (.mulDivOp .divU dn ea) 2)
  | 0x8, 7 => some (.plain (.mulDivOp .divS dn ea) 2)
  | 0xC, 2 => alu .and dn ea
  | 0xC, 3 => some (.plain (.mulDivOp .mulU dn ea) 2)
  | 0xC, 7 => some (.plain (.mulDivOp .mulS dn ea) 2)
  | 0xB, 2 => alu .cmp dn ea
  | 0xB, 6 => alu .eor ea dn
  | _, _ => none

def decodeShift (op1 : Word) : Option Decoded :=
  if field op1 6 2 ≠ 2 ∨ field op1 5 1 ≠ 0 ∨ 1 < field op1 3 2 then none
  else
    let count := if field op1 9 3 = 0 then 8 else field op1 9 3
    some (.plain (.shift (field op1 8 1 = 1) (field op1 3 2 = 0) (dreg (field op1 0 3)) count .l
      fAll) 2)

/-! ## Instructions and blocks -/

/-- `decode_one` without the block it pushes to. -/
def decodeInstr (mem : VpMemory) (pc : Long) : Option Decoded :=
  let op1 := mem.readU16 pc
  if op1 = 0x4E75 then some ⟨[.rts], 2, true⟩
  else if op1 = 0x4E71 then some (.plain .nop 2)
  else if field op1 8 8 = 0x66 then
    let (target, len) := decodeBranchTarget mem pc op1
    some ⟨[.bne target (pc + BitVec.ofNat 32 len)], len, true⟩
  else if field op1 8 8 = 0x61 then
    let (target, len) := decodeBranchTarget mem pc op1
    some ⟨[.bsr target], len, true⟩
  else
    match field op1 12 4 with
    | 0x5 => decodeQuick op1
    | 0x7 => decodeMoveq op1
    | 0x1 => decodeMove mem pc op1 .b
    | 0x3 => decodeMove mem pc op1 .w
    | 0x2 => decodeMove mem pc op1 .l
    | 0x4 => decodeMisc mem pc op1
    | 0x8 | 0x9 | 0xB | 0xC | 0xD => decodeAlu op1
    | 0xE =>
      if op1 &&& 0xF8C0 = 0xE8C0 then decodeBitfield mem pc op1 else decodeShift op1
    | _ => none

/-- The ops of an instruction with their place; only the last one retires. -/
def Decoded.instrs (d : Decoded) (pc : Long) : List IrInstr :=
  d.ops.mapIdx fun i op => ⟨op, pc, d.len, i + 1 = d.ops.length⟩

def IrBlock.pushAll (b : IrBlock) : List IrInstr → Option IrBlock
  | [] => some b
  | i :: is => (b.push i).bind fun b => b.pushAll is

/-- Decode one instruction into a block. -/
def decodeOne (block : IrBlock) (mem : VpMemory) (pc : Long) : Option (IrBlock × Nat × Bool) :=
  (decodeInstr mem pc).bind fun d =>
    (block.pushAll (d.instrs pc)).map fun block => (block, d.len, d.terminator)

/-- The loop of `decode_block`. Every instruction takes room, so `maxOps` rounds are enough. -/
def decodeLoop (mem : VpMemory) : Nat → IrBlock → Long → Option IrBlock
  | 0, _, _ => none
  | fuel + 1, block, pc =>
    (decodeOne block mem pc).bind fun (block, len, terminator) =>
      if terminator ∨ maxOps ≤ block.instrs.length then some block
      else decodeLoop mem fuel block (pc + BitVec.ofNat 32 len)

def decodeBlock (mem : VpMemory) (entryPc : Long) : Option IrBlock :=
  decodeLoop mem maxOps ⟨[], entryPc⟩ entryPc

end Vp

end M68kMachine
