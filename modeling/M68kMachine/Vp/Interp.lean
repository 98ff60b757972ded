import Mathlib
import M68kMachine.Vp.Decoder
import M68kMachine.Library.Loop

/-!
# The passes and the interpreter of the VP core

`passes.rs` and `interp.rs`: flag liveness and peepholes over a decoded block, the execution of a
block, the block cache and the run loop.

* `runPasses` — what a block goes through before it is cached
* `executeBlock` — the ops of a block up to its control transfer
* `VpCore.round` — one round of the loop of `VpCore::run`
-/

namespace M68kMachine

namespace Vp

/-! ## Passes -/

/-- The backward scan: the narrowed ops, and the flags needed before them. -/
def flagLiveness : List IrInstr → List IrInstr × Byte
  | [] => ([], fNone)
  | i :: is =>
    let (is, needed) := flagLiveness is
    match i.op with
    | .bne _ _ => (i :: is, fZ)
    | .aluBinReg op dst src size flags =>
      ({ i with op := .aluBinReg op dst src size (flags &&& needed) } :: is, fNone)
    | .aluImm op dst imm size flags =>
      ({ i with op := .aluImm op dst imm size (flags &&& needed) } :: is, fNone)
    | .aluUnary op dst size flags =>
      ({ i with op := .aluUnary op dst size (flags &&& needed) } :: is, fNone)
    | .shift left arith dst count size flags =>
      ({ i with op := .shift left arith dst count size (flags &&& needed) } :: is, fNone)
    | _ => (i :: is, needed)

/-- A `lea (An),An` does nothing. -/
def peephole (i : IrInstr) : IrInstr :=
  match i.op with
  | .lea dst (.ind base) => if base = dst then { i with op := .nop } else i
  | _ => i

def runPasses (block : IrBlock) : IrBlock :=
  { block with instrs := (flagLiveness block.instrs).1.map peephole }

/-! ## The processor -/

structure VpCpu where
  regs : Buffer Long 16
  pc : Long
  flags : Byte

namespace VpCpu

def reg (cpu : VpCpu) (r : Reg) : Long := cpu.regs r

def setReg (cpu : VpCpu) (r : Reg) (value : Long) : VpCpu :=
  { cpu with regs := cpu.regs.set r value }

/-- A data register keeps the bits above the size; an address register takes them all. -/
def setRegSized (cpu : VpCpu) (r : Reg) (value : Long) (size : Size) : VpCpu :=
  cpu.setReg r (if r.val < 8 then (cpu.reg r &&& ~~~size.mask) ||| (value &&& size.mask)
    else value)

def applyFlags (cpu : VpCpu) (computed wanted : Byte) : VpCpu :=
  { cpu with flags := (cpu.flags &&& ~~~wanted) ||| (computed &&& wanted) }

end VpCpu

/-- The stack pointer. -/
def sp : Reg := areg 7

def resolveEa (cpu : VpCpu) (ea : Ea) (size : Size) : Long × VpCpu :=
  match ea with
  | .ind r => (cpu.reg r, cpu)
  | .postInc r => (cpu.reg r, cpu.setReg r (cpu.reg r + size.bytes))
  | .preDec r => (cpu.reg r - size.bytes, cpu.setReg r (cpu.reg r - size.bytes))
  | .disp r d => (cpu.reg r + d.signExtend 32, cpu)

def readSized (mem : VpMemory) (addr : Long) : Size → Long
  | .b => (mem.readU8 addr).setWidth 32
  | .w => (mem.readU16 addr).setWidth 32
  | .l => mem.readU32 addr

def writeSized (mem : VpMemory) (addr value : Long) : Size → VpMemory
  | .b => mem.writeU8 addr (value.setWidth 8)
  | .w => mem.writeU16 addr (value.setWidth 16)
  | .l => mem.writeU32 addr value

/-! ## Arithmetic -/

/-- The bits of `flags` when `c`. -/
def flagsIf (c : Bool) (flags : Byte) : Byte := if c then flags else 0

def addFlags (a b : Long) (size : Size) : Long × Byte :=
  let av := a &&& size.mask
  let bv := b &&& size.mask
  let sum := av.toNat + bv.toNat
  let result := BitVec.ofNat 32 sum &&& size.mask
  let aS : Bool := av &&& size.signBit ≠ 0
  let bS : Bool := bv &&& size.signBit ≠ 0
  let rS : Bool := result &&& size.signBit ≠ 0
  (result, flagsIf rS fN ||| flagsIf (result = 0) fZ ||| flagsIf (aS = bS ∧ rS ≠ aS) fV |||
    flagsIf (size.mask.toNat < sum) (fC ||| fX))

def subFlags (a b : Long) (size : Size) : Long × Byte :=
  let av := a &&& size.mask
  let bv := b &&& size.mask
  let result := (av - bv) &&& size.mask
  let aS : Bool := av &&& size.signBit ≠ 0
  let bS : Bool := bv &&& size.signBit ≠ 0
  let rS : Bool := result &&& size.signBit ≠ 0
  (result, flagsIf rS fN ||| flagsIf (result = 0) fZ ||| flagsIf (aS ≠ bS ∧ rS ≠ aS) fV |||
    flagsIf (av.toNat < bv.toNat) (fC ||| fX))

def logicFlags (result : Long) (size : Size) : Byte :=
  flagsIf (result &&& size.signBit ≠ 0) fN ||| flagsIf (result &&& size.mask = 0) fZ

def aluBin (op : AluBin) (a b : Long) (size : Size) : Long × Byte :=
  match op with
  | .add => addFlags a b size
  | .sub | .cmp => subFlags a b size
  | .and => (a &&& b, logicFlags (a &&& b) size)
  | .or => (a ||| b, logicFlags (a ||| b) size)
  | .eor => (a ^^^ b, logicFlags (a ^^^ b) size)

def addSub (op : AddSub) (a b : Long) (size : Size) : Long × Byte :=
  match op with
  | .add => addFlags a b size
  | .sub => subFlags a b size

/-- A bit shifted out of the sign position differed from the final sign. -/
def aslOverflow (a result : Long) (n : Nat) (size : Size) : Bool :=
  let finalSign : Bool := result &&& size.signBit ≠ 0
  (List.range (min n (size.bytes.toNat * 8))).any fun k =>
    decide (((a <<< k) &&& size.mask) &&& size.signBit ≠ 0) ≠ finalSign

def shiftLeft (arith : Bool) (a : Long) (n : Nat) (size : Size) : Long × Byte :=
  let bits := size.bytes.toNat * 8
  let result := if bits ≤ n then 0 else (a <<< n) &&& size.mask
  let lastOut : Bool := n ≠ 0 ∧ n ≤ bits ∧ (a >>> (bits - n)) &&& 1 ≠ 0
  (result, logicFlags result size ||| flagsIf lastOut (fC ||| fX) |||
    flagsIf (arith && aslOverflow a result n size) fV)

def shiftRight (arith : Bool) (a : Long) (n : Nat) (size : Size) : Long × Byte :=
  let bits := size.bytes.toNat * 8
  let result :=
    if bits ≤ n then 0
    else if arith then a.sshiftRight (min n 31) &&& size.mask
    else a >>> min n 31
  let lastOut : Bool := n ≠ 0 ∧ n ≤ bits ∧ (a >>> (n - 1)) &&& 1 ≠ 0
  (result, logicFlags result size ||| flagsIf lastOut (fC ||| fX))

def shiftOp (left arith : Bool) (a : Long) (n : Nat) (size : Size) : Long × Byte :=
  if left then shiftLeft arith (a &&& size.mask) n size
  else shiftRight arith (a &&& size.mask) n size

/-- Division by zero, or with a quotient that does not fit, leaves the destination alone. -/
def mulDiv (op : MulDiv) (a b : Long) : Long :=
  let divS := (b.setWidth 16 : Word).toInt
  match op with
  | .mulU => (a &&& 0xFFFF) * (b &&& 0xFFFF)
  | .mulS => (a.setWidth 16 : Word).signExtend 32 * (b.setWidth 16 : Word).signExtend 32
  | .divU =>
    let divisor := b &&& 0xFFFF
    if divisor = 0 ∨ 0xFFFF < (a / divisor).toNat then a
    else ((a % divisor) <<< 16) ||| ((a / divisor) &&& 0xFFFF)
  | .divS =>
    if divS = 0 ∨ a.toInt.tdiv divS < -32768 ∨ 32767 < a.toInt.tdiv divS then a
    else BitVec.ofInt 16 (a.toInt.tmod divS) ++ BitVec.ofInt 16 (a.toInt.tdiv divS)

/-! ## Bit fields -/

/-- The bytes that hold the `width` bits at bit `offset`, as one number. -/
def bfLoad (mem : VpMemory) (start : Long) (nbytes : Nat) : BitVec 64 :=
  (List.range nbytes).foldl
    (fun value i => (value <<< 8) ||| (mem.readU8 (start + BitVec.ofNat 32 i)).setWidth 64) 0

def bfStore (mem : VpMemory) (start : Long) (value : BitVec 64) (nbytes : Nat) : VpMemory :=
  ((List.range nbytes).reverse.foldl
    (fun (mem, value) i =>
      (mem.writeU8 (start + BitVec.ofNat 32 i) ((value &&& 0xFF).setWidth 8), value >>> 8))
    (mem, value)).1

def bfMask (width : Nat) : BitVec 64 := if width = 32 then 0xFFFFFFFF else (1 <<< width) - 1

def bfStart (baseAddr : Long) (offset : Nat) : Long := baseAddr + BitVec.ofNat 32 (offset / 8)

def bfBytes (offset width : Nat) : Nat := (offset % 8 + width + 7) / 8

def bfShift (offset width : Nat) : Nat := bfBytes offset width * 8 - offset % 8 - width

def bfRead (mem : VpMemory) (baseAddr : Long) (offset width : Nat) : Long :=
  let value := bfLoad mem (bfStart baseAddr offset) (bfBytes offset width)
  ((value >>> bfShift offset width) &&& bfMask width).setWidth 32

def bfWrite (mem : VpMemory) (baseAddr : Long) (offset width : Nat) (value : Long) : VpMemory :=
  let buf := bfLoad mem (bfStart baseAddr offset) (bfBytes offset width)
  let mask := bfMask width <<< bfShift offset width
  bfStore mem (bfStart baseAddr offset)
    ((buf &&& ~~~mask) ||| ((value.setWidth 64 <<< bfShift offset width) &&& mask))
    (bfBytes offset width)

/-! ## Blocks -/

/-- What the ops of a block work on. -/
structure VpState where
  cpu : VpCpu
  mem : VpMemory

namespace VpState

def setReg (s : VpState) (r : Reg) (value : Long) : VpState :=
  { s with cpu := s.cpu.setReg r value }

/-- Store the result of an ALU op and merge the flags it computed. -/
def alu (s : VpState) (dst : Reg) (size : Size) (res : Long × Byte) (flags : Byte) : VpState :=
  { s with cpu := (s.cpu.setRegSized dst res.1 size).applyFlags res.2 flags }

/-- Resolve an operand address and read there. -/
def load (s : VpState) (ea : Ea) (size : Size) : Long × VpState :=
  let (addr, cpu) := resolveEa s.cpu ea size
  (readSized s.mem addr size, { s with cpu })

def store (s : VpState) (ea : Ea) (size : Size) (value : Long) : VpState :=
  let (addr, cpu) := resolveEa s.cpu ea size
  ⟨cpu, writeSized s.mem addr value size⟩

/-- The value of a source operand, its side effect applied. -/
def source (s : VpState) (src : Source) (size : Size) : Long × VpState :=
  match src with
  | .ea ea => s.load ea size
  | .reg r => (s.cpu.reg r, s)
  | .imm v => (v, s)

end VpState

def execUnary (s : VpState) (op : AluUn) (dst : Reg) (size : Size) (flags : Byte) : VpState :=
  let a := s.cpu.reg dst
  match op with
  | .not => s.alu dst size (~~~a &&& size.mask, logicFlags (~~~a &&& size.mask) size) flags
  | .neg => s.alu dst size (subFlags 0 a size) flags
  | .tst => { s with cpu := s.cpu.applyFlags (logicFlags a size) flags }
  | .extL =>
    let r := (a.setWidth 16 : Word).signExtend 32
    { s with cpu := (s.cpu.setReg dst r).applyFlags (logicFlags r .l) flags }

/-- One op; the address is where a control transfer goes. -/
def execOp (s : VpState) (i : IrInstr) : VpState × Option Long :=
  match i.op with
  | .nop => (s, none)
  | .moveqImm dst imm =>
    let wanted := fN ||| fZ ||| fV ||| fC
    ({ s with cpu := (s.cpu.setReg dst imm).applyFlags (logicFlags imm .l) wanted }, none)
  | .regMove dst src => (s.setReg dst (s.cpu.reg src), none)
  | .loadReg dst src size =>
    let (v, s) := s.load src size
    ({ s with cpu := s.cpu.setRegSized dst v size }, none)
  | .moveMem src dst size =>
    let (v, s) := s.source src size
    (s.store dst size v, none)
  | .lea dst ea =>
    let addr := match ea with
      | .ind r | .postInc r | .preDec r => s.cpu.reg r
      | .disp r d => s.cpu.reg r + d.signExtend 32
    (s.setReg dst addr, none)
  | .aluBinReg op dst src size flags =>
    let res := aluBin op (s.cpu.reg dst) (s.cpu.reg src) size
    (if op = .cmp then { s with cpu := s.cpu.applyFlags res.2 flags }
      else s.alu dst size res flags, none)
  | .aluImm op dst imm size flags =>
    (s.alu dst size (addSub op (s.cpu.reg dst) imm size) flags, none)
  | .aluUnary op dst size flags => (execUnary s op dst size flags, none)
  | .shift left arith dst count size flags =>
    (s.alu dst size (shiftOp left arith (s.cpu.reg dst) count size) flags, none)
  | .mulDivOp op dst src => (s.setReg dst (mulDiv op (s.cpu.reg dst) (s.cpu.reg src)), none)
  | .bitfield op base reg offset width =>
    let baseAddr := s.cpu.reg base
    match op with
    | .extU => (s.setReg reg (bfRead s.mem baseAddr offset width), none)
    | .ins =>
      let v := s.cpu.reg reg &&& (bfMask width).setWidth 32
      ({ s with mem := bfWrite s.mem baseAddr offset width v }, none)
  | .bsr target =>
    let top := s.cpu.reg sp - 4
    (⟨s.cpu.setReg sp top, s.mem.writeU32 top (i.pc + BitVec.ofNat 32 i.len)⟩, some target)
  | .bne target fallthrough =>
    (s, some (if s.cpu.flags &&& fZ = 0 then target else fallthrough))
  | .rts =>
    let top := s.cpu.reg sp
    (s.setReg sp (top + 4), some (s.mem.readU32 top))

/-- The ops of a block in order, up to a control transfer, and the instructions retired. -/
def execOps (s : VpState) : List IrInstr → VpState × Nat × Option Long
  | [] => (s, 0, none)
  | i :: is =>
    let retired := if i.retire then 1 else 0
    match execOp s i with
    | (s, some next) => (s, retired, some next)
    | (s, none) =>
      let (s, n, next) := execOps s is
      (s, retired + n, next)

/-- A block without a control transfer goes back to its own entry. -/
def executeBlock (s : VpState) (block : IrBlock) : VpState × Nat × Long :=
  let (s, retired, next) := execOps s block.instrs
  (s, retired, next.getD block.entryPc)

/-! ## The block cache -/

abbrev cacheSlots : Nat := 32

/-- Each slot holds the address a block starts at and the block, if it is valid. -/
abbrev BlockCache := Buffer (Option (Long × IrBlock)) cacheSlots

namespace BlockCache

def slotIndex (pc : Long) : Fin cacheSlots :=
  ⟨(pc >>> 1).toNat % cacheSlots, Nat.mod_lt _ (by decide)⟩

/-- The block at `pc` and the cache with it; `none` when decoding panics. -/
def getOrDecode (cache : BlockCache) (mem : VpMemory) (pc : Long) :
    Option (IrBlock × BlockCache) :=
  let decode := (decodeBlock mem pc).map fun block =>
    (runPasses block, cache.set (slotIndex pc) (some (pc, runPasses block)))
  match cache (slotIndex pc) with
  | some (tag, block) => if tag = pc then some (block, cache) else decode
  | none => decode

end BlockCache

/-! ## The run loop -/

inductive VpExit
  | watchedPc (pc : Long)
  | budgetExhausted
  deriving DecidableEq

/-- The state between two blocks; `exit` is set when the loop is left without a panic. -/
structure VpRun where
  state : VpState
  executed : Long
  exit : Option VpExit

namespace VpRun

/-- The two checks at the top of the loop. -/
def stop (r : VpRun) (budget : Long) (watch : List Long) : Option VpExit :=
  if watch.contains r.state.cpu.pc then some (.watchedPc r.state.cpu.pc)
  else if budget ≤ r.executed then some .budgetExhausted
  else none

/-- Execute a block and go to the next one. -/
def execute (r : VpRun) (block : IrBlock) : VpRun :=
  let (s, retired, next) := executeBlock r.state block
  ⟨{ s with cpu := { s.cpu with pc := next } }, r.executed + BitVec.ofNat 32 retired, none⟩

def start (state : VpState) : VpRun := ⟨state, 0, none⟩

/-- One round of the loop that decodes every block afresh and applies no pass. -/
def plainRound (budget : Long) (watch : List Long) (r : VpRun) : Loop.Outcome VpRun :=
  match r.stop budget watch with
  | some exit => .done { r with exit := some exit }
  | none =>
    match decodeBlock r.state.mem r.state.cpu.pc with
    | none => .done r
    | some block => .again (r.execute block)

end VpRun

/-- A core in the middle of a run. -/
structure VpCore where
  run : VpRun
  cache : BlockCache

namespace VpCore

/-- One round of the loop of `VpCore::run`. -/
def round (budget : Long) (watch : List Long) (c : VpCore) : Loop.Outcome VpCore :=
  match c.run.stop budget watch with
  | some exit => .done { c with run := { c.run with exit := some exit } }
  | none =>
    match c.cache.getOrDecode c.run.state.mem c.run.state.cpu.pc with
    | none => .done c
    | some (block, cache) => .again ⟨c.run.execute block, cache⟩

end VpCore

end Vp

end M68kMachine
