import Mathlib.Algebra.Group.Nat.Defs
import M68kMachine.Core.Registers
import M68kMachine.Library.Buffer

/-!
# The IR of the VP core and its memory

The ops of `ir.rs`, one per m68k instruction except for `movem`, and the flat memory of `mem.rs`.
Registers are numbered through, `D0`–`D7` then `A0`–`A7`.
-/

namespace M68kMachine

namespace Vp

/-! ## Memory -/

/-- Guest memory over a buffer whose length is a power of two; addresses wrap. -/
structure VpMemory where
  bits : Nat
  bits_le : bits ≤ 31
  buf : Buffer Byte (2 ^ bits)

namespace VpMemory

def idx (m : VpMemory) (addr : Long) : Nat := addr.toNat % 2 ^ m.bits

theorem idx_lt (m : VpMemory) (addr : Long) : m.idx addr < 2 ^ m.bits :=
  Nat.mod_lt _ (Nat.two_pow_pos _)

def readU8 (m : VpMemory) (addr : Long) : Byte := m.buf ⟨m.idx addr, m.idx_lt addr⟩

def writeU8 (m : VpMemory) (addr : Long) (value : Byte) : VpMemory :=
  { m with buf := m.buf.set (m.idx addr) value }

def readU16 (m : VpMemory) (addr : Long) : Word := be16 (m.readU8 addr) (m.readU8 (addr + 1))

def writeU16 (m : VpMemory) (addr : Long) (value : Word) : VpMemory :=
  (m.writeU8 addr ((value >>> 8).setWidth 8)).writeU8 (addr + 1) (value.setWidth 8)

def readU32 (m : VpMemory) (addr : Long) : Long := m.readU16 addr ++ m.readU16 (addr + 2)

def writeU32 (m : VpMemory) (addr value : Long) : VpMemory :=
  (m.writeU16 addr ((value >>> 16).setWidth 16)).writeU16 (addr + 2) (value.setWidth 16)

end VpMemory

/-! ## Ops -/

abbrev Reg := Fin 16

def dreg (n : Nat) : Reg := ⟨n % 8, by omega⟩

def areg (n : Nat) : Reg := ⟨8 + n % 8, by omega⟩

inductive Size
  | b
  | w
  | l
  deriving DecidableEq

namespace Size

def bytes : Size → Long
  | b => 1
  | w => 2
  | l => 4

def mask : Size → Long
  | b => 0xFF
  | w => 0xFFFF
  | l => 0xFFFFFFFF

def signBit : Size → Long
  | b => 0x80
  | w => 0x8000
  | l => 0x80000000

end Size

abbrev fC : Byte := 0x01
abbrev fV : Byte := 0x02
abbrev fZ : Byte := 0x04
abbrev fN : Byte := 0x08
abbrev fX : Byte := 0x10
abbrev fAll : Byte := fC ||| fV ||| fZ ||| fN ||| fX
abbrev fNone : Byte := 0

inductive Ea
  | ind (r : Reg)
  | postInc (r : Reg)
  | preDec (r : Reg)
  | disp (r : Reg) (d : Word)
  deriving DecidableEq

inductive Source
  | ea (e : Ea)
  | reg (r : Reg)
  | imm (v : Long)
  deriving DecidableEq

inductive AluBin
  | add
  | sub
  | and
  | or
  | eor
  | cmp
  deriving DecidableEq

/-- The two operations of `addq` and `subq`, all that `AluImm` is decoded with. -/
inductive AddSub
  | add
  | sub
  deriving DecidableEq

inductive AluUn
  | not
  | neg
  | tst
  | extL
  deriving DecidableEq

inductive MulDiv
  | mulU
  | mulS
  | divU
  | divS
  deriving DecidableEq

inductive BfOp
  | extU
  | ins
  deriving DecidableEq

/-- The `flags` of an op are the condition codes it has to compute. -/
inductive Op
  | moveqImm (dst : Reg) (imm : Long)
  | regMove (dst src : Reg)
  | loadReg (dst : Reg) (src : Ea) (size : Size)
  | moveMem (src : Source) (dst : Ea) (size : Size)
  | lea (dst : Reg) (ea : Ea)
  | aluBinReg (op : AluBin) (dst src : Reg) (size : Size) (flags : Byte)
  | aluImm (op : AddSub) (dst : Reg) (imm : Long) (size : Size) (flags : Byte)
  | aluUnary (op : AluUn) (dst : Reg) (size : Size) (flags : Byte)
  | shift (left arith : Bool) (dst : Reg) (count : Nat) (size : Size) (flags : Byte)
  | mulDivOp (op : MulDiv) (dst src : Reg)
  | bitfield (op : BfOp) (base reg : Reg) (offset width : Nat)
  | bsr (target : Long)
  | bne (target fallthrough : Long)
  | rts
  | nop
  deriving DecidableEq

/-- An op, the address and length of its instruction, and whether it is the last of it. -/
structure IrInstr where
  op : Op
  pc : Long
  len : Nat
  retire : Bool
  deriving DecidableEq

abbrev maxOps : Nat := 64

/-- A basic block. -/
structure IrBlock where
  instrs : List IrInstr
  entryPc : Long
  deriving DecidableEq

/-- Append an op; `none` stands for the assertion that the block has room. -/
def IrBlock.push (b : IrBlock) (instr : IrInstr) : Option IrBlock :=
  if b.instrs.length < maxOps then some { b with instrs := b.instrs ++ [instr] } else none

end Vp

end M68kMachine
