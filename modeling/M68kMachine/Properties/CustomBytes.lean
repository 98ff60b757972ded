import M68kMachine.Properties.BoundaryRequests
import M68kMachine.Properties.DeviceWriteRuns
import Mathlib.Data.Fintype.Basic
import Mathlib.Tactic.FinCases

/-!
# Byte writes to the custom chips

A byte written to a word-wide register is merged into what reading its offset returns. Every
register here is write-only at that offset, so the merge takes `$FF` for the other half, whatever
the register holds.

* `CustomReg` — the latched and the set/clear registers, with their offsets and values
* `get_write` — what a word does to the register it is written to
* `Undisturbed` — when the half that is not addressed happens to come out as it was
* `byte_write_iff` — a byte write changes nothing of the other half exactly then
-/

namespace M68kMachine

open Chipset

/-- The registers a word write latches, and those it sets or clears bits of. -/
inductive CustomReg
  | intena
  | intreq
  | dmacon
  | adkcon
  | cop1lch
  | cop1lcl
  | cop2lch
  | cop2lcl
  | bplpth (plane : Fin 6)
  | bplptl (plane : Fin 6)
  | bplcon0
  | bplcon1
  | bplcon2
  | bpl1mod
  | bpl2mod
  | diwstrt
  | diwstop
  | ddfstrt
  | ddfstop
  | color (i : Fin 32)
  | spr0pth
  | spr0ptl
  | spr0pos
  | spr0ctl
  | spr0data
  | spr0datb
  | dskpth
  | dskptl
  | dsklen
  | serper
  | potgo
  deriving DecidableEq

namespace CustomReg

/-- The high and the low half of a pointer. -/
def hi (ptr : Long) : Word := (ptr >>> 16).setWidth 16

def lo (ptr : Long) : Word := ptr.setWidth 16

def offset : CustomReg → Nat
  | intena => Reg.intena
  | intreq => Reg.intreq
  | dmacon => Reg.dmacon
  | adkcon => Reg.adkcon
  | cop1lch => Reg.cop1lch
  | cop1lcl => Reg.cop1lcl
  | cop2lch => Reg.cop2lch
  | cop2lcl => Reg.cop2lcl
  | bplpth plane => Reg.bpl1pth + 4 * plane
  | bplptl plane => Reg.bpl1pth + 4 * plane + 2
  | bplcon0 => Reg.bplcon0
  | bplcon1 => Reg.bplcon1
  | bplcon2 => Reg.bplcon2
  | bpl1mod => Reg.bpl1mod
  | bpl2mod => Reg.bpl2mod
  | diwstrt => Reg.diwstrt
  | diwstop => Reg.diwstop
  | ddfstrt => Reg.ddfstrt
  | ddfstop => Reg.ddfstop
  | color i => Reg.color00 + 2 * i
  | spr0pth => Reg.spr0pth
  | spr0ptl => Reg.spr0ptl
  | spr0pos => Reg.spr0pos
  | spr0ctl => Reg.spr0ctl
  | spr0data => Reg.spr0data
  | spr0datb => Reg.spr0datb
  | dskpth => Reg.dskpth
  | dskptl => Reg.dskptl
  | dsklen => Reg.dsklen
  | serper => Reg.serper
  | potgo => Reg.potgo

/-- The word a register holds. -/
def get (c : Chipset) : CustomReg → Word
  | intena => c.intena
  | intreq => c.intreq
  | dmacon => c.dmacon
  | adkcon => c.adkcon
  | cop1lch => hi c.cop1lc
  | cop1lcl => lo c.cop1lc
  | cop2lch => hi c.cop2lc
  | cop2lcl => lo c.cop2lc
  | bplpth plane => hi c.bplpt[plane]
  | bplptl plane => lo c.bplpt[plane]
  | bplcon0 => c.bplcon0
  | bplcon1 => c.bplcon1
  | bplcon2 => c.bplcon2
  | bpl1mod => c.bpl1mod
  | bpl2mod => c.bpl2mod
  | diwstrt => c.diwstrt
  | diwstop => c.diwstop
  | ddfstrt => c.ddfstrt
  | ddfstop => c.ddfstop
  | color i => c.color[i]
  | spr0pth => hi c.spr0pt
  | spr0ptl => lo c.spr0pt
  | spr0pos => c.spr0pos
  | spr0ctl => c.spr0ctl
  | spr0data => c.spr0data
  | spr0datb => c.spr0datb
  | dskpth => hi c.dskpt
  | dskptl => lo c.dskpt
  | dsklen => c.dsklen
  | serper => c.serper
  | potgo => c.potgo

/-- How a word lands in the register. -/
inductive Kind
  | plain
  | colour
  | setclr
  deriving DecidableEq

def kind : CustomReg → Kind
  | intena | intreq | dmacon | adkcon => .setclr
  | color _ => .colour
  | _ => .plain

/-- The register after `value` is written over `old`. -/
def Kind.latch (old value : Word) : Kind → Word
  | .plain => value
  | .colour => value &&& 0x0FFF
  | .setclr => applySetclr old value

theorem hi_setPtrHi (ptr : Long) (value : Word) : hi (setPtrHi ptr value) = value := by
  have hbit : ∀ i, (setPtrHi ptr value).getLsbD (16 + i) = value.getLsbD i := by
    intro i
    have happend := @BitVec.getLsbD_append 16 16 (16 + i) value (ptr.setWidth 16)
    rw [if_neg (by omega), Nat.add_sub_cancel_left] at happend
    exact happend
  unfold hi
  refine BitVec.eq_of_getLsbD_eq fun i hi => ?_
  rw [BitVec.getLsbD_setWidth, BitVec.getLsbD_ushiftRight, hbit, decide_eq_true hi, Bool.true_and]

theorem lo_setPtrLo (ptr : Long) (value : Word) : lo (setPtrLo ptr value) = value := by
  have hbit : ∀ i, i < 16 → (setPtrLo ptr value).getLsbD i = value.getLsbD i := by
    intro i hi
    have happend := @BitVec.getLsbD_append 16 16 i ((ptr >>> 16).setWidth 16) value
    rw [if_pos hi] at happend
    exact happend
  unfold lo
  refine BitVec.eq_of_getLsbD_eq fun i hi => ?_
  rw [BitVec.getLsbD_setWidth, hbit i hi, decide_eq_true hi, Bool.true_and]

/-- A half of a bitplane pointer, by the plane of its offset. -/
theorem bplpt_writeBplpt (c : Chipset) (plane : Fin 6) (value : Word) :
    (c.writeBplpt (bplpth plane).offset value).bplpt[plane] = setPtrHi c.bplpt[plane] value ∧
      (c.writeBplpt (bplptl plane).offset value).bplpt[plane] = setPtrLo c.bplpt[plane] value := by
  -- The plane is recovered from the offset, and the remainder says which half.
  have hlist : ∀ i : Fin 6, c.bplpt.toList.getD i 0 = c.bplpt[i] := by
    intro i
    rw [List.getD_eq_getElem?_getD, List.getElem?_eq_getElem (by simp), Option.getD_some]
    exact Vector.getElem_toList _
  have hplane : ((bplpth plane).offset - Reg.bpl1pth) / 4 = plane.val ∧
      (bplpth plane).offset % 4 = 0 := by
    simp only [offset, Reg.bpl1pth]
    omega
  have hplane' : ((bplptl plane).offset - Reg.bpl1pth) / 4 = plane.val ∧
      (bplptl plane).offset % 4 ≠ 0 := by
    simp only [offset, Reg.bpl1pth]
    omega
  constructor
  · unfold writeBplpt
    dsimp only
    rw [hplane.1, if_pos hplane.2, hlist]
    exact Vector.getElem_setIfInBounds_self _
  · unfold writeBplpt
    dsimp only
    rw [hplane'.1, if_neg hplane'.2, hlist]
    exact Vector.getElem_setIfInBounds_self _

/-- The writes whose offset is computed. -/
theorem write_indexed (c : Chipset) (value : Word) :
    (∀ plane, c.write (bplpth plane).offset value = c.writeBplpt (bplpth plane).offset value) ∧
      (∀ plane, c.write (bplptl plane).offset value = c.writeBplpt (bplptl plane).offset value) ∧
      ∀ i, c.write (color i).offset value =
        { c with color := c.color.setIfInBounds i (value &&& 0x0FFF) } := by
  -- The arm of `write` is a range of offsets, so every offset is tried.
  refine ⟨fun plane => ?_, fun plane => ?_, fun i => ?_⟩
  · fin_cases plane <;> rfl
  · fin_cases plane <;> rfl
  · fin_cases i <;> rfl

/-- **A word lands in the register it is written to.** -/
theorem get_write (c : Chipset) (r : CustomReg) (value : Word) :
    r.get (c.write r.offset value) = r.kind.latch (r.get c) value := by
  obtain ⟨hhigh, hlow, hcolor⟩ := write_indexed c value
  cases r with
  | bplpth plane =>
    rw [hhigh]
    show hi (c.writeBplpt (bplpth plane).offset value).bplpt[plane] = value
    rw [(bplpt_writeBplpt c plane value).1, hi_setPtrHi]
  | bplptl plane =>
    rw [hlow]
    show lo (c.writeBplpt (bplptl plane).offset value).bplpt[plane] = value
    rw [(bplpt_writeBplpt c plane value).2, lo_setPtrLo]
  | color i =>
    rw [hcolor]
    exact Vector.getElem_setIfInBounds_self _
  | cop1lch => exact hi_setPtrHi _ _
  | cop1lcl => exact lo_setPtrLo _ _
  | cop2lch => exact hi_setPtrHi _ _
  | cop2lcl => exact lo_setPtrLo _ _
  | spr0pth => exact hi_setPtrHi _ _
  | spr0ptl => exact lo_setPtrLo _ _
  | dskpth => exact hi_setPtrHi _ _
  | dskptl => exact lo_setPtrLo _ _
  | _ => rfl

/-- None of the registers is readable at its own offset, and none is the blitter's. -/
theorem read_offset (c : Chipset) (r : CustomReg) :
    c.read r.offset = (0xFFFF, c) ∧ Blitter.Reg.isBlitter r.offset = false := by
  cases r with
  | bplpth plane => fin_cases plane <;> exact ⟨rfl, rfl⟩
  | bplptl plane => fin_cases plane <;> exact ⟨rfl, rfl⟩
  | color i => fin_cases i <;> exact ⟨rfl, rfl⟩
  | _ => exact ⟨rfl, rfl⟩

theorem offset_ne_dmaconr (r : CustomReg) : r.offset ≠ Reg.dmaconr := by
  cases r with
  | bplpth plane => fin_cases plane <;> decide
  | bplptl plane => fin_cases plane <;> decide
  | color i => fin_cases i <;> decide
  | _ => decide

/-! ## Merging a byte -/

/-- The word a byte write hands to a register that reads as all ones. -/
def mergedByte (address : Long) (value : Byte) : Word :=
  if address &&& 1 = 0 then 0x00FF ||| (value.setWidth 16 <<< 8) else 0xFF00 ||| value.setWidth 16

/-- The half of a register that a byte at `address` does not belong to. -/
def otherHalf (address : Long) (w : Word) : Word :=
  if address &&& 1 = 0 then w &&& 0x00FF else w &&& 0xFF00

/-- When the other half comes out as it was. A latched register holds ones there already. A
set/clear register is set all of it, or, at the even address, cleared all of it; in `INTREQ` what
`levels` pull is then set again. -/
def Undisturbed (r : CustomReg) (old levels : Word) (address : Long) (value : Byte) : Prop :=
  match r.kind, decide (address &&& 1 = 0) with
  | .plain, true | .colour, true => old &&& 0x00FF = 0x00FF
  | .plain, false => old &&& 0xFF00 = 0xFF00
  | .colour, false => old &&& 0xFF00 = 0x0F00
  | .setclr, true =>
    if value.getLsbD 7 then old &&& 0x00FF = 0x00FF
    else old &&& 0x00FF = if r = .intreq then levels &&& 0x00FF else 0
  | .setclr, false => old &&& 0x7F00 = 0x7F00

theorem merged_even : ∀ value : Byte,
    ((0x00FF ||| (value.setWidth 16 <<< 8) : Word) &&& 0x00FF = 0x00FF) ∧
      ((0x00FF ||| (value.setWidth 16 <<< 8) : Word) &&& 0x0FFF) &&& 0x00FF = 0x00FF ∧
      ((0x00FF ||| (value.setWidth 16 <<< 8) : Word) &&& 0x7FFF) &&& 0x00FF = 0x00FF ∧
      (0x00FF ||| (value.setWidth 16 <<< 8) : Word).getLsbD 15 = value.getLsbD 7 := by
  decide

theorem merged_odd : ∀ value : Byte,
    ((0xFF00 ||| value.setWidth 16 : Word) &&& 0xFF00 = 0xFF00) ∧
      ((0xFF00 ||| value.setWidth 16 : Word) &&& 0x0FFF) &&& 0xFF00 = 0x0F00 ∧
      ((0xFF00 ||| value.setWidth 16 : Word) &&& 0x7FFF) &&& 0xFF00 = 0x7F00 ∧
      (0xFF00 ||| value.setWidth 16 : Word).getLsbD 15 = true := by
  decide

/-- Bit 15 of the word decides between setting and clearing. -/
theorem applySetclr_eq (old value : Word) :
    applySetclr old value =
      if value.getLsbD 15 = true then old ||| (value &&& 0x7FFF)
      else old &&& ~~~(value &&& 0x7FFF) := by
  have hbit : value &&& (1 <<< Intbit.setclr) ≠ 0 ↔ value.getLsbD 15 = true := by
    show value &&& BitVec.twoPow 16 15 ≠ 0 ↔ _
    rw [BitVec.and_twoPow]
    cases value.getLsbD 15 <;> decide
  unfold applySetclr
  dsimp only
  simp only [hbit]

theorem or_zero (x : Word) : x ||| 0 = x := BitVec.or_zero

theorem and_or_self (x k : Word) : (x &&& k) ||| k = k := by
  refine BitVec.eq_of_getLsbD_eq fun i _ => ?_
  rw [BitVec.getLsbD_or, BitVec.getLsbD_and]
  cases x.getLsbD i <;> cases k.getLsbD i <;> rfl

theorem and_not_and {p k : Word} (h : p &&& k = k) (x : Word) : (x &&& ~~~p) &&& k = 0 := by
  refine BitVec.eq_of_getLsbD_eq fun i hi => ?_
  have hbit := congrArg (fun w : Word => w.getLsbD i) h
  rw [BitVec.getLsbD_and] at hbit
  rw [BitVec.getLsbD_and, BitVec.getLsbD_and, BitVec.getLsbD_not, decide_eq_true hi]
  show _ = (0#16).getLsbD i
  rw [BitVec.getLsbD_zero]
  -- A bit of `k` is one of `p`, and cleared whatever it was.
  revert hbit
  cases x.getLsbD i <;> cases p.getLsbD i <;> cases k.getLsbD i <;> decide

theorem or_eq_left_iff (x k : Word) : x ||| k = x ↔ x &&& k = k := by
  constructor
  · intro h
    rw [← h, BitVec.and_or_distrib_right, BitVec.and_self]
    exact and_or_self x k
  · intro h
    rw [← h]
    refine BitVec.eq_of_getLsbD_eq fun i _ => ?_
    rw [BitVec.getLsbD_or, BitVec.getLsbD_and]
    cases x.getLsbD i <;> cases k.getLsbD i <;> rfl

/-- **The other half of a merged write**, `extra` being what is set afterwards. -/
theorem otherHalf_merged (r : CustomReg) (old levels : Word) (address : Long) (value : Byte)
    (hlevels : levels &&& 0xFF00 = 0 ∨ levels &&& 0xFF00 = 0x2000) :
    otherHalf address (r.kind.latch old (mergedByte address value) |||
        if r = .intreq then levels else 0) = otherHalf address old ↔
      Undisturbed r old levels address value := by
  have hextra : r.kind ≠ .setclr → (if r = .intreq then levels else 0) = 0 := by
    rintro hne
    refine if_neg ?_
    rintro rfl
    exact hne rfl
  unfold otherHalf mergedByte Undisturbed
  by_cases heven : address &&& 1 = 0
  · obtain ⟨hplain, hcolour, hsetclr, h15⟩ := merged_even value
    -- An even address is the high byte: the ones it is merged with are the low one.
    simp only [heven, if_true, decide_true]
    generalize (0x00FF ||| (value.setWidth 16 <<< 8) : Word) = m at hplain hcolour hsetclr h15
    cases hkind : r.kind with
    | plain =>
      rw [hextra (by rw [hkind]; decide), or_zero]
      show m &&& 0x00FF = old &&& 0x00FF ↔ _
      rw [hplain]
      exact eq_comm
    | colour =>
      rw [hextra (by rw [hkind]; decide), or_zero]
      show (m &&& 0x0FFF) &&& 0x00FF = old &&& 0x00FF ↔ _
      rw [hcolour]
      exact eq_comm
    | setclr =>
      show (applySetclr old m ||| _) &&& 0x00FF = old &&& 0x00FF ↔ _
      rw [applySetclr_eq, h15]
      cases hset : value.getLsbD 7 with
      -- Set: the mask of ones sets the whole half.
      | true =>
        simp only [if_true]
        rw [BitVec.and_or_distrib_right, BitVec.and_or_distrib_right, hsetclr, and_or_self,
          BitVec.or_comm, and_or_self]
        exact eq_comm
      | false =>
        -- Cleared: the mask clears the whole half, and the lines come back.
        simp only [Bool.false_eq_true, if_false]
        rw [BitVec.and_or_distrib_right, and_not_and hsetclr, BitVec.or_comm, or_zero]
        split
        · exact eq_comm
        · show 0 = _ ↔ _
          exact eq_comm
  · obtain ⟨hplain, hcolour, hsetclr, h15⟩ := merged_odd value
    simp only [heven, if_false, decide_false]
    generalize (0xFF00 ||| value.setWidth 16 : Word) = m at hplain hcolour hsetclr h15
    cases hkind : r.kind with
    | plain =>
      rw [hextra (by rw [hkind]; decide), or_zero]
      show m &&& 0xFF00 = old &&& 0xFF00 ↔ _
      rw [hplain]
      exact eq_comm
    | colour =>
      rw [hextra (by rw [hkind]; decide), or_zero]
      show (m &&& 0x0FFF) &&& 0xFF00 = old &&& 0xFF00 ↔ _
      rw [hcolour]
      exact eq_comm
    | setclr =>
      show (applySetclr old m ||| _) &&& 0xFF00 = old &&& 0xFF00 ↔ _
      rw [applySetclr_eq, h15]
      simp only [if_true]
      -- At an odd address bit 15 of the merged word is one, so the register is set.
      have hlines :
          (0x7F00 : Word) ||| ((if r = .intreq then levels else 0) &&& 0xFF00) = 0x7F00 := by
        split
        · rcases hlevels with h | h <;> rw [h] <;> decide
        · decide
      rw [BitVec.and_or_distrib_right, BitVec.and_or_distrib_right, hsetclr, BitVec.or_assoc,
        hlines, or_eq_left_iff, BitVec.and_assoc]
      exact Iff.rfl

end CustomReg

namespace BusDevices

variable {δ ρ π : Type}

/-- The `INTREQ` bits the level-triggered sources pull. -/
def levelLines (d : BusDevices δ ρ π) : Word :=
  (if d.ciaA.irqPending || d.graphicsIrq then 0x0008 else 0) |||
    if d.ciaB.irqPending then 0x2000 else 0

theorem chipset_raisePorts (d : BusDevices δ ρ π) (irq : Bool) :
    (d.raisePorts irq).chipset =
      { d.chipset with intreq := d.chipset.intreq ||| if irq then 0x0008 else 0 } := by
  cases irq
  · have hsame : d.chipset.intreq ||| 0 = d.chipset.intreq := BitVec.or_zero
    simp only [raisePorts, Bool.false_eq_true, if_false, hsame]
  · rfl

theorem chipset_raiseExter (d : BusDevices δ ρ π) (irq : Bool) :
    (d.raiseExter irq).chipset =
      { d.chipset with intreq := d.chipset.intreq ||| if irq then 0x2000 else 0 } := by
  cases irq
  · have hsame : d.chipset.intreq ||| 0 = d.chipset.intreq := BitVec.or_zero
    simp only [raiseExter, Bool.false_eq_true, if_false, hsame]
  · rfl

theorem chipset_reassert (d : BusDevices δ ρ π) :
    d.reassertLevelIrqs.chipset =
      { d.chipset with intreq := d.chipset.intreq ||| d.levelLines } := by
  have hlines : ∀ (x : Word) (cia exter card : Bool),
      x ||| (if cia then 0x0008 else 0) ||| (if exter then 0x2000 else 0) |||
          (if card then 0x0008 else 0) =
        x ||| ((if cia || card then 0x0008 else 0) ||| if exter then 0x2000 else 0) := by
    intro x cia exter card
    rw [BitVec.or_assoc, BitVec.or_assoc]
    cases cia <;> cases exter <;> cases card <;> rfl
  unfold reassertLevelIrqs levelLines
  rw [chipset_raisePorts, chipset_raiseExter, chipset_raisePorts]
  dsimp only
  rw [hlines]

theorem levelLines_high (d : BusDevices δ ρ π) :
    d.levelLines &&& 0xFF00 = 0 ∨ d.levelLines &&& 0xFF00 = 0x2000 := by
  unfold levelLines
  cases d.ciaA.irqPending || d.graphicsIrq <;> cases d.ciaB.irqPending <;> decide

end BusDevices

namespace MachineBus

open BusDevices CustomReg

variable {δ ρ π : Type} [BlockDevice δ] [PacketBackend ρ] [PciBackend π] (b : MachineBus δ ρ π)
  {address : Long} {r : CustomReg}

/-- The register after something was set in `INTREQ`. -/
theorem get_intreq (c : Chipset) (r : CustomReg) (lines : Word) :
    r.get { c with intreq := c.intreq ||| lines } =
      r.get c ||| if r = .intreq then lines else 0 := by
  cases r with
  | intreq => rfl
  | _ => exact (BitVec.or_zero).symm

theorem flush_flush : b.flush.flush = b.flush := by
  have hpending := pendingClocks_flush b
  generalize b.flush = settled at hpending
  unfold flush
  rw [if_pos hpending]

/-- Reading such a register changes nothing but the clocks. -/
theorem readCustomWord_reg (h : customOffset address = r.offset) :
    b.readCustomWord address = (0xFFFF, b.flush) := by
  obtain ⟨hread, hblit⟩ := read_offset b.flush.devices.chipset r
  have hreg : readCustomReg b.flush.devices r.offset = (0xFFFF, b.flush.devices) := by
    unfold readCustomReg
    rw [hblit, hread]
    simp only [Bool.false_eq_true, if_false]
    rw [if_neg r.offset_ne_dmaconr]
  unfold readCustomWord mapDevices
  rw [h]
  dsimp only
  rw [hreg]

theorem devices_writeCustomWord (h : customOffset address = r.offset) (value : Word) :
    (b.writeCustomWord address value).devices =
      { b.flush.devices with
        chipset := b.flush.devices.chipset.write r.offset value }.reassertLevelIrqs := by
  obtain ⟨-, hblit⟩ := read_offset b.flush.devices.chipset r
  unfold writeCustomWord
  dsimp only
  rw [devices_requestBoundary]
  unfold mapDevices writeCustomReg
  dsimp only
  rw [h, hblit]
  rfl

/-- Where RAM does not take it, a byte in the custom range is a byte of a register. -/
theorem devices_writeByte_chips {value : Byte} (hin : inRange customBase customEnd address = true)
    (hmiss : fastStore b.devices address [value] = none) :
    (b.writeByte address value).devices = (b.writeCustomByte address value).devices := by
  have hrange := inRange_iff.mp hin
  have hbase : customBase = 0xDFF000 := rfl
  have hend : customEnd = 0xE00000 := rfl
  have hchip : ¬address.toNat < chipRamEnd := by
    simp only [chipRamEnd, chipRamBase, chipRamSize]
    omega
  have hconfig : ¬AutoConfig.respondsTo address = true := by
    rw [AutoConfig.respondsTo_iff]
    omega
  have hcia : ¬inRange ciaBase ciaEnd address = true := by
    rw [inRange_iff]
    simp only [ciaBase, ciaEnd]
    omega
  unfold writeByte
  rw [hmiss]
  dsimp only
  rw [if_neg hchip, devices_requestBoundary]
  unfold writeByteSlow
  rw [if_neg hconfig, if_neg hcia, if_pos hin]

/-- **A byte write to a register** is the write of the merged word. -/
theorem devices_writeByte_custom {value : Byte} (hin : inRange customBase customEnd address = true)
    (h : customOffset (evenAddress address) = r.offset)
    (hmiss : fastStore b.devices address [value] = none) :
    (b.writeByte address value).devices =
      { b.flush.devices with
        chipset := b.flush.devices.chipset.write r.offset
          (mergedByte address value) }.reassertLevelIrqs := by
  rw [devices_writeByte_chips b hin hmiss]
  unfold writeCustomByte
  dsimp only
  -- The byte is merged into `$FFFF`, and the second flush of the clocks has nothing left to do.
  rw [readCustomWord_reg b h, devices_writeCustomWord _ h, flush_flush]
  unfold mergedByte
  by_cases heven : address &&& 1 = 0
  · simp only [heven, if_true]
    rfl
  · simp only [heven, if_false]
    rfl

/-- **When a byte write leaves the other half of a register alone**: once the pending clocks are
applied, exactly when it is `Undisturbed`. -/
theorem byte_write_iff (b : MachineBus δ ρ π) (r : CustomReg) (address : Long) (value : Byte)
    (hin : inRange customBase customEnd address = true)
    (h : customOffset (evenAddress address) = r.offset) :
    ((fastStore b.devices address [value]).isSome = true →
      r.get (b.writeByte address value).devices.chipset = r.get b.devices.chipset) ∧
    (fastStore b.devices address [value] = none →
      (otherHalf address (r.get (b.writeByte address value).devices.chipset) =
          otherHalf address (r.get b.flush.devices.chipset) ↔
        Undisturbed r (r.get b.flush.devices.chipset) b.flush.devices.levelLines
          address value)) := by
  constructor
  · intro hsome
    obtain ⟨d, hstore⟩ := Option.isSome_iff_exists.mp hsome
    -- RAM that takes the byte leaves the chips alone.
    have hsame : d.chipset = b.devices.chipset := by
      unfold fastStore at hstore
      split at hstore
      · cases hstore
      · split at hstore <;> cases hstore
        rfl
    unfold writeByte
    rw [hstore]
    dsimp only
    rw [hsame]
  · intro hmiss
    rw [devices_writeByte_custom b hin h hmiss, chipset_reassert, get_intreq]
    dsimp only
    rw [get_write]
    exact otherHalf_merged r _ _ address value b.flush.devices.levelLines_high

/-- A machine whose background colour is `value`. -/
def colourMachine (value : Word) : MachineBus MemDisk Empty Empty :=
  Transition.run step (MachineBus.new (fun _ => 0) (ByteSlice.zero 0))
    [.guest (.access (.writeWord 0xDFF180 value))]

/-- A byte to the high half of `$01FF`. -/
theorem byte_write_iff_ones :
    otherHalf 0xDFF180 ((color 0).get
        ((colourMachine 0x01FF).writeByte 0xDFF180 0x04).devices.chipset) =
      otherHalf 0xDFF180 ((color 0).get (colourMachine 0x01FF).flush.devices.chipset) := by
  refine ((byte_write_iff (colourMachine 0x01FF) (color 0) 0xDFF180 0x04 (by decide)
    (by decide)).2 ?_).mpr ?_
  · have hmiss : (fastStore (colourMachine 0x01FF).devices 0xDFF180 [0x04]).isNone = true := by
      decide
    exact Option.isNone_iff_eq_none.mp hmiss
  · show (colourMachine 0x01FF).flush.devices.chipset.color[(0 : Fin 32)] &&& 0x00FF = 0x00FF
    decide

/-- A byte to the high half of `$0123` leaves `$04FF`. -/
theorem byte_write_disturbs :
    (color 0).get (colourMachine 0x0123).flush.devices.chipset = 0x0123 ∧
      (color 0).get ((colourMachine 0x0123).writeByte 0xDFF180 0x04).devices.chipset = 0x04FF ∧
      otherHalf 0xDFF180 ((color 0).get
          ((colourMachine 0x0123).writeByte 0xDFF180 0x04).devices.chipset) ≠
        otherHalf 0xDFF180 ((color 0).get (colourMachine 0x0123).flush.devices.chipset) := by
  decide

end MachineBus

end M68kMachine
