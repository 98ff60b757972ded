import M68kMachine.Properties.AccessWidths
import M68kMachine.Properties.CustomBytes

/-!
# What `DMACONR` says about the blitter

`DMACONR` is the set/clear latch of `DMACON` with the blitter's bits laid over it. A blit is over
when its register write returns, so bit 14 is the latch's own, and bit 13 the latch's or the
blitter's zero flag.

* `dmaconWords` — the words an access hands to `DMACON`
* `dmacon_access` — the latch after an access is the latch with those words applied
* `dmaconr_honest` — along every run that sets neither bit of the latch, `DMACONR` is right
-/

namespace M68kMachine

open Chipset

variable {δ ρ π : Type}

/-! ## The latch -/

namespace Chipset

theorem dmacon_tick (c : Chipset) (cpuClocks ccpc : Nat) :
    (c.tick cpuClocks ccpc).2.dmacon = c.dmacon := by
  unfold tick
  dsimp only
  split <;> rfl

theorem dmacon_read (c : Chipset) (offset : Nat) : (c.read offset).2.dmacon = c.dmacon := by
  unfold read
  split <;> (try rfl)
  unfold readSerdatr
  dsimp only
  split <;> rfl

/-- `DMACON` is written at one offset only. -/
theorem dmacon_write (c : Chipset) (offset : Nat) (value : Word) :
    (c.write offset value).dmacon =
      if offset = Reg.dmacon then applySetclr c.dmacon value else c.dmacon := by
  by_cases h : offset = Reg.dmacon
  · subst h
    rfl
  · rw [if_neg h]
    unfold write
    split <;> (try rfl)
    · exact absurd rfl h
    · split_ifs <;> rfl

/-- Setting and clearing leaves a clear bit clear unless the word sets it. -/
theorem getLsbD_applySetclr {current value : Word} {i : Nat} (hclear : current.getLsbD i = false)
    (hvalue : ¬(value.getLsbD 15 = true ∧ value.getLsbD i = true)) :
    (applySetclr current value).getLsbD i = false := by
  rw [CustomReg.applySetclr_eq]
  split
  · rename_i h15
    have hbit : value.getLsbD i = false := Bool.eq_false_iff.mpr fun h => hvalue ⟨h15, h⟩
    rw [BitVec.getLsbD_or, hclear, BitVec.getLsbD_and, hbit]
    rfl
  · rw [BitVec.getLsbD_and, hclear]
    rfl

end Chipset

namespace BusDevices

variable (d : BusDevices δ ρ π)

@[simp] theorem dmacon_raisePorts (irq : Bool) :
    (d.raisePorts irq).chipset.dmacon = d.chipset.dmacon := by
  unfold raisePorts
  split <;> rfl

@[simp] theorem dmacon_raiseExter (irq : Bool) :
    (d.raiseExter irq).chipset.dmacon = d.chipset.dmacon := by
  unfold raiseExter
  split <;> rfl

@[simp] theorem dmacon_reassert : d.reassertLevelIrqs.chipset.dmacon = d.chipset.dmacon := by
  unfold reassertLevelIrqs
  simp only [dmacon_raisePorts, dmacon_raiseExter]

/-- The latch and the blitter as they were. -/
structure SameDma (d d' : BusDevices δ ρ π) : Prop where
  dmacon : d'.chipset.dmacon = d.chipset.dmacon
  blitter : d'.blitter = d.blitter

theorem SameDma.refl : SameDma d d := ⟨rfl, rfl⟩

theorem SameDma.trans {d d' d'' : BusDevices δ ρ π} (h : SameDma d d') (h' : SameDma d' d'') :
    SameDma d d'' := ⟨h'.dmacon.trans h.dmacon, h'.blitter.trans h.blitter⟩

section Steps

variable [BlockDevice δ] [PacketBackend ρ] [PciBackend π] {d d' : BusDevices δ ρ π}

/-- **Time and reads move neither.** -/
theorem Stir.sameDma (h : Stir d d') : SameDma d d' := by
  cases h with
  | beam cpuClocks => exact ⟨d.chipset.dmacon_tick cpuClocks cpuClocksPerColourClock, rfl⟩
  | readCustom offset =>
    unfold MachineBus.readCustomReg
    split
    · exact .refl d
    · exact ⟨dmacon_read d.chipset offset, rfl⟩
  | _ => exact ⟨rfl, rfl⟩

theorem Stirred.sameDma (h : Stirred d d') : SameDma d d' := by
  induction h with
  | refl => exact .refl d
  | tail _ hs ih => exact ih.trans hs.sameDma

end Steps

section Boards

variable [BlockDevice δ] [PciBackend π]

theorem dmacon_writeBoard (d : BusDevices δ ρ π) (idx : Nat) (address : Long) (value : Byte) :
    (d.writeBoard idx address value).chipset.dmacon = d.chipset.dmacon := by
  unfold writeBoard writeRole
  split
  · rfl
  · split <;> (try split) <;>
      first | rfl | exact dmacon_raisePorts _ _ | exact dmacon_reassert _

end Boards

theorem dmacon_host [PciBackend π] (op : HostOp) :
    (d.host op).chipset.dmacon = d.chipset.dmacon := by
  cases op with
  | mouseButton button pressed =>
    simp only [host, mouseButton]
    split
    · rfl
    · cases button <;> rfl
  | pushSerialInByte byte =>
    simp only [host, pushSerialInByte]
    split <;> rfl
  | storeFastWindow off value =>
    simp only [host, storeFastWindow]
    split
    · split <;> rfl
    · rfl
  | _ => rfl

theorem dmacon_attach (card : Attach δ ρ π) :
    (d.attach card).chipset.dmacon = d.chipset.dmacon := by
  cases card with
  | mirage unit device =>
    simp only [attach, withMirage]
    split <;> rfl
  | hostblk unit device writeProtect diagRom =>
    simp only [attach, withHostblk]
    split <;> rfl
  | input diagRom =>
    simp only [attach, withInput]
    split <;> rfl
  | _ => rfl

end BusDevices

namespace MachineBus

open BusDevices Transition

/-! ## The words handed to `DMACON` -/

/-- A word write to `DMACON`. -/
def dmaconWord (address : Long) (value : Word) : List Word :=
  if inRange customBase customEnd address = true ∧ customOffset address = Reg.dmacon then [value]
  else []

/-- The latch after the words `words`. -/
def latched (dmacon : Word) (words : List Word) : Word := words.foldl applySetclr dmacon

/-- Setting one of the bits that `DMACONR` shows for the blitter. -/
def SetsBlitterBits (word : Word) : Prop :=
  word.getLsbD 15 = true ∧ (word.getLsbD 13 = true ∨ word.getLsbD 14 = true)

theorem latched_clear {words : List Word} (hwords : ∀ word ∈ words, ¬SetsBlitterBits word) {i : Nat}
    (hi : i = 13 ∨ i = 14) : ∀ {dmacon : Word}, dmacon.getLsbD i = false →
      (latched dmacon words).getLsbD i = false := by
  induction words with
  | nil => exact fun h => h
  | cons word words ih =>
    intro dmacon h
    refine ih (fun w hw => hwords w (List.mem_cons_of_mem _ hw)) (getLsbD_applySetclr h ?_)
    rintro ⟨h15, hbit⟩
    refine hwords word List.mem_cons_self ⟨h15, ?_⟩
    rcases hi with rfl | rfl
    · exact .inl hbit
    · exact .inr hbit

section Accesses

variable [BlockDevice δ] [PacketBackend ρ] [PciBackend π] (b : MachineBus δ ρ π) (address : Long)

/-- The words an access hands to `DMACON`. Fast RAM and the PCI bridge's aperture come first. -/
def dmaconWords (b : MachineBus δ ρ π) : Access → List Word
  | .writeByte address value =>
    if (fastStore b.devices address [value]).isSome then []
    else if inRange customBase customEnd address = true ∧
        customOffset (evenAddress address) = Reg.dmacon then
      [CustomReg.mergedByte address value]
    else []
  | .writeWord address value => dmaconWord address value
  | .writeLong address value =>
    if (fastStore b.devices address (toBytes32 value)).isSome ||
        (b.apertureStore address .w32 value).isSome then []
    else
      dmaconWord address ((value >>> 16).setWidth 16) ++
        dmaconWord (address + 2) (value.setWidth 16)
  | _ => []

omit [BlockDevice δ] [PacketBackend ρ] [PciBackend π] in
theorem dmacon_writeCustomReg (d : BusDevices δ ρ π) (offset : Nat) (value : Word) :
    (writeCustomReg d offset value).chipset.dmacon =
      if offset = Reg.dmacon then applySetclr d.chipset.dmacon value else d.chipset.dmacon := by
  unfold writeCustomReg
  split
  · rename_i hblit
    have hne : offset ≠ Reg.dmacon := by
      rintro rfl
      exact absurd hblit (by decide)
    rw [if_neg hne]
    dsimp only
    split
    · unfold runBlitter
      dsimp only
      split <;> rfl
    · rfl
  · rw [dmacon_reassert]
    exact dmacon_write d.chipset offset value

theorem dmacon_writeCustomWord (value : Word) :
    (b.writeCustomWord address value).devices.chipset.dmacon =
      if customOffset address = Reg.dmacon then applySetclr b.devices.chipset.dmacon value
      else b.devices.chipset.dmacon := by
  unfold writeCustomWord
  dsimp only
  rw [devices_requestBoundary, ← (stirred_flush b).sameDma.dmacon]
  exact dmacon_writeCustomReg b.flush.devices _ value

theorem dmacon_writeCustomByte (value : Byte) :
    (b.writeCustomByte address value).devices.chipset.dmacon =
      if customOffset (evenAddress address) = Reg.dmacon then
        applySetclr b.devices.chipset.dmacon (CustomReg.mergedByte address value)
      else b.devices.chipset.dmacon := by
  unfold writeCustomByte
  dsimp only
  rw [dmacon_writeCustomWord, (stirred_readCustomWord b _).sameDma.dmacon]
  split
  · rename_i h
    -- `DMACON` is not readable at its own offset
    rw [readCustomWord_reg b (r := .dmacon) h]
    unfold CustomReg.mergedByte
    by_cases heven : address &&& 1 = 0
    · simp only [heven, if_true]
      rfl
    · simp only [heven, if_false]
      rfl
  · rfl

theorem dmacon_writeCia (value : Byte) :
    (b.writeCia address value).devices.chipset.dmacon = b.devices.chipset.dmacon := by
  have hciaB : ∀ (d : BusDevices δ ρ π) (reg : Nat),
      (writeCiaB d reg value).chipset.dmacon = d.chipset.dmacon := by
    intro d reg
    unfold writeCiaB
    dsimp only
    split <;> rfl
  unfold writeCia
  dsimp only
  rw [← (stirred_flush b).sameDma.dmacon]
  show (BusDevices.reassertLevelIrqs _).chipset.dmacon = _
  rw [dmacon_reassert]
  show (if (ciaSelect address).1 = true then _ else _ : BusDevices δ ρ π).chipset.dmacon = _
  split
  · rfl
  · exact hciaB _ _

/-- The latch after one byte write. -/
theorem dmacon_writeByte (value : Byte) :
    (b.writeByte address value).devices.chipset.dmacon =
      latched b.devices.chipset.dmacon (b.dmaconWords (.writeByte address value)) := by
  cases hstore : fastStore b.devices address [value] with
  | some d =>
    have hwords : b.dmaconWords (.writeByte address value) = [] := by
      unfold dmaconWords
      dsimp only
      rw [hstore]
      rfl
    obtain ⟨_, _, -, -, rfl⟩ := fastStore_eq_some hstore
    rw [writeByte_of_store hstore, hwords]
    rfl
  | none =>
    have hwords : b.dmaconWords (.writeByte address value) =
        if inRange customBase customEnd address = true ∧
            customOffset (evenAddress address) = Reg.dmacon then
          [CustomReg.mergedByte address value]
        else [] := by
      unfold dmaconWords
      dsimp only
      rw [hstore]
      rfl
    rw [hwords]
    by_cases hcustom : inRange customBase customEnd address = true
    · rw [devices_writeByte_chips b hcustom hstore, dmacon_writeCustomByte]
      by_cases hreg : customOffset (evenAddress address) = Reg.dmacon
      · rw [if_pos hreg, if_pos ⟨hcustom, hreg⟩]
        rfl
      · rw [if_neg hreg, if_neg fun h => hreg h.2]
        rfl
    · have hnil : ¬(inRange customBase customEnd address = true ∧
          customOffset (evenAddress address) = Reg.dmacon) := fun h => hcustom h.1
      rw [if_neg hnil]
      unfold writeByte
      rw [hstore]
      dsimp only
      split
      · rfl
      · rw [devices_requestBoundary]
        unfold writeByteSlow
        simp only [if_neg hcustom]
        split_ifs
        · rfl
        · exact dmacon_writeCia b address value
        · split
          · exact dmacon_writeBoard b.devices _ address value
          · rfl

omit [BlockDevice δ] [PacketBackend ρ] in
/-- A byte that does not reach `DMACON`. -/
theorem dmaconWords_byte_eq_nil {address : Long} (value : Byte)
    (h : inRange customBase customEnd address = true →
      customOffset (evenAddress address) ≠ Reg.dmacon) :
    b.dmaconWords (.writeByte address value) = [] := by
  unfold dmaconWords
  dsimp only
  split
  · rfl
  · exact if_neg fun hreg => h hreg.1 hreg.2

omit [PacketBackend ρ] [BlockDevice δ] in
theorem dmacon_apertureStore {address value : Long} {width : AccessWidth} {b' : MachineBus δ ρ π}
    (h : b.apertureStore address width value = some b') :
    b'.devices.chipset.dmacon = b.devices.chipset.dmacon := by
  unfold apertureStore at h
  split at h
  · dsimp only at h
    split at h <;> cases h
    · rw [devices_requestBoundary]
      exact dmacon_raisePorts _ _
    · rfl
  · cases h

theorem dmacon_writeWord (value : Word) :
    (b.writeWord address value).devices.chipset.dmacon =
      latched b.devices.chipset.dmacon (dmaconWord address value) := by
  unfold writeWord dmaconWord
  by_cases hcustom : inRange customBase customEnd address = true
  · rw [if_pos hcustom, dmacon_writeCustomWord]
    by_cases hreg : customOffset address = Reg.dmacon
    · rw [if_pos hreg, if_pos ⟨hcustom, hreg⟩]
      rfl
    · rw [if_neg hreg, if_neg fun h => hreg h.2]
      rfl
  · rw [if_neg hcustom, if_neg fun h => hcustom h.1]
    split
    · rename_i d hstore
      obtain ⟨_, _, -, -, rfl⟩ := fastStore_eq_some hstore
      rfl
    · cases hs : b.apertureStore address .w16 (value.setWidth 32) with
      | some b' => exact dmacon_apertureStore b hs
      | none =>
        -- the second byte can be the first of the window, which is not `DMACON`
        have hsecond : inRange customBase customEnd (address + 1) = true →
            customOffset (evenAddress (address + 1)) ≠ Reg.dmacon := by
          intro hnext
          have hfirst : address + 1 = 0x00DFF000 := by
            have hone : (1 : Long).toNat = 1 := rfl
            have hlt := address.isLt
            rw [inRange_iff] at hnext hcustom
            simp only [customBase, customEnd] at hnext hcustom
            rw [BitVec.toNat_add, hone] at hnext
            refine BitVec.eq_of_toNat_eq ?_
            rw [BitVec.toNat_add, hone]
            show _ = 0x00DFF000
            omega
          rw [hfirst]
          decide
        rw [Option.getD_none]
        unfold writeWordBytes
        rw [dmacon_writeByte, dmacon_writeByte, dmaconWords_byte_eq_nil _ _ hsecond,
          dmaconWords_byte_eq_nil _ _ fun h => absurd h hcustom]
        rfl

theorem dmacon_writeLong (value : Long) :
    (b.writeLong address value).devices.chipset.dmacon =
      latched b.devices.chipset.dmacon (b.dmaconWords (.writeLong address value)) := by
  unfold dmaconWords writeLong
  dsimp only
  cases hstore : fastStore b.devices address (toBytes32 value) with
  | some d =>
    obtain ⟨_, _, -, -, rfl⟩ := fastStore_eq_some hstore
    rfl
  | none =>
    cases hs : b.apertureStore address .w32 value with
    | some b' => exact dmacon_apertureStore b hs
    | none =>
      simp only [Option.isSome_none, Bool.or_self, Bool.false_eq_true, if_false, Option.getD_none]
      rw [dmacon_writeWord, dmacon_writeWord]
      exact List.foldl_append.symm

/-- **The latch after an access** is the latch with the words applied that were handed to it. -/
theorem dmacon_access (a : Access) :
    (b.access a).2.devices.chipset.dmacon =
      latched b.devices.chipset.dmacon (b.dmaconWords a) := by
  cases a with
  | readByte address => exact (stirred_readByte b address).sameDma.dmacon
  | readWord address => exact (stirred_readWord b address).sameDma.dmacon
  | readLong address => exact (stirred_readLong b address).sameDma.dmacon
  | writeByte address value => exact dmacon_writeByte b address value
  | writeWord address value => exact dmacon_writeWord b address value
  | writeLong address value => exact dmacon_writeLong b address value

/-! ## Runs -/

/-- The words an operation hands to `DMACON`. -/
def dmaconOpWords (b : MachineBus δ ρ π) : BusOp δ ρ π → List Word
  | .guest (.access a) => b.dmaconWords a
  | _ => []

/-- **What one step does to the latch.** -/
theorem dmacon_step (op : BusOp δ ρ π) :
    (b.step op).devices.chipset.dmacon =
      latched b.devices.chipset.dmacon (b.dmaconOpWords op) := by
  cases op with
  | guest op =>
    cases op with
    | tick cpuClocks => exact (stirred_tick b cpuClocks).sameDma.dmacon
    | access a => exact dmacon_access b a
  | host op =>
    show (b.stepHost op).devices.chipset.dmacon = b.devices.chipset.dmacon
    unfold stepHost
    split
    · rfl
    · exact dmacon_host b.devices op
  | attach card => exact dmacon_attach b.devices card

/-- The step sets neither bit of the latch that `DMACONR` shows for the blitter. -/
def LeavesBlitterBits (b : MachineBus δ ρ π) (op : BusOp δ ρ π) : Prop :=
  ∀ word ∈ b.dmaconOpWords op, ¬SetsBlitterBits word

/-- Reading `DMACONR` finds the blitter idle and the zero flag of its last blit. -/
def Honest (b : MachineBus δ ρ π) : Prop :=
  (b.readWord 0x00DFF002).1.getLsbD 14 = false ∧
    (b.readWord 0x00DFF002).1.getLsbD 13 = b.devices.blitter.zero

/-- The bits of the latch that lie under the blitter's are clear. -/
def LatchClear (b : MachineBus δ ρ π) : Prop :=
  ∀ i, i = 13 ∨ i = 14 → b.devices.chipset.dmacon.getLsbD i = false

/-- `DMACONR` as it is read. -/
theorem readWord_dmaconr :
    (b.readWord 0x00DFF002).1 = b.devices.chipset.dmacon ||| b.devices.blitter.dmaconrBits := by
  have hin :
      (!overlaid b.devices 0x00DFF002 && inRange customBase customEnd 0x00DFF002) = true := by
    unfold overlaid
    cases b.devices.overlay <;> decide
  have hoffset : customOffset 0x00DFF002 = Reg.dmaconr := by decide
  have hflush := (stirred_flush b).sameDma
  unfold readWord
  rw [if_pos hin]
  unfold readCustomWord
  dsimp only
  rw [hoffset]
  show b.flush.devices.chipset.dmacon ||| b.flush.devices.blitter.dmaconrBits = _
  rw [hflush.dmacon, hflush.blitter]

theorem honest_of_latchClear {b : MachineBus δ ρ π} (h : b.LatchClear) : b.Honest := by
  have hbits : ∀ zero : Bool,
      (if zero then (Blitter.dmaconrBzero : Word) else 0).getLsbD 14 = false ∧
      (if zero then (Blitter.dmaconrBzero : Word) else 0).getLsbD 13 = zero := by
    decide
  obtain ⟨hbusy, hzero⟩ := hbits b.devices.blitter.zero
  unfold Honest
  rw [readWord_dmaconr, BitVec.getLsbD_or, BitVec.getLsbD_or, h 14 (.inr rfl), h 13 (.inl rfl)]
  unfold Blitter.dmaconrBits
  rw [hbusy, hzero]
  exact ⟨rfl, Bool.false_or _⟩

theorem latchClear_step (op : BusOp δ ρ π) (h : b.LatchClear) (hop : b.LeavesBlitterBits op) :
    (b.step op).LatchClear := by
  intro i hi
  rw [dmacon_step]
  exact latched_clear hop hi (h i hi)

/-- **`DMACONR` reports the blitter honestly** along every run that hands `DMACON` no word setting
bit 13 or 14. -/
theorem dmaconr_honest (chipRam : Buffer Byte chipRamSize) (rom : ByteSlice)
    (ops : List (BusOp δ ρ π))
    (hops : Each step LeavesBlitterBits (MachineBus.new chipRam rom) ops) :
    Always step Honest (MachineBus.new chipRam rom) ops := by
  have hnew : (MachineBus.new chipRam rom : MachineBus δ ρ π).LatchClear := by
    have hzero : (MachineBus.new chipRam rom : MachineBus δ ρ π).devices.chipset.dmacon = 0 := rfl
    rintro i hi
    rw [hzero]
    rcases hi with rfl | rfl <;> decide
  have hclear := always_of_each latchClear_step hnew hops
  intro before after hsplit
  exact honest_of_latchClear (hclear before after hsplit)

end Accesses

/-- A fresh machine. -/
def idleMachine : MachineBus MemDisk Empty Empty :=
  MachineBus.new (fun _ => 0) (ByteSlice.zero 0)

/-- The DMA channels switched on, by a word. -/
theorem dmaconr_honest_on :
    Always step Honest idleMachine [.guest (.access (.writeWord 0xDFF096 0x83FF))] := by
  refine dmaconr_honest _ _ [.guest (.access (.writeWord 0xDFF096 0x83FF))]
    (each_cons.mpr ⟨?_, each_nil⟩)
  intro word hword
  have hwords : idleMachine.dmaconOpWords (.guest (.access (.writeWord 0xDFF096 0x83FF))) =
      [0x83FF] := by decide
  rw [show MachineBus.new (fun _ => 0) (ByteSlice.zero 0) = idleMachine from rfl, hwords] at hword
  rcases List.mem_singleton.mp hword with rfl
  unfold SetsBlitterBits
  decide

/-- A word that sets bit 14, or a byte to `DMACON`'s odd address, leaves the blitter busy for
good. -/
theorem dmaconr_stays_busy :
    ¬Always step Honest idleMachine [.guest (.access (.writeWord 0xDFF096 0xC000))] ∧
      ¬Always step Honest idleMachine [.guest (.access (.writeByte 0xDFF097 0x00))] := by
  constructor
  · intro h
    have hbusy :
        ((idleMachine.writeWord 0xDFF096 0xC000).readWord 0xDFF002).1.getLsbD 14 = true := by
      decide
    exact Bool.false_ne_true (h.last.1.symm.trans hbusy)
  · intro h
    have hbusy : ((idleMachine.writeByte 0xDFF097 0x00).readWord 0xDFF002).1.getLsbD 14 = true := by
      decide
    exact Bool.false_ne_true (h.last.1.symm.trans hbusy)

end MachineBus

end M68kMachine
