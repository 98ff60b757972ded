import M68kMachine.Core.Autoconfig

/-!
# The fast RAM board

The AUTOCONFIG identity of `fastram.rs`. The memory itself is part of `GuestRam`; the board only
declares a window, the smallest size of the extended table that holds the buffer.
-/

namespace M68kMachine

open Autoconfig

namespace Fastram

abbrev manufacturer : Word := 0x07DB
abbrev product : Byte := 2

/-- The extended Zorro III sizes and their codes, smallest first. -/
abbrev extendedSizes : List (Nat × Byte) :=
  [(0x01000000, 0), (0x02000000, 1), (0x04000000, 2), (0x08000000, 3), (0x10000000, 4),
    (0x20000000, 5), (0x40000000, 6)]

abbrev maxSizeBytes : Nat := 0x40000000

/-- The code of the smallest size that holds `bytes`, the largest code when none does. -/
def extendedSizeCode (bytes : Nat) : Byte :=
  ((extendedSizes.find? fun size => bytes ≤ size.1).map Prod.snd).getD 6

def extendedSizeBytes (code : Byte) : Nat :=
  ((extendedSizes.find? fun size => size.2 = code).map Prod.fst).getD maxSizeBytes

def autoconfigBoardSpec (sizeBytes : Nat) : BoardSpec where
  boardType := ertZorroIII ||| ertfMemlist ||| extendedSizeCode sizeBytes
  product := product
  flags := erffZorroIII ||| erffExtended
  manufacturer := manufacturer
  serial := 0
  initDiagVec := 0
  sizeBytes := BitVec.ofNat 32 (extendedSizeBytes (extendedSizeCode sizeBytes))

end Fastram

end M68kMachine
