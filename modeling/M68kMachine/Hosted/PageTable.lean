import M68kMachine.Core.Registers
import M68kMachine.Library.Buffer

/-!
# Page types

How `machine-hosted` classifies the address space, one type for each 64 KiB page.
-/

namespace M68kMachine

/-- `Ram` and `Rom` are served from memory, `OpenBus` answers ones, the rest is `Io`. -/
inductive PageType
  | openBus
  | ram
  | rom
  | io
  deriving DecidableEq

/-- How a replay log spells a page type. -/
def PageType.toCode : PageType → Byte
  | ram => 0
  | rom => 1
  | io => 2
  | openBus => 3

/-- A code no build writes is `Io`: such a page asks the log. -/
def PageType.fromCode (code : Byte) : PageType :=
  if code = 0 then ram else if code = 1 then rom else if code = 3 then openBus else io

theorem PageType.fromCode_toCode (t : PageType) : fromCode t.toCode = t := by
  cases t <;> rfl

abbrev pageCount : Nat := 65536

abbrev PageTable := Buffer PageType pageCount

def pageOf (addr : Long) : Fin pageCount :=
  ⟨addr.toNat / 65536, Nat.div_lt_of_lt_mul addr.isLt⟩

end M68kMachine
