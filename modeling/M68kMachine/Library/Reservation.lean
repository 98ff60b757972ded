import Mathlib.Tactic.Common

/-!
# A reservation of address space

A range of addresses into which objects are mapped at fixed places, as `mmap` with `MAP_FIXED` does:
a mapping replaces what was at its addresses, and disturbs nothing else.

* `Mapping` — `len` addresses from `base` on, over the first bytes of an object
* `Reservation.lookup` — the object mapped at an address, and the offset into it
* `lookup_mmap_inside`, `lookup_mmap_outside` — the two laws of a mapping
-/

/-- The addresses `base … base + len - 1`, mapped to the first `len` bytes of an object. -/
structure Mapping (β : Type) where
  base : Nat
  len : Nat
  object : β

namespace Mapping

variable {β : Type}

def Holds (m : Mapping β) (a : Nat) : Prop := m.base ≤ a ∧ a < m.base + m.len

instance (m : Mapping β) (a : Nat) : Decidable (m.Holds a) :=
  inferInstanceAs (Decidable (_ ∧ _))

end Mapping

/-- The mappings of a reservation, the newest first. -/
abbrev Reservation (β : Type) := List (Mapping β)

namespace Reservation

variable {β : Type}

/-- The object mapped at an address and the offset into it; `none` where nothing was mapped. -/
def lookup (r : Reservation β) (a : Nat) : Option (β × Nat) :=
  (r.find? fun m => m.Holds a).map fun m => (m.object, a - m.base)

/-- Map `object` at a fixed place. A mapping of no bytes changes nothing. -/
def mmap (r : Reservation β) (base len : Nat) (object : β) : Reservation β :=
  ⟨base, len, object⟩ :: r

@[simp] theorem lookup_nil (a : Nat) : lookup ([] : Reservation β) a = none := rfl

theorem lookup_mmap_inside (r : Reservation β) {base len a : Nat} (object : β)
    (hle : base ≤ a) (hlt : a < base + len) :
    (r.mmap base len object).lookup a = some (object, a - base) := by
  have hholds : (⟨base, len, object⟩ : Mapping β).Holds a := ⟨hle, hlt⟩
  simp [lookup, mmap, hholds]

theorem lookup_mmap_outside (r : Reservation β) {base len a : Nat} (object : β)
    (h : a < base ∨ base + len ≤ a) : (r.mmap base len object).lookup a = r.lookup a := by
  have hholds : ¬(⟨base, len, object⟩ : Mapping β).Holds a := by
    unfold Mapping.Holds
    dsimp only
    omega
  simp [lookup, mmap, hholds]

end Reservation
