import M68kMachine.Properties.PrometheusCycles

/-!
# The walk of prometheus.library, by invariant

What a read cycle and the recording of one function preserve, the walk over bus 0 preserves; what
one BAR preserves, the loop over the six does. Functions are met in the order of their numbers, so
an invariant may say which are still to come.

* `Slot` — the functions of bus 0
* `Walked`, `enumerateBus0_of` — the rule of the walk
* `assignFrom_of` — the rule of the loop
-/

namespace M68kMachine

open Pci Pcibridge

namespace Prometheus

variable {π : Type} [PciBackend π]

/-! ## The loop over the BARs -/

theorem assignBar_advances (a : Assign π) (i : Fin 6) : 1 ≤ (assignBar a i).2 := by
  unfold assignBar
  dsimp only
  split_ifs <;> exact Nat.le_add_left 1 _

/-- **The rule of the loop**: what holds at an index holds at the index after the BAR. -/
theorem assignFrom_of {J : Nat → Assign π → Prop}
    (hbar : ∀ a (i : Fin 6), J i.val a → J (i.val + (assignBar a i).2) (assignBar a i).1) :
    ∀ rounds i a, 6 ≤ i + rounds → J i a → ∃ j, 6 ≤ j ∧ J j (assignFrom rounds i a) := by
  intro rounds
  induction rounds with
  | zero => exact fun i a hrounds h => ⟨i, hrounds, h⟩
  | succ rounds ih =>
    intro i a hrounds h
    unfold assignFrom
    split
    · rename_i hi
      have hadvances := assignBar_advances a ⟨i, hi⟩
      have hnext := hbar a ⟨i, hi⟩ h
      generalize assignBar a ⟨i, hi⟩ = next at hadvances hnext ⊢
      exact ih _ _ (by omega) hnext
    · exact ⟨i, by omega, h⟩

/-! ## The walk over the bus -/

/-- A device and a function that exist in an address. -/
structure Slot (dev fn : Byte) : Prop where
  dev_lt : dev.toNat < 32
  fn_lt : fn.toNat < 8

/-- The order of the walk. -/
def position (dev fn : Byte) : Nat := 8 * dev.toNat + fn.toNat

/-- An invariant of the walk, by the first position that is still to come. -/
structure Walked (I : Nat → Scan π → Prop) : Prop where
  read (n : Nat) (s : Scan π) (dev fn : Byte) (offset : Word) (width : AccessWidth)
    (hnamed : Named dev fn offset width) (h : I n s) :
    I n { s with bridge := (cfgCycle s.bridge 0 dev fn offset (widthByte width) opRead 0).bridge }
  record (n : Nat) (s s' : Scan π) (dev fn : Byte) (hslot : Slot dev fn)
    (hn : n ≤ position dev fn) (hpresent : ¬ absent (readVendor s 0 dev fn).1 = true)
    (hrecord : recordFunction (readVendor s 0 dev fn).2 0 dev fn = some s') (h : I n s) :
    I (position dev fn + 1) s'
  /-- Functions that are passed over are not met again. -/
  skip (n m : Nat) (s : Scan π) (hnm : n ≤ m) (h : I n s) : I m s

section

variable {I : Nat → Scan π → Prop} (hI : Walked I)

include hI

theorem Walked.readVendor {n : Nat} {s : Scan π} {dev fn : Byte} (hslot : Slot dev fn)
    (h : I n s) : I n (readVendor s 0 dev fn).2 :=
  hI.read n s dev fn PciCfg.vendorDevice .w32
    ⟨hslot.dev_lt, hslot.fn_lt, by decide, by decide⟩ h

theorem Walked.scanFunctions {dev : Byte} (hdev : dev.toNat < 32) :
    ∀ fns (n : Nat) (s : Scan π), n ≤ 8 * dev.toNat + 8 →
      (∀ fn ∈ fns, fn.toNat < 8 ∧ n ≤ position dev fn) →
      fns.Pairwise (fun a b => a.toNat < b.toNat) → I n s →
      I (8 * dev.toNat + 8) (scanFunctions dev fns s).1 := by
  intro fns
  induction fns with
  | nil => exact fun n s hn _ _ h => hI.skip n _ s hn h
  | cons fn fns ih =>
    intro n s hn hfns hpair h
    obtain ⟨hfn, hpos⟩ := hfns fn List.mem_cons_self
    obtain ⟨hlater, hpair⟩ := List.pairwise_cons.mp hpair
    have hslot : Slot dev fn := ⟨hdev, hfn⟩
    have hread := hI.readVendor hslot h
    unfold Prometheus.scanFunctions
    dsimp only
    split
    · exact ih n _ hn (fun fn' hfn' => hfns fn' (List.mem_cons_of_mem _ hfn')) hpair hread
    · rename_i hpresent
      split
      · exact hI.skip n _ _ hn hread
      · rename_i s' hrecord
        have hnext := hI.record n s s' dev fn hslot hpos hpresent hrecord h
        refine ih _ s' ?_ (fun fn' hfn' => ⟨(hfns fn' (List.mem_cons_of_mem _ hfn')).1, ?_⟩) hpair
          hnext
        · unfold position
          omega
        · have := hlater fn' hfn'
          unfold position
          omega

/-- The functions behind the first of a device, where it has more than one. -/
theorem Walked.siblings {dev : Byte} (hdev : dev.toNat < 32) {s : Scan π}
    (h : I (position dev 0 + 1) s) :
    I (8 * dev.toNat + 8)
      (let c := cfgCycle s.bridge 0 dev 0 PciCfg.headerType 1 opRead 0
        let s := { s with bridge := c.bridge }
        if c.value.setWidth 8 &&& pciHeaderMultifunction = 0 then (s, true)
        else Prometheus.scanFunctions dev [1, 2, 3, 4, 5, 6, 7] s).1 := by
  have hheader := hI.read _ s dev 0 PciCfg.headerType .w8 ⟨hdev, by decide, by decide, by decide⟩ h
  have hfirst : position dev 0 = 8 * dev.toNat := rfl
  dsimp only
  split
  · exact hI.skip _ _ _ (by omega) hheader
  · refine hI.scanFunctions hdev _ _ _ (by omega) ?_ (by decide) hheader
    intro fn hfn
    have hone : 1 ≤ fn.toNat ∧ fn.toNat < 8 := by
      revert fn
      decide
    have hpos : position dev fn = 8 * dev.toNat + fn.toNat := rfl
    exact ⟨hone.2, by omega⟩

theorem Walked.scanDevice {dev : Byte} (hdev : dev.toNat < 32) {n : Nat} {s : Scan π}
    (hn : n ≤ 8 * dev.toNat) (h : I n s) :
    I (8 * dev.toNat + 8) (scanDevice s dev).1 := by
  have hslot : Slot dev 0 := ⟨hdev, by decide⟩
  have hread := hI.readVendor hslot h
  unfold Prometheus.scanDevice
  dsimp only
  split
  · exact hI.skip n _ _ (by omega) hread
  · rename_i hpresent
    split
    · exact hI.skip n _ _ (by omega) hread
    · rename_i s' hrecord
      exact hI.siblings hdev (hI.record n s s' dev 0 hslot hn hpresent hrecord h)

theorem Walked.scanDevices : ∀ devs (n : Nat) (s : Scan π),
    (∀ dev ∈ devs, dev.toNat < 32 ∧ n ≤ 8 * dev.toNat) →
    devs.Pairwise (fun a b => a.toNat < b.toNat) → I n s →
    ∃ m, I m (scanDevices devs s) := by
  intro devs
  induction devs with
  | nil => exact fun n s _ _ h => ⟨n, h⟩
  | cons dev devs ih =>
    intro n s hdevs hpair h
    obtain ⟨hdev, hpos⟩ := hdevs dev List.mem_cons_self
    obtain ⟨hlater, hpair⟩ := List.pairwise_cons.mp hpair
    have hnext := hI.scanDevice hdev hpos h
    unfold Prometheus.scanDevices
    dsimp only
    split
    · refine ih _ _ (fun dev' hdev' => ⟨(hdevs dev' (List.mem_cons_of_mem _ hdev')).1, ?_⟩) hpair
        hnext
      have := hlater dev' hdev'
      omega
    · exact ⟨_, hnext⟩

/-- **The rule of the walk.** -/
theorem enumerateBus0_of {d : PciBridge π} (h : I 0 ⟨d, [], pciMemBase⟩) :
    ∃ n, I n (enumerateBus0 d) := by
  refine hI.scanDevices _ 0 _ (fun dev hdev => ⟨?_, Nat.zero_le _⟩) ?_ h
  · revert dev
    decide
  · decide

end

end Prometheus

end M68kMachine
