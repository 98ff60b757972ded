import M68kMachine.Properties.DeviceWriteLog
import Mathlib.Data.List.Induction
import Mathlib.Order.Interval.Set.LinearOrder

/-!
# The spans of the device-write log are the bytes recorded

`record` merges a write into the newest span when the two adjoin, and into no other. So the log
names exactly the bytes it was told of until it overflows, on the first write that neither adjoins
nor has a slot.

* `bytesOf` — the bytes a list of spans names
* `Adjoins`, `Dropped` — when a write extends the newest span, and when it is lost
* `record_exact` — the log after any run of writes
-/

namespace M68kMachine

namespace DeviceWriteLog

/-- The bytes of a span, which is not folded back at the end of the address space. -/
def spanBytes (span : Long × Long) : Set Nat :=
  Set.Ico span.1.toNat (span.1.toNat + span.2.toNat)

def bytesOf (spans : List (Long × Long)) : Set Nat := {n | ∃ span ∈ spans, n ∈ spanBytes span}

/-- One starts where the other ends, and the two together are a `u32` long. -/
def Adjoins (last write : Long × Long) : Prop :=
  last.2.toNat + write.2.toNat < 2 ^ 32 ∧
    (last.1.toNat + last.2.toNat = write.1.toNat ∨ write.1.toNat + write.2.toNat = last.1.toNat)

/-- A write that is not empty, does not adjoin the newest span, and finds the storage full. -/
structure Dropped (log : DeviceWriteLog) (write : Long × Long) : Prop where
  nonempty : write.2 ≠ 0
  apart : ∀ last, log.spans.getLast? = some last → ¬ Adjoins last write
  full : log.spans.length = log.capacity

def records (log : DeviceWriteLog) (writes : List (Long × Long)) : DeviceWriteLog :=
  writes.foldl (fun log write => log.record write.1 write.2) log

/-! ## Bytes -/

@[simp] theorem bytesOf_nil : bytesOf [] = ∅ := by
  simp [bytesOf]

@[simp] theorem bytesOf_append (spans spans' : List (Long × Long)) :
    bytesOf (spans ++ spans') = bytesOf spans ∪ bytesOf spans' := by
  ext n
  simp only [bytesOf, List.mem_append, Set.mem_union, Set.mem_ofPred_eq, or_and_right, exists_or]

@[simp] theorem bytesOf_singleton (span : Long × Long) : bytesOf [span] = spanBytes span := by
  ext n
  simp [bytesOf]

theorem spanBytes_of_empty {span : Long × Long} (h : span.2 = 0) : spanBytes span = ∅ := by
  simp [spanBytes, h]

/-! ## Merging -/

theorem checkedAdd_eq {a b c : Long} (h : a.toNat + b.toNat = c.toNat) :
    checkedAdd a b = some c := by
  obtain ⟨d, hd⟩ := Option.isSome_iff_exists.mp
    (GuestRam.checkedAdd_isSome.mpr (h ▸ c.isLt : a.toNat + b.toNat < 2 ^ 32))
  have hval := (GuestRam.toNat_of_checkedAdd hd).1
  rw [hd, BitVec.eq_of_toNat_eq (hval.trans h)]

/-- The checked additions merge what adjoins. -/
theorem merged_isSome (last write : Long × Long) :
    (merged last write.1 write.2).isSome ↔ Adjoins last write := by
  constructor
  · intro h
    obtain ⟨span, hspan⟩ := Option.isSome_iff_exists.mp h
    obtain ⟨hlen, hends⟩ := merged_cases hspan
    exact ⟨by omega, hends.imp And.right And.right⟩
  · rintro ⟨hlen, hends⟩
    obtain ⟨newLen, hnew⟩ := Option.isSome_iff_exists.mp (GuestRam.checkedAdd_isSome.mpr hlen)
    unfold merged
    rw [hnew]
    dsimp only
    split
    · rfl
    · rename_i hafter
      split
      · rfl
      · rename_i hbefore
        refine absurd hends (not_or.mpr ⟨fun hend => hafter ?_, fun hend => hbefore ?_⟩)
        · exact checkedAdd_eq hend
        · exact checkedAdd_eq hend

/-- A merged span has the bytes of the two, and no other. -/
theorem spanBytes_merged {last write span : Long × Long}
    (h : merged last write.1 write.2 = some span) :
    spanBytes span = spanBytes last ∪ spanBytes write := by
  obtain ⟨hlen, hends⟩ := merged_cases h
  unfold spanBytes
  rcases hends with ⟨hstart, hend⟩ | ⟨hstart, hend⟩
  · rw [hstart, hlen, ← hend, Set.Ico_union_Ico_eq_Ico (by omega) (by omega), Nat.add_assoc]
  · rw [hstart, hlen, ← hend, Set.union_comm, Set.Ico_union_Ico_eq_Ico (by omega) (by omega)]
    congr 1
    omega

/-! ## One record -/

variable (log : DeviceWriteLog)

theorem record_spec (write : Long × Long) :
    (log.record write.1 write.2).capacity = log.capacity ∧
      ((log.Dropped write ∧ (log.record write.1 write.2).spans = log.spans ∧
          (log.record write.1 write.2).overflowed = true) ∨
        (¬ log.Dropped write ∧
          bytesOf (log.record write.1 write.2).spans = bytesOf log.spans ∪ spanBytes write ∧
          (log.record write.1 write.2).overflowed = log.overflowed)) := by
  by_cases hlen : write.2 = 0
  · rw [hlen, record_zero]
    exact ⟨rfl, .inr ⟨fun h => h.nonempty hlen, by rw [spanBytes_of_empty hlen]; simp, rfl⟩⟩
  unfold record
  rw [if_neg hlen]
  split
  · -- the newest span takes the write in
    rename_i span hlast
    obtain ⟨last, hget, hmerged⟩ := Option.bind_eq_some_iff.mp hlast
    obtain ⟨init, hsplit⟩ := List.getLast?_eq_some_iff.mp hget
    have hjoin : Adjoins last write := (merged_isSome last write).mp (by rw [hmerged]; rfl)
    refine ⟨rfl, .inr ⟨fun h => h.apart last hget hjoin, ?_, rfl⟩⟩
    simp only [hsplit, List.dropLast_concat, bytesOf_append, bytesOf_singleton,
      spanBytes_merged hmerged, Set.union_assoc]
  · rename_i hlast
    split
    · rename_i hroom
      refine ⟨rfl, .inr ⟨fun h => ?_, by simp, rfl⟩⟩
      have := h.full
      omega
    · rename_i hfull
      refine ⟨rfl, .inl ⟨⟨hlen, fun last hget hjoin => ?_, ?_⟩, rfl, rfl⟩⟩
      · rw [hget, Option.bind_some] at hlast
        have := (merged_isSome last write).mpr hjoin
        simp [hlast] at this
      · have := log.length_le
        omega

/-! ## A run of records -/

variable (writes : List (Long × Long))

theorem records_concat (write : Long × Long) : log.records (writes ++ [write]) =
      (log.records writes).record write.1 write.2 := by
  simp [records]

theorem records_capacity : (log.records writes).capacity = log.capacity := by
  induction writes using List.reverseRecOn with
  | nil => rfl
  | append_singleton writes write ih =>
    rw [records_concat, (record_spec _ write).1, ih]

/-- No byte is added, also by a log that overflowed. -/
theorem bytesOf_records_subset :
    bytesOf (log.records writes).spans ⊆ bytesOf log.spans ∪ bytesOf writes := by
  induction writes using List.reverseRecOn with
  | nil => exact Set.subset_union_left
  | append_singleton writes write ih =>
    rw [records_concat, bytesOf_append, bytesOf_singleton, ← Set.union_assoc]
    rcases (record_spec (log.records writes) write).2 with ⟨-, hspans, -⟩ | ⟨-, hbytes, -⟩
    · rw [hspans]
      exact ih.trans Set.subset_union_left
    · rw [hbytes]
      exact Set.union_subset_union_left _ ih

theorem bytesOf_records (h : (log.records writes).overflowed = false) :
    bytesOf (log.records writes).spans = bytesOf log.spans ∪ bytesOf writes := by
  induction writes using List.reverseRecOn with
  | nil => simp [records]
  | append_singleton writes write ih =>
    rw [records_concat] at h ⊢
    rcases (record_spec (log.records writes) write).2 with ⟨-, -, hover⟩ | ⟨-, hbytes, hover⟩
    · rw [hover] at h
      cases h
    · rw [hbytes, ih (hover ▸ h), bytesOf_append, bytesOf_singleton, Set.union_assoc]

theorem overflowed_records :
    (log.records writes).overflowed = true ↔ log.overflowed = true ∨
      ∃ before write after, writes = before ++ write :: after ∧
        (log.records before).Dropped write := by
  induction writes using List.reverseRecOn with
  | nil => simp [records]
  | append_singleton writes write ih =>
    -- a write that was dropped is an earlier one or the last
    have hsplit : (∃ before w after, writes ++ [write] = before ++ w :: after ∧
        (log.records before).Dropped w) ↔
        (∃ before w after, writes = before ++ w :: after ∧ (log.records before).Dropped w) ∨
          (log.records writes).Dropped write := by
      constructor
      · rintro ⟨before, w, after, heq, hdrop⟩
        rcases List.eq_nil_or_concat after with rfl | ⟨after, last, rfl⟩
        · obtain ⟨rfl, hw⟩ := List.append_inj' heq rfl
          cases hw
          exact .inr hdrop
        · rw [List.concat_eq_append, ← List.cons_append, ← List.append_assoc] at heq
          exact .inl ⟨before, w, after, (List.append_inj' heq rfl).1, hdrop⟩
      · rintro (⟨before, w, after, rfl, hdrop⟩ | hdrop)
        · exact ⟨before, w, after ++ [write], by simp, hdrop⟩
        · exact ⟨writes, write, [], rfl, hdrop⟩
    rw [hsplit, ← or_assoc, ← ih, records_concat]
    rcases (record_spec (log.records writes) write).2 with ⟨hdrop, -, hover⟩ | ⟨hkept, -, hover⟩
    · simp [hover, hdrop]
    · simp [hover, hkept]

/-- **The log is exact.** Since it was cleared it names no byte that was not recorded, and every one
that was unless it overflowed, which it does on the first write it can neither merge nor store. -/
theorem record_exact (log : DeviceWriteLog) (writes : List (Long × Long)) :
    bytesOf (log.clear.records writes).spans ⊆ bytesOf writes ∧
      ((log.clear.records writes).overflowed = false →
        bytesOf (log.clear.records writes).spans = bytesOf writes) ∧
      (log.clear.records writes).spans.length ≤ log.capacity ∧
      ((log.clear.records writes).overflowed = true ↔
        ∃ before write after, writes = before ++ write :: after ∧
          (log.clear.records before).Dropped write) := by
  have hempty : bytesOf log.clear.spans = ∅ := bytesOf_nil
  refine ⟨?_, fun h => ?_, ?_, ?_⟩
  · have := bytesOf_records_subset log.clear writes
    rwa [hempty, Set.empty_union] at this
  · rw [bytesOf_records _ _ h, hempty, Set.empty_union]
  · exact (log.clear.records writes).length_le.trans_eq (records_capacity _ _)
  · have hclear : log.clear.overflowed = false := rfl
    rw [overflowed_records, hclear]
    simp

end DeviceWriteLog

end M68kMachine
