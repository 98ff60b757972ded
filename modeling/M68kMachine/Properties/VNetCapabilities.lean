import M68kMachine.Drivers.VirtionetCaps
import M68kMachine.Library.LinkWalk
import M68kMachine.Properties.PrometheusConfig
import Mathlib.Data.BitVec

/-!
# The capability walk

The walk of `find_virtio_caps` follows links of one byte until it reads 0 or refuses a capability,
and has no bound of its own. It returns exactly when the links pass no capability twice, then within
256 rounds.

* `capLink` — the links
* `FromCap`, `Located` — where an address comes from
-/

namespace M68kMachine

namespace VNet

open VirtioPci LinkWalk

/-! ## The library behind the accessors -/

variable (cfg : PrmConfig) (apertureCpu : Long)

/-! ## Returning -/

/-- Where the walk goes from a capability: nowhere from the last, nor from a refused one. -/
def capLink (p : Byte) : Option Byte :=
  if p = 0 ∨ refusedCap cfg p = true then none else some (cfgByte cfg (p + capNextOff))

theorem refused_of_capLink {p : Byte} (h : capLink cfg p = none) (hp : p ≠ 0) :
    refusedCap cfg p = true := by
  unfold capLink at h
  split at h
  · rename_i hends
    exact hends.resolve_left hp
  · cases h

theorem capStep_some {s : CapWalk} {next : Byte} (h : capLink cfg s.capPtr = some next) :
    ∃ s', capStep cfg apertureCpu s = some s' ∧ s'.capPtr = next ∧ s.capPtr ≠ 0 ∧
      (s' = { s with capPtr := next } ∨
        cfgByte cfg (s.capPtr + capVndrOff) = capIdVndr ∧
          cfgByte cfg (s.capPtr + capBarOff) = 0 ∧
          s' = { placeCap cfg apertureCpu s with capPtr := next }) := by
  unfold capLink at h
  split at h
  · cases h
  · rename_i hgoes
    obtain ⟨hptr, hrefused⟩ := not_or.mp hgoes
    cases h
    unfold capStep
    rw [if_neg hrefused]
    refine ⟨_, rfl, rfl, hptr, ?_⟩
    dsimp only
    split
    · rename_i hvndr
      refine .inr ⟨hvndr, ?_, rfl⟩
      by_contra hbar
      refine hrefused ?_
      unfold refusedCap
      rw [hvndr, decide_eq_true rfl, decide_eq_true hbar]
      rfl
    · exact .inl rfl

/-- The walk has returned exactly when its links have come to an end. -/
theorem capWalk_isSome (rounds : Nat) : ∀ s : CapWalk,
    (capWalk cfg apertureCpu rounds s).isSome ↔ visit (capLink cfg) s.capPtr rounds = none := by
  induction rounds with
  | zero =>
    intro s
    simp [capWalk, visit]
  | succ rounds ih =>
    intro s
    rw [visit_succ']
    unfold capWalk
    cases hlink : capLink cfg s.capPtr with
    | none =>
      rw [Option.bind_none]
      by_cases hptr : s.capPtr = 0
      · rw [if_pos hptr]
        simp
      · have hstep : capStep cfg apertureCpu s = none :=
          if_pos (refused_of_capLink cfg hlink hptr)
        rw [if_neg hptr, hstep]
        simp
    | some next =>
      obtain ⟨s', hstep, hnext, hptr, -⟩ := capStep_some cfg apertureCpu hlink
      rw [if_neg hptr, hstep, Option.bind_some, ← hnext]
      exact ih s'

/-! ## What is found -/

/-- The address is that of a capability of this type on BAR 0, passed on the walk. -/
def FromCap (cfgtype : Byte) (addr : Long) : Prop :=
  ∃ n p, visit (capLink cfg) (cfgByte cfg cfgCapPtr) n = some p ∧ p ≠ 0 ∧
    cfgByte cfg (p + capVndrOff) = capIdVndr ∧ cfgByte cfg (p + capCfgtypeOff) = cfgtype ∧
    cfgByte cfg (p + capBarOff) = 0 ∧ addr = apertureCpu + cfgLong cfg (p + capOffsetOff)

/-- The four structures, each from its capability. -/
structure Located (b : CapBase) : Prop where
  common : FromCap cfg apertureCpu VirtioPci.commonCfg b.commonCfg
  notify : FromCap cfg apertureCpu notifyCfg b.notifyBase
  isr : FromCap cfg apertureCpu VirtioPci.isrCfg b.isrCfg
  device : FromCap cfg apertureCpu VirtioPci.deviceCfg b.deviceCfg

/-- What a walk under way has found so far. -/
structure Found (s : CapWalk) : Prop where
  passed : ∃ n, visit (capLink cfg) (cfgByte cfg cfgCapPtr) n = some s.capPtr
  common : s.gotCommon = true → FromCap cfg apertureCpu VirtioPci.commonCfg s.base.commonCfg
  notify : s.gotNotify = true → FromCap cfg apertureCpu notifyCfg s.base.notifyBase
  isr : s.gotIsr = true → FromCap cfg apertureCpu VirtioPci.isrCfg s.base.isrCfg
  device : s.gotDevice = true → FromCap cfg apertureCpu VirtioPci.deviceCfg s.base.deviceCfg

variable {cfg apertureCpu}

/-- A vendor capability on BAR 0 gives the structure of its type, and no other. -/
theorem Found.placeCap {s : CapWalk} (h : Found cfg apertureCpu s) (hptr : s.capPtr ≠ 0)
    (hvndr : cfgByte cfg (s.capPtr + capVndrOff) = capIdVndr)
    (hbar : cfgByte cfg (s.capPtr + capBarOff) = 0) :
    Found cfg apertureCpu (placeCap cfg apertureCpu s) := by
  obtain ⟨n, hn⟩ := h.passed
  have hfrom : ∀ cfgtype, cfgByte cfg (s.capPtr + capCfgtypeOff) = cfgtype →
      FromCap cfg apertureCpu cfgtype (apertureCpu + cfgLong cfg (s.capPtr + capOffsetOff)) :=
    fun cfgtype htype => ⟨n, s.capPtr, hn, hptr, hvndr, htype, hbar, rfl⟩
  unfold VNet.placeCap
  dsimp only
  split_ifs with h1 h2 h3 h4
  · exact { h with common := fun _ => hfrom _ h1 }
  · exact { h with notify := fun _ => hfrom _ h2 }
  · exact { h with isr := fun _ => hfrom _ h3 }
  · exact { h with device := fun _ => hfrom _ h4 }
  · exact h

theorem Found.capStep {s s' : CapWalk} (h : Found cfg apertureCpu s) (hptr : s.capPtr ≠ 0)
    (hstep : capStep cfg apertureCpu s = some s') : Found cfg apertureCpu s' := by
  cases hlink : capLink cfg s.capPtr with
  | none =>
    have hnone : VNet.capStep cfg apertureCpu s = none := if_pos (refused_of_capLink cfg hlink hptr)
    rw [hnone] at hstep
    cases hstep
  | some next =>
    obtain ⟨t, ht, hnext, -, hcases⟩ := capStep_some cfg apertureCpu hlink
    rw [hstep] at ht
    cases ht
    have hpassed : ∃ n, visit (capLink cfg) (cfgByte cfg cfgCapPtr) n = some next := by
      obtain ⟨n, hn⟩ := h.passed
      exact ⟨n + 1, by rw [visit, hn, Option.bind_some, hlink]⟩
    rcases hcases with rfl | ⟨hvndr, hbar, rfl⟩
    · exact { h with passed := hpassed }
    · exact { h.placeCap hptr hvndr hbar with passed := hpassed }

/-- **A walk that returns `TRUE`** has found the four structures. -/
theorem Found.located {rounds : Nat} {b : CapBase} : ∀ {s : CapWalk}, Found cfg apertureCpu s →
    capWalk cfg apertureCpu rounds s = some (true, b) → Located cfg apertureCpu b := by
  induction rounds with
  | zero =>
    intro s _ hret
    cases hret
  | succ rounds ih =>
    intro s h hret
    unfold capWalk at hret
    split at hret
    · simp only [Option.some.injEq, Prod.mk.injEq, Bool.and_eq_true] at hret
      obtain ⟨⟨⟨⟨hcommon, hnotify⟩, hisr⟩, hdevice⟩, rfl⟩ := hret
      exact ⟨h.common hcommon, h.notify hnotify, h.isr hisr, h.device hdevice⟩
    · rename_i hptr
      split at hret
      · cases hret
      · rename_i s' hstep
        exact ih (h.capStep hptr hstep) hret

/-- **The walk returns within 256 rounds exactly when its links pass no capability twice,** with
addresses from the capabilities of their types on BAR 0. -/
theorem find_virtio_caps_iff (space : Byte → Byte) (apertureCpu : Long) (base : CapBase) :
    ((findVirtioCaps (.ofSpace space) apertureCpu base 256).isSome ∧
      ∀ rounds b, findVirtioCaps (.ofSpace space) apertureCpu base rounds = some (true, b) →
        Located (.ofSpace space) apertureCpu b) ↔
      Simple (capLink (.ofSpace space)) (cfgByte (.ofSpace space) cfgCapPtr) := by
  unfold findVirtioCaps
  rw [capWalk_isSome]
  constructor
  · exact fun h => (ends_iff_simple BitVec.toFin_injective).mp ⟨256, h.1⟩
  · refine fun h => ⟨?_, fun rounds b hret => Found.located ⟨⟨0, rfl⟩, ?_, ?_, ?_, ?_⟩ hret⟩
    · exact visit_size_of_simple BitVec.toFin_injective h
    all_goals exact fun hgot => (nomatch hgot)

/-- A capability whose link is to itself. -/
def selfLinked (o : Byte) : Byte := if o = cfgCapPtr ∨ o = 0x41 then 0x40 else 0

theorem selfLinked_walks_on :
    (findVirtioCaps (.ofSpace selfLinked) 0 ⟨0, 0, 0, 0, 0⟩ 256).isSome = false := by
  decide +kernel

end VNet

end M68kMachine
