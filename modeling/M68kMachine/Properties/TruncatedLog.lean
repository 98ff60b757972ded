import Mathlib.Data.List.TakeWhile
import M68kMachine.Properties.ReplayVerdict

/-!
# A log that is cut short

A replay that has read the last event of its log, or passed the ordinal of an I/O event the CPU did
not perform, is overdue: it goes on with what is not the recorded run. The drain of such a tick does
nothing, and the run stops only on a divergence found elsewhere.

* `Overdue` — the next tick has passed what the log can say
* `Noticed` — an access was refused by then, or the checkpoint of the tick differs
* `overdue_stops_iff` — one tick
-/

namespace M68kMachine

/-! ## A drain without an `End` record -/

/-- Only an `End` record is compared in a drain. -/
theorem Player.drainFrom_divergence {p : Player} {log : List Event}
    (h : (dueEvents p.ordinal log).filterMap Event.finish? = []) (r : GuestRam)
    (out : DrainedEffects) : (p.drainFrom r out log).1.divergence = p.divergence := by
  induction log generalizing p r out with
  | nil => rfl
  | cons ev evs ih =>
    unfold Player.drainFrom
    split_ifs with hlater
    · rfl
    -- an event that is taken is no `End` record, and leaves the rest of those due
    have htaken (hio : ev.isIo = false) : ev.finish? = none ∧
        (dueEvents p.ordinal evs).filterMap Event.finish? = [] := by
      have hdue : Event.dueAt p.ordinal ev = true := by
        simp [Event.dueAt, hio, Nat.le_of_not_lt hlater]
      rw [dueEvents, List.takeWhile_cons_of_pos hdue, List.filterMap_cons] at h
      cases hfinish : ev.finish? with
      | none => rw [hfinish] at h; exact ⟨rfl, h⟩
      | some info => rw [hfinish] at h; cases h
    have hstep (q : Player) (hordinal : q.ordinal = p.ordinal)
        (hdivergence : q.divergence = p.divergence) (hio : ev.isIo = false) (r : GuestRam)
        (out : DrainedEffects) : (q.drainFrom r out evs).1.divergence = p.divergence := by
      rw [← hdivergence]
      refine ih ?_ r out
      rw [hordinal]
      exact (htaken hio).2
    cases ev with
    | finish ordinal total regs chip fast => cases (htaken rfl).1
    | ioRead ordinal addr width value => rfl
    | ioWrite ordinal addr width value => rfl
    | _ => apply hstep <;> rfl

/-! ## Accesses -/

variable (p : Player)

theorem Player.recordDivergence_ne_none (d : Divergence) :
    (p.recordDivergence d).divergence ≠ none :=
  fun h => (p.recordDivergence_divergence d).mp h

/-- What an access leaves of the log. -/
theorem Player.expectIoRead_log (addr : Long) (width : Nat) (pc : Long) :
    (p.expectIoRead addr width pc).2.log <:+ p.log ∧
      (p.expectIoRead addr width pc).2.ordinal = p.ordinal := by
  unfold Player.expectIoRead
  split
  case h_1 hlog => exact ⟨List.suffix_refl _, rfl⟩
  case h_2 hlog =>
    rw [hlog]
    dsimp only
    split_ifs <;> exact ⟨List.suffix_cons _ _, rfl⟩
  case h_3 hlog => exact ⟨List.suffix_refl _, rfl⟩

theorem Player.expectIoWrite_log (addr : Long) (width : Nat) (value pc : Long) :
    (p.expectIoWrite addr width value pc).log <:+ p.log ∧
      (p.expectIoWrite addr width value pc).ordinal = p.ordinal := by
  unfold Player.expectIoWrite
  split
  case h_1 hlog => exact ⟨List.suffix_refl _, rfl⟩
  case h_2 hlog =>
    rw [hlog]
    dsimp only
    split_ifs <;> exact ⟨List.suffix_cons _ _, rfl⟩
  case h_3 hlog => exact ⟨List.suffix_refl _, rfl⟩

/-- The next event is the read. -/
def Player.NextIsRead (p : Player) (addr : Long) (width : Nat) : Prop :=
  ∃ value evs, p.log = .ioRead p.ordinal addr width value :: evs

def Player.NextIsWrite (p : Player) (addr : Long) (width : Nat) (value : Long) : Prop :=
  ∃ evs, p.log = .ioWrite p.ordinal addr width value :: evs

theorem Player.expectIoRead_divergence (addr : Long) (width : Nat) (pc : Long) :
    (p.expectIoRead addr width pc).2.divergence ≠ none ↔
      p.divergence ≠ none ∨ ¬p.NextIsRead addr width := by
  unfold Player.expectIoRead Player.NextIsRead
  split
  case h_1 hlog => simp [hlog]
  case h_2 ordinal eaddr ewidth value evs hlog =>
    rw [hlog]
    dsimp only
    split
    case isTrue heq =>
      obtain ⟨rfl, rfl, rfl⟩ := heq
      simp
    case isFalse hne =>
      refine ⟨fun _ => .inr ?_, fun _ => recordDivergence_ne_none _ _⟩
      rintro ⟨_, _, heq⟩
      cases heq
      exact hne ⟨rfl, rfl, rfl⟩
  case h_3 ev evs hne hlog =>
    rw [hlog]
    refine ⟨fun _ => .inr ?_, fun _ => recordDivergence_ne_none _ _⟩
    rintro ⟨_, _, heq⟩
    cases heq
    exact hne _ _ _ _ rfl

theorem Player.expectIoWrite_divergence (addr : Long) (width : Nat) (value pc : Long) :
    (p.expectIoWrite addr width value pc).divergence ≠ none ↔
      p.divergence ≠ none ∨ ¬p.NextIsWrite addr width value := by
  unfold Player.expectIoWrite Player.NextIsWrite
  split
  case h_1 hlog => simp [hlog]
  case h_2 ordinal eaddr ewidth evalue evs hlog =>
    rw [hlog]
    dsimp only
    split
    case isTrue heq =>
      obtain ⟨rfl, rfl, rfl, rfl⟩ := heq
      simp
    case isFalse hne =>
      refine ⟨fun _ => .inr ?_, fun _ => recordDivergence_ne_none _ _⟩
      rintro ⟨_, heq⟩
      cases heq
      exact hne ⟨rfl, rfl, rfl, rfl⟩
  case h_3 ev evs hne hlog =>
    rw [hlog]
    refine ⟨fun _ => .inr ?_, fun _ => recordDivergence_ne_none _ _⟩
    rintro ⟨_, heq⟩
    cases heq
    exact hne _ _ _ _ rfl

section Accesses

variable {δ ρ π : Type} [BlockDevice δ] [PacketBackend ρ] [PciBackend π]

theorem replayRead_log (p : Player) (b : MachineBus δ ρ π) (address : Long) (width : AccessWidth)
    (pc : Long) :
    (replayRead p b address width pc).2.1.log <:+ p.log ∧
      (replayRead p b address width pc).2.1.ordinal = p.ordinal := by
  unfold replayRead
  split
  · exact ⟨List.suffix_refl _, rfl⟩
  · exact ⟨List.suffix_refl _, rfl⟩
  · unfold Player.readRam
    dsimp only
    split <;> exact ⟨List.suffix_refl _, rfl⟩
  · exact p.expectIoRead_log address width.bytes pc

theorem replayWrite_log (p : Player) (b : MachineBus δ ρ π) (address : Long) (width : AccessWidth)
    (value pc : Long) :
    (replayWrite p b address width value pc).1.log <:+ p.log ∧
      (replayWrite p b address width value pc).1.ordinal = p.ordinal := by
  unfold replayWrite
  split
  · exact ⟨List.suffix_refl _, rfl⟩
  · exact ⟨List.suffix_refl _, rfl⟩
  · unfold Player.writeRam
    dsimp only
    split <;> exact ⟨List.suffix_refl _, rfl⟩
  · exact p.expectIoWrite_log address width.bytes value pc

/-- The log or RAM has no answer: the next event is not this `Io` access, or RAM ends before. -/
def readRefused (p : Player) (r : GuestRam) (address : Long) (width : AccessWidth) : Prop :=
  match p.classify address with
  | .io => ¬p.NextIsRead address width.bytes
  | .ram => GuestMemory.ramSlice r address (BitVec.ofNat 32 width.bytes) = none
  | .rom | .openBus => False

def writeRefused (p : Player) (r : GuestRam) (address : Long) (width : AccessWidth)
    (value : Long) : Prop :=
  match p.classify address with
  | .io => ¬p.NextIsWrite address width.bytes value
  | .ram => GuestMemory.ramSliceMut r address (BitVec.ofNat 32 width.bytes) = none
  | .rom | .openBus => False

theorem replayRead_divergence (p : Player) (b : MachineBus δ ρ π) (address : Long)
    (width : AccessWidth) (pc : Long) :
    (replayRead p b address width pc).2.1.divergence ≠ none ↔
      p.divergence ≠ none ∨ readRefused p b.ram address width := by
  unfold replayRead readRefused
  cases p.classify address with
  | rom | openBus => exact (iff_of_eq (or_false _)).symm
  | ram =>
    unfold Player.readRam
    dsimp only
    cases hslice : GuestMemory.ramSlice b.ram address (BitVec.ofNat 32 width.bytes) with
    | none => exact ⟨fun _ => .inr rfl, fun _ => p.recordDivergence_ne_none _⟩
    | some bytes => simp
  | io => exact p.expectIoRead_divergence address width.bytes pc

theorem replayWrite_divergence (p : Player) (b : MachineBus δ ρ π) (address : Long)
    (width : AccessWidth) (value pc : Long) :
    (replayWrite p b address width value pc).1.divergence ≠ none ↔
      p.divergence ≠ none ∨ writeRefused p b.ram address width value := by
  unfold replayWrite writeRefused
  cases p.classify address with
  | rom | openBus => exact (iff_of_eq (or_false _)).symm
  | ram =>
    unfold Player.writeRam
    dsimp only
    cases hslice : GuestMemory.ramSliceMut b.ram address (BitVec.ofNat 32 width.bytes) with
    | none => exact ⟨fun _ => .inr rfl, fun _ => p.recordDivergence_ne_none _⟩
    | some slot => simp
  | io => exact p.expectIoWrite_divergence address width.bytes value pc

end Accesses

/-! ## Overdue ticks -/

/-- The ordinal of the last event of a log. -/
def lastOrdinal (log : List Event) : Nat := (log.getLast?.map Event.ordinal).getD 0

/-- The greatest ordinal of a log. -/
def greatestOrdinal (log : List Event) : Nat := (log.map Event.ordinal).foldr max 0

theorem ordinal_le_greatest {log : List Event} {ev : Event} (h : ev ∈ log) :
    ev.ordinal ≤ greatestOrdinal log := by
  induction log with
  | nil => cases h
  | cons head tail ih =>
    have hcons : greatestOrdinal (head :: tail) = max head.ordinal (greatestOrdinal tail) := rfl
    rw [hcons]
    rcases List.mem_cons.mp h with rfl | h
    · exact Nat.le_max_left _ _
    · exact Nat.le_trans (ih h) (Nat.le_max_right _ _)

theorem lastOrdinal_le_greatest (log : List Event) : lastOrdinal log ≤ greatestOrdinal log := by
  unfold lastOrdinal
  cases h : log.getLast? with
  | none => exact Nat.zero_le _
  | some ev => exact ordinal_le_greatest (List.mem_of_getLast? h)

namespace ReplayRun

variable {γ δ ρ π : Type}

/-- What the next drain leaves of the log. -/
def leftover (s : ReplayRun γ δ ρ π) : List Event :=
  s.player.log.dropWhile (Event.dueAt (s.player.ordinal + 1))

/-- The next action is the hook, or a line that passes while the CPU is stopped. -/
def Ticks (cpu : GuestCpu γ) (s : ReplayRun γ δ ρ π) : Prop :=
  match cpu.action s.cpu with
  | .retire _ => True
  | .exit .stopped next => cpu.intMask next &&& 0x0700 ≠ 0x0700
  | _ => False

/-- The next tick meets no `End` record, and has passed the last event of the log, or an I/O event
that is still next. -/
structure Overdue (log : List Event) (s : ReplayRun γ δ ρ π) : Prop where
  endless : s.due.filterMap Event.finish? = []
  exhausted : s.leftover = [] → lastOrdinal log < s.player.ordinal + 1
  skipped : ∀ ev evs, s.leftover = ev :: evs → ev.isIo ∧ ev.ordinal < s.player.ordinal + 1

/-- The next action is an access that the log or RAM has no answer to. -/
def Refused (cpu : GuestCpu γ) (s : ReplayRun γ δ ρ π) : Prop :=
  match cpu.action s.cpu with
  | .read address width _ => readRefused s.player s.bus.ram address width
  | .write address width value _ => writeRefused s.player s.bus.ram address width value
  | _ => False

/-- The next action is the hook, and the last checkpoint it drains has other registers. -/
def CheckpointDiffers (cpu : GuestCpu γ) (s : ReplayRun γ δ ρ π) : Prop :=
  ∃ next ordinal expected, cpu.action s.cpu = .retire next ∧
    (s.due.filterMap Event.checkpoint?).getLast? = some (ordinal, expected) ∧
    expected ≠ cpu.regs ({ s with cpu := next }.drain cpu).2.cpu

variable [BlockDevice δ] [PacketBackend ρ] [PciBackend π]

/-- The pass ends the run with a divergence. -/
def Stops (cpu : GuestCpu γ) (s : ReplayRun γ δ ρ π) : Prop :=
  ∃ t d, s.pass cpu = .done t ∧ t.outcome = some (.wedged d)

variable {cpu : GuestCpu γ} {log : List Event} {s : ReplayRun γ δ ρ π}

omit [BlockDevice δ] [PacketBackend ρ] [PciBackend π] in
/-- Without an `End` record a drain records nothing, and the run is told of none. -/
theorem drain_endless (cpu : GuestCpu γ) (h : s.due.filterMap Event.finish? = []) :
    (s.drain cpu).1.finish = none ∧ (s.drain cpu).2.player.divergence = s.player.divergence := by
  constructor
  · rw [drain_finish, h]
    rfl
  · exact Player.drainFrom_divergence (p := s.player.advanceOrdinal) h s.bus.ram .none

omit [BlockDevice δ] [PacketBackend ρ] [PciBackend π] in
/-- The run stops after a drain without an `End` record exactly where something has diverged. -/
theorem afterDrain_stops_iff (cpu : GuestCpu γ) {effects : DrainedEffects}
    (h : effects.finish = none) :
    (∃ t d, s.afterDrain cpu effects = .done t ∧ t.outcome = some (.wedged d)) ↔
      s.player.divergence ≠ none := by
  unfold afterDrain
  rw [h]
  cases hdiv : s.player.divergence with
  | none =>
    refine ⟨?_, fun hne => absurd rfl hne⟩
    rintro ⟨t, d, ht, -⟩
    cases ht
  | some d => exact ⟨fun _ => nofun, fun _ => ⟨_, d, rfl, rfl⟩⟩

omit [BlockDevice δ] [PacketBackend ρ] [PciBackend π] in
theorem compareCheckpoint_divergence (cpu : GuestCpu γ) (checkpoint : Option (Nat × Regs)) :
    (s.compareCheckpoint cpu checkpoint).player.divergence ≠ none ↔
      s.player.divergence ≠ none ∨
        ∃ ordinal expected, checkpoint = some (ordinal, expected) ∧ expected ≠ cpu.regs s.cpu := by
  unfold compareCheckpoint
  cases checkpoint with
  | none => simp
  | some info =>
    obtain ⟨ordinal, expected⟩ := info
    dsimp only
    split
    case isTrue hne =>
      refine ⟨fun _ => .inr ⟨ordinal, expected, rfl, hne⟩, fun _ hnone => ?_⟩
      exact (Player.recordDivergence_divergence _ _).mp hnone
    case isFalse heq =>
      refine ⟨.inl, ?_⟩
      rintro (h | ⟨_, _, ⟨⟩, hne⟩)
      · exact h
      · exact absurd hne heq

/-- **One tick** without an `End` record stops exactly when something diverges by then. -/
theorem overdue_stops_iff (hticks : Ticks cpu s) (h : Overdue log s) :
    Stops cpu s ↔ s.player.divergence ≠ none ∨ CheckpointDiffers cpu s := by
  unfold Ticks at hticks
  unfold Stops CheckpointDiffers pass
  split at hticks
  case h_1 next hact =>
    rw [hact]
    obtain ⟨hfinish, hdiv⟩ := drain_endless cpu (s := { s with cpu := next }) h.endless
    have hstops := afterDrain_stops_iff cpu hfinish
      (s := ({ s with cpu := next }.drain cpu).2.compareCheckpoint cpu
        ({ s with cpu := next }.drain cpu).1.checkpoint)
    have hcompared := compareCheckpoint_divergence cpu (s := ({ s with cpu := next }.drain cpu).2)
      ({ s with cpu := next }.drain cpu).1.checkpoint
    rw [hdiv] at hcompared
    refine hstops.trans (hcompared.trans (or_congr_right ?_))
    rw [drain_checkpoint]
    constructor
    · rintro ⟨ordinal, expected, hcheckpoint, hne⟩
      exact ⟨next, ordinal, expected, rfl, hcheckpoint, hne⟩
    · rintro ⟨_, ordinal, expected, ⟨⟩, hcheckpoint, hne⟩
      exact ⟨ordinal, expected, hcheckpoint, hne⟩
  case h_2 next hact =>
    rw [hact]
    obtain ⟨hfinish, hdiv⟩ := drain_endless cpu (s := { s with cpu := next }) h.endless
    have hstops := afterDrain_stops_iff cpu hfinish (s := ({ s with cpu := next }.drain cpu).2)
    rw [hdiv] at hstops
    have hpass : ReplayRun.stopped cpu { s with cpu := next } =
        ({ s with cpu := next }.drain cpu).2.afterDrain cpu ({ s with cpu := next }.drain cpu).1 :=
      if_neg hticks
    dsimp only
    rw [hpass]
    refine hstops.trans ⟨.inl, ?_⟩
    -- a stopped CPU compares no checkpoint
    rintro (hne | ⟨_, _, _, ⟨⟩, _⟩)
    exact hne
  case h_3 => exact hticks.elim

/-! ## Runs -/

/-- What a pass that goes on leaves of the log and the ordinal, and when it leaves a divergence. -/
structure GoesOn (cpu : GuestCpu γ) (s t : ReplayRun γ δ ρ π) : Prop where
  suffix : t.player.log <:+ s.player.log
  divergence : t.player.divergence ≠ none ↔ s.player.divergence ≠ none ∨ Refused cpu s
  ordinal : t.player.ordinal = s.player.ordinal ∨
    Ticks cpu s ∧ t.player.ordinal = s.player.ordinal + 1 ∧ s.due.filterMap Event.finish? = []

omit [BlockDevice δ] [PacketBackend ρ] [PciBackend π] in
/-- A tick that does not end the run met no `End` record and no divergence. -/
theorem tick_goesOn (next : γ) {effects : DrainedEffects} {t u : ReplayRun γ δ ρ π}
    (h : u.afterDrain cpu effects = .again t) (hticks : Ticks cpu s) (hrefused : ¬Refused cpu s)
    (heffects : effects = ({ s with cpu := next }.drain cpu).1)
    (hlog : u.player.log = ({ s with cpu := next }.drain cpu).2.player.log)
    (hordinal : u.player.ordinal = ({ s with cpu := next }.drain cpu).2.player.ordinal)
    (hdiv : ({ s with cpu := next }.drain cpu).2.player.divergence ≠ none →
      u.player.divergence ≠ none) : GoesOn cpu s t := by
  obtain ⟨rfl, hnone, hfinish⟩ := afterDrain_again h
  have hspec := s.player.advanceOrdinal.drainFrom_spec s.bus.ram .none s.player.log
  rw [heffects, drain_finish, List.getLast?_eq_none_iff] at hfinish
  have hsame := (drain_endless cpu (s := { s with cpu := next }) hfinish).2
  refine ⟨?_, ?_, .inr ⟨hticks, hordinal.trans hspec.ordinal_eq, hfinish⟩⟩
  · rw [hlog]
    exact ⟨_, hspec.log_eq.symm⟩
  · refine ⟨fun hne => absurd hnone hne, ?_⟩
    rintro (hne | hrefuses)
    · exact hdiv (hsame ▸ hne)
    · exact absurd hrefuses hrefused

theorem pass_goesOn {t : ReplayRun γ δ ρ π} (h : s.pass cpu = .again t) : GoesOn cpu s t := by
  unfold pass at h
  split at h
  case h_1 address width next hact =>
    cases h
    obtain ⟨hlog, hordinal⟩ := replayRead_log s.player s.bus address width s.lastPc
    refine ⟨hlog, ?_, .inl hordinal⟩
    unfold Refused
    rw [hact]
    exact replayRead_divergence s.player s.bus address width s.lastPc
  case h_2 address width value next hact =>
    cases h
    obtain ⟨hlog, hordinal⟩ := replayWrite_log s.player s.bus address width value s.lastPc
    refine ⟨hlog, ?_, .inl hordinal⟩
    unfold Refused
    rw [hact]
    exact replayWrite_divergence s.player s.bus address width value s.lastPc
  case h_3 next hact =>
    have hcompare (u : ReplayRun γ δ ρ π) (checkpoint : Option (Nat × Regs)) :
        (u.compareCheckpoint cpu checkpoint).player.log = u.player.log ∧
          (u.compareCheckpoint cpu checkpoint).player.ordinal = u.player.ordinal := by
      unfold compareCheckpoint
      split
      · split <;> exact ⟨rfl, rfl⟩
      · exact ⟨rfl, rfl⟩
    refine tick_goesOn next h ?_ ?_ rfl (hcompare _ _).1 (hcompare _ _).2 fun hne => ?_
    · unfold Ticks
      rw [hact]
      trivial
    · unfold Refused
      rw [hact]
      exact not_false
    · exact (compareCheckpoint_divergence cpu _).mpr (.inl hne)
  case h_6 next hact =>
    unfold ReplayRun.stopped at h
    split at h
    case isTrue => cases h
    case isFalse hmask =>
      refine tick_goesOn next h ?_ ?_ rfl rfl rfl id
      · unfold Ticks
        rw [hact]
        exact hmask
      · unfold Refused
        rw [hact]
        exact not_false
  -- the other exits leave the player alone
  all_goals
    rename_i hact
    cases h
    refine ⟨List.suffix_refl _, ?_, .inl rfl⟩
    unfold Refused
    rw [hact]
    exact (iff_of_eq (or_false _)).symm

omit [BlockDevice δ] [PacketBackend ρ] [PciBackend π] in
/-- A tick beyond every ordinal of the log is overdue, unless an `End` record is due. -/
theorem overdue_of_greatest (hlog : s.player.log <:+ log)
    (hfinish : s.due.filterMap Event.finish? = [])
    (h : greatestOrdinal log < s.player.ordinal + 1) : Overdue log s where
  endless := hfinish
  exhausted _ := Nat.lt_of_le_of_lt (lastOrdinal_le_greatest log) h
  skipped ev evs hleft := by
    have hmem : ev ∈ s.player.log := by
      refine (List.dropWhile_suffix (Event.dueAt (s.player.ordinal + 1))).subset ?_
      show ev ∈ s.leftover
      rw [hleft]
      exact List.mem_cons_self
    have hordinal : ev.ordinal < s.player.ordinal + 1 :=
      Nat.lt_of_le_of_lt (ordinal_le_greatest (hlog.subset hmem)) h
    -- it is not due, so it is an access
    have hdue : Event.dueAt (s.player.ordinal + 1) ev = false := by
      have hhead := List.head?_dropWhile_not (Event.dueAt (s.player.ordinal + 1)) s.player.log
      rw [show s.player.log.dropWhile _ = ev :: evs from hleft] at hhead
      simpa using hhead
    rw [Event.dueAt, decide_eq_true (Nat.le_of_lt hordinal)] at hdue
    exact ⟨by simpa using hdue, hordinal⟩

/-- A divergence that has not ended the run yet is of an access before. -/
theorem divergence_iff_refused {s₀ : ReplayRun γ δ ρ π} (h₀ : s₀.player.divergence = none) {n : Nat}
    (h : Loop.Iterates (pass cpu) n s₀ s) :
    s.player.divergence ≠ none ↔
      ∃ m < n, ∃ u, Loop.Iterates (pass cpu) m s₀ u ∧ Refused cpu u := by
  have hinv := h.invariant
    (P := fun k t => Loop.Iterates (pass cpu) k s₀ t ∧ (t.player.divergence ≠ none ↔
      ∃ m < k, ∃ u, Loop.Iterates (pass cpu) m s₀ u ∧ Refused cpu u)) ?_ 0
    ⟨.zero _, fun hne => absurd h₀ hne, fun ⟨m, hm, _⟩ => absurd hm (Nat.not_lt_zero m)⟩
  · rw [Nat.zero_add] at hinv
    exact hinv.2
  · rintro k t v ⟨hiter, hiff⟩ hv
    refine ⟨hiter.snoc hv, (pass_goesOn hv).divergence.trans ?_⟩
    rw [hiff]
    constructor
    · rintro (⟨m, hm, u, hu, hrefused⟩ | hrefused)
      · exact ⟨m, Nat.lt_succ_of_lt hm, u, hu, hrefused⟩
      · exact ⟨k, Nat.lt_succ_self k, t, hiter, hrefused⟩
    · rintro ⟨m, hm, u, hu, hrefused⟩
      rcases Nat.lt_or_eq_of_le (Nat.le_of_lt_succ hm) with hlt | rfl
      · exact .inl ⟨m, hlt, u, hu, hrefused⟩
      · exact .inr (hu.unique hiter ▸ hrefused)

/-- Before the tick after `n` passes an access was refused, or its checkpoint differs. -/
def Noticed (cpu : GuestCpu γ) (s₀ : ReplayRun γ δ ρ π) (n : Nat) (s : ReplayRun γ δ ρ π) : Prop :=
  (∃ m < n, ∃ u, Loop.Iterates (pass cpu) m s₀ u ∧ Refused cpu u) ∨ CheckpointDiffers cpu s

theorem stops_iff_noticed {s₀ : ReplayRun γ δ ρ π} (h₀ : s₀.player.divergence = none) {n : Nat}
    (h : Loop.Iterates (pass cpu) n s₀ s) (hticks : Ticks cpu s) (hover : Overdue log s) :
    Stops cpu s ↔ Noticed cpu s₀ n s :=
  (overdue_stops_iff hticks hover).trans (or_congr_left (divergence_iff_refused h₀ h))

/-- **When a truncated log stops its replay.** Every overdue tick of a run stops it with a
divergence exactly when before each an access was refused, or its checkpoint differs. No ordinal
then comes to pass beyond those of the log. -/
theorem truncated_log_stops_iff (cpu : GuestCpu γ) (c : γ) (bus : MachineBus δ ρ π)
    (table : PageTable) (log : List Event) (lastPc : Long) :
    let s₀ := start c bus table log lastPc
    ((∀ n s, Loop.Iterates (pass cpu) n s₀ s → Ticks cpu s → Overdue log s → Stops cpu s) ↔
      ∀ n s, Loop.Iterates (pass cpu) n s₀ s → Ticks cpu s → Overdue log s →
        Noticed cpu s₀ n s) ∧
    ((∀ n s, Loop.Iterates (pass cpu) n s₀ s → Ticks cpu s → Overdue log s → Noticed cpu s₀ n s) →
      ∀ n s, Loop.Iterates (pass cpu) n s₀ s → s.player.ordinal ≤ greatestOrdinal log) := by
  intro s₀
  have h₀ : s₀.player.divergence = none := rfl
  constructor
  · constructor
    · intro h n s hrun hticks hover
      exact (stops_iff_noticed h₀ hrun hticks hover).mp (h n s hrun hticks hover)
    · intro h n s hrun hticks hover
      exact (stops_iff_noticed h₀ hrun hticks hover).mpr (h n s hrun hticks hover)
  · intro hnoticed n s hrun
    have hinv := hrun.invariant
      (P := fun m u => Loop.Iterates (pass cpu) m s₀ u ∧ u.player.log <:+ log ∧
        u.player.ordinal ≤ greatestOrdinal log) ?_ 0 ⟨.zero _, List.suffix_refl _, Nat.zero_le _⟩
    · exact hinv.2.2
    · rintro m u v ⟨hiter, hlog, hle⟩ huv
      have hpass := pass_goesOn huv
      refine ⟨hiter.snoc huv, hpass.suffix.trans hlog, ?_⟩
      rcases hpass.ordinal with hsame | ⟨hticks, hordinal, hfinish⟩
      · exact hsame.trans_le hle
      · by_contra hlt
        have hover := overdue_of_greatest hlog hfinish (by omega)
        obtain ⟨t, d, hdone, -⟩ :=
          (stops_iff_noticed h₀ hiter hticks hover).mpr (hnoticed m u hiter hticks hover)
        rw [hdone] at huv
        cases huv

/-! ## A replay that runs on -/

/-- A CPU that retires instructions and touches no device. -/
def retiringCpu : GuestCpu Unit where
  action _ := .retire ()
  regs _ := zeroRegs
  intMask _ := 0
  setIrq c _ := c
  takeException c _ := c

/-- A log that was cut behind its first event. -/
def cutLog : List Event := [.iplChange 1 3]

def cutStart : ReplayRun Unit MemDisk Empty Empty := start () emptyBus (fun _ => .io) cutLog 0

/-- Nothing has diverged, and what is left is the event before the cut. -/
structure Cut (s : ReplayRun Unit MemDisk Empty Empty) : Prop where
  agrees : s.player.divergence = none
  left : ∀ ev ∈ s.player.log, ev = .iplChange 1 3

/-- Nothing that is left is compared with anything. -/
theorem Cut.filterMap_due {α : Type} {s : ReplayRun Unit MemDisk Empty Empty} (h : Cut s)
    {f : Event → Option α} (hf : f (.iplChange 1 3) = none) : s.due.filterMap f = [] := by
  refine List.filterMap_eq_nil_iff.mpr fun ev hev => ?_
  rw [h.left ev ((List.takeWhile_prefix _).subset hev)]
  exact hf

theorem Cut.pass {s : ReplayRun Unit MemDisk Empty Empty} (h : Cut s) :
    ∃ t, s.pass retiringCpu = .again t ∧ Cut t ∧ t.player.ordinal = s.player.ordinal + 1 := by
  obtain ⟨hfinish, hdiv⟩ := drain_endless retiringCpu (h.filterMap_due rfl)
  have hcheckpoint : (s.drain retiringCpu).1.checkpoint = none := by
    rw [drain_checkpoint, h.filterMap_due rfl]
    rfl
  have hagain : s.pass retiringCpu = .again (s.drain retiringCpu).2 := by
    show ((s.drain retiringCpu).2.compareCheckpoint retiringCpu
      (s.drain retiringCpu).1.checkpoint).afterDrain retiringCpu (s.drain retiringCpu).1 = _
    rw [hcheckpoint]
    show (s.drain retiringCpu).2.afterDrain retiringCpu (s.drain retiringCpu).1 = _
    unfold afterDrain
    rw [hfinish, hdiv, h.agrees]
  have hspec := s.player.advanceOrdinal.drainFrom_spec s.bus.ram .none s.player.log
  refine ⟨_, hagain, ⟨hdiv.trans h.agrees, fun ev hev => h.left ev ?_⟩, hspec.ordinal_eq⟩
  exact (pass_goesOn hagain).suffix.subset hev

/-- From its second instruction on it is overdue. -/
theorem Cut.overdue {s : ReplayRun Unit MemDisk Empty Empty} (h : Cut s)
    (hordinal : 1 ≤ s.player.ordinal) : Overdue cutLog s := by
  have hleft : s.leftover = [] := by
    refine List.dropWhile_eq_nil_iff.mpr fun ev hev => ?_
    rw [h.left ev hev]
    simp only [Event.dueAt, Event.ordinal, Event.isIo, Bool.not_false, Bool.and_true]
    exact decide_eq_true (Nat.le_add_left 1 _)
  refine ⟨h.filterMap_due rfl, fun _ => Nat.lt_succ_of_le hordinal, fun ev evs hcons => ?_⟩
  rw [hleft] at hcons
  cases hcons

/-- The CPU never asks the log, so the replay of the cut log does not return. -/
theorem cut_log_runs_on :
    (∀ fuel, Loop.run (pass retiringCpu) fuel cutStart = none) ∧
      ∃ n s, Loop.Iterates (pass retiringCpu) n cutStart s ∧ Ticks retiringCpu s ∧
        Overdue cutLog s ∧ ¬Stops retiringCpu s := by
  have hstart : Cut cutStart := by
    refine ⟨rfl, fun ev hev => ?_⟩
    exact List.mem_singleton.mp hev
  have hpass (s : ReplayRun Unit MemDisk Empty Empty) (hs : Cut s) :
      ∃ t, s.pass retiringCpu = .again t ∧ Cut t := by
    obtain ⟨t, ht, hcut, -⟩ := hs.pass
    exact ⟨t, ht, hcut⟩
  refine ⟨Loop.run_eq_none hpass hstart, ?_⟩
  obtain ⟨s, hs, hcut, hordinal⟩ := hstart.pass
  refine ⟨1, s, .succ hs (.zero s), trivial, hcut.overdue hordinal.ge, ?_⟩
  rintro ⟨t, d, hdone, -⟩
  obtain ⟨u, hagain, -, -⟩ := hcut.pass
  rw [hagain] at hdone
  cases hdone

end ReplayRun

end M68kMachine
