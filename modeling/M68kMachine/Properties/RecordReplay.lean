import M68kMachine.Properties.Recordings

/-!
# A recording replays clean

The log of a recorded run, played against a machine built the same way but whose devices never tick.
As long as the CPU does what a player can repeat, each pass does what the recorded pass did: the CPU
gets the same values, and RAM is the same after every tick.

* `Player.drainFrom_append` — what a drain makes of records that do not end it
* `Follows` — a replay that has come to where the recording was
* `drain_tick` — a drain repeats a recorded tick
-/

namespace M68kMachine

open Autoconfig AutoConfig BusDevices MachineBus

/-! ## Drains -/

/-- The level of a record of the interrupt level. -/
def Event.ipl? : Event → Option Byte
  | iplChange _ level => some level
  | _ => none

/-- The table of a record of a change. -/
def Event.table? : Event → Option PageTable
  | classificationTransition _ table => some table
  | _ => none

/-- What a player has taken over from `evs`. -/
structure Player.Applied (p p' : Player) (out out' : DrainedEffects) (evs : List Event) : Prop where
  ordinal : p'.ordinal = p.ordinal
  divergence : p'.divergence = p.divergence
  table : p'.table = ((evs.filterMap Event.table?).getLast?).getD p.table
  ipl : out'.ipl = (evs.filterMap Event.ipl?).getLast?.or out.ipl
  checkpoint : out'.checkpoint = (evs.filterMap Event.checkpoint?).getLast?.or out.checkpoint
  finish : out'.finish = out.finish

theorem Player.Applied.nothing (p : Player) (out : DrainedEffects) : p.Applied p out out [] :=
  ⟨rfl, rfl, rfl, rfl, rfl, rfl⟩

theorem Player.Applied.trans {p p' p'' : Player} {out out' out'' : DrainedEffects}
    {evs evs' : List Event} (h : p.Applied p' out out' evs) (h' : p'.Applied p'' out' out'' evs') :
    p.Applied p'' out out'' (evs ++ evs') where
  ordinal := h'.ordinal.trans h.ordinal
  divergence := h'.divergence.trans h.divergence
  table := by
    rw [h'.table, h.table, List.filterMap_append, List.getLast?_append]
    cases (evs'.filterMap Event.table?).getLast? <;> rfl
  ipl := by
    rw [h'.ipl, h.ipl, List.filterMap_append, List.getLast?_append, Option.or_assoc]
  checkpoint := by
    rw [h'.checkpoint, h.checkpoint, List.filterMap_append, List.getLast?_append, Option.or_assoc]
  finish := h'.finish.trans h.finish

/-- A drain takes the next record. -/
theorem Player.drainFrom_cons (p : Player) (r : GuestRam) (out : DrainedEffects) {ev : Event}
    (hdue : ev.dueAt p.ordinal = true) (hfinish : ev.finish? = none) : ∃ p' out',
    (∀ evs, p.drainFrom r out (ev :: evs) = p'.drainFrom (ev.applyTo r) out' evs) ∧
      p.Applied p' out out' [ev] := by
  simp only [Event.dueAt, Bool.and_eq_true, decide_eq_true_eq] at hdue
  obtain ⟨hle, hio⟩ := hdue
  have hlater : ¬p.ordinal < ev.ordinal := Nat.not_lt.mpr hle
  cases ev with
  | deviceWrite ordinal addr bytes =>
    exact ⟨_, _, fun evs => if_neg hlater, rfl, rfl, rfl, rfl, rfl, rfl⟩
  | classificationTransition ordinal table =>
    exact ⟨_, _, fun evs => if_neg hlater, rfl, rfl, rfl, rfl, rfl, rfl⟩
  | iplChange ordinal level =>
    exact ⟨_, _, fun evs => if_neg hlater, rfl, rfl, rfl, rfl, rfl, rfl⟩
  | checkpoint ordinal regs =>
    exact ⟨_, _, fun evs => if_neg hlater, rfl, rfl, rfl, rfl, rfl, rfl⟩
  | finish ordinal total regs chip fast => cases hfinish
  | ioRead ordinal addr width value => simp [Event.isIo] at hio
  | ioWrite ordinal addr width value => simp [Event.isIo] at hio

/-- **A drain takes the records that are due one after the other.** -/
theorem Player.drainFrom_append (rest : List Event) : ∀ (evs : List Event) (p : Player)
    (r : GuestRam) (out : DrainedEffects),
    (∀ ev ∈ evs, ev.dueAt p.ordinal = true ∧ ev.finish? = none) →
    ∃ p' out', p.drainFrom r out (evs ++ rest) =
      p'.drainFrom (evs.foldl Event.applyTo r) out' rest ∧ p.Applied p' out out' evs
  | [], p, r, out, _ => ⟨p, out, rfl, .nothing p out⟩
  | ev :: evs, p, r, out, h => by
    obtain ⟨hdue, hfinish⟩ := h ev List.mem_cons_self
    obtain ⟨p', out', hcons, hfirst⟩ := p.drainFrom_cons r out hdue hfinish
    obtain ⟨p'', out'', heq, hrest⟩ := drainFrom_append rest evs p' (ev.applyTo r) out'
      fun e he => by
        rw [hfirst.ordinal]
        exact h e (List.mem_cons_of_mem ev he)
    exact ⟨p'', out'', (hcons _).trans heq, hfirst.trans hrest⟩

/-- What a player takes over from the records of a tick. -/
structure TickEffects (rec : Recorder) (level : Byte) (r : GuestRam) (regs : Regs)
    (evs : List Event) : Prop where
  due : ∀ ev ∈ evs, ev.dueAt rec.ordinal = true ∧ ev.finish? = none
  table : evs.filterMap Event.table? = []
  ipl : evs.filterMap Event.ipl? = if level = rec.lastIpl then [] else [level]
  checkpoint : evs.filterMap Event.checkpoint? = [] ∨
    evs.filterMap Event.checkpoint? = [(rec.ordinal, regs)]
  ram : ∀ m, evs.foldl Event.applyTo m = replaySpans r m (Recorder.tickSpans r)

theorem tickEffects (rec : Recorder) (level : Byte) (r : GuestRam) (regs : Regs) :
    TickEffects rec level r regs (rec.tickRecords level r regs) := by
  have hspan {ev : Event} (h : ev ∈ spanEvents rec.ordinal r (Recorder.tickSpans r)) :
      ∃ addr bytes, ev = .deviceWrite rec.ordinal addr bytes := by
    obtain ⟨span, -, hev⟩ := List.mem_filterMap.mp h
    obtain ⟨bytes, -, rfl⟩ := Option.map_eq_some_iff.mp hev
    exact ⟨_, _, rfl⟩
  have hnone {α : Type} (f : Event → Option α)
      (hf : ∀ addr bytes, f (.deviceWrite rec.ordinal addr bytes) = none) :
      (spanEvents rec.ordinal r (Recorder.tickSpans r)).filterMap f = [] := by
    rw [List.filterMap_eq_nil_iff]
    intro ev hev
    obtain ⟨addr, bytes, rfl⟩ := hspan hev
    exact hf addr bytes
  unfold Recorder.tickRecords
  refine ⟨fun ev hev => ?_, ?_, ?_, ?_, fun m => ?_⟩
  · simp only [List.mem_append] at hev
    rcases hev with (hev | hev) | hev
    · split_ifs at hev
      · cases hev
      · rw [List.mem_singleton.mp hev]
        simp [Event.dueAt, Event.ordinal, Event.isIo, Event.finish?]
    · obtain ⟨addr, bytes, rfl⟩ := hspan hev
      simp [Event.dueAt, Event.ordinal, Event.isIo, Event.finish?]
    · split_ifs at hev
      · cases hev
      · rw [List.mem_singleton.mp hev]
        simp [Event.dueAt, Event.ordinal, Event.isIo, Event.finish?]
  · rw [List.filterMap_append, List.filterMap_append, hnone _ fun _ _ => rfl]
    split_ifs <;> rfl
  · rw [List.filterMap_append, List.filterMap_append, hnone _ fun _ _ => rfl]
    split_ifs <;> rfl
  · rw [List.filterMap_append, List.filterMap_append, hnone _ fun _ _ => rfl]
    by_cases hlevel : level = rec.lastIpl <;> simp only [hlevel, if_true, if_false] <;>
      split_ifs <;> simp [Event.checkpoint?]
  · rw [List.foldl_append, List.foldl_append, ← applyTo_spanEvents rec.ordinal]
    split_ifs <;> rfl

/-! ## After a drain -/

namespace ReplayRun

variable {γ δ ρ π : Type} {cpu : GuestCpu γ} {t : ReplayRun γ δ ρ π} {next : γ}
  {out : DrainedEffects}

/-- A halt without a divergence, at the registers that the end is recorded with. -/
theorem cleanHalt_agreed {s : ReplayRun γ δ ρ π} {ordinal total : Nat}
    (hagreed : s.player.divergence = none)
    (hend : s.endInfo = some (ordinal, total, cpu.regs s.cpu)) :
    (s.cleanHalt cpu).Clean ∧ (s.cleanHalt cpu).cpu = s.cpu ∧ (s.cleanHalt cpu).bus = s.bus := by
  unfold cleanHalt
  rw [hend]
  simp only [ne_eq, not_true_eq_false, if_false]
  rw [hagreed]
  exact ⟨⟨_, _, _, _, _, _, _, rfl⟩, trivial, trivial⟩

/-- The state after a drain whose checkpoint, if there is one, agrees. -/
theorem hook_of_drain {p : Player} {g : GuestRam}
    (hdrain : t.player.advanceOrdinal.drainSideEffects t.bus.ram = (p, g, out))
    (hcheck : ∀ ordinal regs, out.checkpoint = some (ordinal, regs) →
      regs = cpu.regs (out.ipl.elim next (cpu.setIrq next))) :
    ∃ w : ReplayRun γ δ ρ π, w.cpu = out.ipl.elim next (cpu.setIrq next) ∧ w.player = p ∧
      w.bus = t.bus.setRam g ∧ hook cpu { t with cpu := next } = w.afterDrain cpu out ∧
      (cpu.intMask next &&& 0x0700 ≠ 0x0700 →
        stopped cpu { t with cpu := next } = w.afterDrain cpu out) := by
  have hdrain' : drain cpu { t with cpu := next } = (out, { t with
      cpu := out.ipl.elim next (cpu.setIrq next)
      player := p
      bus := t.bus.setRam g
      trace := (drain cpu { t with cpu := next }).2.trace }) := by
    unfold drain
    simp only [hdrain]
  refine ⟨(drain cpu { t with cpu := next }).2, ?_, ?_, ?_, ?_, fun hmask => ?_⟩
  · rw [hdrain']
  · rw [hdrain']
  · rw [hdrain']
  · unfold hook
    rw [hdrain']
    simp only
    congr 1
    unfold compareCheckpoint
    cases hc : out.checkpoint with
    | none => rfl
    | some checkpoint =>
      obtain ⟨ordinal, regs⟩ := checkpoint
      exact if_neg (not_not.mpr (hcheck ordinal regs hc))
  · unfold stopped
    rw [if_neg hmask, hdrain']

/-- Nothing that was drained ends the run. -/
theorem afterDrain_live {w : ReplayRun γ δ ρ π} (hfinish : out.finish = none)
    (hagreed : w.player.divergence = none) : w.afterDrain cpu out = .again w := by
  unfold afterDrain
  rw [hfinish, hagreed]

/-- The end was drained. -/
theorem afterDrain_over {w : ReplayRun γ δ ρ π} {ordinal total : Nat}
    (hfinish : out.finish = some (ordinal, total, cpu.regs w.cpu))
    (hagreed : w.player.divergence = none) :
    ∃ x, w.afterDrain cpu out = .done x ∧ x.Clean ∧ x.cpu = w.cpu ∧ x.bus = w.bus := by
  unfold afterDrain
  rw [hfinish]
  exact ⟨_, rfl, cleanHalt_agreed hagreed rfl⟩

end ReplayRun

/-! ## A replay beside its recording -/

variable {γ δ ρ π η : Type}

/-- The records that are due at the next tick and were written down before it. -/
def Recording.pending (s : Recording γ δ ρ π η) : List Event :=
  if s.told.moved then [.classificationTransition s.recorder.ordinal s.recorder.table] else []

/-- The replay has come to where the recording was, and `rest` is what was recorded after it. -/
structure Follows (s : Recording γ δ ρ π η) (t : ReplayRun γ δ ρ π) (rest : List Event) : Prop where
  cpu : t.cpu = s.run.cpu
  ordinal : t.player.ordinal = s.recorder.ordinal
  agreed : t.player.divergence = none
  table : t.player.table = s.told.table
  log : t.player.log = s.pending ++ rest
  mirrors : Mirrors t.bus.devices s.run.bus.devices
  /-- The end is not due. -/
  live : s.told.regs = none ∨ ∃ ev evs, rest = ev :: evs ∧ ev.dueAt s.recorder.ordinal = false

namespace Recording

variable [BlockDevice δ] [PacketBackend ρ] [PciBackend π] [LawfulPacketBackend ρ]
  [LawfulPciBackend π] {cpu : FixedCpu γ} {level : γ → Byte} {s s' v : Recording γ δ ρ π η}
  {t : ReplayRun γ δ ρ π} {rest : List Event} {next : γ} {ticked : FixedRun γ δ ρ π η}

/-- **The bytes that were recorded at a tick make RAM the same on both sides.** -/
theorem Tick.mirrors {m : BusDevices δ ρ π} (ht : Tick cpu s next ticked s')
    (h : Mirrors m s.run.bus.devices) (hseam : s.run.bus.devices.ram.SeamFree)
    (hlog : s.run.bus.devices.ram.writeLog.isSome) {g : GuestRam}
    (hg : g = replaySpans ticked.bus.ram m.ram (Recorder.tickSpans ticked.bus.ram)) :
    Mirrors { m with ram := g } s'.run.bus.devices ∧ g.chipRam = s'.run.bus.ram.chipRam ∧
      g.fastRam = s'.run.bus.ram.fastRam := by
  obtain ⟨clocks, hbus⟩ := ht.bus
  have halone : Alone s.run.bus.devices ticked.bus.devices := by
    refine ⟨ht.steady.1.toFitted, ?_⟩
    rw [hbus]
    exact (stirred_tick s.run.bus clocks).quiet
  have hticked := h.alone hseam halone
  obtain ⟨log, hsome⟩ := Option.isSome_iff_exists.mp (ht.steady.1.log ▸ hlog)
  have hwhole : log.overflowed = false := by
    have hw := ht.run.whole
    unfold FixedRun.overflowed at hw
    rwa [hsome] at hw
  have hspans : Recorder.tickSpans ticked.bus.ram = log.spans := by
    unfold Recorder.tickSpans MachineBus.ram
    rw [hsome]
    rfl
  rw [hspans] at hg
  obtain ⟨hmap, hchip, hfast⟩ := drained_mirrored hticked.ram hticked.map hsome hwhole
  rw [MachineBus.ram] at hg
  rw [← hg] at hmap hchip hfast
  have hcleared : Mirrors { m with ram := g }
      (ticked.bus.stepHost .clearDeviceWriteSpans).devices := by
    refine ⟨hticked.rom, hticked.chain, hmap, hticked.bridge, hticked.window, hticked.card, ?_⟩
    refine logged_of_same hchip hfast fun log' hlog' => ?_
    obtain ⟨log'', -, rfl⟩ := Option.map_eq_some_iff.mp hlog'
    rfl
  have hram := ht.run.spared.ram
  refine ⟨?_, ?_, ?_⟩
  · refine hcleared.alone ?_ ht.run.spared.alone
    exact hseam.of_sameMap halone.quiet.map.symm
  · unfold MachineBus.ram
    rw [hram]
    exact hchip
  · unfold MachineBus.ram
    rw [hram]
    exact hfast

/-- A player that has taken over everything that was recorded up to a tick. -/
structure CaughtUp (cpu : FixedCpu γ) (s' : Recording γ δ ρ π η) (next : γ)
    (ticked : FixedRun γ δ ρ π η) (bus : MachineBus δ ρ π) (p : Player) (g : GuestRam)
    (out : DrainedEffects) : Prop where
  ordinal : p.ordinal = s'.recorder.ordinal
  agreed : p.divergence = none
  table : p.table = s'.told.table
  finish : out.finish = none
  latched : out.ipl.elim next (cpu.setIrq next) = ticked.cpu
  checkpoint : ∀ ordinal regs, out.checkpoint = some (ordinal, regs) → regs = cpu.regs ticked.cpu
  mirrors : Mirrors (bus.setRam g).devices s'.run.bus.devices
  chip : g.chipRam = s'.run.bus.ram.chipRam
  fast : g.fastRam = s'.run.bus.ram.fastRam

omit [BlockDevice δ] [PacketBackend ρ] [PciBackend π] [LawfulPacketBackend ρ]
  [LawfulPciBackend π] in
theorem filterMap_pending {α : Type} (s : Recording γ δ ρ π η) (f : Event → Option α)
    (hf : ∀ ordinal table, f (.classificationTransition ordinal table) = none) :
    s.pending.filterMap f = [] := by
  unfold pending
  split_ifs
  · rw [List.filterMap_cons_none (hf _ _), List.filterMap_nil]
  · rfl

/-- **A drain repeats a tick.** -/
theorem drain_tick (ht : Tick cpu s next ticked s') (hs : Intact cpu level s)
    (hcpu : LatchesIrq cpu.toGuestCpu level) (hlevel : level next = level s.run.cpu)
    (hclear : FastClear s.run.bus.devices.ram)
    (h : Follows s t (s.recorder.advanceOrdinal.tickRecords
      (BitVec.ofNat 8 ticked.bus.pendingIrqLevel) ticked.bus.ram (cpu.regs ticked.cpu) ++ rest)) :
    ∃ p g out, t.player.advanceOrdinal.drainSideEffects t.bus.ram = p.drainFrom g out rest ∧
      CaughtUp cpu s' next ticked t.bus p g out := by
  have heffects := tickEffects s.recorder.advanceOrdinal
    (BitVec.ofNat 8 ticked.bus.pendingIrqLevel) ticked.bus.ram (cpu.regs ticked.cpu)
  obtain ⟨p, out, heq, happlied⟩ := Player.drainFrom_append rest
    (s.pending ++ s.recorder.advanceOrdinal.tickRecords
      (BitVec.ofNat 8 ticked.bus.pendingIrqLevel) ticked.bus.ram (cpu.regs ticked.cpu))
    t.player.advanceOrdinal t.bus.ram .none (by
      have hordinal : t.player.advanceOrdinal.ordinal = s.recorder.ordinal + 1 :=
        congrArg (· + 1) h.ordinal
      intro ev hev
      rw [hordinal]
      rcases List.mem_append.mp hev with hev | hev
      · unfold pending at hev
        split_ifs at hev
        · rw [List.mem_singleton.mp hev]
          simp [Event.dueAt, Event.ordinal, Event.isIo, Event.finish?]
        · cases hev
      · exact heffects.due ev hev)
  have hram : (s.pending ++ s.recorder.advanceOrdinal.tickRecords
      (BitVec.ofNat 8 ticked.bus.pendingIrqLevel) ticked.bus.ram (cpu.regs ticked.cpu)).foldl
        Event.applyTo t.bus.ram =
      replaySpans ticked.bus.ram t.bus.ram (Recorder.tickSpans ticked.bus.ram) := by
    rw [List.foldl_append, ← heffects.ram]
    unfold pending
    split_ifs <;> rfl
  obtain ⟨hmirrors, hchip, hfast⟩ := ht.mirrors h.mirrors
    (hs.chain.classifiable hclear).seamFree hs.log hram
  refine ⟨p, _, out, ?_, ?_, ?_, ?_, ?_, ?_, ?_, hmirrors, hchip, hfast⟩
  · rw [← heq, List.append_assoc, ← h.log]
    rfl
  · rw [happlied.ordinal, ht.log.2.1, ← h.ordinal]
    rfl
  · exact happlied.divergence.trans h.agreed
  · rw [happlied.table, ht.told, List.filterMap_append, heffects.table, List.append_nil,
      ht.log.2.2]
    unfold pending
    cases hmoved : s.told.moved with
    | true => rfl
    | false => exact h.table.trans (hs.told hmoved)
  · exact happlied.finish
  · rw [happlied.ipl, List.filterMap_append, filterMap_pending _ _ fun _ _ => rfl,
      List.nil_append, heffects.ipl, ht.latched]
    have hlast : s.recorder.advanceOrdinal.lastIpl = level next := hs.level.trans hlevel.symm
    rw [hlast]
    split_ifs with hsame
    · rw [hsame, hcpu.same]
      rfl
    · rfl
  · intro ordinal regs hcheck
    rw [happlied.checkpoint, List.filterMap_append, filterMap_pending _ _ fun _ _ => rfl,
      List.nil_append] at hcheck
    rcases heffects.checkpoint with hnone | hone
    · rw [hnone] at hcheck
      cases hcheck
    · rw [hone] at hcheck
      cases hcheck
      rfl

/-- The replay ended clean, with the registers and the RAM of the recording. -/
structure Replayed (cpu : FixedCpu γ) (v : Recording γ δ ρ π η) (x : ReplayRun γ δ ρ π) :
    Prop where
  clean : x.Clean
  regs : cpu.regs x.cpu = cpu.regs v.run.cpu
  chip : x.bus.ram.chipRam = v.run.bus.ram.chipRam
  fast : x.bus.ram.fastRam = v.run.bus.ram.fastRam

section Ticks

variable (ht : Tick cpu s next ticked s') (hs : Intact cpu level s)
  (hcpu : LatchesIrq cpu.toGuestCpu level) (hlevel : level next = level s.run.cpu)
  (hclear : FastClear s.run.bus.devices.ram)
  (h : Follows s t (s.recorder.advanceOrdinal.tickRecords
    (BitVec.ofNat 8 ticked.bus.pendingIrqLevel) ticked.bus.ram (cpu.regs ticked.cpu) ++ rest))

include ht hs hcpu hlevel hclear h

/-- A tick with later records after it: the replay goes on. -/
theorem replay_tick_later {ev : Event} {evs : List Event} (hrest : rest = ev :: evs)
    (hlater : ev.dueAt s'.recorder.ordinal = false) :
    ∃ t', ReplayRun.hook cpu.toGuestCpu { t with cpu := next } = .again t' ∧
      (cpu.intMask next &&& 0x0700 ≠ 0x0700 →
        ReplayRun.stopped cpu.toGuestCpu { t with cpu := next } = .again t') ∧
      Follows s' t' rest := by
  obtain ⟨p, g, out, heq, hcaught⟩ := drain_tick ht hs hcpu hlevel hclear h
  have hstop : p.drainFrom g out rest = ({ p with log := rest }, g, out) := by
    rw [hrest]
    rw [← hcaught.ordinal] at hlater
    simp only [Event.dueAt, Bool.and_eq_false_iff, decide_eq_false_iff_not] at hlater
    by_cases hordinal : p.ordinal < ev.ordinal
    · exact if_pos hordinal
    · have hio : ev.isIo = true := by
        rcases hlater with hle | hio
        · omega
        · simpa using hio
      unfold Player.drainFrom
      rw [if_neg hordinal]
      cases ev with
      | ioRead ordinal addr width value => rfl
      | ioWrite ordinal addr width value => rfl
      | _ => cases hio
  rw [hstop] at heq
  have hcheck (ordinal : Nat) (regs : Regs) (hc : out.checkpoint = some (ordinal, regs)) :
      regs = cpu.regs (out.ipl.elim next (cpu.setIrq next)) := by
    rw [hcaught.latched]
    exact hcaught.checkpoint ordinal regs hc
  obtain ⟨w, hw, hplayer, hbus, hhook, hstopped⟩ := ReplayRun.hook_of_drain heq hcheck
  have hlive : w.afterDrain cpu.toGuestCpu out = .again w :=
    ReplayRun.afterDrain_live hcaught.finish (by rw [hplayer]; exact hcaught.agreed)
  refine ⟨w, hhook.trans hlive, fun hmask => (hstopped hmask).trans hlive, ?_⟩
  refine ⟨?_, ?_, ?_, ?_, ?_, ?_, .inr ⟨ev, evs, hrest, hlater⟩⟩
  · rw [hw, hcaught.latched, ht.run.cpu]
  · rw [hplayer]
    exact hcaught.ordinal
  · rw [hplayer]
    exact hcaught.agreed
  · rw [hplayer]
    exact hcaught.table
  · rw [hplayer]
    unfold pending
    rw [ht.told]
    rfl
  · rw [hbus]
    exact hcaught.mirrors

/-- A tick with the end after it: the replay is over. -/
theorem replay_tick_over (hregs : s'.told.regs = some (cpu.regs v.run.cpu))
    (hbus : v.run.bus = s'.run.bus)
    (hrest : rest = [.finish s'.recorder.ordinal v.run.totalInstructions (cpu.regs v.run.cpu)
      (ramDigests v.run.bus.ram).1 (ramDigests v.run.bus.ram).2]) :
    ∃ x, ReplayRun.hook cpu.toGuestCpu { t with cpu := next } = .done x ∧
      (cpu.intMask next &&& 0x0700 ≠ 0x0700 →
        ReplayRun.stopped cpu.toGuestCpu { t with cpu := next } = .done x) ∧
      Replayed cpu v x := by
  obtain ⟨p, g, out, heq, hcaught⟩ := drain_tick ht hs hcpu hlevel hclear h
  have hfinal : cpu.regs ticked.cpu = cpu.regs v.run.cpu := by
    rw [ht.told] at hregs
    exact Option.some.inj hregs
  have hdigests : ramDigests g = ramDigests v.run.bus.ram := by
    rw [hbus]
    exact ramDigests_congr hcaught.mirrors.map hcaught.chip hcaught.fast
  have hover : p.drainFrom g out rest = ({ p with log := [] }, g,
      { out with finish := some (s'.recorder.ordinal, v.run.totalInstructions,
        cpu.regs v.run.cpu) }) := by
    have hcompared : p.compareDigests g (ramDigests v.run.bus.ram).1
        (ramDigests v.run.bus.ram).2 = p := by
      unfold Player.compareDigests
      rw [hdigests]
      simp
    rw [hrest]
    unfold Player.drainFrom
    rw [if_neg (by rw [hcaught.ordinal]; exact Nat.lt_irrefl _)]
    simp only
    rw [hcompared]
    rfl
  rw [hover] at heq
  have hcheck (ordinal : Nat) (regs : Regs) (hc : out.checkpoint = some (ordinal, regs)) :
      regs = cpu.regs (out.ipl.elim next (cpu.setIrq next)) := by
    rw [hcaught.latched]
    exact hcaught.checkpoint ordinal regs hc
  obtain ⟨w, hw, hplayer, hwbus, hhook, hstopped⟩ := ReplayRun.hook_of_drain heq hcheck
  have hwcpu : w.cpu = ticked.cpu := hw.trans hcaught.latched
  have hend : ({ out with finish := some (s'.recorder.ordinal, v.run.totalInstructions,
      cpu.regs v.run.cpu) } : DrainedEffects).finish =
        some (s'.recorder.ordinal, v.run.totalInstructions, cpu.regs w.cpu) := by
    rw [hwcpu, hfinal]
  have hagreed : w.player.divergence = none := by
    rw [hplayer]
    exact hcaught.agreed
  obtain ⟨x, hx, hclean, hxcpu, hxbus⟩ := ReplayRun.afterDrain_over hend hagreed
  refine ⟨x, hhook.trans hx, fun hmask => (hstopped hmask).trans hx, hclean, ?_, ?_, ?_⟩
  · rw [hxcpu, hwcpu, hfinal]
  · rw [hxbus, hwbus, hbus]
    exact hcaught.chip
  · rw [hxbus, hwbus, hbus]
    exact hcaught.fast

end Ticks

section Accesses

variable {a : Long} {width : AccessWidth} {rest' : List Event} (hs : Intact cpu level s)
  (hguard : Repeatable cpu s) (h : Follows s t rest)

include hs hguard h

/-- **A read** gives the CPU the value that was read. -/
theorem replay_read {next : Long → γ} (haction : cpu.action s.run.cpu = .read a width next)
    (hrest : s.recorder.log ++ rest = (s.afterRead a width next).recorder.log ++ rest') :
    ∃ t', t.pass cpu.toGuestCpu = .again t' ∧ Follows (s.afterRead a width next) t' rest' := by
  obtain ⟨hclear, hok⟩ := hguard
  rw [haction] at hok
  obtain ⟨⟨hshared, hmoved⟩, hok⟩ := hok
  have hc := hs.chain.classifiable hclear
  have hclass : t.player.classify a = s.recorder.table (pageOf a) := by
    unfold Player.classify
    rw [h.table]
    exact hshared
  have hmirrors : Mirrors t.bus.devices (readWidth s.run.bus a width).2.devices :=
    h.mirrors.alone hc.seamFree (steady_readWidth s.run.bus a width).2
  have hpass (value : Long) (p : Player) (b : MachineBus δ ρ π)
      (hread : M68kMachine.replayRead t.player t.bus a width t.lastPc = (value, p, b)) :
      t.pass cpu.toGuestCpu = .again { t with
        cpu := next (width.truncate value)
        player := p
        bus := b
        trace := t.observe a (.read t.player.ordinal a width (width.truncate value)) } := by
    unfold ReplayRun.pass
    rw [h.cpu, haction]
    simp only
    rw [hread]
  by_cases hio : s.recorder.classify a = .io
  · have hrec : (s.afterRead a width next).recorder =
        s.recorder.logIoRead a width.bytes (readWidth s.run.bus a width).1 := if_pos hio
    have hpending : s.pending = [] := by
      unfold pending
      rw [hmoved hio]
      rfl
    have hnext : rest = .ioRead s.recorder.ordinal a width.bytes (readWidth s.run.bus a width).1 ::
        rest' := by
      rw [hrec, Recorder.logIoRead, Recorder.write, List.append_assoc] at hrest
      exact List.append_cancel_left hrest
    have hlog := h.log
    rw [hpending, hnext, List.nil_append, ← h.ordinal] at hlog
    have hread : M68kMachine.replayRead t.player t.bus a width t.lastPc =
        ((readWidth s.run.bus a width).1, { t.player with
          log := rest'
          ioReadEventsConsumed := t.player.ioReadEventsConsumed + 1 }, t.bus) := by
      unfold M68kMachine.replayRead
      rw [hclass, show s.recorder.table (pageOf a) = .io from hio]
      unfold Player.expectIoRead
      rw [hlog]
      simp only [and_self, if_true]
    refine ⟨_, hpass _ _ _ hread, rfl, ?_, h.agreed, h.table, ?_, hmirrors, .inl rfl⟩
    · rw [hrec]
      exact h.ordinal
    · have hpending' : (s.afterRead a width next).pending = [] := if_neg (by
        rw [Bool.not_eq_true]
        exact hmoved hio)
      rw [hpending']
      rfl
  · have hrec : (s.afterRead a width next).recorder = s.recorder := if_neg hio
    obtain ⟨hread, hbus⟩ := h.mirrors.replayRead hc hs.knows.table hclass hok hio t.lastPc
    refine ⟨_, hpass _ _ _ hread, rfl, ?_, h.agreed, h.table, ?_, hmirrors, .inl rfl⟩
    · rw [hrec]
      exact h.ordinal
    · have hpending' : (s.afterRead a width next).pending = s.pending := by
        unfold pending
        rw [hrec]
        rfl
      rw [hrec] at hrest
      rw [hpending', ← List.append_cancel_left hrest]
      exact h.log

/-- **A write** is the next one in the log, and does to RAM and the chain what it did. -/
theorem replay_write {value : Long} {next : γ} (hcpu : LatchesIrq cpu.toGuestCpu level)
    (haction : cpu.action s.run.cpu = .write a width value next)
    (hclear : FastClear (writeWidth s.run.bus a value width).devices.ram)
    (hrest : s.recorder.log ++ rest = (s.afterWrite a width value next).recorder.log ++ rest') :
    ∃ t', t.pass cpu.toGuestCpu = .again t' ∧
      Follows (s.afterWrite a width value next) t' rest' := by
  obtain ⟨hclear', hok⟩ := hguard
  rw [haction] at hok
  obtain ⟨⟨hshared, hmoved⟩, hok⟩ := hok
  have hc := hs.chain.classifiable hclear'
  have hclass : t.player.classify a = s.recorder.table (pageOf a) := by
    unfold Player.classify
    rw [h.table]
    exact hshared
  have hpass (p : Player) (b : MachineBus δ ρ π)
      (hwrite : M68kMachine.replayWrite t.player t.bus a width value t.lastPc = (p, b)) :
      t.pass cpu.toGuestCpu = .again { t with
        cpu := next
        player := p
        bus := b
        trace := t.observe a (.write t.player.ordinal a width value) } := by
    unfold ReplayRun.pass
    rw [h.cpu, haction]
    simp only
    rw [hwrite]
  by_cases hio : s.recorder.classify a = .io
  · have hpending : s.pending = [] := by
      unfold pending
      rw [hmoved hio]
      rfl
    have hbefore : s.beforeWrite a width value =
        s.recorder.logIoWrite a width.bytes (width.truncate value) := if_pos hio
    have hnext : rest = .ioWrite s.recorder.ordinal a width.bytes value ::
        ((s.afterWrite a width value next).pending ++ rest') ∧
        (s.afterWrite a width value next).recorder.ordinal = s.recorder.ordinal := by
      have hlogged : (s.beforeWrite a width value).log =
          s.recorder.log ++ [.ioWrite s.recorder.ordinal a width.bytes value] := by
        rw [hbefore, hcpu.narrow _ _ _ _ _ haction]
        rfl
      have hordinal : (s.beforeWrite a width value).ordinal = s.recorder.ordinal := by
        rw [hbefore]
        rfl
      rcases (s.beforeWrite a width value).maybeTransition_cases
        (writeWidth s.run.bus a value width).devices with
        ⟨hsame, heq⟩ | ⟨hdiff, hmore, -, -, -, hordinal', -⟩
      · have hrec : (s.afterWrite a width value next).recorder = s.beforeWrite a width value := heq
        have hstill : (s.afterWrite a width value next).told.moved = false := by
          unfold afterWrite
          simp [hmoved hio, hsame]
        have hpending' : (s.afterWrite a width value next).pending = [] := by
          unfold pending
          rw [hstill]
          rfl
        rw [hrec, hlogged, List.append_assoc] at hrest
        rw [hpending', hrec]
        exact ⟨List.append_cancel_left hrest, hordinal⟩
      · have hnow : (s.afterWrite a width value next).told.moved = true := by
          unfold afterWrite
          simp [hdiff]
        have hpending' : (s.afterWrite a width value next).pending =
            [.classificationTransition (s.beforeWrite a width value).ordinal
              (s.afterWrite a width value next).recorder.table] := by
          unfold pending
          rw [hnow, ← hordinal']
          rfl
        have hrest' : s.recorder.log ++ rest = (s.recorder.log ++
            [.ioWrite s.recorder.ordinal a width.bytes value] ++
            (s.afterWrite a width value next).pending) ++ rest' := by
          rw [hpending', ← hlogged]
          exact hrest.trans (congrArg (· ++ rest') hmore)
        rw [List.append_assoc, List.append_assoc] at hrest'
        exact ⟨List.append_cancel_left hrest', hordinal'.trans hordinal⟩
    obtain ⟨hnext, hordinal⟩ := hnext
    have hlog := h.log
    rw [hpending, hnext, List.nil_append, ← h.ordinal] at hlog
    have hwrite : M68kMachine.replayWrite t.player t.bus a width value t.lastPc =
        ({ t.player with
          log := (s.afterWrite a width value next).pending ++ rest'
          ioWriteEventsConsumed := t.player.ioWriteEventsConsumed + 1 },
          if replayWriteMustApply a then writeWidth t.bus a value width else t.bus) := by
      unfold M68kMachine.replayWrite
      rw [hclass, show s.recorder.table (pageOf a) = .io from hio]
      unfold Player.expectIoWrite
      rw [hlog]
      simp only [and_self, if_true]
    refine ⟨_, hpass _ _ hwrite, rfl, ?_, h.agreed, h.table, rfl, ?_, .inl rfl⟩
    · rw [hordinal]
      exact h.ordinal
    · unfold WriteOk at hok
      rw [show s.recorder.table (pageOf a) = .io from hio] at hok
      exact h.mirrors.replayIoWrite hs.chain value hclear hok
  · obtain ⟨hrec, htold⟩ := hs.memoryWrite hclear' value next hok hio
    obtain ⟨p', hwrite, hmirrors⟩ :=
      h.mirrors.replayWrite hc hs.knows.table hclass hok hio value t.lastPc
    refine ⟨_, hpass _ _ hwrite, rfl, ?_, h.agreed, ?_, ?_, hmirrors, .inl (by rw [htold])⟩
    · rw [hrec]
      exact h.ordinal
    · rw [htold]
      exact h.table
    · have hpending' : (s.afterWrite a width value next).pending = s.pending := by
        unfold pending
        rw [hrec, htold]
      rw [hrec] at hrest
      rw [hpending', ← List.append_cancel_left hrest]
      exact h.log

end Accesses

omit [LawfulPacketBackend ρ] [LawfulPciBackend π] in
/-- An exit is taken alike. -/
theorem replay_exit {reason : GuestExit} {run : FixedRun γ δ ρ π η}
    (haction : cpu.action s.run.cpu = .exit reason next) (hreason : reason ≠ .stopped)
    (hbus : run.bus = s.run.bus)
    (hcpu : run.cpu = if reason.exceptionKind.isSome then cpu.takeException next reason else next)
    (h : Follows s t rest) :
    ∃ t', t.pass cpu.toGuestCpu = .again t' ∧ Follows ⟨run, s.recorder, s.told⟩ t' rest := by
  have hfollows (c : γ) (hc : run.cpu = c) :
      Follows ⟨run, s.recorder, s.told⟩ { t with cpu := c } rest :=
    ⟨hc.symm, h.ordinal, h.agreed, h.table, h.log, by
      simp only
      rw [hbus]
      exact h.mirrors, h.live⟩
  unfold ReplayRun.pass
  rw [h.cpu, haction]
  cases reason with
  | stopped => exact absurd rfl hreason
  | budgetExhausted => exact ⟨_, rfl, hfollows next hcpu⟩
  | boundaryRequested => exact ⟨_, rfl, hfollows next hcpu⟩
  | _ => exact ⟨_, rfl, hfollows _ hcpu⟩

variable {host : FixedHost δ ρ π η} {args : FixedArgs} {n : Nat} {u : Recording γ δ ρ π η}

/-- **The replay follows the recording to its end.** -/
theorem replayed_of_follows (hcpu : LatchesIrq cpu.toGuestCpu level) (hhost : host.SparesRam)
    (hargs : args.triggerIllegalAfterFrames = none)
    (hrun : Loop.Iterates (pass cpu host args) n s u) (hend : u.pass cpu host args = .done v)
    (hout : v.run.outcome ≠ some .recordingAborted)
    (hends : v.told.regs = some (cpu.regs v.run.cpu))
    (hguard : ∀ m w, Loop.Iterates (pass cpu host args) m s w → Repeatable cpu w)
    (hs : Intact cpu level s) (hlog : v.recorder.log = s.recorder.log ++ rest)
    (h : Follows s t rest) :
    ∃ k w x, Loop.Iterates (ReplayRun.pass cpu.toGuestCpu) k t w ∧
      w.pass cpu.toGuestCpu = .done x ∧ Replayed cpu v x := by
  refine hrun.simulates (R := fun s t => Intact cpu level s ∧
    ∃ rest, v.recorder.log = s.recorder.log ++ rest ∧ Follows s t rest) ?_ ?_ ⟨hs, rest, hlog, h⟩
  · rintro m k a b t hm hab hk ⟨ha, rest, hlog, h⟩
    have hrep := hguard m a hm
    have hpassed : Passed cpu a b := by
      have hcases : (a.pass cpu host args).Holds (Passed cpu a) _ := pass_cases hhost hargs a
      rwa [hab] at hcases
    have hb := ha.passed hcpu hpassed
    obtain ⟨rest', hlog', hahead⟩ := exists_ahead hcpu hhost hargs hk hend hout hends
      (fun j w hw => hguard _ w ((hm.snoc hab).trans hw)) hb
    have hrest := hlog.symm.trans hlog'
    -- a tick after which the replay goes on, or ends
    have htick {next : γ} {ticked : FixedRun γ δ ρ π η} (ht : Tick cpu a next ticked b)
        (hlevel : level next = level a.run.cpu) :
        ∃ o, ReplayRun.hook cpu.toGuestCpu { t with cpu := next } = o ∧
          (cpu.intMask next &&& 0x0700 ≠ 0x0700 →
            ReplayRun.stopped cpu.toGuestCpu { t with cpu := next } = o) ∧
          ((∃ t', o = .again t' ∧ Follows b t' rest') ∨ ∃ x, o = .done x ∧ Replayed cpu v x) := by
      have hsplit : rest = a.recorder.advanceOrdinal.tickRecords
          (BitVec.ofNat 8 ticked.bus.pendingIrqLevel) ticked.bus.ram (cpu.regs ticked.cpu) ++
            rest' := by
        rw [ht.log.1, List.append_assoc] at hrest
        exact List.append_cancel_left hrest
      rw [hsplit] at h
      cases hahead (by rw [ht.told]) with
      | later hlater =>
        obtain ⟨t', hhook, hstopped, hfollows⟩ :=
          replay_tick_later ht ha hcpu hlevel hrep.1 h rfl hlater
        exact ⟨_, hhook, hstopped, .inl ⟨t', rfl, hfollows⟩⟩
      | ended hregs hbus =>
        obtain ⟨x, hhook, hstopped, hreplayed⟩ :=
          replay_tick_over ht ha hcpu hlevel hrep.1 h hregs hbus rfl
        exact ⟨_, hhook, hstopped, .inr ⟨x, rfl, hreplayed⟩⟩
    have hdone {o : Loop.Outcome (ReplayRun γ δ ρ π)} (ho : t.pass cpu.toGuestCpu = o)
        (hcases : (∃ t', o = .again t' ∧ Follows b t' rest') ∨
          ∃ x, o = .done x ∧ Replayed cpu v x) :
        (∃ t', t.pass cpu.toGuestCpu = .again t' ∧ Intact cpu level b ∧
            ∃ rest, v.recorder.log = b.recorder.log ++ rest ∧ Follows b t' rest) ∨
          ∃ x, t.pass cpu.toGuestCpu = .done x ∧ Replayed cpu v x := by
      rw [ho]
      rcases hcases with ⟨t', ht, hfollows⟩ | hx
      · exact .inl ⟨t', ht, hb, rest', hlog', hfollows⟩
      · exact .inr hx
    cases hpassed with
    | read haction =>
      obtain ⟨t', ht, hfollows⟩ := replay_read ha hrep h haction hrest
      exact hdone ht (.inl ⟨t', rfl, hfollows⟩)
    | write haction =>
      obtain ⟨t', ht, hfollows⟩ := replay_write ha hrep h hcpu haction
        (hguard _ _ (hm.snoc hab)).1 hrest
      exact hdone ht (.inl ⟨t', rfl, hfollows⟩)
    | @retire next ticked _ haction ht =>
      obtain ⟨o, hhook, -, hcases⟩ := htick ht (hcpu.retire _ _ haction)
      have hpass : t.pass cpu.toGuestCpu =
          ReplayRun.hook cpu.toGuestCpu { t with cpu := next } := by
        unfold ReplayRun.pass
        rw [h.cpu, haction]
      exact hdone (hpass.trans hhook) hcases
    | @stopped next ticked _ haction hmask ht =>
      obtain ⟨o, -, hstopped, hcases⟩ := htick ht (hcpu.exit _ _ _ haction)
      have hpass : t.pass cpu.toGuestCpu =
          ReplayRun.stopped cpu.toGuestCpu { t with cpu := next } := by
        unfold ReplayRun.pass
        rw [h.cpu, haction]
      exact hdone (hpass.trans (hstopped hmask)) hcases
    | exit haction hreason hbus hcpu' =>
      have hsame : rest = rest' := List.append_cancel_left hrest
      obtain ⟨t', ht, hfollows⟩ := replay_exit haction hreason hbus hcpu' h
      exact hdone ht (.inl ⟨t', rfl, hsame ▸ hfollows⟩)
  · rintro t ⟨hu, rest, hlog, h⟩
    have hended : Ended cpu u v := by
      have hcases : (u.pass cpu host args).Holds (Passed cpu u) _ := pass_cases hhost hargs u
      rw [hend] at hcases
      exact hcases hout
    have hrep := hguard _ u hrun
    cases hended with
    | @retire next ticked b haction ht =>
      have hfinal : b.recorder.log ++ [.finish b.recorder.ordinal b.run.totalInstructions
          (cpu.regs b.run.cpu) (ramDigests b.run.bus.ram).1 (ramDigests b.run.bus.ram).2] =
            u.recorder.log ++ rest := hlog
      rw [ht.log.1, List.append_assoc] at hfinal
      rw [← List.append_cancel_left hfinal] at h
      obtain ⟨x, hhook, -, hreplayed⟩ := replay_tick_over ht hu hcpu (hcpu.retire _ _ haction)
        hrep.1 h hends rfl rfl
      refine ⟨x, ?_, hreplayed⟩
      unfold ReplayRun.pass
      rw [h.cpu, haction]
      exact hhook
    | @exit reason next run haction hbus =>
      -- the replay is over since the last tick
      have hlast : rest = [.finish u.recorder.ordinal run.totalInstructions (cpu.regs run.cpu)
          (ramDigests run.bus.ram).1 (ramDigests run.bus.ram).2] :=
        (List.append_cancel_left hlog).symm
      rcases h.live with hnone | ⟨ev, evs, hrest, hlater⟩
      · cases hnone.symm.trans hends
      · rw [hlast] at hrest
        cases hrest
        simp [Event.dueAt, Event.ordinal, Event.isIo] at hlater

/-! ## Machines that were built alike -/

omit [LawfulPacketBackend ρ] [LawfulPciBackend π] in
theorem withCards_append (chipRam : Buffer Byte chipRamSize) (rom : ByteSlice)
    (cards : List (Attach δ ρ π)) (card : Attach δ ρ π) :
    withCards chipRam rom (cards ++ [card]) =
      (withCards chipRam rom cards).step (.attach card) := by
  unfold withCards Transition.run
  rw [List.map_append, List.foldl_append]
  rfl

omit [LawfulPacketBackend ρ] [LawfulPciBackend π] in
/-- A machine with a device-write log beside the one without. -/
theorem mirrors_withCards (chipRam : Buffer Byte chipRamSize) (rom : ByteSlice)
    (cards : List (Attach δ ρ π)) (capacity : Nat) :
    Mirrors (withCards chipRam rom cards).devices
      (withCards chipRam rom (cards ++ [.deviceWriteLog (some capacity)])).devices := by
  rw [withCards_append]
  refine ⟨rfl, rfl, ⟨rfl, rfl, rfl⟩, rfl, rfl, rfl, logged_of_same rfl rfl fun log hlog => ?_⟩
  cases hlog
  rfl

omit [BlockDevice δ] [PacketBackend ρ] [PciBackend π] [LawfulPacketBackend ρ]
  [LawfulPciBackend π] in
/-- A header is accepted by a machine that mirrors the one it was written for. -/
theorem accepts_of_mirrors {m d : BusDevices δ ρ π} (h : Mirrors m d) (perLine : Long) :
    (ReplayHeader.of d perLine).accepts m = true := by
  have hwindow : m.fastRamWindow = d.fastRamWindow := fastRamWindow_of_sameMap h.map
  unfold ReplayHeader.accepts ReplayHeader.of
  rw [hwindow, h.rom]
  simp

end Recording

/-! ## One recording -/

namespace Recording

/-- An action of a CPU that works through a list of them. -/
inductive Move
  | read (address : Long) (width : AccessWidth)
  | write (address : Long) (width : AccessWidth) (value : Long)
  | retire

/-- Its place in the list, the interrupt level it was shown, and what it read last. -/
structure Scripted where
  place : Nat
  level : Byte
  value : Long

def Scripted.next (c : Scripted) : Scripted := { c with place := c.place + 1 }

def scriptedCpu (moves : List Move) : FixedCpu Scripted where
  action c :=
    match moves[c.place]? with
    | some (.read a width) => .read a width fun v => { c.next with value := v }
    | some (.write a width v) => .write a width (width.truncate v) c.next
    | _ => .retire c.next
  regs c :=
    { ReplayRun.zeroRegs with
      d := ReplayRun.zeroRegs.d.set 0 c.value
      pc := BitVec.ofNat 32 c.place }
  intMask _ := 0
  setIrq c level := { c with level := level }
  takeException c _ := c
  ppc c := BitVec.ofNat 32 c.place

theorem truncate_truncate (width : AccessWidth) (v : Long) :
    width.truncate (width.truncate v) = width.truncate v := by
  cases width with
  | w8 => exact BitVec.and_assoc v 0xFF 0xFF
  | w16 => exact BitVec.and_assoc v 0xFFFF 0xFFFF
  | w32 => rfl

theorem latchesIrq_scriptedCpu (moves : List Move) :
    LatchesIrq (scriptedCpu moves).toGuestCpu Scripted.level where
  set _ _ := rfl
  same _ := rfl
  read := by
    intro c a width next h v
    simp only [scriptedCpu] at h
    split at h <;> cases h
    rfl
  write := by
    intro c a width v next h
    simp only [scriptedCpu] at h
    split at h <;> cases h
    rfl
  retire := by
    intro c next h
    simp only [scriptedCpu] at h
    split at h <;> cases h
    rfl
  exit := by
    intro c reason next h
    simp only [scriptedCpu] at h
    split at h <;> cases h
  exception _ _ := rfl
  narrow := by
    intro c a width v next h
    simp only [scriptedCpu] at h
    split at h <;> cases h
    exact truncate_truncate _ _

/-- RAM is written and read, the blitter stores a word and asks for an interrupt, and the word and
`VPOSR` are read. -/
def sampleMoves : List Move :=
  [.write 0x00BFE001 .w8 0, .retire,
    .write 0x00001000 .w16 0x1234, .read 0x00001000 .w16,
    .write 0x00DFF040 .w32 0x01FF0000, .write 0x00DFF054 .w32 0x00002000,
    .write 0x00DFF058 .w16 0x0041, .write 0x00DFF09A .w32 0xC0048004, .retire,
    .read 0x00002000 .w16, .read 0x00DFF004 .w16, .retire]

def sampleHost : FixedHost MemDisk Empty Empty Unit where
  service _ _ := ([], ())

/-- The recording stops after three instructions. -/
def sampleArgs : FixedArgs := ⟨100, 3, 0, none, false⟩

def sampleStart : Recording Scripted MemDisk Empty Empty Unit :=
  start (scriptedCpu sampleMoves) ⟨0, 0, 0⟩
    (withCards (fun _ => 0) (.zero 0) [.deviceWriteLog (some 16)]) () 1

def samplePass (s : Recording Scripted MemDisk Empty Empty Unit) :
    Loop.Outcome (Recording Scripted MemDisk Empty Empty Unit) :=
  s.pass (scriptedCpu sampleMoves) sampleHost sampleArgs

theorem fastClear_of_unplaced {r : GuestRam} (h : r.fastWindow = none) : FastClear r := by
  refine ⟨fun a off hoff => ?_, fun base len hw => ?_⟩
  · unfold fastOffset at hoff
    rw [h] at hoff
    cases hoff
  · cases h.symm.trans hw

/-- What the next action of the sample is to be repeated by. -/
def Plain (s : Recording Scripted MemDisk Empty Empty Unit) : Prop :=
  s.run.bus.devices.ram.fastWindow = none ∧
    match sampleMoves[s.run.cpu.place]? with
    | some (.read a width) => s.Shared a ∧ ReadOk s.recorder.table s.run.bus.devices a width.bytes
    | some (.write a width _) =>
      s.Shared a ∧ WriteOk s.recorder.table s.run.bus.devices a width.bytes
    | _ => True

instance (s : Recording Scripted MemDisk Empty Empty Unit) : Decidable (Plain s) := by
  unfold Plain
  cases sampleMoves[s.run.cpu.place]? with
  | none => infer_instance
  | some move => cases move <;> infer_instance

theorem plain_sample : ∀ n < 12, ∃ s, Loop.after samplePass n sampleStart = .again s ∧ Plain s := by
  have hall : ∀ n < 12, (Loop.after samplePass n sampleStart).Holds Plain fun _ => False := by
    decide +kernel
  exact fun n hn => (hall n hn).exists_again

/-- What is in the log when the run is over. -/
theorem last_sample : ∃ v, Loop.after samplePass 12 sampleStart = .done v ∧
    v.run.outcome = some (.limitReached "max-instructions") ∧
      v.told.regs = some ((scriptedCpu sampleMoves).regs v.run.cpu) ∧
      v.recorder.ioReadEvents = 1 ∧ v.recorder.ioWriteEvents = 5 ∧ v.recorder.iplEvents = 1 ∧
      v.recorder.deviceWriteEvents = 1 ∧ v.recorder.transitionEvents = 1 ∧
      v.recorder.checkpointEvents = 3 :=
  Loop.Outcome.Holds.exists_done (by decide +kernel)

theorem repeatable_sample (m : Nat) (w : Recording Scripted MemDisk Empty Empty Unit)
    (h : Loop.Iterates samplePass m sampleStart w) : Repeatable (scriptedCpu sampleMoves) w := by
  have hafter := Loop.after_eq_again_iff.mpr h
  have hm : m < 12 := by
    by_contra hge
    obtain ⟨v, hdone, -⟩ := last_sample
    cases (Loop.after_of_done hdone (Nat.not_lt.mp hge)).symm.trans hafter
  obtain ⟨s, hs, hwindow, hmove⟩ := plain_sample m hm
  obtain rfl : s = w := Loop.Outcome.again.inj (hs.symm.trans hafter)
  refine ⟨fastClear_of_unplaced hwindow, ?_⟩
  simp only [scriptedCpu]
  cases hnext : sampleMoves[s.run.cpu.place]? with
  | none => trivial
  | some move =>
    rw [hnext] at hmove
    cases move with
    | read a width => exact hmove
    | write a width v => exact hmove
    | retire => trivial

end Recording

end M68kMachine
