import M68kMachine.Hosted.ReplayRun

/-!
# The verdict of a replay

A replay that ends clean has consumed the log up to its `End` record, and every access, checkpoint
and final comparison agreed, provided that none was left out on the way: `Guarded` names the passes
that do.

* `Player.drainFrom_spec` — what a drain consumes, and what it hands back
* `Agreed` — the invariant of a replay that has not diverged
-/

namespace M68kMachine

/-! ## Divergences are kept -/

variable (p : Player)

@[simp] theorem Player.recordDivergence_divergence (d : Divergence) :
    (p.recordDivergence d).divergence = none ↔ False := by
  cases h : p.divergence <;> simp [Player.recordDivergence, h]

@[simp] theorem Player.recordDivergence_log (d : Divergence) :
    (p.recordDivergence d).log = p.log := rfl

@[simp] theorem Player.recordDivergence_ordinal (d : Divergence) :
    (p.recordDivergence d).ordinal = p.ordinal := rfl

/-! ## A drain -/

/-- The registers of a checkpoint. -/
def Event.checkpoint? : Event → Option (Nat × Regs)
  | checkpoint ordinal regs => some (ordinal, regs)
  | _ => none

/-- What an `End` record hands to the run. -/
def Event.finish? : Event → Option (Nat × Nat × Regs)
  | finish ordinal total regs _ _ => some (ordinal, total, regs)
  | _ => none

/-- The event is drained at this ordinal, if it is next. -/
def Event.dueAt (ordinal : Nat) (ev : Event) : Bool := ev.ordinal ≤ ordinal && !ev.isIo

/-- The events a drain takes at this ordinal. -/
def dueEvents (ordinal : Nat) (log : List Event) : List Event := log.takeWhile (Event.dueAt ordinal)

theorem map_fst_drainedEvents (ordinal : Nat) (r : GuestRam) (log : List Event) :
    (drainedEvents ordinal r log).map Prod.fst = dueEvents ordinal log := by
  induction log generalizing r with
  | nil => rfl
  | cons ev evs ih =>
    unfold drainedEvents dueEvents
    by_cases h : ordinal < ev.ordinal ∨ ev.isIo
    · have : Event.dueAt ordinal ev = false := by
        rcases h with h | h <;> simp [Event.dueAt, h]
      rw [if_pos h, List.takeWhile_cons, this]
      rfl
    · have : Event.dueAt ordinal ev = true := by
        simp only [not_or, Nat.not_lt, Bool.not_eq_true] at h
        simp [Event.dueAt, h]
      rw [if_neg h, List.takeWhile_cons, this]
      simp only [List.map_cons, if_true, ih]
      rfl

/-- What a drain does to a player that started with `out`. -/
structure Player.Drained (p : Player) (r : GuestRam) (out : DrainedEffects) (log : List Event)
    (res : Player × GuestRam × DrainedEffects) : Prop where
  log_eq : log = dueEvents p.ordinal log ++ res.1.log
  ordinal_eq : res.1.ordinal = p.ordinal
  divergence : res.1.divergence = none → p.divergence = none
  digests : res.1.divergence = none → ∀ ordinal total regs chip fast ram,
    (Event.finish ordinal total regs chip fast, ram) ∈ drainedEvents p.ordinal r log →
      ramDigests ram = (chip, fast)
  checkpoint_eq : res.2.2.checkpoint =
    ((dueEvents p.ordinal log).filterMap Event.checkpoint?).getLast?.or out.checkpoint
  finish_eq : res.2.2.finish =
    ((dueEvents p.ordinal log).filterMap Event.finish?).getLast?.or out.finish

theorem Player.compareDigests_divergence {p : Player} {r : GuestRam} {chip fast : Quad}
    (h : (p.compareDigests r chip fast).divergence = none) :
    p.divergence = none ∧ ramDigests r = (chip, fast) := by
  unfold Player.compareDigests at h
  dsimp only at h
  split_ifs at h with hchip hfast
  · exact (Player.recordDivergence_divergence _ _).mp h |>.elim
  · exact (Player.recordDivergence_divergence _ _).mp h |>.elim
  · simp only [ne_eq, not_not] at hchip hfast
    exact ⟨h, Prod.ext hchip.symm hfast.symm⟩

theorem Player.compareDigests_ordinal (r : GuestRam) (chip fast : Quad) :
    (p.compareDigests r chip fast).ordinal = p.ordinal := by
  unfold Player.compareDigests
  dsimp only
  split_ifs <;> rfl

/-- The drain stops before `log`. -/
theorem Player.Drained.stop {p : Player} {r : GuestRam} {out : DrainedEffects} {log : List Event}
    (hdue : dueEvents p.ordinal log = []) (hdrained : drainedEvents p.ordinal r log = []) :
    p.Drained r out log ({ p with log }, r, out) where
  log_eq := by rw [hdue]; rfl
  ordinal_eq := rfl
  divergence := id
  digests _ _ _ _ _ _ _ h := by rw [hdrained] at h; cases h
  checkpoint_eq := by rw [hdue]; rfl
  finish_eq := by rw [hdue]; rfl

/-- The drain takes an event, which changes `p` into `p'`, and goes on. -/
theorem Player.Drained.cons {p p' : Player} {r : GuestRam} {out out' : DrainedEffects}
    {ev : Event} {evs : List Event} {res : Player × GuestRam × DrainedEffects}
    (h : p'.Drained (ev.applyTo r) out' evs res) (hev : ¬(p.ordinal < ev.ordinal ∨ ev.isIo))
    (hordinal : p'.ordinal = p.ordinal)
    (hdivergence : p'.divergence = none → p.divergence = none ∧
      ∀ ordinal total regs chip fast, ev = .finish ordinal total regs chip fast →
        ramDigests r = (chip, fast))
    (hcheckpoint : out'.checkpoint = ev.checkpoint?.or out.checkpoint)
    (hfinish : out'.finish = ev.finish?.or out.finish) :
    p.Drained r out (ev :: evs) res := by
  have hdue : dueEvents p.ordinal (ev :: evs) = ev :: dueEvents p'.ordinal evs := by
    have : Event.dueAt p.ordinal ev = true := by
      simp only [not_or, Nat.not_lt, Bool.not_eq_true] at hev
      simp [Event.dueAt, hev]
    rw [dueEvents, List.takeWhile_cons, this, hordinal]
    rfl
  have hlast : ∀ {α : Type} (f : Event → Option α) (o : Option α),
      ((ev :: dueEvents p'.ordinal evs).filterMap f).getLast?.or o =
        ((dueEvents p'.ordinal evs).filterMap f).getLast?.or ((f ev).or o) := by
    intro α f o
    cases hf : f ev with
    | none => simp [hf]
    | some a =>
      rw [List.filterMap_cons_some hf, List.getLast?_cons]
      cases ((dueEvents p'.ordinal evs).filterMap f).getLast? <;> simp
  refine ⟨?_, h.ordinal_eq.trans hordinal, ?_, ?_, ?_, ?_⟩
  · rw [hdue, List.cons_append, ← h.log_eq]
  · intro hnone
    exact (hdivergence (h.divergence hnone)).1
  · intro hnone ordinal total regs chip fast ram hmem
    rw [drainedEvents, if_neg hev, List.mem_cons] at hmem
    rcases hmem with heq | hmem
    · obtain ⟨hev', hram⟩ := Prod.mk.inj heq
      rw [hram]
      exact (hdivergence (h.divergence hnone)).2 _ _ _ _ _ hev'.symm
    · rw [← hordinal] at hmem
      exact h.digests hnone _ _ _ _ _ _ hmem
  · rw [hdue, hlast, h.checkpoint_eq, hcheckpoint]
  · rw [hdue, hlast, h.finish_eq, hfinish]

/-- **A drain takes the events that are due**, answers the last checkpoint and `End` record, and
records a divergence where the digests are not those of RAM. -/
theorem Player.drainFrom_spec (r : GuestRam) (out : DrainedEffects) (log : List Event) :
    p.Drained r out log (p.drainFrom r out log) := by
  induction log generalizing p r out with
  | nil => exact .stop rfl rfl
  | cons ev evs ih =>
    unfold Player.drainFrom
    split_ifs with hlater
    · refine .stop ?_ ?_
      · rw [dueEvents, List.takeWhile_cons_of_neg]
        simp [Event.dueAt, hlater]
      · rw [drainedEvents, if_pos (.inl hlater)]
    · have hnot : ∀ {ev : Event}, ¬p.ordinal < ev.ordinal → ev.isIo = false →
          ¬(p.ordinal < ev.ordinal ∨ ev.isIo) := by
        intro ev h hio
        simp [h, hio]
      cases ev with
      | deviceWrite ordinal addr bytes =>
        exact (ih _ _ _).cons (hnot hlater rfl) rfl (fun h => ⟨h, by simp⟩) rfl rfl
      | classificationTransition ordinal table =>
        exact (ih _ _ _).cons (hnot hlater rfl) rfl (fun h => ⟨h, by simp⟩) rfl rfl
      | iplChange ordinal level =>
        exact (ih _ _ _).cons (hnot hlater rfl) rfl (fun h => ⟨h, by simp⟩) rfl rfl
      | checkpoint ordinal regs =>
        exact (ih _ _ _).cons (hnot hlater rfl) rfl (fun h => ⟨h, by simp⟩) rfl rfl
      | finish ordinal total regs chip fast =>
        refine (ih _ _ _).cons (hnot hlater rfl) (Player.compareDigests_ordinal p r chip fast) ?_
          rfl rfl
        intro h
        obtain ⟨hdiv, hdig⟩ := Player.compareDigests_divergence h
        refine ⟨hdiv, ?_⟩
        rintro _ _ _ _ _ ⟨⟩
        exact hdig
      | ioRead ordinal addr width value =>
        refine .stop ?_ ?_
        · rw [dueEvents, List.takeWhile_cons_of_neg]
          simp [Event.dueAt, Event.isIo]
        · rw [drainedEvents, if_pos (.inr rfl)]
      | ioWrite ordinal addr width value =>
        refine .stop ?_ ?_
        · rw [dueEvents, List.takeWhile_cons_of_neg]
          simp [Event.dueAt, Event.isIo]
        · rw [drainedEvents, if_pos (.inr rfl)]

/-! ## Accesses -/

section Accesses

variable {δ ρ π : Type} [BlockDevice δ] [PacketBackend ρ] [PciBackend π]

/-- A read that does not diverge takes the next event if its page is `Io`, and nothing otherwise. -/
theorem replayRead_of_agreed {p : Player} {b : MachineBus δ ρ π} {address : Long}
    {width : AccessWidth} {pc : Long}
    (h : (replayRead p b address width pc).2.1.divergence = none) :
    p.divergence = none ∧
      (p.classify address ≠ .io → (replayRead p b address width pc).2.1.log = p.log) ∧
      (p.classify address = .io → ∃ logged,
        p.log = .ioRead p.ordinal address width.bytes logged ::
          (replayRead p b address width pc).2.1.log ∧
        (replayRead p b address width pc).1 = logged) := by
  unfold replayRead at h ⊢
  cases hclass : p.classify address with
  | rom => rw [hclass] at h; exact ⟨h, fun _ => rfl, fun hio => nomatch hio⟩
  | openBus => rw [hclass] at h; exact ⟨h, fun _ => rfl, fun hio => nomatch hio⟩
  | ram =>
    rw [hclass] at h
    simp only [Player.readRam] at h ⊢
    split at h
    · exact ⟨h, fun _ => rfl, fun hio => nomatch hio⟩
    · exact (Player.recordDivergence_divergence _ _).mp h |>.elim
  | io =>
    rw [hclass] at h
    simp only [Player.expectIoRead] at h ⊢
    split at h
    · exact (Player.recordDivergence_divergence _ _).mp h |>.elim
    · rename_i ordinal eaddr ewidth value evs hlog
      split_ifs at h ⊢ with hsame
      · obtain ⟨rfl, rfl, rfl⟩ := hsame
        exact ⟨h, fun hio => absurd rfl hio, fun _ => ⟨value, hlog, rfl⟩⟩
      · exact (Player.recordDivergence_divergence _ _).mp h |>.elim
    · exact (Player.recordDivergence_divergence _ _).mp h |>.elim

/-- The same for a write. -/
theorem replayWrite_of_agreed {p : Player} {b : MachineBus δ ρ π} {address : Long}
    {width : AccessWidth} {value pc : Long}
    (h : (replayWrite p b address width value pc).1.divergence = none) :
    p.divergence = none ∧
      (p.classify address ≠ .io → (replayWrite p b address width value pc).1.log = p.log) ∧
      (p.classify address = .io →
        p.log = .ioWrite p.ordinal address width.bytes value ::
          (replayWrite p b address width value pc).1.log) := by
  unfold replayWrite at h ⊢
  cases hclass : p.classify address with
  | rom => rw [hclass] at h; exact ⟨h, fun _ => rfl, fun hio => nomatch hio⟩
  | openBus => rw [hclass] at h; exact ⟨h, fun _ => rfl, fun hio => nomatch hio⟩
  | ram =>
    rw [hclass] at h
    simp only [Player.writeRam] at h ⊢
    split at h
    · exact ⟨h, fun _ => rfl, fun hio => nomatch hio⟩
    · exact (Player.recordDivergence_divergence _ _).mp h |>.elim
  | io =>
    rw [hclass] at h
    simp only [Player.expectIoWrite] at h ⊢
    split at h
    · exact (Player.recordDivergence_divergence _ _).mp h |>.elim
    · rename_i ordinal eaddr ewidth evalue evs hlog
      split_ifs at h ⊢ with hsame
      · obtain ⟨rfl, rfl, rfl, rfl⟩ := hsame
        exact ⟨h, fun hio => absurd rfl hio, fun _ => hlog⟩
      · exact (Player.recordDivergence_divergence _ _).mp h |>.elim
    · exact (Player.recordDivergence_divergence _ _).mp h |>.elim

end Accesses

/-! ## Runs -/

namespace ReplayRun

variable {γ δ ρ π : Type} {cpu : GuestCpu γ} {log : List Event} {s : ReplayRun γ δ ρ π}
  {ordinal : Nat} {regs : Regs}

/-- The events the next drain of a run takes. -/
def due (s : ReplayRun γ δ ρ π) : List Event := dueEvents (s.player.ordinal + 1) s.player.log

/-- **No comparison is left out in this pass**: no halt with every interrupt masked, no checkpoint
drained while stopped, and no two checkpoints or `End` records in one drain. -/
def Guarded (cpu : GuestCpu γ) (s : ReplayRun γ δ ρ π) : Prop :=
  match cpu.action s.cpu with
  | .retire _ =>
    (s.due.filterMap Event.checkpoint?).length ≤ 1 ∧ (s.due.filterMap Event.finish?).length ≤ 1
  | .exit .stopped next =>
    cpu.intMask next &&& 0x0700 ≠ 0x0700 ∧ s.due.filterMap Event.checkpoint? = [] ∧
      (s.due.filterMap Event.finish?).length ≤ 1
  | _ => True

/-- Nothing has diverged: the observations are about the events consumed so far, each once and in
order, and what they say is so. -/
structure Agreed (log : List Event) (s : ReplayRun γ δ ρ π) : Prop where
  consumed : log.map some = s.trace.map Observation.event ++ s.player.log.map some
  matched : ∀ o ∈ s.trace, o.Matches

/-- What a clean verdict says of a log: everything up to an `End` record was consumed, with an
observation that matched for each event, and the registers there are the final ones. -/
structure Sound (cpu : GuestCpu γ) (log : List Event) (s : ReplayRun γ δ ρ π) : Prop where
  consumed : ∃ rest : List Event, log.map some = s.trace.map Observation.event ++ rest.map some
  matched : ∀ o ∈ s.trace, o.Matches
  ended : ∃ ordinal total regs chip fast digests,
    .drained (.finish ordinal total regs chip fast) (cpu.regs s.cpu) digests ∈ s.trace

/-- What a drain leaves, when it does not diverge and what it does not compare itself is so. -/
theorem Agreed.drain {s : ReplayRun γ δ ρ π} (h : s.player.divergence = none → Agreed log s)
    (hnone : (s.drain cpu).2.player.divergence = none)
    (hcheckpoint : ∀ ordinal regs, .checkpoint ordinal regs ∈ s.due →
      cpu.regs (s.drain cpu).2.cpu = regs)
    (hfinish : ∀ ordinal total regs chip fast, .finish ordinal total regs chip fast ∈ s.due →
      cpu.regs (s.drain cpu).2.cpu = regs) : Agreed log (s.drain cpu).2 := by
  have hspec := s.player.advanceOrdinal.drainFrom_spec s.bus.ram .none s.player.log
  have hmap := map_fst_drainedEvents (s.player.ordinal + 1) s.bus.ram s.player.log
  have hagreed := h (hspec.divergence hnone)
  constructor
  · rw [hagreed.consumed, hspec.log_eq]
    have hevents : (s.drain cpu).2.trace.map Observation.event =
        s.trace.map Observation.event ++ s.due.map some := by
      rw [due, ← hmap]
      simp only [ReplayRun.drain, List.map_append, List.map_map]
      rfl
    rw [hevents, List.map_append, List.append_assoc]
    rfl
  · intro o ho
    have ho : o ∈ s.trace ++ (drainedEvents (s.player.ordinal + 1) s.bus.ram s.player.log).map
        fun p => Observation.drained p.1 (cpu.regs (s.drain cpu).2.cpu) (ramDigests p.2) := ho
    rcases List.mem_append.mp ho with ho | ho
    · exact hagreed.matched o ho
    · obtain ⟨⟨ev, ram⟩, hmem, rfl⟩ := List.mem_map.mp ho
      have hdue : ev ∈ s.due := by
        rw [due, ← hmap]
        exact List.mem_map_of_mem hmem
      cases ev with
      | checkpoint ordinal regs => exact hcheckpoint ordinal regs hdue
      | finish ordinal total regs chip fast =>
        exact ⟨hfinish _ _ _ _ _ hdue, hspec.digests hnone _ _ _ _ _ _ hmem⟩
      | _ => trivial

theorem drain_checkpoint (s : ReplayRun γ δ ρ π) :
    (s.drain cpu).1.checkpoint = (s.due.filterMap Event.checkpoint?).getLast? := by
  have hspec := s.player.advanceOrdinal.drainFrom_spec s.bus.ram .none s.player.log
  exact hspec.checkpoint_eq.trans (Option.or_none)

theorem drain_finish (s : ReplayRun γ δ ρ π) :
    (s.drain cpu).1.finish = (s.due.filterMap Event.finish?).getLast? := by
  have hspec := s.player.advanceOrdinal.drainFrom_spec s.bus.ram .none s.player.log
  exact hspec.finish_eq.trans (Option.or_none)

/-- The only element a short list has is its last. -/
theorem getLast?_eq_some_of_mem {α : Type} {xs : List α} (h : xs.length ≤ 1) {x : α}
    (hx : x ∈ xs) : xs.getLast? = some x := by
  match xs, h with
  | [y], _ =>
    rw [List.mem_singleton] at hx
    rw [hx]
    rfl

/-- The replay ended clean. -/
def Clean (s : ReplayRun γ δ ρ π) : Prop :=
  ∃ ordinals ioReads ioWrites iplEvents deviceWrites transitions checkpoints,
    s.outcome = some (.replayClean ordinals ioReads ioWrites iplEvents deviceWrites transitions
      checkpoints)

theorem compareCheckpoint_of_agreed {checkpoint : Option (Nat × Regs)}
    (h : (s.compareCheckpoint cpu checkpoint).player.divergence = none) :
    s.compareCheckpoint cpu checkpoint = s ∧
      ∀ ordinal regs, checkpoint = some (ordinal, regs) → cpu.regs s.cpu = regs := by
  unfold compareCheckpoint at h ⊢
  split
  · rename_i ordinal expected
    simp only at h ⊢
    split_ifs at h ⊢ with hdiff
    · exact (Player.recordDivergence_divergence _ _).mp h |>.elim
    · refine ⟨rfl, ?_⟩
      rintro _ _ ⟨⟩
      exact (not_not.mp hdiff).symm
  · exact ⟨rfl, fun _ _ h => nomatch h⟩

theorem cleanHalt_trace (s : ReplayRun γ δ ρ π) : (s.cleanHalt cpu).trace = s.trace := by
  unfold cleanHalt
  dsimp only
  split
  · split_ifs <;> rfl
  · rfl

theorem cleanHalt_cpu (s : ReplayRun γ δ ρ π) : (s.cleanHalt cpu).cpu = s.cpu := by
  unfold cleanHalt
  dsimp only
  split
  · split_ifs <;> rfl
  · rfl

theorem cleanHalt_of_clean (h : (s.cleanHalt cpu).Clean) :
    s.player.divergence = none ∧
      ∀ ordinal total regs, s.endInfo = some (ordinal, total, regs) → cpu.regs s.cpu = regs := by
  obtain ⟨_, _, _, _, _, _, _, hclean⟩ := h
  unfold cleanHalt at hclean
  cases hinfo : s.endInfo with
  | none =>
    rw [hinfo] at hclean
    dsimp only at hclean
    cases hdiv : s.player.divergence with
    | none => simp
    | some d => rw [hdiv] at hclean; cases hclean
  | some info =>
    obtain ⟨ordinal, total, expected⟩ := info
    rw [hinfo] at hclean
    dsimp only at hclean
    split_ifs at hclean with hdiff
    · split at hclean
      · cases hclean
      · rename_i hnone
        exact (Player.recordDivergence_divergence _ _).mp hnone |>.elim
    · cases hdiv : s.player.divergence with
      | none =>
        refine ⟨rfl, ?_⟩
        rintro _ _ _ ⟨⟩
        exact (not_not.mp hdiff).symm
      | some d => rw [hdiv] at hclean; cases hclean

/-- After a drain the run goes on only without an `End` record and without a divergence. -/
theorem afterDrain_again {effects : DrainedEffects} {t : ReplayRun γ δ ρ π}
    (h : s.afterDrain cpu effects = .again t) :
    t = s ∧ s.player.divergence = none ∧ effects.finish = none := by
  unfold afterDrain at h
  split at h
  · cases h
  · rename_i hfinish
    split at h
    · cases h
    · rename_i hnone
      cases h
      exact ⟨rfl, hnone, hfinish⟩

/-- It ends clean only at an `End` record whose registers are the final ones. -/
theorem afterDrain_clean {effects : DrainedEffects} {t : ReplayRun γ δ ρ π}
    (h : s.afterDrain cpu effects = .done t) (hclean : t.Clean) :
    s.player.divergence = none ∧ t.trace = s.trace ∧ t.cpu = s.cpu ∧
      ∃ ordinal total, effects.finish = some (ordinal, total, cpu.regs s.cpu) := by
  unfold afterDrain at h
  split at h
  · rename_i info hfinish
    obtain ⟨ordinal, total, expected⟩ := info
    cases h
    obtain ⟨hnone, hregs⟩ := cleanHalt_of_clean hclean
    have hregs := hregs ordinal total expected rfl
    refine ⟨hnone, cleanHalt_trace _, cleanHalt_cpu _, ordinal, total, ?_⟩
    rw [hfinish, ← hregs]
  · split at h
    · cases h
      obtain ⟨_, _, _, _, _, _, _, hclean⟩ := hclean
      cases hclean
    · cases h

theorem mem_finish_of_drain {total : Nat}
    (h : (s.drain cpu).1.finish = some (ordinal, total, regs)) :
    ∃ chip fast, .finish ordinal total regs chip fast ∈ s.due := by
  rw [drain_finish] at h
  obtain ⟨ev, hev, hfinish⟩ := List.mem_filterMap.mp (List.mem_of_getLast? h)
  cases ev with
  | finish _ _ _ chip fast =>
    cases hfinish
    exact ⟨chip, fast, hev⟩
  | _ => cases hfinish

/-- With no two `End` records due, the one that is due is the one the run is told of. -/
theorem drain_finish_of_mem (hone : (s.due.filterMap Event.finish?).length ≤ 1) {total : Nat}
    {chip fast : Quad} (h : .finish ordinal total regs chip fast ∈ s.due) :
    (s.drain cpu).1.finish = some (ordinal, total, regs) := by
  rw [drain_finish]
  exact getLast?_eq_some_of_mem hone (List.mem_filterMap.mpr ⟨_, h, rfl⟩)

theorem drain_checkpoint_of_mem (hone : (s.due.filterMap Event.checkpoint?).length ≤ 1)
    (h : .checkpoint ordinal regs ∈ s.due) : (s.drain cpu).1.checkpoint = some (ordinal, regs) := by
  rw [drain_checkpoint]
  exact getLast?_eq_some_of_mem hone (List.mem_filterMap.mpr ⟨_, h, rfl⟩)

/-- **A drain and what follows it**, when every checkpoint that is due is compared. -/
theorem drain_afterDrain (hagreed : s.player.divergence = none → Agreed log s)
    (hone : (s.due.filterMap Event.finish?).length ≤ 1)
    (hcheckpoint : (s.drain cpu).2.player.divergence = none → ∀ ordinal regs,
      .checkpoint ordinal regs ∈ s.due → cpu.regs (s.drain cpu).2.cpu = regs) :
    (∀ t, (s.drain cpu).2.afterDrain cpu (s.drain cpu).1 = .again t →
        t.player.divergence = none → Agreed log t) ∧
      ∀ t, (s.drain cpu).2.afterDrain cpu (s.drain cpu).1 = .done t → t.Clean →
        Sound cpu log t := by
  constructor
  · intro t ht _
    obtain ⟨rfl, hnone, hfinish⟩ := afterDrain_again ht
    refine Agreed.drain hagreed hnone (hcheckpoint hnone) ?_
    intro ordinal total regs chip fast hmem
    rw [drain_finish_of_mem hone hmem] at hfinish
    cases hfinish
  · intro t ht hclean
    obtain ⟨hnone, htrace, hcpu, ordinal, total, hfinish⟩ := afterDrain_clean ht hclean
    have hdrained : Agreed log (s.drain cpu).2 := by
      refine Agreed.drain hagreed hnone (hcheckpoint hnone) ?_
      intro ordinal total regs chip fast hmem
      rw [drain_finish_of_mem hone hmem] at hfinish
      cases hfinish
      rfl
    obtain ⟨chip, fast, hmem⟩ := mem_finish_of_drain hfinish
    refine ⟨⟨_, htrace ▸ hdrained.consumed⟩, htrace ▸ hdrained.matched, ?_⟩
    have hmem' := hmem
    rw [due, ← map_fst_drainedEvents _ s.bus.ram] at hmem'
    obtain ⟨⟨ev, ram⟩, hram, rfl⟩ := List.mem_map.mp hmem'
    refine ⟨ordinal, total, cpu.regs (s.drain cpu).2.cpu, chip, fast, ramDigests ram, ?_⟩
    rw [htrace, hcpu]
    exact List.mem_append_right _ (List.mem_map.mpr ⟨_, hram, rfl⟩)

/-- An access to an `Io` page consumes the event it matches, any other consumes nothing. -/
theorem Agreed.observe {s t : ReplayRun γ δ ρ π} (h : Agreed log s) {address : Long} {a : IoAccess}
    (htrace : t.trace = s.observe address a)
    (hother : s.player.classify address ≠ .io → t.player.log = s.player.log)
    (hio : s.player.classify address = .io → ∃ ev, s.player.log = ev :: t.player.log ∧
      (Observation.access a (some ev)).Matches) : Agreed log t := by
  unfold ReplayRun.observe at htrace
  split_ifs at htrace with hclass
  · obtain ⟨ev, hlog, hmatches⟩ := hio hclass
    rw [hlog] at htrace
    constructor
    · rw [h.consumed, hlog, htrace]
      simp [Observation.event]
    · rw [htrace]
      intro o ho
      rcases List.mem_append.mp ho with ho | ho
      · exact h.matched o ho
      · rw [List.mem_singleton] at ho
        subst ho
        exact hmatches
  · constructor
    · rw [h.consumed, htrace, hother hclass]
    · rw [htrace]
      exact h.matched

/-- **The hook** compares the checkpoint that is due, if there is one. -/
theorem Agreed.hook (hagreed : s.player.divergence = none → Agreed log s)
    (hcheckpoints : (s.due.filterMap Event.checkpoint?).length ≤ 1)
    (hfinishes : (s.due.filterMap Event.finish?).length ≤ 1) :
    (∀ t, s.hook cpu = .again t → t.player.divergence = none → Agreed log t) ∧
      ∀ t, s.hook cpu = .done t → t.Clean → Sound cpu log t := by
  -- without a divergence the comparison changed nothing and found the registers equal
  have hcompared : ((s.drain cpu).2.compareCheckpoint cpu
      (s.drain cpu).1.checkpoint).player.divergence = none →
      (s.drain cpu).2.compareCheckpoint cpu (s.drain cpu).1.checkpoint = (s.drain cpu).2 ∧
        ∀ ordinal regs, .checkpoint ordinal regs ∈ s.due →
          cpu.regs (s.drain cpu).2.cpu = regs := by
    intro hnone
    obtain ⟨heq, hregs⟩ := compareCheckpoint_of_agreed hnone
    exact ⟨heq, fun ordinal regs hmem =>
      hregs ordinal regs (drain_checkpoint_of_mem hcheckpoints hmem)⟩
  constructor
  · intro t ht
    have ht : ((s.drain cpu).2.compareCheckpoint cpu (s.drain cpu).1.checkpoint).afterDrain cpu
      (s.drain cpu).1 = .again t := ht
    obtain ⟨heq, hregs⟩ := hcompared (afterDrain_again ht).2.1
    rw [heq] at ht
    exact (drain_afterDrain hagreed hfinishes fun _ => hregs).1 t ht
  · intro t ht hclean
    have ht : ((s.drain cpu).2.compareCheckpoint cpu (s.drain cpu).1.checkpoint).afterDrain cpu
      (s.drain cpu).1 = .done t := ht
    obtain ⟨heq, hregs⟩ := hcompared (afterDrain_clean ht hclean).1
    rw [heq] at ht
    exact (drain_afterDrain hagreed hfinishes fun _ => hregs).2 t ht hclean

/-- A tick while the CPU is stopped, when no checkpoint is due in it. -/
theorem Agreed.stopped {s : ReplayRun γ δ ρ π}
    (hagreed : s.player.divergence = none → Agreed log s)
    (hmask : cpu.intMask s.cpu &&& 0x0700 ≠ 0x0700)
    (hcheckpoints : s.due.filterMap Event.checkpoint? = [])
    (hfinishes : (s.due.filterMap Event.finish?).length ≤ 1) :
    (∀ t, s.stopped cpu = .again t → t.player.divergence = none → Agreed log t) ∧
      ∀ t, s.stopped cpu = .done t → t.Clean → Sound cpu log t := by
  have hnocheckpoint : ∀ ordinal regs, .checkpoint ordinal regs ∈ s.due →
      cpu.regs (s.drain cpu).2.cpu = regs := by
    intro ordinal regs hmem
    have : (ordinal, regs) ∈ s.due.filterMap Event.checkpoint? :=
      List.mem_filterMap.mpr ⟨_, hmem, rfl⟩
    rw [hcheckpoints] at this
    cases this
  have hdrain := drain_afterDrain hagreed hfinishes fun _ => hnocheckpoint
  unfold ReplayRun.stopped
  rw [if_neg hmask]
  exact hdrain

theorem agreed_start (c : γ) (bus : MachineBus δ ρ π) (table : PageTable) (lastPc : Long) :
    Agreed log (start c bus table log lastPc) := by
  constructor
  · rfl
  · intro o ho
    cases ho

variable [BlockDevice δ] [PacketBackend ρ] [PciBackend π]

/-- **One guarded pass** keeps the agreement, and ends clean only soundly. -/
theorem Agreed.pass {s : ReplayRun γ δ ρ π} (hguard : Guarded cpu s)
    (hagreed : s.player.divergence = none → Agreed log s) :
    (∀ t, s.pass cpu = .again t → t.player.divergence = none → Agreed log t) ∧
      ∀ t, s.pass cpu = .done t → t.Clean → Sound cpu log t := by
  unfold Guarded at hguard
  unfold ReplayRun.pass
  cases haction : cpu.action s.cpu with
  | read address width next =>
    constructor
    · rintro t ⟨⟩ hnone
      obtain ⟨hold, hother, hio⟩ := replayRead_of_agreed hnone
      refine (hagreed hold).observe rfl hother ?_
      intro hclass
      obtain ⟨logged, hlog, hvalue⟩ := hio hclass
      exact ⟨_, hlog, logged, rfl, congrArg _ hvalue⟩
    · rintro t ⟨⟩
  | write address width value next =>
    constructor
    · rintro t ⟨⟩ hnone
      obtain ⟨hold, hother, hio⟩ := replayWrite_of_agreed hnone
      exact (hagreed hold).observe rfl hother fun hclass => ⟨_, hio hclass, rfl⟩
    · rintro t ⟨⟩
  | retire next =>
    rw [haction] at hguard
    exact Agreed.hook (s := { s with cpu := next })
      (fun hnone => ⟨(hagreed hnone).consumed, (hagreed hnone).matched⟩) hguard.1 hguard.2
  | exit reason next =>
    rw [haction] at hguard
    have hsame : ∀ c, ({ s with cpu := c } : ReplayRun γ δ ρ π).player.divergence = none →
        Agreed log { s with cpu := c } :=
      fun c hnone => ⟨(hagreed hnone).consumed, (hagreed hnone).matched⟩
    cases reason with
    | stopped =>
      obtain ⟨hmask, hcheckpoints, hfinishes⟩ := hguard
      exact Agreed.stopped (s := { s with cpu := next }) (hsame next) hmask hcheckpoints hfinishes
    | _ =>
      constructor
      · rintro t ⟨⟩ hnone
        exact hsame _ hnone
      · rintro t ⟨⟩

/-- **A clean verdict is sound** in every replay whose passes leave no comparison out. -/
theorem replayClean_sound {c : γ} {bus : MachineBus δ ρ π} {table : PageTable} {lastPc : Long}
    {n : Nat} {s t : ReplayRun γ δ ρ π}
    (hguard : ∀ m u, Loop.Iterates (pass cpu) m (start c bus table log lastPc) u → Guarded cpu u)
    (hrun : Loop.Iterates (pass cpu) n (start c bus table log lastPc) s)
    (hend : s.pass cpu = .done t) (hclean : t.Clean) : Sound cpu log t := by
  have hagreed : s.player.divergence = none → Agreed log s := by
    have hinv := hrun.invariant
      (P := fun m u => Loop.Iterates (pass cpu) m (start c bus table log lastPc) u ∧
        (u.player.divergence = none → Agreed log u)) ?_ 0
        ⟨.zero _, fun _ => agreed_start c bus table lastPc⟩
    · exact hinv.2
    · rintro m u v ⟨hiter, hu⟩ huv
      exact ⟨hiter.snoc huv, fun hnone => (Agreed.pass (hguard m u hiter) hu).1 v huv hnone⟩
  exact (Agreed.pass (hguard n s hrun) hagreed).2 t hend hclean

/-! ## Two replays -/

/-- A CPU that is stopped with every interrupt masked. -/
def maskedCpu (regs : Regs) : GuestCpu Unit where
  action _ := .exit .stopped ()
  regs _ := regs
  intMask _ := 0x0700
  setIrq c _ := c
  takeException c _ := c

def zeroRegs : Regs := ⟨Vector.replicate 8 0, Vector.replicate 8 0, 0, 0⟩

def emptyBus : MachineBus MemDisk Empty Empty := .new (fun _ => 0) (.zero 0)

/-- A `STOP` with every interrupt masked ends the replay clean with the `End` record unread. -/
theorem replayClean_of_masked :
    ¬∀ (γ : Type) (cpu : GuestCpu γ) (c : γ) (bus : MachineBus MemDisk Empty Empty)
      (table : PageTable) (log : List Event) (lastPc : Long) (n : Nat)
      (s t : ReplayRun γ MemDisk Empty Empty),
      Loop.Iterates (pass cpu) n (start c bus table log lastPc) s → s.pass cpu = .done t →
        t.Clean → Sound cpu log t := by
  intro h
  have hsound := h Unit (maskedCpu zeroRegs) () emptyBus (fun _ => .io)
    [.finish 0 0 zeroRegs 0 0] 0 0 _ _ (.zero _) rfl ⟨_, _, _, _, _, _, _, rfl⟩
  obtain ⟨_, _, _, _, _, _, hmem⟩ := hsound.ended
  cases hmem

/-- A CPU that reads `VPOSR` and retires. -/
def pollingCpu (regs : Regs) : GuestCpu Bool where
  action c := if c then .retire true else .read 0x00DFF004 .w16 fun _ => true
  regs _ := regs
  intMask _ := 0
  setIrq c _ := c
  takeException c _ := c

/-- The log of one read, a checkpoint and the end. -/
def pollingLog : List Event :=
  [.ioRead 0 0x00DFF004 2 0x8000, .checkpoint 1 zeroRegs,
    .finish 1 1 zeroRegs (ramDigests emptyBus.ram).1 (ramDigests emptyBus.ram).2]

/-- The replay of that log. -/
def pollingStart : ReplayRun Bool MemDisk Empty Empty :=
  start false emptyBus (fun _ => .io) pollingLog 0

/-- After the read. -/
def pollingRead : ReplayRun Bool MemDisk Empty Empty :=
  { pollingStart with
    cpu := true
    player := { pollingStart.player with
      log := pollingLog.tail
      ioReadEventsConsumed := 1 }
    trace := [.access (.read 0 0x00DFF004 .w16 0x8000) (some (.ioRead 0 0x00DFF004 2 0x8000))] }

theorem pass_pollingStart : pollingStart.pass (pollingCpu zeroRegs) = .again pollingRead := rfl

/-- The player after the checkpoint and the end were drained. -/
def pollingDrained : Player :=
  { pollingRead.player with log := [], ordinal := 1, checkpointsCompared := 1 }

theorem drain_pollingRead :
    pollingRead.player.advanceOrdinal.drainSideEffects emptyBus.ram =
      (pollingDrained, emptyBus.ram, ⟨0, 0, none, some (1, zeroRegs), some (1, 1, zeroRegs)⟩) := by
  have hdigests (p : Player) : p.compareDigests emptyBus.ram (ramDigests emptyBus.ram).1
      (ramDigests emptyBus.ram).2 = p := by
    simp [Player.compareDigests]
  simp [Player.drainSideEffects, Player.drainFrom, pollingRead, pollingStart, pollingLog, start,
    Player.atStart, Player.advanceOrdinal, Event.ordinal, hdigests, pollingDrained,
    DrainedEffects.none]

theorem pass_pollingRead :
    ∃ t, pollingRead.pass (pollingCpu zeroRegs) = .done t ∧ t.Clean := by
  have hhook : pollingRead.pass (pollingCpu zeroRegs) =
      ReplayRun.hook (pollingCpu zeroRegs) pollingRead := rfl
  rw [hhook, ReplayRun.hook, ReplayRun.drain]
  have hram : pollingRead.bus.ram = emptyBus.ram := rfl
  simp only [hram, drain_pollingRead]
  exact ⟨_, rfl, 1, 1, 0, 0, 0, 0, 1, rfl⟩

theorem due_pollingRead : pollingRead.due = pollingLog.tail := by
  simp [due, dueEvents, pollingRead, pollingStart, pollingLog, start, Player.atStart, Event.dueAt,
    Event.ordinal, Event.isIo]

/-- The replay ends at the `End` record, and the read and the checkpoint before it agreed. -/
theorem replayClean_polling :
    ∃ t : ReplayRun Bool MemDisk Empty Empty,
      t.Clean ∧ Sound (pollingCpu zeroRegs) pollingLog t := by
  obtain ⟨t, hdone, hclean⟩ := pass_pollingRead
  refine ⟨t, hclean, replayClean_sound ?_ (.succ pass_pollingStart (.zero _)) hdone hclean⟩
  intro m u hiter
  cases hiter with
  | zero => exact trivial
  | succ hfirst hiter =>
    obtain rfl : pollingRead = _ := Loop.Outcome.again.inj (pass_pollingStart.symm.trans hfirst)
    cases hiter with
    | zero =>
      constructor
      · rw [due_pollingRead]; exact Nat.le_refl 1
      · rw [due_pollingRead]; exact Nat.le_refl 1
    | succ hsecond _ =>
      rw [hdone] at hsecond
      cases hsecond

end ReplayRun

end M68kMachine
