import M68kMachine.Hosted.FixedRun
import M68kMachine.Library.Bresenham

/-!
# Device time in the fixed mode

Only two places advance the devices: the hook, by the instruction's part of the line, and the arm of
a stopped CPU, by a line. The parts of a line telescope, so what was ticked depends only on the
instructions retired and the lines ticked while stopped.

* `clocksOf` — the clocks that a list of calls passes to `tick`
* `retires`, `stopTicks` — the two kinds of passes that tick
* `pass_spends`, `pass_place` — what one pass ticks, and where it leaves the line
* `device_time_exact` — the runs
-/

namespace M68kMachine

open Loop Transition

/-- The clocks of the `tick`s among some calls on the bus. -/
def clocksOf {δ ρ π : Type} (calls : List (BusOp δ ρ π)) : Nat :=
  (calls.map fun
    | .guest (.tick cpuClocks) => cpuClocks.toNat
    | _ => 0).sum

theorem FixedArgs.perLine_pos (args : FixedArgs) : 0 < args.perLine :=
  Nat.le_max_right _ _

theorem toNat_decide_mul (p : Prop) [Decidable p] (n : Nat) :
    (decide p).toNat * n = if p then n else 0 := by
  split <;> simp [*]

namespace FixedRun

variable {γ δ ρ π η : Type}

/-- The pass retires an instruction. -/
def retires (cpu : FixedCpu γ) (s : FixedRun γ δ ρ π η) : Bool :=
  match cpu.action s.cpu with
  | .retire _ => true
  | _ => false

/-- The pass finds the CPU stopped, with an interrupt it still waits for, and frames to go. -/
def stopTicks (cpu : FixedCpu γ) (args : FixedArgs) (s : FixedRun γ δ ρ π η) : Bool :=
  match cpu.action s.cpu with
  | .exit .stopped next =>
    cpu.intMask next &&& 0x0700 ≠ 0x0700 ∧ ¬(args.maxFrames ≠ 0 ∧ args.maxFrames ≤ s.bus.frames)
  | _ => false

variable [BlockDevice δ] [PacketBackend ρ] [PciBackend π] {args : FixedArgs}
  {s : FixedRun γ δ ρ π η}

/-! ## Calls on the bus -/

/-- Calls that take the bus from `b` to `b'` and tick `clocks` in all. -/
def Spends (b b' : MachineBus δ ρ π) (clocks : Nat) : Prop :=
  ∃ calls, b' = run MachineBus.step b calls ∧ clocksOf calls = clocks

theorem Spends.refl (b : MachineBus δ ρ π) : Spends b b 0 := ⟨[], rfl, rfl⟩

theorem Spends.trans {b b' b'' : MachineBus δ ρ π} {m n : Nat} (h : Spends b b' m)
    (h' : Spends b' b'' n) : Spends b b'' (m + n) := by
  obtain ⟨calls, rfl, rfl⟩ := h
  obtain ⟨calls', rfl, rfl⟩ := h'
  refine ⟨calls ++ calls', (run_append _ _ _ _).symm, ?_⟩
  unfold clocksOf
  rw [List.map_append, List.sum_append]

theorem Spends.tick (b : MachineBus δ ρ π) (clocks : Long) :
    Spends b (b.tick clocks) clocks.toNat :=
  ⟨[.guest (.tick clocks)], rfl, Nat.add_zero _⟩

theorem Spends.access (b : MachineBus δ ρ π) (a : Access) : Spends b (b.access a).2 0 :=
  ⟨[.guest (.access a)], rfl, rfl⟩

theorem Spends.host (b : MachineBus δ ρ π) : ∀ ops : List HostOp,
    Spends b (ops.foldl MachineBus.stepHost b) 0
  | [] => .refl b
  | op :: ops => by
    have hfirst : Spends b (b.stepHost op) 0 := ⟨[.host op], rfl, rfl⟩
    exact hfirst.trans (Spends.host _ ops)

theorem Spends.readWidth (b : MachineBus δ ρ π) (address : Long) (width : AccessWidth) :
    Spends b (M68kMachine.readWidth b address width).2 0 := by
  cases width with
  | w8 => exact .access b (.readByte address)
  | w16 => exact .access b (.readWord address)
  | w32 => exact .access b (.readLong address)

theorem Spends.writeWidth (b : MachineBus δ ρ π) (address value : Long) (width : AccessWidth) :
    Spends b (M68kMachine.writeWidth b address value width) 0 := by
  cases width with
  | w8 => exact .access b (.writeByte address (value.setWidth 8))
  | w16 => exact .access b (.writeWord address (value.setWidth 16))
  | w32 => exact .access b (.writeLong address value)

/-! ## What does not tick -/

/-- The devices were not ticked, and the place in the line is the same. -/
structure SameTime (s t : FixedRun γ δ ρ π η) : Prop where
  spends : Spends s.bus t.bus 0
  place : t.instrThisLine = s.instrThisLine

theorem SameTime.refl (s : FixedRun γ δ ρ π η) : SameTime s s := ⟨.refl _, rfl⟩

theorem SameTime.trans {s t u : FixedRun γ δ ρ π η} (h : SameTime s t) (h' : SameTime t u) :
    SameTime s u :=
  ⟨h.spends.trans h'.spends, h'.place.trans h.place⟩

theorem sameTime_recordSpans (args : FixedArgs) (s : FixedRun γ δ ρ π η) :
    SameTime s (s.recordSpans args) := by
  unfold recordSpans
  split
  · exact ⟨.host _ [.clearDeviceWriteSpans], rfl⟩
  · exact .refl s

theorem sameTime_drainSerial (s : FixedRun γ δ ρ π η) : SameTime s s.drainSerial :=
  ⟨.host _ _, rfl⟩

theorem sameTime_serviceHostSerial (cpu : FixedCpu γ) (host : FixedHost δ ρ π η) (args : FixedArgs)
    (s : FixedRun γ δ ρ π η) : SameTime s (s.serviceHostSerial cpu host args) := by
  have hnote : SameTime s s.noteOverlay := by
    unfold noteOverlay
    split <;> exact ⟨.refl _, rfl⟩
  have htrigger (t : FixedRun γ δ ρ π η) : SameTime t (t.triggerIllegal cpu args) := by
    unfold triggerIllegal
    split <;> exact ⟨.refl _, rfl⟩
  have hscripts (t : FixedRun γ δ ρ π η) : SameTime t (t.serviceScripts host) := by
    unfold serviceScripts
    split
    · exact .refl t
    · exact ⟨.host _ _, rfl⟩
  exact (hnote.trans (htrigger _)).trans (hscripts _)

theorem sameTime_serviceInstruction (cpu : FixedCpu γ) (host : FixedHost δ ρ π η)
    (args : FixedArgs) (s : FixedRun γ δ ρ π η) :
    SameTime s (s.serviceInstruction cpu host args) := by
  have hservice := sameTime_serviceHostSerial cpu host args s
  unfold serviceInstruction
  split
  · exact ⟨.refl _, rfl⟩
  · exact ⟨hservice.spends, hservice.place⟩

omit [BlockDevice δ] [PacketBackend ρ] [PciBackend π] in
theorem bus_afterInstruction (args : FixedArgs) (frames : Nat) (s : FixedRun γ δ ρ π η) :
    (s.afterInstruction args frames).state.bus = s.bus := by
  unfold afterInstruction
  split_ifs <;> rfl

/-! ## What a pass ticks -/

omit [BlockDevice δ] [PacketBackend ρ] [PciBackend π] in
/-- The quantum of an instruction is its share of the line. -/
theorem toNat_nextQuantum (args : FixedArgs) (s : FixedRun γ δ ρ π η) :
    (s.nextQuantum args).toNat = Bresenham.share oneLineClocks args.perLine s.instrThisLine := by
  have hle := Bresenham.share_le oneLineClocks args.perLine_pos s.instrThisLine
  have hline : oneLineClocks < 4294967296 := by decide
  show (BitVec.ofNat 32 (Bresenham.share oneLineClocks args.perLine s.instrThisLine)).toNat = _
  rw [BitVec.toNat_ofNat]
  exact Nat.mod_eq_of_lt (Nat.lt_of_le_of_lt hle hline)

/-- The hook ticks the quantum of its instruction, whichever way it ends. -/
theorem hook_spends (cpu : FixedCpu γ) (host : FixedHost δ ρ π η) (args : FixedArgs)
    (s : FixedRun γ δ ρ π η) :
    Spends s.bus (s.hook cpu host args).state.bus (s.nextQuantum args).toNat := by
  have htick := Spends.tick s.bus (s.nextQuantum args)
  have hspans := sameTime_recordSpans args
    { s.tick cpu (s.nextQuantum args) with instrThisLine := s.instrThisLine + 1 }
  unfold hook
  dsimp only
  split
  · -- the recording is given up in the middle of the hook
    exact htick.trans hspans.spends
  · have hservice := (hspans.trans (sameTime_drainSerial _)).trans
      (sameTime_serviceInstruction cpu host args _)
    rw [bus_afterInstruction]
    exact htick.trans hservice.spends

/-- A stopped CPU has a line ticked, unless the run ends. -/
theorem stopped_spends (cpu : FixedCpu γ) (args : FixedArgs) (s : FixedRun γ δ ρ π η) :
    Spends s.bus (s.stopped cpu args).state.bus
      (if cpu.intMask s.cpu &&& 0x0700 ≠ 0x0700 ∧
        ¬(args.maxFrames ≠ 0 ∧ args.maxFrames ≤ s.bus.frames) then oneLineClocks else 0) := by
  have htick := Spends.tick s.bus (BitVec.ofNat 32 oneLineClocks)
  unfold stopped
  split
  · rename_i hmasked
    rw [if_neg (fun h => h.1 hmasked)]
    exact .refl _
  · rename_i hmasked
    split
    · rename_i hlimit
      rw [if_neg (fun h => h.2 hlimit)]
      exact .refl _
    · rename_i hlimit
      rw [if_pos (show cpu.intMask s.cpu &&& 0x0700 ≠ 0x0700 ∧
        ¬(args.maxFrames ≠ 0 ∧ args.maxFrames ≤ s.bus.frames) from ⟨hmasked, hlimit⟩)]
      have hspans := sameTime_recordSpans args (s.tick cpu (BitVec.ofNat 32 oneLineClocks))
      dsimp only
      split
      · exact htick.trans hspans.spends
      · exact htick.trans (hspans.trans (sameTime_drainSerial _)).spends

/-- **What one pass ticks**: the share of the retired instruction, or a stopped CPU's line. -/
theorem pass_spends (cpu : FixedCpu γ) (host : FixedHost δ ρ π η) (args : FixedArgs)
    (s : FixedRun γ δ ρ π η) :
    Spends s.bus (s.pass cpu host args).state.bus
      ((s.retires cpu).toNat * Bresenham.share oneLineClocks args.perLine s.instrThisLine +
        (s.stopTicks cpu args).toNat * oneLineClocks) := by
  unfold pass retires stopTicks
  cases haction : cpu.action s.cpu with
  | read address width next =>
    simp only [Bool.toNat_false, Nat.zero_mul, Nat.add_zero]
    exact .readWidth s.bus address width
  | write address width value next =>
    simp only [Bool.toNat_false, Nat.zero_mul, Nat.add_zero]
    exact .writeWidth s.bus address value width
  | retire next =>
    have hhook := hook_spends cpu host args { s with cpu := next }
    rw [toNat_nextQuantum] at hhook
    simp only [Bool.toNat_true, Bool.toNat_false, Nat.one_mul, Nat.zero_mul, Nat.add_zero]
    exact hhook
  | exit reason next =>
    simp only [Bool.toNat_false, Nat.zero_mul, Nat.zero_add]
    unfold exited
    cases reason with
    | stopped =>
      have hstopped := stopped_spends cpu args { s with cpu := next }
      rw [← toNat_decide_mul] at hstopped
      exact hstopped
    | budgetExhausted | boundaryRequested =>
      simp only [Bool.toNat_false, Nat.zero_mul]
      exact .refl s.bus
    | _ =>
      -- a trap is taken, or one too many ends the run
      simp only [Bool.toNat_false, Nat.zero_mul, GuestExit.exceptionKind]
      split
      · exact .refl s.bus
      · exact .refl s.bus

/-! ## The place in the line -/

omit [BlockDevice δ] [PacketBackend ρ] [PciBackend π] in
theorem place_afterInstruction {i : Nat} (frames : Nat)
    (hs : s.instrThisLine = i % args.perLine + 1) :
    (s.afterInstruction args frames).Holds (fun t => t.instrThisLine = (i + 1) % args.perLine)
      fun _ => True := by
  have hpos := args.perLine_pos
  have hlt := Nat.mod_lt i hpos
  have hsucc : (i + 1) % args.perLine = (i % args.perLine + 1) % args.perLine :=
    (Nat.mod_add_mod i args.perLine 1).symm
  unfold afterInstruction
  split
  · exact trivial
  split
  · exact trivial
  split
  · exact trivial
  split
  case isTrue hdone =>
    have hfull : i % args.perLine + 1 = args.perLine := by
      rw [hs] at hdone
      exact Nat.le_antisymm hlt hdone
    show 0 = (i + 1) % args.perLine
    rw [hsucc, hfull, Nat.mod_self]
  case isFalse hopen =>
    show s.instrThisLine = (i + 1) % args.perLine
    rw [hs] at hopen ⊢
    rw [hsucc, Nat.mod_eq_of_lt (Nat.lt_of_not_le hopen)]

/-- **A pass leaves the line where the retired instructions have brought it.** -/
theorem pass_place {i : Nat} (hs : s.instrThisLine = i % args.perLine) (cpu : FixedCpu γ)
    (host : FixedHost δ ρ π η) :
    (s.pass cpu host args).Holds
      (fun t => t.instrThisLine = (i + (s.retires cpu).toNat) % args.perLine) fun _ => True := by
  unfold pass retires
  cases haction : cpu.action s.cpu with
  | read address width next => exact hs
  | write address width value next => exact hs
  | retire next =>
    simp only [Bool.toNat_true]
    unfold hook
    dsimp only
    split
    · exact trivial
    · have hservice := ((sameTime_recordSpans args
        { ({ s with cpu := next } : FixedRun γ δ ρ π η).tick cpu
            (({ s with cpu := next } : FixedRun γ δ ρ π η).nextQuantum args) with
          instrThisLine := s.instrThisLine + 1 }).trans
        (sameTime_drainSerial _)).trans (sameTime_serviceInstruction cpu host args _)
      refine place_afterInstruction _ (hservice.place.trans ?_)
      show s.instrThisLine + 1 = _
      rw [hs]
  | exit reason next =>
    simp only [Bool.toNat_false, Nat.add_zero]
    unfold exited
    split
    · dsimp only
      split
      · exact trivial
      · exact hs
    · split
      · unfold stopped
        split
        · exact trivial
        split
        · exact trivial
        dsimp only
        split
        · exact trivial
        · have hspans := (sameTime_recordSpans args
            (({ s with cpu := next } : FixedRun γ δ ρ π η).tick cpu
              (BitVec.ofNat 32 oneLineClocks))).trans (sameTime_drainSerial _)
          exact hspans.place.trans hs
      · exact hs

/-! ## Runs -/

/-- What a retired instruction and the stopped CPU keep, a pass keeps. -/
theorem pass_holds {P Q : FixedRun γ δ ρ π η → Prop} {cpu : FixedCpu γ} {host : FixedHost δ ρ π η}
    (hkeep : ∀ s cpu bus exceptions,
      P s → P { s with cpu := cpu, bus := bus, exceptions := exceptions })
    (hend : ∀ s outcome, P s → Q { s with outcome := some outcome })
    (hhook : ∀ s, P s → (s.hook cpu host args).Holds P Q)
    (hstopped : ∀ s, P s → (s.stopped cpu args).Holds P Q) (h : P s) :
    (s.pass cpu host args).Holds P Q := by
  unfold pass
  split
  · exact hkeep s _ _ s.exceptions h
  · exact hkeep s _ _ s.exceptions h
  case h_3 next _ => exact hhook _ (hkeep s next s.bus s.exceptions h)
  case h_4 reason next _ =>
    have hnext : P { s with cpu := next } := hkeep s next s.bus s.exceptions h
    unfold exited
    split
    · -- a trap is taken, unless it is one too many
      dsimp only
      split
      · exact hend _ _ (hkeep s next s.bus _ h)
      · exact hkeep s _ s.bus _ h
    · split
      · exact hstopped _ hnext
      · exact hnext

section Run

variable (cpu : FixedCpu γ) (host : FixedHost δ ρ π η) (args : FixedArgs)

/-- The place in the line, after any number of passes. -/
theorem after_place {s₀ : FixedRun γ δ ρ π η} (hs₀ : s₀.instrThisLine = 0) (n : Nat) :
    (after (pass cpu host args) n s₀).Holds
      (fun t => t.instrThisLine =
        count (pass cpu host args) (retires cpu) n s₀ % args.perLine) fun _ => True := by
  induction n with
  | zero => exact hs₀.trans (Nat.zero_mod _).symm
  | succ n ih =>
    cases h : after (pass cpu host args) n s₀ with
    | again t =>
      rw [h] at ih
      rw [after_succ_of_again h, count_succ_of_again h]
      exact pass_place ih cpu host
    | done t =>
      rw [after_succ_of_done h]
      exact trivial

/-- The clocks of the next pass, as the counts tell them. -/
theorem after_spends {s₀ : FixedRun γ δ ρ π η} (hs₀ : s₀.instrThisLine = 0) (n : Nat) :
    ∃ clocks, Spends (after (pass cpu host args) n s₀).state.bus
        (after (pass cpu host args) (n + 1) s₀).state.bus clocks ∧
      oneLineClocks * count (pass cpu host args) (retires cpu) n s₀ / args.perLine +
          oneLineClocks * count (pass cpu host args) (stopTicks cpu args) n s₀ + clocks =
        oneLineClocks * count (pass cpu host args) (retires cpu) (n + 1) s₀ / args.perLine +
          oneLineClocks * count (pass cpu host args) (stopTicks cpu args) (n + 1) s₀ := by
  have hplace := after_place cpu host args hs₀ n
  cases h : after (pass cpu host args) n s₀ with
  | done t =>
    rw [after_succ_of_done h, count_succ_of_done h, count_succ_of_done h]
    exact ⟨0, .refl _, rfl⟩
  | again t =>
    rw [h] at hplace
    rw [after_succ_of_again h, count_succ_of_again h, count_succ_of_again h]
    refine ⟨_, pass_spends cpu host args t, ?_⟩
    have hi : t.instrThisLine =
      count (pass cpu host args) (retires cpu) n s₀ % args.perLine := hplace
    rw [hi, Bresenham.share_mod _ args.perLine_pos]
    generalize count (pass cpu host args) (retires cpu) n s₀ = retired
    generalize count (pass cpu host args) (stopTicks cpu args) n s₀ = stops
    rw [Nat.mul_add oneLineClocks stops, Nat.mul_comm oneLineClocks (t.stopTicks cpu args).toNat]
    cases t.retires cpu with
    | false =>
      simp only [Bool.toNat_false, Nat.zero_mul, Nat.add_zero, Nat.zero_add, Nat.add_assoc]
    | true =>
      have hshare := Bresenham.share_succ oneLineClocks args.perLine retired
      simp only [Bool.toNat_true, Nat.one_mul]
      omega

end Run

/-- **Fixed mode keeps device time exact.** In every run the bus goes from pass to pass by some
calls, and their ticks in the first `n` passes add up to a line for each line of instructions
completed or ticked while stopped, and the floor of the part of a line that the instructions since
then make up. -/
theorem device_time_exact (cpu : FixedCpu γ) (host : FixedHost δ ρ π η) (args : FixedArgs)
    (state : γ) (bus : MachineBus δ ρ π) (hosted : η) :
    let s₀ := start cpu state bus hosted
    let retired := fun n => count (pass cpu host args) (retires cpu) n s₀
    let stops := fun n => count (pass cpu host args) (stopTicks cpu args) n s₀
    ∃ calls : Nat → List (BusOp δ ρ π), ∀ n,
      (after (pass cpu host args) (n + 1) s₀).state.bus =
          run MachineBus.step (after (pass cpu host args) n s₀).state.bus (calls n) ∧
        ((List.range n).map fun k => clocksOf (calls k)).sum =
          oneLineClocks * (retired n / args.perLine + stops n) +
            oneLineClocks * (retired n % args.perLine) / args.perLine ∧
        ∀ s, after (pass cpu host args) n s₀ = .again s →
          s.instrThisLine = retired n % args.perLine := by
  intro s₀ retired stops
  have hs₀ : s₀.instrThisLine = 0 := rfl
  choose clocks hspends hclocks using after_spends cpu host args hs₀
  choose calls hcalls htotal using hspends
  have hsum (n : Nat) : ((List.range n).map fun k => clocksOf (calls k)).sum =
      oneLineClocks * retired n / args.perLine + oneLineClocks * stops n := by
    induction n with
    | zero =>
      show 0 = oneLineClocks * 0 / args.perLine + oneLineClocks * 0
      rw [Nat.mul_zero, Nat.zero_div]
    | succ n ih =>
      rw [List.range_succ, List.map_append, List.sum_append, ih, List.map_singleton,
        List.sum_singleton, htotal]
      exact hclocks n
  refine ⟨calls, fun n => ⟨hcalls n, ?_, fun s hs => ?_⟩⟩
  · have hwhole := Bresenham.whole_add_parts oneLineClocks args.perLine_pos (retired n) 0
    rw [Nat.add_zero, Nat.add_zero] at hwhole
    rw [hsum, ← hwhole, Nat.mul_add, Nat.add_right_comm]
  · have hplace := after_place cpu host args hs₀ n
    rw [hs] at hplace
    exact hplace

end FixedRun

end M68kMachine
