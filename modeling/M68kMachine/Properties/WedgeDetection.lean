import M68kMachine.Library.SpanWindow
import M68kMachine.Properties.FixedTime

/-!
# Wedge detection

`LoopWindow` is a `SpanWindow` over the PCs. What it says of the PCs since the last reset is true of
them, and a loop that fits into a window cannot go on resetting it.

* `extend_eq`, `spans_fold` — the window as the library's
* `sinceReset`, `resets` — the history of a window
* `wedge_detection` — both directions
-/

namespace M68kMachine

namespace LoopWindow

def spans (w : LoopWindow) : SpanWindow Long := ⟨w.lo, w.hi, w.streak⟩

/-- Fold a sequence of PCs into the window. -/
def fold (w : LoopWindow) (pcs : List Long) : LoopWindow :=
  pcs.foldl (fun w pc => (w.extend pc).2) w

/-- The PCs since the last reset, when those before `pcs` were `recent`. -/
def sinceReset (w : LoopWindow) (recent : List Long) : List Long → List Long
  | [] => recent
  | pc :: pcs => sinceReset (w.extend pc).2 (if (w.extend pc).1 then recent ++ [pc] else [pc]) pcs

/-- How often a sequence of PCs resets the window. -/
def resets (w : LoopWindow) : List Long → Nat
  | [] => 0
  | pc :: pcs => (!(w.extend pc).1).toNat + resets (w.extend pc).2 pcs

/-! ## The window as a greedy one -/

variable (w : LoopWindow)

/-- The span of the widened window does not wrap. -/
theorem toNat_span (pc : Long) :
    ((if w.hi < pc then pc else w.hi) - if pc < w.lo then pc else w.lo).toNat =
      BitVec.toNat (w.spans.upper BitVec.toNat pc) -
        BitVec.toNat (w.spans.lower BitVec.toNat pc) := by
  have hle : (if pc < w.lo then pc else w.lo) ≤ if w.hi < pc then pc else w.hi := by
    simp only [BitVec.le_def, BitVec.lt_def]
    split <;> split <;> omega
  exact BitVec.toNat_sub_of_le hle

/-- **The window is a greedy one over the PCs.** -/
theorem extend_eq (pc : Long) :
    (w.extend pc).1 = w.spans.fits BitVec.toNat loopWindowSpanBytes pc ∧
      (w.extend pc).2.spans = w.spans.extend BitVec.toNat loopWindowSpanBytes pc := by
  unfold extend SpanWindow.extend SpanWindow.fits
  simp only
  rw [toNat_span]
  simp only [decide_eq_true_eq]
  split
  · rename_i h
    exact ⟨(decide_eq_true h).symm, rfl⟩
  · rename_i h
    exact ⟨(decide_eq_false h).symm, rfl⟩

theorem spans_fold (pcs : List Long) :
    (w.fold pcs).spans = w.spans.run BitVec.toNat loopWindowSpanBytes pcs := by
  induction pcs generalizing w with
  | nil => rfl
  | cons pc pcs ih => rw [SpanWindow.run_cons, ← (w.extend_eq pc).2, ← ih]; rfl

theorem sinceReset_eq (recent pcs : List Long) :
    w.sinceReset recent pcs = w.spans.since BitVec.toNat loopWindowSpanBytes recent pcs := by
  induction pcs generalizing w recent with
  | nil => rfl
  | cons pc pcs ih =>
    show (w.extend pc).2.sinceReset _ pcs = SpanWindow.since _ _ _ _ pcs
    rw [ih, (w.extend_eq pc).1, (w.extend_eq pc).2]

theorem resets_eq (pcs : List Long) :
    w.resets pcs = w.spans.resets BitVec.toNat loopWindowSpanBytes pcs := by
  induction pcs generalizing w with
  | nil => rfl
  | cons pc pcs ih =>
    show (!(w.extend pc).1).toNat + (w.extend pc).2.resets pcs = _ + SpanWindow.resets _ _ _ pcs
    rw [ih, (w.extend_eq pc).1, (w.extend_eq pc).2]

/-! ## Both directions -/

/-- The streak in a loop: all of it, or what followed the reset, with the PC that made it. -/
theorem streak_in_span {w : LoopWindow} {pcs : List Long} {base : Nat}
    (hpcs : ∀ p ∈ pcs, base ≤ p.toNat ∧ p.toNat ≤ base + loopWindowSpanBytes) :
    (w.resets pcs = 0 → (w.fold pcs).streak = w.streak + pcs.length) ∧
      ∀ before pc rest, pcs = before ++ pc :: rest → ((w.fold before).extend pc).1 = false →
        (w.fold pcs).streak = (pc :: rest).length := by
  have hstreak : (w.fold pcs).streak =
      (w.spans.run BitVec.toNat loopWindowSpanBytes pcs).count :=
    congrArg SpanWindow.count (w.spans_fold pcs)
  constructor
  · intro hnone
    rw [resets_eq] at hnone
    rw [hstreak, SpanWindow.count_of_no_resets hnone]
    rfl
  · rintro before pc rest rfl hreset
    obtain ⟨-, hin⟩ := List.forall_mem_append.mp hpcs
    obtain ⟨⟨hlo, hhi⟩, hin⟩ := List.forall_mem_cons.mp hin
    rw [(extend_eq _ pc).1, spans_fold] at hreset
    rw [hstreak, SpanWindow.run_append, SpanWindow.count_of_reset hlo hhi hin hreset]
    rfl

/-- **Wedge detection neither misses nor invents a tight loop.** After every sequence of PCs the
streak counts those since the last reset, the last ones of the sequence, and the window goes from
the smallest to the largest of them, within the span allowed. PCs that all lie in such a span reset
it at most once, and reach the threshold within twice as many of them. -/
theorem wedge_detection :
    (∀ (start : Long) (pcs : List Long),
      let w := (new start).fold pcs
      let recent := (new start).sinceReset [start] pcs
      recent <:+ start :: pcs ∧ w.streak = recent.length ∧
        (w.lo ∈ recent ∧ ∀ p ∈ recent, w.lo.toNat ≤ p.toNat) ∧
        (w.hi ∈ recent ∧ ∀ p ∈ recent, p.toNat ≤ w.hi.toNat) ∧
        w.hi.toNat - w.lo.toNat ≤ loopWindowSpanBytes) ∧
      (∀ (w : LoopWindow) (pcs : List Long) (base : Nat),
        (∀ p ∈ pcs, base ≤ p.toNat ∧ p.toNat ≤ base + loopWindowSpanBytes) →
          w.resets pcs ≤ 1 ∧ (w.resets pcs = 0 → (w.fold pcs).streak = w.streak + pcs.length) ∧
            ∀ before pc rest, pcs = before ++ pc :: rest → ((w.fold before).extend pc).1 = false →
              (w.fold pcs).streak = (pc :: rest).length) ∧
      ∀ (w : LoopWindow) (pcs : Nat → Long) (base : Nat),
        (∀ i, base ≤ (pcs i).toNat ∧ (pcs i).toNat ≤ base + loopWindowSpanBytes) →
          ∃ n ≤ 2 * tightLoopThreshold,
            tightLoopThreshold ≤ (w.fold ((List.range n).map pcs)).streak := by
  refine ⟨?_, ?_, ?_⟩
  · intro start pcs
    have hstart : (new start).spans.Covers BitVec.toNat loopWindowSpanBytes [start] :=
      SpanWindow.covers_single start
    have hcovers := SpanWindow.covers_run hstart pcs
    rw [← spans_fold, ← sinceReset_eq] at hcovers
    have hsuffix : (new start).spans.since BitVec.toNat loopWindowSpanBytes [start] pcs <:+
        [start] ++ pcs := SpanWindow.since_suffix _ _ _
    rw [← sinceReset_eq] at hsuffix
    exact ⟨hsuffix, hcovers.count, ⟨hcovers.lo_mem, hcovers.lo_le⟩,
      ⟨hcovers.hi_mem, hcovers.le_hi⟩, hcovers.width⟩
  · intro w pcs base hpcs
    refine ⟨?_, streak_in_span hpcs⟩
    rw [resets_eq]
    exact SpanWindow.resets_le_one hpcs
  · intro w pcs base hpcs
    obtain ⟨n, hn, hreached⟩ := SpanWindow.reaches w.spans hpcs tightLoopThreshold
    rw [← spans_fold] at hreached
    exact ⟨n, hn, hreached⟩

/-- A stale window over `$1000` to `$1030`, and a loop from `$1038` to `$1042`. -/
theorem wedge_detection_stale :
    let w : LoopWindow := ⟨0x1000, 0x1030, 7⟩
    let pcs := [0x1038, 0x1042, 0x1038]
    let loop := fun i => if i % 2 = 0 then 0x1038 else 0x1042
    (w.resets pcs ≤ 1 ∧ (w.fold pcs).streak = 2) ∧
      ∃ n ≤ 2 * tightLoopThreshold,
        tightLoopThreshold ≤ (w.fold ((List.range n).map loop)).streak := by
  obtain ⟨honce, -, hreset⟩ :=
    wedge_detection.2.1 ⟨0x1000, 0x1030, 7⟩ [0x1038, 0x1042, 0x1038] 0x1038
      (by simp [loopWindowSpanBytes])
  refine ⟨⟨honce, hreset [0x1038] 0x1042 [0x1038] rfl (by decide)⟩, ?_⟩
  refine wedge_detection.2.2 ⟨0x1000, 0x1030, 7⟩ _ 0x1038 fun i => ?_
  split <;> simp [loopWindowSpanBytes]

theorem streak_extend_le (pc : Long) : (w.extend pc).2.streak ≤ w.streak + 1 := by
  unfold extend
  dsimp only
  generalize (if w.hi < pc then pc else w.hi) = hi, (if pc < w.lo then pc else w.lo) = lo
  split
  · exact Nat.le_refl _
  · exact Nat.le_add_left 1 w.streak

end LoopWindow

/-! ## The run that reads the streak -/

namespace FixedRun

open Loop

variable {γ δ ρ π η : Type}

/-- The detector has not fired. -/
def Below (s : FixedRun γ δ ρ π η) : Prop := s.loopWindow.streak < tightLoopThreshold

/-- It has not gone on after it fired. -/
def AtMost (s : FixedRun γ δ ρ π η) : Prop := s.loopWindow.streak ≤ tightLoopThreshold

variable [BlockDevice δ] [PacketBackend ρ] [PciBackend π] {s : FixedRun γ δ ρ π η}

omit [BlockDevice δ] [PacketBackend ρ] in
theorem loopWindow_recordSpans (args : FixedArgs) (s : FixedRun γ δ ρ π η) :
    (s.recordSpans args).loopWindow = s.loopWindow := by
  unfold recordSpans
  split <;> rfl

omit [BlockDevice δ] [PacketBackend ρ] in
theorem loopWindow_serviceHostSerial (cpu : FixedCpu γ) (host : FixedHost δ ρ π η)
    (args : FixedArgs) (s : FixedRun γ δ ρ π η) :
    (s.serviceHostSerial cpu host args).loopWindow = s.loopWindow := by
  have hnote : s.noteOverlay.loopWindow = s.loopWindow := by
    unfold noteOverlay
    split <;> rfl
  have htrigger (t : FixedRun γ δ ρ π η) :
      (t.triggerIllegal cpu args).loopWindow = t.loopWindow := by
    unfold triggerIllegal
    split <;> rfl
  have hscripts (t : FixedRun γ δ ρ π η) : (t.serviceScripts host).loopWindow = t.loopWindow := by
    unfold serviceScripts
    split <;> rfl
  exact ((hscripts _).trans (htrigger _)).trans hnote

omit [BlockDevice δ] [PacketBackend ρ] in
/-- An instruction adds one PC. -/
theorem streak_serviceInstruction (cpu : FixedCpu γ) (host : FixedHost δ ρ π η) (args : FixedArgs)
    (s : FixedRun γ δ ρ π η) :
    (s.drainSerial.serviceInstruction cpu host args).loopWindow.streak ≤
      s.loopWindow.streak + 1 := by
  have hservice := loopWindow_serviceHostSerial cpu host args s.drainSerial
  unfold serviceInstruction
  split
  · exact LoopWindow.streak_extend_le s.loopWindow _
  · refine (LoopWindow.streak_extend_le _ _).trans (Nat.le_of_eq ?_)
    rw [hservice]
    rfl

omit [BlockDevice δ] [PacketBackend ρ] [PciBackend π] in
theorem afterInstruction_streak (h : s.AtMost) (args : FixedArgs) (frames : Nat) :
    (s.afterInstruction args frames).Holds Below AtMost := by
  unfold afterInstruction
  split
  · exact h
  rename_i hbelow
  split
  · exact h
  split
  · exact h
  split
  · exact Nat.lt_of_not_le hbelow
  · exact Nat.lt_of_not_le hbelow

theorem hook_streak (h : s.Below) (cpu : FixedCpu γ) (host : FixedHost δ ρ π η) (args : FixedArgs) :
    (s.hook cpu host args).Holds Below AtMost := by
  unfold hook
  dsimp only
  split
  · show (recordSpans args _).loopWindow.streak ≤ tightLoopThreshold
    rw [loopWindow_recordSpans]
    exact Nat.le_of_lt h
  · refine afterInstruction_streak ?_ args _
    refine (streak_serviceInstruction cpu host args _).trans ?_
    rw [loopWindow_recordSpans]
    exact h

theorem stopped_streak (h : s.Below) (cpu : FixedCpu γ) (args : FixedArgs) :
    (s.stopped cpu args).Holds Below AtMost := by
  unfold stopped
  split
  · exact Nat.le_of_lt h
  split
  · exact Nat.le_of_lt h
  dsimp only
  split
  · show (recordSpans args _).loopWindow.streak ≤ tightLoopThreshold
    rw [loopWindow_recordSpans]
    exact Nat.le_of_lt h
  · show (recordSpans args _).loopWindow.streak < tightLoopThreshold
    rw [loopWindow_recordSpans]
    exact h

theorem pass_streak (h : s.Below) (cpu : FixedCpu γ) (host : FixedHost δ ρ π η) (args : FixedArgs) :
    (s.pass cpu host args).Holds Below AtMost := by
  refine pass_holds ?_ ?_ (fun s hs => hook_streak hs cpu host args)
    (fun s hs => stopped_streak hs cpu args) h
  · exact fun s _ _ _ hs => hs
  · exact fun s _ hs => Nat.le_of_lt hs

/-- **A run that reads the streak ends at the threshold,** far from the end of its 64 bits. -/
theorem streak_le (cpu : FixedCpu γ) (host : FixedHost δ ρ π η) (args : FixedArgs) (state : γ)
    (bus : MachineBus δ ρ π) (hosted : η) (n : Nat) :
    (after (pass cpu host args) n (start cpu state bus hosted)).state.AtMost := by
  have hstart : (start cpu state bus hosted).Below := by
    show 1 < 20000000
    omega
  have hafter := after_holds (fun s hs => pass_streak hs cpu host args) hstart n
  exact hafter.state fun s hs => Nat.le_of_lt hs

end FixedRun

end M68kMachine
