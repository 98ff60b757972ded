import M68kMachine.Core.Copper

/-!
# The registers of each line

What the copper shows on a line are the registers after the moves before the first wait that is not
over yet. The walk keeps them as bands: a wait that is over further down closes one.

* `AtLine` — the registers of a line, by a step relation of its own
* `waitVerticalTarget_first` — the line a wait is over at
-/

namespace M68kMachine

namespace Render

/-! ## The copper and the beam -/

/-- The copper between two instructions, and the line it has waited for. -/
structure Copper where
  pc : Long
  line : Nat
  state : CopperState

/-- How a wait compares the masked line with the masked position it names. -/
abbrev Comparison := Byte → Byte → Prop

/-- The line a wait is over at: the first one from the current one on that passes. -/
structure OverAt (passes : Comparison) (vp ve : Byte) (fromLine target : Nat) : Prop where
  le : fromLine ≤ target
  atTarget : passes (BitVec.ofNat 8 target &&& ve) (vp &&& ve)
  first : ∀ line, fromLine ≤ line → line < target →
    ¬passes (BitVec.ofNat 8 line &&& ve) (vp &&& ve)

/-- One instruction of the copper. -/
inductive Executes (passes : Comparison) (ram : ByteSlice) : Copper → Copper → Prop
  | move {c : Copper} {offset : Nat} {value : Word}
      (h : fetchInstr ram c.pc = .move offset value) :
      Executes passes ram c ⟨afterMove (c.state.applyMove offset value) offset (c.pc + 4), c.line,
        c.state.applyMove offset value⟩
  | wait {c : Copper} {vp ve : Byte} {target : Nat} (h : fetchInstr ram c.pc = .wait vp ve)
      (hover : OverAt passes vp ve c.line target) :
      Executes passes ram c ⟨c.pc + 4, target, c.state⟩
  | skip {c : Copper} (h : fetchInstr ram c.pc = .skip) :
      Executes passes ram c ⟨c.pc + 4, c.line, c.state⟩

/-- The registers after the moves before the end or the first wait that is over further down. -/
inductive AtLine (passes : Comparison) (ram : ByteSlice) (line : Nat) : Copper → CopperState → Prop
  | stop {c : Copper} (h : fetchInstr ram c.pc = .stop) : AtLine passes ram line c c.state
  | wait {c : Copper} {vp ve : Byte} {target : Nat} (h : fetchInstr ram c.pc = .wait vp ve)
      (hover : OverAt passes vp ve c.line target) (hline : line < target) :
      AtLine passes ram line c c.state
  | step {c c' : Copper} {s : CopperState} (h : Executes passes ram c c') (hline : c'.line ≤ line)
      (hrest : AtLine passes ram line c' s) : AtLine passes ram line c s

/-- The list ends within a number of instructions and opens at most `opened` bands on the way. -/
inductive Ends (passes : Comparison) (ram : ByteSlice) : Nat → Nat → Copper → Prop
  | stop {budget opened : Nat} {c : Copper} (h : fetchInstr ram c.pc = .stop) :
      Ends passes ram (budget + 1) opened c
  | stay {budget opened : Nat} {c c' : Copper} (h : Executes passes ram c c')
      (hline : c'.line = c.line) (hrest : Ends passes ram budget opened c') :
      Ends passes ram (budget + 1) opened c
  | down {budget opened : Nat} {c c' : Copper} (h : Executes passes ram c c')
      (hline : c.line < c'.line) (hrest : Ends passes ram budget opened c') :
      Ends passes ram (budget + 1) (opened + 1) c

/-- The comparison of `waitVerticalTarget`. -/
def isLine : Comparison := fun line want => line = want

/-- The comparison of a copper that goes on whenever the position has been passed. -/
def isPast : Comparison := fun line want => want ≤ line

/-! ## The line a wait is over at -/

variable {passes : Comparison}

theorem OverAt.unique {vp ve : Byte} {fromLine target target' : Nat}
    (h : OverAt passes vp ve fromLine target) (h' : OverAt passes vp ve fromLine target') :
    target = target' := by
  rcases Nat.lt_trichotomy target target' with hlt | heq | hlt
  · exact absurd h.atTarget (h'.first target h.le hlt)
  · exact heq
  · exact absurd h'.atTarget (h.first target' h'.le hlt)

/-- **A line with the masked position comes within 256 lines**, and the walk finds the first. -/
theorem waitVerticalTarget_first (vp ve : Byte) (fromLine : Nat) :
    OverAt isLine vp ve fromLine (waitVerticalTarget vp ve fromLine) := by
  -- the line whose low byte is the position itself
  have hsome : ∃ i < 256, BitVec.ofNat 8 (fromLine + i) = vp := by
    have hvp := vp.isLt
    refine ⟨(vp.toNat + 256 - fromLine % 256) % 256, Nat.mod_lt _ (by decide), ?_⟩
    apply BitVec.eq_of_toNat_eq
    rw [BitVec.toNat_ofNat]
    omega
  unfold waitVerticalTarget
  dsimp only
  rw [List.find?_map]
  cases hfind : (List.range 256).find?
      ((fun line => decide (BitVec.ofNat 8 line &&& ve = vp &&& ve)) ∘ (fromLine + ·)) with
  | none =>
    obtain ⟨i, hi, hline⟩ := hsome
    have hnone := List.find?_eq_none.mp hfind i (List.mem_range.mpr hi)
    simp [hline] at hnone
  | some i =>
    rw [List.find?_range_eq_some] at hfind
    obtain ⟨hpasses, -, hfirst⟩ := hfind
    refine ⟨Nat.le_add_right _ _, by simpa [isLine] using hpasses, ?_⟩
    intro line hle hlt
    have hbefore := hfirst (line - fromLine) (by simp at hlt; omega)
    have hback : fromLine + (line - fromLine) = line := by omega
    simpa [hback, isLine] using hbefore

/-! ## One instruction of the walk -/

/-- The walk without its bands. -/
def Walk.copper (w : Walk) : Copper := ⟨w.pc, w.line, w.state⟩

theorem Executes.unique {passes : Comparison} {ram : ByteSlice} {c c' c'' : Copper}
    (h : Executes passes ram c c') (h' : Executes passes ram c c'') : c' = c'' := by
  cases h with
  | move h =>
    cases h' with
    | move h' =>
      rw [h] at h'
      cases h'
      rfl
    | wait h' _ => rw [h] at h'; cases h'
    | skip h' => rw [h] at h'; cases h'
  | wait h hover =>
    cases h' with
    | move h' => rw [h] at h'; cases h'
    | wait h' hover' =>
      rw [h] at h'
      cases h'
      rw [hover.unique hover']
    | skip h' => rw [h] at h'; cases h'
  | skip h =>
    cases h' with
    | move h' => rw [h] at h'; cases h'
    | wait h' _ => rw [h] at h'; cases h'
    | skip _ => rfl

/-- An instruction executes one of the copper, and closes a band if it waited. -/
inductive Stepped (ram : ByteSlice) (w : Walk) : Walk × Bool → Prop
  | stop (h : fetchInstr ram w.pc = .stop) {w' : Walk} (hstate : w'.state = w.state)
      (hbands : w'.bands = w.bands) : Stepped ram w (w', false)
  | stay {w' : Walk} (h : Executes isLine ram w.copper w'.copper) (hline : w'.line = w.line)
      (hbands : w'.bands = w.bands) : Stepped ram w (w', true)
  | down {w' : Walk} (h : Executes isLine ram w.copper w'.copper) (hline : w.line < w'.line)
      (hbands : w'.bands = w.bands.openBand w'.line w.state) : Stepped ram w (w', true)

theorem copperStep_spec (ram : ByteSlice) (w : Walk) : Stepped ram w (copperStep ram w) := by
  unfold copperStep
  dsimp only
  cases hinstr : fetchInstr ram w.pc with
  | move offset value => exact .stay (.move hinstr) rfl rfl
  | stop => exact .stop hinstr rfl rfl
  | skip => exact .stay (.skip hinstr) rfl rfl
  | wait vp ve =>
    dsimp only
    have hover := waitVerticalTarget_first vp ve w.line
    split
    case isTrue hve =>
      split
      case isTrue hline => exact .down (.wait hinstr hover) hline rfl
      case isFalse hline =>
        have hsame : waitVerticalTarget vp ve w.line = w.line :=
          Nat.le_antisymm (Nat.not_lt.mp hline) hover.le
        rw [hsame] at hover
        exact .stay (.wait hinstr hover) rfl rfl
    case isFalse hve =>
      -- without a mask every line passes
      have hzero : ve = 0 := not_not.mp hve
      have hnow : OverAt isLine vp ve w.line w.line := by
        refine ⟨Nat.le_refl _, ?_, fun line hle hlt => absurd hle (Nat.not_le.mpr hlt)⟩
        rw [hzero]
        simp [isLine]
      exact .stay (.wait hinstr hnow) rfl rfl

variable {ram : ByteSlice} {c : Copper}

theorem not_executes_of_stop {c' : Copper} (hstop : fetchInstr ram c.pc = .stop) :
    ¬Executes passes ram c c' := by
  intro h
  cases h with
  | move h => rw [h] at hstop; cases hstop
  | wait h _ => rw [h] at hstop; cases hstop
  | skip h => rw [h] at hstop; cases hstop

theorem AtLine.unique {passes : Comparison} {ram : ByteSlice} {line : Nat} {c : Copper}
    {s s' : CopperState} (h : AtLine passes ram line c s) (h' : AtLine passes ram line c s') :
    s = s' := by
  induction h with
  | stop h =>
    cases h' with
    | stop _ => rfl
    | wait _ _ _ => rfl
    | step h' _ _ => exact absurd h' (not_executes_of_stop h)
  | wait h hover hline =>
    cases h' with
    | stop _ => rfl
    | wait _ _ _ => rfl
    | step hstep hline' _ =>
      have hsame := (Executes.wait h hover).unique hstep
      rw [← hsame] at hline'
      exact absurd hline' (Nat.not_le.mpr hline)
  | step hstep hline hrest ih =>
    cases h' with
    | stop h' => exact absurd hstep (not_executes_of_stop h')
    | wait h' hover hline' =>
      have hsame := (Executes.wait h' hover).unique hstep
      rw [← hsame] at hline
      exact absurd hline (Nat.not_le.mpr hline')
    | step hstep' _ hrest' =>
      rw [← hstep.unique hstep'] at hrest'
      exact ih hrest'

/-- A copper that waits for a line further down shows the registers it has. -/
theorem atLine_of_waits {c' : Copper} {line : Nat} (h : Executes passes ram c c')
    (hlt : line < c'.line) (hle : c.line ≤ line) : AtLine passes ram line c c.state := by
  cases h with
  | move _ => exact absurd hle (Nat.not_le.mpr hlt)
  | skip _ => exact absurd hle (Nat.not_le.mpr hlt)
  | wait h hover => exact .wait h hover hlt

/-! ## Bands -/

/-- The registers that a line shows. -/
def Bands.at (b : Bands) (line : Nat) : BandState := b.state (b.bandIndexForLine line)

theorem find?_congr {α : Type} {p q : α → Bool} {l : List α} (h : ∀ a ∈ l, p a = q a) :
    l.find? p = l.find? q := by
  induction l with
  | nil => rfl
  | cons a l ih =>
    rw [List.find?_cons, List.find?_cons, h a List.mem_cons_self,
      ih fun b hb => h b (List.mem_cons_of_mem a hb)]

section Concat

variable (l : List (Nat × BandState)) (start : Nat) (b : BandState)

theorem Bands.index_concat (line : Nat) :
    (Bands.mk (l ++ [(start, b)])).bandIndexForLine line =
      if start ≤ line then l.length else (Bands.mk l).bandIndexForLine line := by
  have hlast : (Bands.mk (l ++ [(start, b)])).startLine l.length = start := by
    simp [Bands.startLine]
  have hcount : (Bands.mk (l ++ [(start, b)])).count = l.length + 1 := by simp [Bands.count]
  unfold Bands.bandIndexForLine
  rw [hcount, List.range_succ, List.reverse_append, List.reverse_singleton,
    List.singleton_append, List.find?_cons, hlast]
  split
  case h_1 hstart =>
    rw [if_pos (of_decide_eq_true hstart)]
    rfl
  case h_2 hstart =>
    rw [if_neg (of_decide_eq_false hstart)]
    congr 1
    refine find?_congr fun i hi => ?_
    rw [List.mem_reverse, List.mem_range] at hi
    simp [Bands.startLine, List.getElem?_append_left hi]

/-- The last band shows the lines from its start on. -/
theorem Bands.at_open {line : Nat} (h : start ≤ line) :
    (Bands.mk (l ++ [(start, b)])).at line = b := by
  unfold Bands.at
  rw [Bands.index_concat, if_pos h]
  simp [Bands.state]

/-- The lines above the last band are left to the bands before. -/
theorem Bands.at_above (hne : l ≠ []) {line : Nat} (h : line < start) :
    (Bands.mk (l ++ [(start, b)])).at line = (Bands.mk l).at line := by
  have hindex : (Bands.mk l).bandIndexForLine line < l.length := by
    unfold Bands.bandIndexForLine
    cases hfound : (List.range (Bands.mk l).count).reverse.find? fun i =>
        decide ((Bands.mk l).startLine i ≤ line) with
    | none => exact List.length_pos_iff.mpr hne
    | some i =>
      have hmem := List.mem_of_find?_eq_some hfound
      rw [List.mem_reverse, List.mem_range] at hmem
      exact hmem
  unfold Bands.at
  rw [Bands.index_concat, if_neg (Nat.not_le.mpr h)]
  simp [Bands.state, List.getElem?_append_left hindex]

end Concat

theorem Bands.finalize_concat (l : List (Nat × BandState)) (start : Nat) (b : BandState)
    (s : CopperState) :
    (Bands.mk (l ++ [(start, b)])).finalize s = ⟨l ++ [(start, .fromState s)]⟩ := by
  have hmodify : ∀ l : List (Nat × BandState), (l ++ [(start, b)]).modify l.length
      (fun band => (band.1, .fromState s)) = l ++ [(start, .fromState s)] := by
    intro l
    induction l with
    | nil => rfl
    | cons band l ih => simpa using ih
  unfold Bands.finalize Bands.count
  simpa using hmodify l

theorem Bands.openBand_concat {l : List (Nat × BandState)} (hroom : l.length + 1 < maxBands)
    (start newStart : Nat) (b : BandState) (s : CopperState) :
    (Bands.mk (l ++ [(start, b)])).openBand newStart s =
      ⟨l ++ [(start, .fromState s)] ++ [(newStart, .zeroed)]⟩ := by
  unfold Bands.openBand
  rw [Bands.finalize_concat]
  have hcount : (Bands.mk (l ++ [(start, BandState.fromState s)])).count < maxBands := by
    simpa [Bands.count] using hroom
  exact if_pos hcount

/-! ## The walk -/

/-- The bands at the end of a walk. -/
def Walk.finish (w : Walk) : Bands := w.bands.finalize w.state

/-- **The run**: earlier lines keep their bands, and the others get what the copper shows there. -/
theorem copperLoop_bands {budget opened : Nat} (h : Ends isLine ram budget opened c) :
    ∀ (w : Walk), w.copper = c → ∀ (closed : List (Nat × BandState)) (b : BandState),
      w.bands.list = closed ++ [(c.line, b)] → closed.length + 1 + opened ≤ maxBands →
        (closed ≠ [] → ∀ line < c.line,
          (copperLoop ram budget w).finish.at line = (Bands.mk closed).at line) ∧
        ∀ line, c.line ≤ line → ∃ s, AtLine isLine ram line c s ∧
          (copperLoop ram budget w).finish.at line = .fromState s := by
  induction h with
  | @stop budget opened c hstop =>
    rintro w rfl closed b hbands hroom
    have hend : Walk.finish (copperLoop ram (budget + 1) w) =
        ⟨closed ++ [(w.line, .fromState w.state)]⟩ := by
      have hspec := copperStep_spec ram w
      rw [copperLoop]
      generalize copperStep ram w = r at hspec
      cases hspec with
      | stop _ hstate hsame =>
        unfold Walk.finish
        dsimp only
        rw [hstate, hsame, ← Bands.finalize_concat _ _ b]
        exact congrArg (fun l => (Bands.mk l).finalize w.state) hbands
      | stay hexec _ _ => exact absurd hexec (not_executes_of_stop hstop)
      | down hexec _ _ => exact absurd hexec (not_executes_of_stop hstop)
    rw [hend]
    exact ⟨fun hne line hline => Bands.at_above _ _ _ hne hline,
      fun line hline => ⟨w.state, .stop hstop, Bands.at_open _ _ _ hline⟩⟩
  | @stay budget opened c c' hexec hline hrest ih =>
    rintro w rfl closed b hbands hroom
    have hspec := copperStep_spec ram w
    rw [copperLoop]
    generalize copperStep ram w = r at hspec
    cases hspec with
    | stop hstop _ _ => exact absurd hexec (not_executes_of_stop hstop)
    | @down w' hexec' hdown _ =>
      have hsame : w'.copper = c' := hexec'.unique hexec
      rw [← hsame] at hline
      exact absurd hline (Nat.ne_of_gt hdown)
    | @stay w' hexec' _ hkeep =>
      have hsame : w'.copper = c' := hexec'.unique hexec
      obtain ⟨habove, hbelow⟩ := ih w' hsame closed b (by rw [hkeep, hbands, hline]) hroom
      rw [hline] at habove hbelow
      refine ⟨habove, fun line hle => ?_⟩
      obtain ⟨s, hs, hat⟩ := hbelow line hle
      exact ⟨s, .step hexec (hline.trans_le hle) hs, hat⟩
  | @down budget opened c c' hexec hline hrest ih =>
    rintro w rfl closed b hbands hroom
    have hspec := copperStep_spec ram w
    rw [copperLoop]
    generalize copperStep ram w = r at hspec
    cases hspec with
    | stop hstop _ _ => exact absurd hexec (not_executes_of_stop hstop)
    | @stay w' hexec' hstay _ =>
      have hsame : w'.copper = c' := hexec'.unique hexec
      rw [← hsame] at hline
      exact absurd hstay (Nat.ne_of_gt hline)
    | @down w' hexec' _ hopened =>
      have hsame : w'.copper = c' := hexec'.unique hexec
      have hlist : w'.bands.list =
          closed ++ [(w.line, .fromState w.state)] ++ [(c'.line, .zeroed)] := by
        rw [hopened, ← hsame]
        have hopen := Bands.openBand_concat (l := closed) (by omega) w.line w'.line b w.state
        rw [← show w.bands.list = closed ++ [(w.line, b)] from hbands] at hopen
        exact congrArg Bands.list hopen
      obtain ⟨habove, hbelow⟩ := ih w' hsame _ .zeroed hlist (by simp; omega)
      constructor
      · intro hne line hlt
        rw [habove (by simp) line (Nat.lt_trans hlt hline)]
        exact Bands.at_above _ _ _ hne hlt
      · intro line hle
        rcases Nat.lt_or_ge line c'.line with hlt | hge
        · -- the wait is only over further down
          refine ⟨w.state, atLine_of_waits hexec hlt hle, ?_⟩
          rw [habove (by simp) line hlt]
          exact Bands.at_open _ _ _ hle
        · obtain ⟨s, hs, hat⟩ := hbelow line hge
          exact ⟨s, .step hexec hge hs, hat⟩

/-- **Each line shows the registers the copper has there.** A list that ends within the budget and
opens no more bands than there is room for shows on every line the registers after the moves before
the first wait that is not over at it: one is over at the first line from the current one on whose
masked low byte is its position. -/
theorem bands_show_each_line {ram : ByteSlice} {start : Long} {state : CopperState}
    (hends : Ends isLine ram copperInstrBudget (maxBands - 1) ⟨start, 0, state⟩) (line : Nat) :
    ∃ s, AtLine isLine ram line ⟨start, 0, state⟩ s ∧
      (∀ s', AtLine isLine ram line ⟨start, 0, state⟩ s' → s' = s) ∧
      (runCopper start ram state .new).2.1.at line = .fromState s := by
  obtain ⟨-, hbelow⟩ := copperLoop_bands hends ⟨start, 0, state, .new, 0⟩ rfl [] .zeroed rfl
    (Nat.le_refl _)
  obtain ⟨s, hs, hat⟩ := hbelow line (Nat.zero_le _)
  exact ⟨s, hs, fun s' hs' => hs'.unique hs, hat⟩

/-! ## A wait for a line that has been passed -/

/-- Wait for line 96, colour 1; wait for line 80, colour 2. -/
def passingList : ByteSlice :=
  ⟨20, fun i => [0x60, 0x01, 0xFF, 0x00, 0x01, 0x80, 0x00, 0x01, 0x50, 0x01, 0xFF, 0x00, 0x01, 0x80,
    0x00, 0x02, 0xFF, 0xFF, 0xFF, 0xFE].getD i 0⟩

def passingState : CopperState := .fromChipset .new

theorem passingList_instrs :
    fetchInstr passingList 0 = .wait 0x60 0xFF ∧ fetchInstr passingList 4 = .move 0x180 1 ∧
      fetchInstr passingList 8 = .wait 0x50 0xFF ∧ fetchInstr passingList 12 = .move 0x180 2 ∧
      fetchInstr passingList 16 = .stop := by decide

theorem passingList_ends :
    Ends isLine passingList copperInstrBudget (maxBands - 1) ⟨0, 0, passingState⟩ := by
  obtain ⟨h0, h4, h8, h12, h16⟩ := passingList_instrs
  have hline : OverAt isLine 0x60 0xFF 0 96 := waitVerticalTarget_first 0x60 0xFF 0
  have hnext : OverAt isLine 0x50 0xFF 96 336 := waitVerticalTarget_first 0x50 0xFF 96
  refine .down (.wait h0 hline) (by decide) ?_
  refine .stay (.move h4) rfl ?_
  refine .down (.wait h8 hnext) (by decide) ?_
  exact .stay (.move h12) rfl (.stop h16)

/-- From line 336 on, the second colour. -/
theorem bands_show_each_line_after_both_waits :
    ((runCopper 0 passingList passingState .new).2.1.at 336).colour 0 = 2 ∧
      ∃ s, AtLine isLine passingList 336 ⟨0, 0, passingState⟩ s ∧
        (runCopper 0 passingList passingState .new).2.1.at 336 = .fromState s := by
  obtain ⟨s, hs, -, hat⟩ := bands_show_each_line passingList_ends 336
  exact ⟨by decide, s, hs, hat⟩

/-- The second wait is for a line that has passed; the walk holds it back until line 336. -/
theorem passed_wait_is_held :
    Ends isLine passingList copperInstrBudget (maxBands - 1) ⟨0, 0, passingState⟩ ∧
      ∃ s, AtLine isPast passingList 96 ⟨0, 0, passingState⟩ s ∧
        (runCopper 0 passingList passingState .new).2.1.at 96 ≠ .fromState s := by
  obtain ⟨h0, h4, h8, h12, h16⟩ := passingList_instrs
  have hfirst : OverAt isPast 0x60 0xFF 0 96 :=
    ⟨by decide, by unfold isPast; decide, by unfold isPast; decide⟩
  have hpassed : OverAt isPast 0x50 0xFF 96 96 :=
    ⟨by decide, by unfold isPast; decide, by unfold isPast; decide⟩
  refine ⟨passingList_ends, (passingState.applyMove 0x180 1).applyMove 0x180 2, ?_, ?_⟩
  · refine .step (.wait h0 hfirst) (by decide) ?_
    refine .step (.move h4) (by decide) ?_
    refine .step (.wait h8 hpassed) (by decide) ?_
    exact .step (.move h12) (by decide) (.stop h16)
  · intro heq
    have hcolour := congrArg (fun b => BandState.colour b 0) heq
    revert hcolour
    decide

end Render

end M68kMachine
