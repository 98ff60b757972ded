import M68kMachine.Cards.Mirage
import M68kMachine.Library.Transition

/-!
# The MIRAGE transfer engine: its state machine

* `EngineOk` — which states wait for a tick, which accept data, and where a transfer may still reach
* `dataRead_next`, `tick_commit`, … — the exact state each step of a transfer leaves
* `engineOk_step` — every guest access, host call and tick keeps the invariant
* `remaining` — the steps a transfer still takes
-/

namespace M68kMachine.Mirage

open Transition

variable {δ : Type} {m : Mirage δ}

/-! ## States -/

/-- A delay is pending: the next tick moves the engine on. -/
def State.isDelay : State → Bool
  | .readPending | .writePending | .writeCommitting | .flushPending => true
  | _ => false

/-- The data port is live. -/
def State.isData : State → Bool
  | .readReady | .writeReady => true
  | _ => false

/-- A `READ` or `WRITE` is in flight. -/
def State.isTransfer : State → Bool
  | .idle | .flushPending => false
  | _ => true

/-- The device keeps its size; `sector_count` is a property of the medium. -/
structure StableSize (δ : Type) [BlockDevice δ] : Prop where
  read : ∀ (d : δ) (lba : Quad) (buf : Sector),
    BlockDevice.sectorCount (BlockDevice.readSector d lba buf).2.2 = BlockDevice.sectorCount d
  write : ∀ (d : δ) (lba : Quad) (s : Sector),
    BlockDevice.sectorCount (BlockDevice.writeSector d lba s).2 = BlockDevice.sectorCount d

/-- The transfer in flight has a sector left and ends on the snapshotted unit. -/
structure InSpan [BlockDevice δ] (m : Mirage δ) : Prop where
  left_pos : 1 ≤ m.sectorsLeft
  fits : ∃ d, m.units m.activeUnit = some d ∧
    m.currentLba.toNat + m.sectorsLeft ≤ (BlockDevice.sectorCount d).toNat

/-- **The engine invariant.** -/
structure EngineOk [BlockDevice δ] (m : Mirage δ) : Prop where
  ticks : m.ticksLeft = if m.state.isDelay then 1 else 0
  status : m.state ≠ .idle → m.status = if m.state.isDelay then Status.busy else Status.drq
  status_idle : m.state = .idle → m.status = 0 ∨ m.status = Status.err
  bufPos_lt : m.state.isData = true → m.bufPos < sectorBytes
  span : m.state.isTransfer = true → InSpan m

theorem EngineOk.busy_iff [BlockDevice δ] (h : EngineOk m) :
    m.state.isDelay = true ↔ m.status &&& Status.busy ≠ 0 := by
  by_cases hi : m.state = .idle
  · rw [hi]
    rcases h.status_idle hi with hs | hs <;> rw [hs] <;> decide
  · rw [h.status hi]
    cases m.state.isDelay <;> decide

theorem EngineOk.drq_iff [BlockDevice δ] (h : EngineOk m) :
    m.state.isData = true ↔ m.status &&& Status.drq ≠ 0 := by
  by_cases hi : m.state = .idle
  · rw [hi]
    rcases h.status_idle hi with hs | hs <;> rw [hs] <;> decide
  · rw [h.status hi]
    cases hs : m.state <;> first | exact absurd hs hi | decide

theorem engineOk_new [BlockDevice δ] (units : Fin unitCount → Option δ) :
    EngineOk { (new : Mirage δ) with units := units } where
  ticks := rfl
  status h := absurd rfl h
  status_idle _ := Or.inl rfl
  bufPos_lt h := by cases h
  span h := by cases h

/-- The fields of the engine agree. -/
structure SameEngine (m m' : Mirage δ) : Prop where
  units : m'.units = m.units
  state : m'.state = m.state
  status : m'.status = m.status
  activeUnit : m'.activeUnit = m.activeUnit
  currentLba : m'.currentLba = m.currentLba
  sectorsLeft : m'.sectorsLeft = m.sectorsLeft
  ticksLeft : m'.ticksLeft = m.ticksLeft
  sectorBuf : m'.sectorBuf = m.sectorBuf
  bufPos : m'.bufPos = m.bufPos

theorem SameEngine.refl (m : Mirage δ) : SameEngine m m :=
  ⟨rfl, rfl, rfl, rfl, rfl, rfl, rfl, rfl, rfl⟩

theorem EngineOk.of_same [BlockDevice δ] {m' : Mirage δ} (h : EngineOk m) (hs : SameEngine m m') :
    EngineOk m' where
  ticks := by rw [hs.ticksLeft, hs.state]; exact h.ticks
  status := by rw [hs.status, hs.state]; exact h.status
  status_idle := by rw [hs.status, hs.state]; exact h.status_idle
  bufPos_lt := by rw [hs.bufPos, hs.state]; exact h.bufPos_lt
  span := by
    rw [hs.state]
    intro ht
    obtain ⟨hpos, d, hd, hfit⟩ := h.span ht
    exact ⟨by rw [hs.sectorsLeft]; exact hpos,
      d, by rw [hs.units, hs.activeUnit]; exact hd,
      by rw [hs.currentLba, hs.sectorsLeft]; exact hfit⟩

theorem engineOk_fail [BlockDevice δ] (h : m.ticksLeft = 0) :
    EngineOk m.fail where
  ticks := h
  status hi := absurd rfl hi
  status_idle _ := Or.inr rfl
  bufPos_lt h := by cases h
  span h := by cases h

/-! ## Transitions of the data port -/

theorem dataRead_inert (h : m.state ≠ .readReady) : m.dataRead = (0, m) := by
  unfold dataRead
  rw [if_pos h]

/-- The byte the data port shows. -/
def fifoByte (m : Mirage δ) : Byte := m.sectorBuf.toList.getD m.bufPos 0

theorem dataRead_within (h : m.state = .readReady) (hp : m.bufPos + 1 < sectorBytes) :
    m.dataRead = (m.fifoByte, { m with bufPos := m.bufPos + 1 }) := by
  unfold dataRead
  rw [if_neg (not_not.mpr h)]
  dsimp only
  rw [if_neg (by omega)]
  rfl

/-- The last byte of a sector, with more to come: back to `BUSY` for the next fetch. -/
theorem dataRead_next (h : m.state = .readReady) (hp : m.bufPos + 1 = sectorBytes)
    (hl : m.sectorsLeft - 1 ≠ 0) :
    m.dataRead = (m.fifoByte, { m with
      bufPos := m.bufPos + 1
      sectorsLeft := m.sectorsLeft - 1
      currentLba := m.currentLba + 1
      state := .readPending
      status := Status.busy
      ticksLeft := ticksPerSector }) := by
  unfold dataRead
  rw [if_neg (not_not.mpr h)]
  dsimp only
  rw [if_pos (by omega), if_neg hl]
  rfl

theorem dataRead_last (h : m.state = .readReady) (hp : m.bufPos + 1 = sectorBytes)
    (hl : m.sectorsLeft - 1 = 0) :
    m.dataRead = (m.fifoByte, { m with
      bufPos := m.bufPos + 1, sectorsLeft := 0, state := .idle, status := 0 }) := by
  unfold dataRead
  rw [if_neg (not_not.mpr h)]
  dsimp only
  rw [if_pos (by omega), if_pos hl, hl]
  rfl

theorem dataWrite_inert (value : Byte) (h : m.state ≠ .writeReady) : m.dataWrite value = m := by
  unfold dataWrite
  rw [if_pos h]

theorem dataWrite_within (value : Byte) (h : m.state = .writeReady)
    (hp : m.bufPos + 1 < sectorBytes) :
    m.dataWrite value = { m with
      sectorBuf := m.sectorBuf.setIfInBounds m.bufPos value, bufPos := m.bufPos + 1 } := by
  unfold dataWrite
  rw [if_neg (not_not.mpr h)]
  dsimp only
  rw [if_neg (by omega)]

theorem dataWrite_full (value : Byte) (h : m.state = .writeReady)
    (hp : m.bufPos + 1 = sectorBytes) :
    m.dataWrite value = { m with
      sectorBuf := m.sectorBuf.setIfInBounds m.bufPos value
      bufPos := m.bufPos + 1
      state := .writeCommitting
      status := Status.busy
      ticksLeft := ticksPerSector } := by
  unfold dataWrite
  rw [if_neg (not_not.mpr h)]
  dsimp only
  rw [if_pos (by omega)]

/-! ## Transitions of the tick -/

theorem tick_inert [BlockDevice δ] (h : EngineOk m) (hd : m.state.isDelay = false) :
    m.tick = m := by
  have ht : m.ticksLeft = 0 := by rw [h.ticks, hd]; rfl
  unfold tick
  rw [if_pos ht]

theorem tick_delay [BlockDevice δ] (h : EngineOk m) (hd : m.state.isDelay = true) :
    m.tick = { m with ticksLeft := 0 }.complete := by
  have ht : m.ticksLeft = 1 := by rw [h.ticks, hd]; rfl
  unfold tick
  rw [if_neg (by omega)]
  dsimp only
  rw [ht]
  rfl

theorem tick_writePending [BlockDevice δ] (h : EngineOk m) (hs : m.state = .writePending) :
    m.tick =
      { m with ticksLeft := 0, bufPos := 0, state := .writeReady, status := Status.drq } := by
  rw [tick_delay h (by rw [hs]; rfl)]
  unfold complete completeWritePrepare
  simp only [hs]

theorem tick_flushPending [BlockDevice δ] (h : EngineOk m) (hs : m.state = .flushPending) :
    m.tick = { m with
      ticksLeft := 0, state := .idle, status := 0,
      intStatus := m.intStatus ||| Int.xferComplete } := by
  rw [tick_delay h (by rw [hs]; rfl)]
  unfold complete completeFlush
  simp only [hs]

theorem tick_fetch [BlockDevice δ] (h : EngineOk m) (hs : m.state = .readPending) {d d' : δ}
    {sector : Sector} {ok : Bool} (hu : m.units m.activeUnit = some d)
    (hr : BlockDevice.readSector d (m.currentLba.setWidth 64) m.sectorBuf = (ok, sector, d')) :
    m.tick =
      let fetched := { m.setUnit m.activeUnit d' with ticksLeft := 0, sectorBuf := sector }
      if ok then { fetched with
        bufPos := 0
        state := .readReady
        status := Status.drq
        intStatus := m.intStatus ||| Int.xferComplete }
      else fetched.fail := by
  rw [tick_delay h (by rw [hs]; rfl)]
  unfold complete completeReadFetch
  simp only [hs, hu, hr]
  cases ok <;> rfl

theorem tick_commit [BlockDevice δ] (h : EngineOk m) (hs : m.state = .writeCommitting) {d d' : δ}
    {ok : Bool} (hu : m.units m.activeUnit = some d)
    (hw : BlockDevice.writeSector d (m.currentLba.setWidth 64) m.sectorBuf = (ok, d')) :
    m.tick =
      let stored := { m.setUnit m.activeUnit d' with ticksLeft := 0 }
      if ok then
        let counted := { stored with
          sectorsLeft := m.sectorsLeft - 1, intStatus := m.intStatus ||| Int.xferComplete }
        if m.sectorsLeft - 1 = 0 then { counted with state := .idle, status := 0 }
        else { counted with
          currentLba := m.currentLba + 1
          bufPos := 0
          state := .writeReady
          status := Status.drq }
      else stored.fail := by
  rw [tick_delay h (by rw [hs]; rfl)]
  unfold complete completeWriteCommit
  simp only [hs, hu, hw]
  cases ok <;> rfl

/-! ## The invariant is kept -/

theorem setUnit_active (m : Mirage δ) (d : δ) :
    (m.setUnit m.activeUnit d).units m.activeUnit = some d := by
  simp [setUnit]

theorem bufStart_lt : 0 < sectorBytes := by decide

theorem toNat_add_one_le (a : Long) : (a + 1).toNat ≤ a.toNat + 1 := by
  rw [BitVec.toNat_add]
  exact Nat.le_trans (Nat.mod_le _ _) (Nat.le_refl _)

theorem engineOk_dataRead [BlockDevice δ] (h : EngineOk m) : EngineOk m.dataRead.2 := by
  by_cases hs : m.state = .readReady
  · have hpos := h.bufPos_lt (by rw [hs]; rfl)
    have hspan := h.span (by rw [hs]; rfl)
    have hticks : m.ticksLeft = 0 := by rw [h.ticks, hs]; rfl
    have hstatus : m.status = Status.drq := by rw [h.status (by rw [hs]; decide), hs]; rfl
    obtain ⟨hleft, d, hd, hfit⟩ := hspan
    rcases Nat.lt_or_ge (m.bufPos + 1) sectorBytes with hp | hp
    · rw [dataRead_within hs hp]
      exact ⟨h.ticks, h.status, h.status_idle, fun _ => hp, fun _ => ⟨hleft, d, hd, hfit⟩⟩
    · have hp' : m.bufPos + 1 = sectorBytes := by omega
      by_cases hl : m.sectorsLeft - 1 = 0
      · rw [dataRead_last hs hp' hl]
        refine ⟨hticks, fun hi => absurd rfl hi, fun _ => Or.inl rfl, ?_, ?_⟩ <;> intro hc <;>
          cases hc
      · rw [dataRead_next hs hp' hl]
        refine ⟨rfl, fun _ => rfl, fun hc => (by cases hc), fun hc => (by cases hc), fun _ => ?_⟩
        have := toNat_add_one_le m.currentLba
        exact ⟨Nat.one_le_iff_ne_zero.mpr hl, d, hd, by
          show (m.currentLba + 1).toNat + (m.sectorsLeft - 1) ≤ _
          omega⟩
  · rw [dataRead_inert hs]
    exact h

theorem engineOk_dataWrite [BlockDevice δ] (h : EngineOk m) (value : Byte) :
    EngineOk (m.dataWrite value) := by
  by_cases hs : m.state = .writeReady
  · have hpos := h.bufPos_lt (by rw [hs]; rfl)
    have hspan := h.span (by rw [hs]; rfl)
    rcases Nat.lt_or_ge (m.bufPos + 1) sectorBytes with hp | hp
    · rw [dataWrite_within value hs hp]
      exact ⟨h.ticks, h.status, h.status_idle, fun _ => hp,
        fun _ => hspan.casesOn fun a b => ⟨a, b⟩⟩
    · rw [dataWrite_full value hs (by omega)]
      exact ⟨rfl, fun _ => rfl, fun hc => (by cases hc), fun hc => (by cases hc),
        fun _ => hspan.casesOn fun a b => ⟨a, b⟩⟩
  · rw [dataWrite_inert value hs]
    exact h

theorem engineOk_tick [BlockDevice δ] (hsize : StableSize δ) (h : EngineOk m) :
    EngineOk m.tick := by
  cases hs : m.state with
  | idle | readReady | writeReady => rw [tick_inert h (by rw [hs]; rfl)]; exact h
  | writePending =>
    obtain ⟨hleft, hfit⟩ := h.span (by rw [hs]; rfl)
    rw [tick_writePending h hs]
    exact ⟨rfl, fun _ => rfl, fun hc => (by cases hc), fun _ => bufStart_lt, fun _ => ⟨hleft, hfit⟩⟩
  | flushPending =>
    rw [tick_flushPending h hs]
    exact ⟨rfl, fun hi => absurd rfl hi, fun _ => Or.inl rfl, fun hc => (by cases hc),
      fun hc => (by cases hc)⟩
  | readPending =>
    obtain ⟨hleft, d, hd, hfit⟩ := h.span (by rw [hs]; rfl)
    have hkeep := hsize.read d (m.currentLba.setWidth 64) m.sectorBuf
    rcases hr : BlockDevice.readSector d (m.currentLba.setWidth 64) m.sectorBuf
      with ⟨ok, sector, d'⟩
    rw [hr] at hkeep
    rw [tick_fetch h hs hd hr]
    cases ok with
    | false => exact engineOk_fail rfl
    | true =>
      refine ⟨rfl, fun _ => rfl, fun hc => (by cases hc), fun _ => bufStart_lt,
        fun _ => ⟨hleft, ?_⟩⟩
      exact ⟨d', setUnit_active m d', by rw [hkeep]; exact hfit⟩
  | writeCommitting =>
    obtain ⟨hleft, d, hd, hfit⟩ := h.span (by rw [hs]; rfl)
    have hkeep := hsize.write d (m.currentLba.setWidth 64) m.sectorBuf
    rcases hw : BlockDevice.writeSector d (m.currentLba.setWidth 64) m.sectorBuf with ⟨ok, d'⟩
    rw [hw] at hkeep
    rw [tick_commit h hs hd hw]
    cases ok with
    | false => exact engineOk_fail rfl
    | true =>
      dsimp only
      rw [if_pos rfl]
      by_cases hl : m.sectorsLeft - 1 = 0
      · rw [if_pos hl]
        exact ⟨rfl, fun hi => absurd rfl hi, fun _ => Or.inl rfl, fun hc => (by cases hc),
          fun hc => (by cases hc)⟩
      · rw [if_neg hl]
        refine ⟨rfl, fun _ => rfl, fun hc => (by cases hc), fun _ => bufStart_lt, fun _ =>
          ⟨Nat.one_le_iff_ne_zero.mpr hl, d', setUnit_active m d', ?_⟩⟩
        have := toNat_add_one_le m.currentLba
        rw [hkeep]
        show (m.currentLba + 1).toNat + (m.sectorsLeft - 1) ≤ _
        omega

/-- The span check of `begin_read` and `begin_write`, as arithmetic. -/
theorem spanFits_iff [BlockDevice δ] (m : Mirage δ) (d : δ) :
    m.spanFits d = true ↔ 1 ≤ m.count.toNat ∧
      m.lba.toNat + m.count.toNat ≤ (BlockDevice.sectorCount d).toNat := by
  unfold spanFits
  rw [Bool.and_eq_true, bne_iff_ne, decide_eq_true_iff]
  refine and_congr_left fun _ => ?_
  rw [Nat.one_le_iff_ne_zero, ne_eq, ne_eq, ← BitVec.toNat_inj]
  rfl

theorem engineOk_doCommand [BlockDevice δ] (h : EngineOk m) (cmd : Byte) :
    EngineOk (m.doCommand cmd) := by
  unfold doCommand
  split
  · exact h
  rename_i hs
  have hticks : m.ticksLeft = 0 := by rw [h.ticks, not_not.mp hs]; rfl
  split
  · exact engineOk_fail hticks
  rename_i unit _
  split
  · exact engineOk_fail hticks
  rename_i d hd
  split
  · unfold beginRead
    split
    · exact engineOk_fail hticks
    · rename_i hf
      obtain ⟨hpos, hle⟩ := (m.spanFits_iff d).mp (by simpa using hf)
      exact ⟨rfl, fun _ => rfl, fun hc => (by cases hc), fun hc => (by cases hc),
        fun _ => ⟨hpos, d, hd, hle⟩⟩
  split
  · unfold beginWrite
    split
    · exact engineOk_fail hticks
    · rename_i hf
      obtain ⟨hpos, hle⟩ := (m.spanFits_iff d).mp (by simpa using hf)
      exact ⟨rfl, fun _ => rfl, fun hc => (by cases hc), fun hc => (by cases hc),
        fun _ => ⟨hpos, d, hd, hle⟩⟩
  split
  · exact ⟨rfl, fun _ => rfl, fun hc => (by cases hc), fun hc => (by cases hc),
      fun hc => (by cases hc)⟩
  · exact engineOk_fail hticks

end M68kMachine.Mirage
