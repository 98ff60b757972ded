import M68kMachine.Properties.MirageTransfer

/-!
# MIRAGE runs

* `remaining_step` — every tick of a delay and every data access brings a transfer closer to its end
* `moves_what_was_commanded` — the engine invariant, delivery and storage, along every run
-/

namespace M68kMachine.Mirage

open Transition

variable {δ : Type} {m : Mirage δ} {content : δ → Nat → Sector} {t : Observed δ}

/-! ## A transfer ends -/

/-- 512 accesses and a tick a sector, and a tick before the first byte of a `WRITE`. -/
def remaining (m : Mirage δ) : Nat :=
  match m.state with
  | .idle => 0
  | .flushPending => 1
  | .readPending => m.sectorsLeft * (sectorBytes + 1)
  | .readReady => (m.sectorsLeft - 1) * (sectorBytes + 1) + (sectorBytes - m.bufPos)
  | .writePending => m.sectorsLeft * (sectorBytes + 1) + 1
  | .writeReady => (m.sectorsLeft - 1) * (sectorBytes + 1) + (sectorBytes - m.bufPos) + 1
  | .writeCommitting => (m.sectorsLeft - 1) * (sectorBytes + 1) + 1

/-- The operations that move the engine on. -/
def advancesEngine (m : Mirage δ) : Op → Bool
  | .tick => m.state.isDelay
  | .read o => inSlot o Reg.data && m.state = .readReady
  | .write o _ => inSlot o Reg.data && m.state = .writeReady
  | .notifyMediaChange _ => false

theorem remaining_eq_zero [BlockDevice δ] (h : EngineOk m) : m.remaining = 0 ↔ m.state = .idle := by
  unfold remaining sectorBytes
  cases hs : m.state with
  | readReady =>
    have := h.bufPos_lt (by rw [hs]; rfl)
    unfold sectorBytes at this
    simp only [reduceCtorEq, iff_false]
    omega
  | readPending =>
    have := (h.span (by rw [hs]; rfl)).left_pos
    simp only [reduceCtorEq, iff_false]
    omega
  | idle | writePending | writeReady | writeCommitting | flushPending => simp

theorem remaining_of_same {m' : Mirage δ} (h : SameEngine m m') : m'.remaining = m.remaining := by
  unfold remaining
  rw [h.state, h.sectorsLeft, h.bufPos]

theorem remaining_dataRead [BlockDevice δ] (hok : EngineOk m) (hs : m.state = .readReady) :
    m.dataRead.2.remaining + 1 = m.remaining := by
  have hpos := hok.bufPos_lt (by rw [hs]; rfl)
  have hleft := (hok.span (by rw [hs]; rfl)).left_pos
  have hm : m.remaining = (m.sectorsLeft - 1) * (sectorBytes + 1) + (sectorBytes - m.bufPos) := by
    unfold remaining
    rw [hs]
  rw [hm]
  rcases Nat.lt_or_ge (m.bufPos + 1) sectorBytes with hp | hp
  · rw [dataRead_within hs hp]
    simp only [remaining, hs]
    omega
  · have hp' : m.bufPos + 1 = sectorBytes := by omega
    by_cases hl : m.sectorsLeft - 1 = 0
    · rw [dataRead_last hs hp' hl, hl]
      simp only [remaining]
      omega
    · rw [dataRead_next hs hp' hl]
      simp only [remaining]
      omega

theorem remaining_dataWrite [BlockDevice δ] (hok : EngineOk m) (hs : m.state = .writeReady)
    (value : Byte) : (m.dataWrite value).remaining + 1 = m.remaining := by
  have hpos := hok.bufPos_lt (by rw [hs]; rfl)
  have hm : m.remaining
      = (m.sectorsLeft - 1) * (sectorBytes + 1) + (sectorBytes - m.bufPos) + 1 := by
    unfold remaining
    rw [hs]
  rw [hm]
  rcases Nat.lt_or_ge (m.bufPos + 1) sectorBytes with hp | hp
  · rw [dataWrite_within value hs hp]
    simp only [remaining, hs]
    omega
  · rw [dataWrite_full value hs (by omega)]
    simp only [remaining]
    omega

theorem remaining_tick [BlockDevice δ] (hdev : ReliableDevice content) (hok : EngineOk m)
    (hd : m.state.isDelay = true) : m.tick.remaining + 1 = m.remaining := by
  cases hs : m.state with
  | idle | readReady | writeReady => rw [hs] at hd; cases hd
  | flushPending =>
    rw [tick_flushPending hok hs]
    simp only [remaining, hs]
  | writePending =>
    have hleft := (hok.span (by rw [hs]; rfl)).left_pos
    rw [tick_writePending hok hs]
    simp only [remaining, hs, sectorBytes]
    omega
  | readPending =>
    obtain ⟨hleft, d, hunit, hfit⟩ := hok.span (by rw [hs]; rfl)
    obtain ⟨d', hr, _⟩ := hdev.read d (m.currentLba.setWidth 64) m.sectorBuf
      (by rw [toNat_lba64]; omega)
    rw [tick_fetch hok hs hunit hr]
    simp only [remaining, hs, setUnit, sectorBytes, if_true]
    omega
  | writeCommitting =>
    obtain ⟨hleft, d, hunit, hfit⟩ := hok.span (by rw [hs]; rfl)
    obtain ⟨d', hw, _⟩ := hdev.write d (m.currentLba.setWidth 64) m.sectorBuf
      (by rw [toNat_lba64]; omega)
    rw [tick_commit hok hs hunit hw]
    dsimp only
    rw [if_pos rfl]
    by_cases hl : m.sectorsLeft - 1 = 0
    · rw [if_pos hl]
      simp only [remaining, hs, sectorBytes]
      omega
    · rw [if_neg hl]
      simp only [remaining, hs, sectorBytes]
      omega

/-- **Progress**: every tick of a delay and every access to a live data port takes one step off. -/
theorem remaining_step [BlockDevice δ] (hdev : ReliableDevice content) (op : Op)
    (hok : EngineOk t.card) (hflight : t.card.state ≠ .idle) :
    (t.step op).card.remaining + (if t.card.advancesEngine op then 1 else 0)
      = t.card.remaining := by
  rw [card_step]
  cases op with
  | read o =>
    by_cases hd : inSlot o Reg.data = true
    · by_cases hs : t.card.state = .readReady
      · simp only [advancesEngine, hd, hs, read_data hd]
        exact remaining_dataRead hok hs
      · simp only [advancesEngine, hs, read_data hd, dataRead_inert hs]
        simp
    · simp only [advancesEngine, read_other hd, hd]
      simp
  | write o value =>
    by_cases hd : inSlot o Reg.data = true
    · by_cases hs : t.card.state = .writeReady
      · simp only [advancesEngine, hd, hs, write_data value hd]
        exact remaining_dataWrite hok hs value
      · simp only [advancesEngine, hs, write_data value hd, dataWrite_inert value hs]
        simp
    · have hsame : SameEngine t.card (t.card.write o value) := by
        by_cases hc : o = Reg.cmdStatus + 3
        · subst hc
          rw [write_command, doCommand_busy value hflight]
          exact SameEngine.refl _
        · exact (write_other value hd hc).1
      simp only [advancesEngine, remaining_of_same hsame, hd]
      simp
  | tick =>
    cases hd : t.card.state.isDelay with
    | true =>
      simp only [advancesEngine, hd]
      exact remaining_tick hdev hok hd
    | false =>
      simp only [advancesEngine, hd, tick_inert hok hd]
      simp
  | notifyMediaChange unit =>
    simp only [advancesEngine, remaining_of_same (sameEngine_notifyMediaChange t.card unit).1]
    simp

/-! ## Draining the FIFO -/

theorem step_read_within [BlockDevice δ] (hs : t.card.state = .readReady)
    (hp : t.card.bufPos + 1 < sectorBytes) : t.step (.read Reg.data) = { t with
      card := { t.card with bufPos := t.card.bufPos + 1 }
      moved := t.moved ++ [t.card.fifoByte] } := by
  have hd : inSlot Reg.data Reg.data = true := by decide
  simp only [Observed.step, hd, hs, read_data hd, dataRead_within hs hp, Bool.true_and, decide_true,
    if_true]

/-- Reads that stay within the sector deliver its next bytes and move only the FIFO position. -/
theorem run_reads [BlockDevice δ] : ∀ (n : Nat) {t : Observed δ}, t.card.state = .readReady →
    t.card.bufPos + n < sectorBytes →
      run Observed.step t (List.replicate n (.read Reg.data)) = { t with
        card := { t.card with bufPos := t.card.bufPos + n }
        moved := t.moved ++ (t.card.sectorBuf.toList.drop t.card.bufPos).take n }
  | 0, t, _, _ => by simp
  | n + 1, t, hs, h => by
    have hlen : t.card.bufPos < t.card.sectorBuf.toList.length := by
      rw [Vector.length_toList]
      exact Nat.lt_of_le_of_lt (Nat.le_add_right _ _) h
    have hbyte : t.card.fifoByte = t.card.sectorBuf.toList[t.card.bufPos] := by
      unfold fifoByte
      rw [List.getD_eq_getElem?_getD, List.getElem?_eq_getElem hlen]
      rfl
    rw [List.replicate_succ, run_cons, step_read_within hs (by omega)]
    refine (run_reads n (t := ⟨{ t.card with bufPos := t.card.bufPos + 1 }, t.transfer,
      t.moved ++ [t.card.fifoByte], t.acked⟩) hs
      (show t.card.bufPos + 1 + n < sectorBytes by omega)).trans ?_
    rw [List.drop_eq_getElem_cons hlen, List.take_succ_cons, ← hbyte]
    simp only [List.append_assoc, Nat.add_assoc, Nat.add_comm 1 n]
    rfl

/-! ## The claim about runs -/

/-- A `READ` has delivered a prefix of its sectors; idle, all of them. -/
def Delivers (content : δ → Nat → Sector) (t : Observed δ) (c : Transfer δ) : Prop :=
  t.moved <+: sectorRun (content c.device) c.lba c.count
    ∧ (∀ u, (t.card.units u).map content = (c.unitsAt u).map content)
    ∧ (t.card.state = .idle →
        t.moved = sectorRun (content c.device) c.lba c.count ∧ Completed t)

theorem ReadProgress.delivers {c : Transfer δ} (h : ReadProgress content t c) :
    Delivers content t c := by
  obtain ⟨hu, hcont, hstate⟩ := h
  cases hs : t.card.state <;> rw [hs] at hstate <;> simp only at hstate
  · exact ⟨hstate.1 ▸ List.prefix_refl _, hcont, fun _ => hstate⟩
  · obtain ⟨hat, hmoved⟩ := hstate
    refine ⟨?_, hcont, fun hi => by rw [hs] at hi; cases hi⟩
    rw [hmoved]
    exact prefix_sectorRun _ _ (Nat.sub_le _ _)
  · obtain ⟨hat, hbuf, hmoved, _⟩ := hstate
    have hlba := hat.lba
    have hle := hat.left_le
    have hleft := hat.left_pos
    refine ⟨?_, hcont, fun hi => by rw [hs] at hi; cases hi⟩
    have hsucc := sectorRun_succ (content c.device) c.lba (c.count - t.card.sectorsLeft)
    rw [show c.lba + (c.count - t.card.sectorsLeft) = t.card.currentLba.toNat by omega, ← hbuf]
      at hsucc
    have htake :
        t.moved <+: sectorRun (content c.device) c.lba (c.count - t.card.sectorsLeft + 1) := by
      rw [hmoved, hsucc]
      exact (List.prefix_append_right_inj _).mpr (List.take_prefix _ _)
    exact htake.trans (prefix_sectorRun _ _ (by omega))

/-- A `WRITE` has taken no more bytes than it was given sectors for; idle, it stored them all. -/
def Stores (content : δ → Nat → Sector) (t : Observed δ) (c : Transfer δ) : Prop :=
  t.moved.length ≤ sectorBytes * c.count
    ∧ (t.card.state = .idle → t.moved.length = sectorBytes * c.count
        ∧ Stored content t.card.units c c.count t.moved ∧ Completed t)

theorem WriteProgress.stores {c : Transfer δ} (h : WriteProgress content t c) :
    Stores content t c := by
  obtain ⟨hu, hstate⟩ := h
  have hfits : ∀ k, k + 1 ≤ c.count → sectorBytes * k + sectorBytes ≤ sectorBytes * c.count :=
    fun k hk => Nat.mul_le_mul_left sectorBytes hk
  cases hs : t.card.state <;> rw [hs] at hstate <;> simp only at hstate
  · exact ⟨Nat.le_of_eq hstate.1, fun _ => hstate⟩
  · refine ⟨?_, fun hi => by rw [hs] at hi; cases hi⟩
    rw [hstate.2.2.1]
    exact Nat.zero_le _
  · obtain ⟨hat, stored, hlen, hmoved, _⟩ := hstate
    refine ⟨?_, fun hi => by rw [hs] at hi; cases hi⟩
    have hle := hat.left_le
    have hleft := hat.left_pos
    have := hfits (c.count - t.card.sectorsLeft) (by omega)
    rw [hmoved, List.length_append, hlen, List.length_take, Vector.length_toList]
    exact Nat.le_trans (Nat.add_le_add_left (Nat.min_le_right _ _) _) this
  · obtain ⟨hat, stored, hlen, hmoved, _⟩ := hstate
    refine ⟨?_, fun hi => by rw [hs] at hi; cases hi⟩
    have hle := hat.left_le
    have hleft := hat.left_pos
    have := hfits (c.count - t.card.sectorsLeft) (by omega)
    rw [hmoved, List.length_append, hlen, Vector.length_toList]
    exact this

/-- **MIRAGE transfers exactly what was commanded.** After any register accesses, ticks and
media-change notices: a delay is pending iff `BUSY` is set iff a tick is due; the data port is live
iff `DRQ` is set, with the FIFO position inside the sector; and a `READ` or `WRITE` in flight has a
sector left and ends on its unit. Over a device that does not fail, every operation that moves an
engine takes one of its remaining steps; the last `READ` has delivered a prefix of its sectors, and
all of them once idle; the last `WRITE`, once idle, has stored every byte it was given. The
completion bit is then set unless the guest has acknowledged it since. -/
theorem moves_what_was_commanded [BlockDevice δ] (hsize : StableSize δ)
    (units : Fin unitCount → Option δ) (ops : List Op) :
    let t := run Observed.step (Observed.start units) ops
    let m := t.card
    (m.state.isDelay = true ↔ m.status &&& Status.busy ≠ 0)
      ∧ (m.state.isDelay = true ↔ 0 < m.ticksLeft)
      ∧ (m.state.isData = true ↔ m.status &&& Status.drq ≠ 0)
      ∧ (m.state.isData = true → m.bufPos < sectorBytes)
      ∧ (m.state.isTransfer = true → 1 ≤ m.sectorsLeft
          ∧ ∃ d, m.units m.activeUnit = some d ∧
              m.currentLba.toNat + m.sectorsLeft ≤ (BlockDevice.sectorCount d).toNat)
      ∧ ∀ content : δ → Nat → Sector, ReliableDevice content →
          (m.remaining = 0 ↔ m.state = .idle)
            ∧ (∀ op, m.state ≠ .idle → (t.step op).card.remaining
                + (if m.advancesEngine op then 1 else 0) = m.remaining)
            ∧ ∀ c, t.transfer = some c → c.lba + c.count ≤ 0x100000000 →
                (c.command = Cmd.read → Delivers content t c)
                  ∧ (c.command = Cmd.write → Stores content t c) := by
  intro t m
  have hok : EngineOk t.card := engineOk_run hsize units ops
  refine ⟨hok.busy_iff, ?_, hok.drq_iff, hok.bufPos_lt, ?_, fun content hdev => ?_⟩
  · rw [hok.ticks]
    cases m.state.isDelay <;> simp
  · exact fun ht => ⟨(hok.span ht).left_pos, (hok.span ht).fits⟩
  · have hprog : Progress content t :=
      (run_invariant (P := fun t : Observed δ => EngineOk t.card ∧ Progress content t)
        (fun t op h => ⟨engineOk_step hsize t op h.1, progress_step hdev op h.1 h.2⟩) ops
        ⟨engineOk_new units, fun c hc => by cases hc⟩).2
    refine ⟨remaining_eq_zero hok, fun op hflight => remaining_step hdev op hok hflight, ?_⟩
    intro c hc hwrap
    obtain ⟨hr, hw⟩ := hprog c hc hwrap
    exact ⟨fun hcmd => (hr hcmd).delivers,
      fun hcmd => (hw hcmd).stores⟩

theorem stableSize_memDisk : StableSize MemDisk where
  read d lba buf := by
    simp only [BlockDevice.sectorCount, BlockDevice.readSector]
    split <;> rfl
  write d lba s := by
    simp only [BlockDevice.sectorCount, BlockDevice.writeSector]
    split <;> rfl

/-- Unit 0 holds `disk`, the other units are empty. -/
def oneUnit (disk : MemDisk) : Fin unitCount → Option MemDisk :=
  fun u => if u.val = 0 then some disk else none

/-- A blank image of two sectors. -/
def blankDisk : MemDisk := ⟨2, fun _ => zeroSector⟩

/-- An image of two sectors, the second of them marked. -/
def markedDisk : MemDisk := ⟨2, fun i => if i = 1 then Vector.replicate 512 0xA5 else zeroSector⟩

/-- A fresh card with `disk` in unit 0, after `ops`. -/
def after (disk : MemDisk) (ops : List Op) : Observed MemDisk :=
  run Observed.step (Observed.start (oneUnit disk)) ops

/-- Read the second sector, to its last byte. -/
def wholeRead : List Op :=
  [.write (Reg.lba + 3) 1, .write (Reg.count + 3) 1, .write (Reg.cmdStatus + 3) Cmd.read, .tick]
    ++ List.replicate 511 (.read Reg.data) ++ [.read Reg.data]

/-- The guest reads a marked sector of an image that does not fail, and gets all of it. -/
theorem moves_what_was_commanded_read :
    (after markedDisk wholeRead).card.state = .idle ∧
      (after markedDisk wholeRead).moved = List.replicate 512 0xA5 := by
  have hidle : (after markedDisk wholeRead).card.state = .idle := by
    unfold after wholeRead
    rw [run_append, run_append, run_reads 511 (by decide) (by decide)]
    decide
  have htransfer : (after markedDisk wholeRead).transfer.map
      (fun c => (c.command, c.lba, c.count, sectorRun c.device.sectors c.lba c.count)) =
      some (Cmd.read, 1, 1, List.replicate 512 0xA5) := by
    unfold after wholeRead
    rw [run_append, run_append, run_reads 511 (by decide) (by decide)]
    decide +kernel
  obtain ⟨c, htransfer, hc⟩ := Option.map_eq_some_iff.mp htransfer
  obtain ⟨hcommand, hc⟩ := Prod.mk.inj hc
  obtain ⟨hlba, hc⟩ := Prod.mk.inj hc
  obtain ⟨hcount, hsector⟩ := Prod.mk.inj hc
  obtain ⟨-, -, -, -, -, hreliable⟩ :=
    moves_what_was_commanded stableSize_memDisk (oneUnit markedDisk) wholeRead
  obtain ⟨-, -, hmoves⟩ := hreliable MemDisk.sectors MemDisk.reliable
  obtain ⟨hread, -⟩ := hmoves c htransfer (by rw [hlba, hcount]; decide)
  obtain ⟨-, -, hwhole⟩ := hread hcommand
  refine ⟨hidle, ?_⟩
  unfold after at hidle ⊢
  exact (hwhole hidle).1.trans hsector

/-! ### Where the engine does less

A `FLUSH` is in flight with no sector left. The completion of a `READ` is raised when a sector
is fetched, so a guest that acknowledges it before draining the FIFO ends with the bit clear.
The sector register has 32 bits, so a span that crosses `2 ^ 32` continues at sector 0. -/

/-- One sector of a two-terabyte image is marked: the first that 32 bits cannot name. -/
def hugeDisk : MemDisk :=
  ⟨0x100000001, fun i => if i = 0x100000000 then Vector.replicate 512 1 else zeroSector⟩

/-- Read one sector, acknowledging the completion before draining the FIFO. -/
def ackedRead : List Op :=
  [.write (Reg.count + 3) 1, .write (Reg.cmdStatus + 3) Cmd.read, .tick,
    .write (Reg.intStatus + 3) 1] ++ List.replicate 511 (.read Reg.data) ++ [.read Reg.data]

/-- Read the two sectors from `0xFFFFFFFF` on, up to the first byte of the second. -/
def crossingRead : List Op :=
  [.write Reg.lba 0xFF, .write (Reg.lba + 1) 0xFF, .write (Reg.lba + 2) 0xFF,
    .write (Reg.lba + 3) 0xFF, .write (Reg.count + 3) 2, .write (Reg.cmdStatus + 3) Cmd.read,
    .tick] ++ List.replicate 511 (.read Reg.data) ++ [.read Reg.data, .tick, .read Reg.data]

theorem commanded_transfer_exceptions :
    ((after blankDisk [.write (Reg.cmdStatus + 3) Cmd.flush]).card.state = .flushPending
        ∧ (after blankDisk [.write (Reg.cmdStatus + 3) Cmd.flush]).card.sectorsLeft = 0)
      ∧ ((after blankDisk ackedRead).transfer.map (·.command) = some Cmd.read
        ∧ (after blankDisk ackedRead).card.state = .idle
        ∧ (after blankDisk ackedRead).card.flagged = false)
      ∧ (after hugeDisk crossingRead).transfer.map (fun c => (c.command, c.lba, c.count))
          = some (Cmd.read, 0xFFFFFFFF, 2)
      ∧ (after hugeDisk crossingRead).moved.getD 512 0 = 0
      ∧ (hugeDisk.sectors (0xFFFFFFFF + 1)).toList.getD 0 0 = 1 := by
  unfold after ackedRead crossingRead
  rw [run_append, run_append, run_reads 511 (by decide) (by decide), run_append, run_append,
    run_reads 511 (by decide) (by decide)]
  decide +kernel

end M68kMachine.Mirage
