import M68kMachine.Properties.MirageEngine

/-!
# MIRAGE transfers exactly what was commanded

A run of the card is observed at its registers: the last accepted command and the bytes that crossed
the data port since. Over a device that does not fail,

* `ReadProgress` — a `READ` has delivered a prefix of its sectors, and all of them once idle
* `WriteProgress` — a `WRITE` has stored the complete sectors among the bytes it was given
* `progress_step` — every operation keeps both, whatever the guest writes to the registers
-/

namespace M68kMachine.Mirage

open Transition

variable {δ : Type} {m : Mirage δ} {o : Nat} {value : Byte} {content : δ → Nat → Sector}

/-! ## Observing a run -/

inductive Op
  | read (offset : Nat)
  | write (offset : Nat) (value : Byte)
  | tick
  | notifyMediaChange (unit : Nat)

/-- A command as accepted: its code, its unit and device, its span, and what every unit held. -/
structure Transfer (δ : Type) where
  command : Byte
  unit : Fin unitCount
  device : δ
  lba : Nat
  count : Nat
  unitsAt : Fin unitCount → Option δ
  attached : unitsAt unit = some device

/-- The command a register write gets accepted: one the idle engine leaves `idle` for. -/
def accepted [BlockDevice δ] (m : Mirage δ) (o : Nat) (value : Byte) : Option (Transfer δ) :=
  if o = Reg.cmdStatus + 3 ∧ m.state = .idle ∧ (m.write o value).state ≠ .idle then
    match m.selectedUnit with
    | none => none
    | some unit =>
      match hd : m.units unit with
      | none => none
      | some device => some ⟨value, unit, device, m.lba.toNat, m.count.toNat, m.units, hd⟩
  else none

/-- Whether a write acknowledges the completion interrupt. -/
def acknowledges (o : Nat) (value : Byte) : Bool := o == Reg.intStatus + 3 && value.getLsbD 0

/-- The card, its last command, the bytes that crossed the data port since, and whether the
interrupt was acknowledged since the engine last waited. -/
structure Observed (δ : Type) where
  card : Mirage δ
  transfer : Option (Transfer δ)
  moved : List Byte
  acked : Bool

namespace Observed

def start (units : Fin unitCount → Option δ) : Observed δ :=
  ⟨{ (Mirage.new : Mirage δ) with units := units }, none, [], false⟩

def step [BlockDevice δ] (t : Observed δ) : Op → Observed δ
  | .read o =>
    { t with
      card := (t.card.read o).2
      moved := if inSlot o Reg.data && t.card.state = .readReady then
          t.moved ++ [(t.card.read o).1] else t.moved }
  | .write o value =>
    match accepted t.card o value with
    | some c => ⟨t.card.write o value, some c, [], false⟩
    | none =>
      { t with
        card := t.card.write o value
        moved := if inSlot o Reg.data && t.card.state = .writeReady then
            t.moved ++ [value] else t.moved
        acked := t.acked || acknowledges o value }
  | .tick => { t with card := t.card.tick, acked := !t.card.state.isDelay && t.acked }
  | .notifyMediaChange unit => { t with card := t.card.notifyMediaChange unit }

end Observed

/-- `INT_STATUS` has the completion bit set. -/
def flagged (m : Mirage δ) : Bool := m.intStatus.getLsbD 0

theorem flagged_raise (status : Byte) : (status ||| Int.xferComplete).getLsbD 0 = true := by
  rw [BitVec.getLsbD_or]
  simp

/-! ## Register accesses -/

theorem read_data (h : inSlot o Reg.data = true) : m.read o = m.dataRead := by
  have ho := inSlot_iff.mp h
  simp only [Reg.data] at ho
  unfold read
  simp only [Reg.unitSelect, Reg.lba, Reg.count, Reg.cmdStatus]
  rw [if_neg (not_inSlot (by omega)), if_neg (not_inSlot (by omega)),
    if_neg (not_inSlot (by omega)), if_neg (not_inSlot (by omega)), if_pos h]

theorem read_other (h : ¬ inSlot o Reg.data = true) : (m.read o).2 = m := by
  unfold read
  rw [if_neg h]
  split <;> try rfl
  split <;> try rfl
  split <;> try rfl
  split <;> try rfl
  split <;> try rfl
  split <;> rfl

theorem write_data [BlockDevice δ] (value : Byte) (h : inSlot o Reg.data = true) :
    m.write o value = m.dataWrite value := by
  have ho := inSlot_iff.mp h
  simp only [Reg.data] at ho
  unfold write
  simp only [Reg.unitSelect, Reg.lba, Reg.count, Reg.cmdStatus]
  rw [if_neg (not_inSlot (by omega)), if_neg (not_inSlot (by omega)),
    if_neg (not_inSlot (by omega)), if_neg (not_inSlot (by omega)), if_pos h]

theorem write_command [BlockDevice δ] (m : Mirage δ) (value : Byte) :
    m.write (Reg.cmdStatus + 3) value = m.doCommand value := rfl

/-- Any other register write leaves the engine alone; only an acknowledge clears the flag. -/
theorem write_other [BlockDevice δ] (value : Byte) (hd : ¬ inSlot o Reg.data = true)
    (hc : o ≠ Reg.cmdStatus + 3) :
    SameEngine m (m.write o value)
      ∧ (m.flagged = true → acknowledges o value = false → (m.write o value).flagged = true) := by
  have hsame : ∀ m' : Mirage δ, SameEngine m m' → m'.intStatus = m.intStatus →
      SameEngine m m' ∧ (m.flagged = true → acknowledges o value = false → m'.flagged = true) :=
    fun m' hs hi => ⟨hs, fun hf _ => by unfold flagged at hf ⊢; rw [hi]; exact hf⟩
  unfold write
  rw [if_neg hd]
  split
  · split <;> exact hsame _ ⟨rfl, rfl, rfl, rfl, rfl, rfl, rfl, rfl, rfl⟩ rfl
  split
  · exact hsame _ ⟨rfl, rfl, rfl, rfl, rfl, rfl, rfl, rfl, rfl⟩ rfl
  split
  · exact hsame _ ⟨rfl, rfl, rfl, rfl, rfl, rfl, rfl, rfl, rfl⟩ rfl
  split
  · rename_i hcmd
    have ho := inSlot_iff.mp hcmd
    simp only [Reg.cmdStatus] at ho hc ⊢
    rw [if_neg (by omega)]
    exact hsame _ (SameEngine.refl m) rfl
  split
  · split <;> exact hsame _ ⟨rfl, rfl, rfl, rfl, rfl, rfl, rfl, rfl, rfl⟩ rfl
  split
  · rename_i hint
    have ho := inSlot_iff.mp hint
    split
    · rename_i h3
      refine ⟨⟨rfl, rfl, rfl, rfl, rfl, rfl, rfl, rfl, rfl⟩, fun hf hack => ?_⟩
      have heq : o = Reg.intStatus + 3 := by
        simp only [Reg.intStatus] at ho h3 ⊢
        omega
      unfold acknowledges at hack
      rw [heq, beq_self_eq_true, Bool.true_and] at hack
      unfold flagged at hf ⊢
      rw [BitVec.getLsbD_and, BitVec.getLsbD_not, hf, hack]
      rfl
    · exact hsame _ (SameEngine.refl m) rfl
  · exact hsame _ (SameEngine.refl m) rfl

theorem doCommand_busy [BlockDevice δ] (cmd : Byte) (h : m.state ≠ .idle) :
    m.doCommand cmd = m := by
  unfold doCommand
  rw [if_pos h]

theorem sameEngine_notifyMediaChange (m : Mirage δ) (unit : Nat) :
    SameEngine m (m.notifyMediaChange unit)
      ∧ (m.flagged = true → (m.notifyMediaChange unit).flagged = true) := by
  unfold notifyMediaChange
  split
  · refine ⟨⟨rfl, rfl, rfl, rfl, rfl, rfl, rfl, rfl, rfl⟩, fun hf => ?_⟩
    unfold flagged at hf ⊢
    rw [BitVec.getLsbD_or, hf]
    rfl
  · exact ⟨SameEngine.refl m, id⟩

/-! ## The engine invariant along runs -/

/-- The card after an operation, without the observer. -/
theorem card_step [BlockDevice δ] (t : Observed δ) (op : Op) :
    (t.step op).card = match op with
      | .read o => (t.card.read o).2
      | .write o value => t.card.write o value
      | .tick => t.card.tick
      | .notifyMediaChange unit => t.card.notifyMediaChange unit := by
  cases op with
  | write o value =>
    simp only [Observed.step]
    split <;> rfl
  | _ => rfl

theorem engineOk_step [BlockDevice δ] (hsize : StableSize δ) (t : Observed δ) (op : Op)
    (h : EngineOk t.card) : EngineOk (t.step op).card := by
  rw [card_step]
  cases op with
  | read o =>
    by_cases hd : inSlot o Reg.data = true
    · simp only [read_data hd]
      exact engineOk_dataRead h
    · simp only [read_other hd]
      exact h
  | write o value =>
    by_cases hd : inSlot o Reg.data = true
    · simp only [write_data value hd]
      exact engineOk_dataWrite h value
    · by_cases hc : o = Reg.cmdStatus + 3
      · subst hc
        exact engineOk_doCommand h value
      · exact h.of_same (write_other value hd hc).1
  | tick => exact engineOk_tick hsize h
  | notifyMediaChange unit => exact h.of_same (sameEngine_notifyMediaChange t.card unit).1

theorem engineOk_run [BlockDevice δ] (hsize : StableSize δ) (units : Fin unitCount → Option δ)
    (ops : List Op) : EngineOk (run Observed.step (Observed.start units) ops).card :=
  run_invariant (P := fun t : Observed δ => EngineOk t.card)
    (fun t op h => engineOk_step hsize t op h) ops (engineOk_new units)

/-! ## Accepting a command -/

/-- What the idle engine makes of a command: it fails, or one of the three begins. -/
theorem doCommand_idle [BlockDevice δ] (cmd : Byte) (h : m.state = .idle) :
    m.doCommand cmd = m.fail ∨ ∃ unit d, m.selectedUnit = some unit ∧ m.units unit = some d ∧
      (cmd = Cmd.read ∧ m.spanFits d = true ∧ m.doCommand cmd = { m with
          activeUnit := unit, currentLba := m.lba, sectorsLeft := m.count.toNat,
          state := .readPending, status := Status.busy, ticksLeft := ticksPerSector }
        ∨ cmd = Cmd.write ∧ m.spanFits d = true ∧ m.doCommand cmd = { m with
          activeUnit := unit, currentLba := m.lba, sectorsLeft := m.count.toNat, bufPos := 0,
          state := .writePending, status := Status.busy, ticksLeft := ticksPerSector }
        ∨ cmd = Cmd.flush ∧ m.doCommand cmd = m.beginFlush unit) := by
  unfold doCommand
  rw [if_neg (not_not.mpr h)]
  split
  · exact Or.inl rfl
  rename_i unit hunit
  split
  · exact Or.inl rfl
  rename_i d hd
  by_cases hr : cmd = Cmd.read
  · rw [if_pos hr]
    unfold beginRead
    cases hf : m.spanFits d with
    | false => exact Or.inl rfl
    | true => exact Or.inr ⟨unit, d, hunit, hd, Or.inl ⟨hr, hf, rfl⟩⟩
  rw [if_neg hr]
  by_cases hw : cmd = Cmd.write
  · rw [if_pos hw]
    unfold beginWrite
    cases hf : m.spanFits d with
    | false => exact Or.inl rfl
    | true => exact Or.inr ⟨unit, d, hunit, hd, Or.inr (Or.inl ⟨hw, hf, rfl⟩)⟩
  rw [if_neg hw]
  by_cases hfl : cmd = Cmd.flush
  · rw [if_pos hfl]
    exact Or.inr ⟨unit, d, hunit, hd, Or.inr (Or.inr ⟨hfl, rfl⟩)⟩
  · rw [if_neg hfl]
    exact Or.inl rfl

/-- A command that was not accepted left a busy engine alone, or failed. -/
theorem write_command_refused [BlockDevice δ] (h : accepted m (Reg.cmdStatus + 3) value = none) :
    m.write (Reg.cmdStatus + 3) value = m ∨
      m.state = .idle ∧ m.write (Reg.cmdStatus + 3) value = m.fail := by
  rw [write_command]
  by_cases hi : m.state = .idle
  · refine Or.inr ⟨hi, ?_⟩
    rcases doCommand_idle value hi with hf | ⟨unit, d, hu, hd, hbegin⟩
    · exact hf
    · exfalso
      have hne : (m.write (Reg.cmdStatus + 3) value).state ≠ .idle := by
        rw [write_command]
        rcases hbegin with ⟨_, _, he⟩ | ⟨_, _, he⟩ | ⟨_, he⟩ <;> rw [he] <;> intro hc <;> cases hc
      unfold accepted at h
      rw [if_pos ⟨rfl, hi, hne⟩, hu] at h
      simp only at h
      split at h
      · rename_i hnone
        rw [hd] at hnone
        cases hnone
      · cases h
  · exact Or.inl (doCommand_busy value hi)

variable {c : Transfer δ}

/-- An accepted command was written to the idle engine, and names what it was issued against. -/
theorem accepted_eq_some [BlockDevice δ] (h : accepted m o value = some c) :
    o = Reg.cmdStatus + 3 ∧ m.state = .idle ∧ (m.write o value).state ≠ .idle
      ∧ m.selectedUnit = some c.unit ∧ m.units c.unit = some c.device
      ∧ c.command = value ∧ c.lba = m.lba.toNat ∧ c.count = m.count.toNat
      ∧ c.unitsAt = m.units := by
  unfold accepted at h
  split at h
  · rename_i hcond
    obtain ⟨ho, hi, hne⟩ := hcond
    split at h
    · cases h
    · rename_i unit hu
      split at h
      · cases h
      · rename_i d hd
        cases h
        exact ⟨ho, hi, hne, hu, hd, rfl, rfl, rfl, rfl⟩
  · cases h

/-- The engine right after a command was accepted. -/
theorem write_accepted [BlockDevice δ] (h : accepted m o value = some c) :
    (c.command = Cmd.read → 1 ≤ c.count ∧ m.write o value = { m with
        activeUnit := c.unit, currentLba := m.lba, sectorsLeft := c.count,
        state := .readPending, status := Status.busy, ticksLeft := ticksPerSector })
      ∧ (c.command = Cmd.write → 1 ≤ c.count ∧ m.write o value = { m with
        activeUnit := c.unit, currentLba := m.lba, sectorsLeft := c.count, bufPos := 0,
        state := .writePending, status := Status.busy, ticksLeft := ticksPerSector }) := by
  obtain ⟨ho, hi, hne, hu, hd, hcmd, hlba, hcount, hat⟩ := accepted_eq_some h
  subst ho
  rw [write_command] at hne ⊢
  rcases doCommand_idle value hi with hf | ⟨unit, d, hu', hd', hbegin⟩
  · rw [hf] at hne
    exact absurd rfl hne
  · rw [hu] at hu'
    cases hu'
    rw [hd] at hd'
    cases hd'
    rw [hcmd, hcount]
    rcases hbegin with ⟨hv, hf, he⟩ | ⟨hv, hf, he⟩ | ⟨hv, he⟩
    · have hpos := ((m.spanFits_iff c.device).mp hf).1
      rw [he]
      exact ⟨fun _ => ⟨hpos, rfl⟩, fun hw => by rw [hv] at hw; exact absurd hw (by decide)⟩
    · have hpos := ((m.spanFits_iff c.device).mp hf).1
      rw [he]
      exact ⟨fun hr => by rw [hv] at hr; exact absurd hr (by decide), fun _ => ⟨hpos, rfl⟩⟩
    · exact ⟨fun hr => by rw [hv] at hr; exact absurd hr (by decide),
        fun hw => by rw [hv] at hw; exact absurd hw (by decide)⟩

/-! ## What a transfer has done so far -/

/-- The transfer of `c` still has `left` sectors to go, the next one at `currentLba`. -/
structure AtSector (m : Mirage δ) (c : Transfer δ) : Prop where
  left_pos : 1 ≤ m.sectorsLeft
  left_le : m.sectorsLeft ≤ c.count
  lba : m.currentLba.toNat + m.sectorsLeft = c.lba + c.count

/-- The completion bit is set, or the guest has acknowledged it since. -/
def Completed (t : Observed δ) : Prop := t.card.flagged = true ∨ t.acked = true

/-- How far a `READ` is: `moved` is what it delivered, and no unit has changed. -/
def ReadProgress (content : δ → Nat → Sector) (t : Observed δ) (c : Transfer δ) : Prop :=
  t.card.activeUnit = c.unit
    ∧ (∀ u, (t.card.units u).map content = (c.unitsAt u).map content)
    ∧ match t.card.state with
      | .readPending => AtSector t.card c
          ∧ t.moved = sectorRun (content c.device) c.lba (c.count - t.card.sectorsLeft)
      | .readReady => AtSector t.card c
          ∧ t.card.sectorBuf = content c.device t.card.currentLba.toNat
          ∧ t.moved = sectorRun (content c.device) c.lba (c.count - t.card.sectorsLeft)
              ++ t.card.sectorBuf.toList.take t.card.bufPos
          ∧ Completed t
      | .idle => t.moved = sectorRun (content c.device) c.lba c.count ∧ Completed t
      | _ => False

/-- The units hold what they held when `c` was issued, with `n` sectors of `bytes` stored. -/
structure Stored (content : δ → Nat → Sector) (units : Fin unitCount → Option δ) (c : Transfer δ)
    (n : Nat) (bytes : List Byte) : Prop where
  target : ∃ d, units c.unit = some d ∧
    content d = storeRun (content c.device) c.lba n bytes
  others : ∀ u, u ≠ c.unit → (units u).map content = (c.unitsAt u).map content

/-- How far a `WRITE` is: `stored` are the complete sectors among the bytes it was given. -/
def WriteProgress (content : δ → Nat → Sector) (t : Observed δ) (c : Transfer δ) : Prop :=
  t.card.activeUnit = c.unit
    ∧ match t.card.state with
      | .writePending => AtSector t.card c ∧ t.card.sectorsLeft = c.count ∧ t.moved = []
          ∧ Stored content t.card.units c 0 []
      | .writeReady => AtSector t.card c ∧ ∃ stored,
          stored.length = sectorBytes * (c.count - t.card.sectorsLeft)
          ∧ t.moved = stored ++ t.card.sectorBuf.toList.take t.card.bufPos
          ∧ Stored content t.card.units c (c.count - t.card.sectorsLeft) stored
      | .writeCommitting => AtSector t.card c ∧ ∃ stored,
          stored.length = sectorBytes * (c.count - t.card.sectorsLeft)
          ∧ t.moved = stored ++ t.card.sectorBuf.toList
          ∧ Stored content t.card.units c (c.count - t.card.sectorsLeft) stored
      | .idle => t.moved.length = sectorBytes * c.count
          ∧ Stored content t.card.units c c.count t.moved ∧ Completed t
      | _ => False

section Frame

variable {content : δ → Nat → Sector} {t t' : Observed δ} {c : Transfer δ}

theorem AtSector.of_same {m m' : Mirage δ} (h : AtSector m c) (hs : SameEngine m m') :
    AtSector m' c :=
  ⟨by rw [hs.sectorsLeft]; exact h.left_pos, by rw [hs.sectorsLeft]; exact h.left_le,
    by rw [hs.currentLba, hs.sectorsLeft]; exact h.lba⟩

theorem ReadProgress.of_same (h : ReadProgress content t c) (hs : SameEngine t.card t'.card)
    (hm : t'.moved = t.moved) (hc : Completed t → Completed t') : ReadProgress content t' c := by
  unfold ReadProgress at h ⊢
  rw [hs.activeUnit, hs.units, hs.state, hs.sectorsLeft, hs.sectorBuf, hs.currentLba, hs.bufPos, hm]
  obtain ⟨hu, hcont, hstate⟩ := h
  refine ⟨hu, hcont, ?_⟩
  cases hst : t.card.state <;> rw [hst] at hstate <;> simp only at hstate ⊢
  · exact ⟨hstate.1, hc hstate.2⟩
  · exact ⟨hstate.1.of_same hs, hstate.2⟩
  · exact ⟨hstate.1.of_same hs, hstate.2.1, hstate.2.2.1, hc hstate.2.2.2⟩

theorem WriteProgress.of_same (h : WriteProgress content t c) (hs : SameEngine t.card t'.card)
    (hm : t'.moved = t.moved) (hc : Completed t → Completed t') : WriteProgress content t' c := by
  unfold WriteProgress at h ⊢
  rw [hs.activeUnit, hs.units, hs.state, hs.sectorsLeft, hs.sectorBuf, hs.bufPos, hm]
  obtain ⟨hu, hstate⟩ := h
  refine ⟨hu, ?_⟩
  cases hst : t.card.state <;> rw [hst] at hstate <;> simp only at hstate ⊢
  · exact ⟨hstate.1, hstate.2.1, hc hstate.2.2⟩
  · exact ⟨hstate.1.of_same hs, hstate.2⟩
  · exact ⟨hstate.1.of_same hs, hstate.2⟩
  · exact ⟨hstate.1.of_same hs, hstate.2⟩

/-- A command that fails on the idle engine changes nothing a transfer left behind. -/
theorem ReadProgress.of_fail (h : ReadProgress content t c) (hi : t.card.state = .idle)
    (hf : t'.card = t.card.fail) (hm : t'.moved = t.moved) : ReadProgress content t' c := by
  unfold ReadProgress at h ⊢
  rw [hi] at h
  rw [hf, hm]
  refine ⟨h.1, h.2.1, h.2.2.1, Or.inl ?_⟩
  rw [hf]
  exact flagged_raise t.card.intStatus

theorem WriteProgress.of_fail (h : WriteProgress content t c) (hi : t.card.state = .idle)
    (hf : t'.card = t.card.fail) (hm : t'.moved = t.moved) : WriteProgress content t' c := by
  unfold WriteProgress at h ⊢
  rw [hi] at h
  rw [hf, hm]
  refine ⟨h.1, h.2.1, h.2.2.1, Or.inl ?_⟩
  rw [hf]
  exact flagged_raise t.card.intStatus

end Frame

/-! ## Progress of a `READ` -/

theorem toNat_lba64 (lba : Long) : (lba.setWidth 64 : Quad).toNat = lba.toNat := by
  have := lba.isLt
  rw [BitVec.toNat_setWidth, Nat.mod_eq_of_lt (by omega)]

/-- The sector index of a transfer does not wrap while sectors remain after the current one. -/
theorem toNat_next_lba {lba : Long} (h : lba.toNat + 1 < 0x100000000) :
    (lba + 1).toNat = lba.toNat + 1 := by
  rw [BitVec.toNat_add]
  exact Nat.mod_eq_of_lt h

theorem AtSector.next {m : Mirage δ} {c : Transfer δ} (h : AtSector m c)
    (hwrap : c.lba + c.count ≤ 0x100000000) (hl : m.sectorsLeft - 1 ≠ 0) :
    (m.currentLba + 1).toNat + (m.sectorsLeft - 1) = c.lba + c.count := by
  have hlba := h.lba
  rw [toNat_next_lba (by omega)]
  omega

theorem fifoByte_eq (h : m.bufPos < sectorBytes) :
    m.sectorBuf.toList.take m.bufPos ++ [m.fifoByte] = m.sectorBuf.toList.take (m.bufPos + 1) := by
  have hlen : m.bufPos < m.sectorBuf.toList.length := by rw [Vector.length_toList]; exact h
  unfold fifoByte
  rw [List.take_succ_eq_append_getElem hlen, List.getD_eq_getElem?_getD,
    List.getElem?_eq_getElem hlen]
  rfl

theorem take_sector (s : Sector) {n : Nat} (h : n = sectorBytes) : s.toList.take n = s.toList := by
  apply List.take_of_length_le
  rw [Vector.length_toList, h]
  exact Nat.le_refl _

variable {t : Observed δ}

/-- The data port delivers the next byte of the sector, and a finished sector is counted. -/
theorem readProgress_dataRead [BlockDevice δ] (hok : EngineOk t.card)
    (hwrap : c.lba + c.count ≤ 0x100000000) (h : ReadProgress content t c)
    (hs : t.card.state = .readReady) :
    ReadProgress content { t with
      card := t.card.dataRead.2, moved := t.moved ++ [t.card.dataRead.1] } c := by
  have hpos := hok.bufPos_lt (by rw [hs]; rfl)
  unfold ReadProgress at h
  rw [hs] at h
  obtain ⟨hu, hcont, hat, hbuf, hmoved, hcomp⟩ := h
  have hstep : t.moved ++ [t.card.fifoByte]
      = sectorRun (content c.device) c.lba (c.count - t.card.sectorsLeft)
        ++ t.card.sectorBuf.toList.take (t.card.bufPos + 1) := by
    rw [hmoved, List.append_assoc, fifoByte_eq hpos]
  rcases Nat.lt_or_ge (t.card.bufPos + 1) sectorBytes with hp | hp
  · rw [dataRead_within hs hp]
    refine ⟨hu, hcont, ?_⟩
    simp only [hs]
    exact ⟨⟨hat.left_pos, hat.left_le, hat.lba⟩, hbuf, hstep, hcomp⟩
  have hp' : t.card.bufPos + 1 = sectorBytes := by omega
  -- a whole sector has been delivered: the run grows by the current one
  have hrun : t.moved ++ [t.card.fifoByte]
      = sectorRun (content c.device) c.lba (c.count - t.card.sectorsLeft + 1) := by
    have hlba := hat.lba
    have hle := hat.left_le
    have hleft := hat.left_pos
    rw [hstep, take_sector _ hp', hbuf, sectorRun_succ,
      show c.lba + (c.count - t.card.sectorsLeft) = t.card.currentLba.toNat by omega]
  have hle := hat.left_le
  have hleft := hat.left_pos
  by_cases hl : t.card.sectorsLeft - 1 = 0
  · rw [dataRead_last hs hp' hl]
    refine ⟨hu, hcont, ?_, hcomp⟩
    show t.moved ++ [t.card.fifoByte] = _
    rw [hrun, show c.count - t.card.sectorsLeft + 1 = c.count by omega]
  · rw [dataRead_next hs hp' hl]
    refine ⟨hu, hcont, ⟨Nat.one_le_iff_ne_zero.mpr hl, ?_, hat.next hwrap hl⟩, ?_⟩
    · show t.card.sectorsLeft - 1 ≤ c.count
      omega
    · show t.moved ++ [t.card.fifoByte] = sectorRun _ _ (c.count - (t.card.sectorsLeft - 1))
      rw [hrun, show c.count - (t.card.sectorsLeft - 1) = c.count - t.card.sectorsLeft + 1 by omega]

/-- A fetch brings the current sector into the FIFO and raises the completion. -/
theorem readProgress_fetch [BlockDevice δ] (hdev : ReliableDevice content) (hok : EngineOk t.card)
    (h : ReadProgress content t c) (hs : t.card.state = .readPending) :
    ReadProgress content (t.step .tick) c := by
  unfold ReadProgress at h
  rw [hs] at h
  obtain ⟨hu, hcont, hat, hmoved⟩ := h
  obtain ⟨hleft, d, hd, hfit⟩ := hok.span (by rw [hs]; rfl)
  have hlt : (t.card.currentLba.setWidth 64 : Quad).toNat < (BlockDevice.sectorCount d).toNat := by
    rw [toNat_lba64]
    omega
  obtain ⟨d', hr, hsame⟩ := hdev.read d _ t.card.sectorBuf hlt
  rw [toNat_lba64] at hr
  have hdc : content d = content c.device := by
    have := hcont c.unit
    rw [c.attached, ← hu, hd] at this
    exact Option.some.inj this
  rw [show t.step .tick = { t with
    card := t.card.tick, acked := !t.card.state.isDelay && t.acked } from rfl,
    tick_fetch hok hs hd hr]
  refine ⟨hu, fun u => ?_, ⟨hat.left_pos, hat.left_le, hat.lba⟩, ?_, ?_, Or.inl ?_⟩
  · by_cases hue : u = t.card.activeUnit
    · rw [← hcont u, hue, hd]
      show (Mirage.units (t.card.setUnit _ d') _).map content = _
      rw [setUnit_active, Option.map_some, Option.map_some, hsame]
    · rw [← hcont u]
      simp [setUnit, hue]
  · show content d t.card.currentLba.toNat = content c.device t.card.currentLba.toNat
    rw [hdc]
  · show t.moved = sectorRun _ _ (c.count - t.card.sectorsLeft) ++ List.take 0 _
    rw [List.take_zero, List.append_nil]
    exact hmoved
  · exact flagged_raise t.card.intStatus

/-! ## Progress of a `WRITE` -/

theorem take_set_next (s : Sector) {n : Nat} (h : n < sectorBytes) (value : Byte) :
    (s.setIfInBounds n value).toList.take (n + 1) = s.toList.take n ++ [value] := by
  have hlen : s.toList.length = sectorBytes := Vector.length_toList
  have hset : (s.setIfInBounds n value).toList = s.toList.set n value := by
    simp [Vector.toList]
  rw [hset, List.take_succ_eq_append_getElem (by rw [List.length_set, hlen]; exact h),
    List.take_set_of_le (Nat.le_refl n)]
  simp

theorem writeProgress_prepare [BlockDevice δ] (hok : EngineOk t.card)
    (h : WriteProgress content t c) (hs : t.card.state = .writePending) :
    WriteProgress content (t.step .tick) c := by
  unfold WriteProgress at h
  rw [hs] at h
  obtain ⟨hu, hat, hall, hmoved, hstored⟩ := h
  have hzero : c.count - t.card.sectorsLeft = 0 := by omega
  rw [show t.step .tick = { t with
    card := t.card.tick, acked := !t.card.state.isDelay && t.acked } from rfl,
    tick_writePending hok hs]
  refine ⟨hu, ⟨hat.left_pos, hat.left_le, hat.lba⟩, [], ?_, ?_, ?_⟩
  · show 0 = sectorBytes * (c.count - t.card.sectorsLeft)
    rw [hzero]
    rfl
  · show t.moved = [] ++ List.take 0 _
    rw [hmoved, List.take_zero, List.append_nil]
  · show Stored content t.card.units c (c.count - t.card.sectorsLeft) []
    rw [hzero]
    exact hstored

/-- The data port takes the next byte of the sector. -/
theorem writeProgress_dataWrite [BlockDevice δ] (hok : EngineOk t.card)
    (h : WriteProgress content t c) (hs : t.card.state = .writeReady) (value : Byte)
    (acked : Bool) :
    WriteProgress content ⟨t.card.dataWrite value, t.transfer, t.moved ++ [value], acked⟩ c := by
  have hpos := hok.bufPos_lt (by rw [hs]; rfl)
  unfold WriteProgress at h
  rw [hs] at h
  obtain ⟨hu, hat, stored, hlen, hmoved, hst⟩ := h
  have hnext : t.moved ++ [value] = stored ++
      (t.card.sectorBuf.setIfInBounds t.card.bufPos value).toList.take (t.card.bufPos + 1) := by
    rw [hmoved, List.append_assoc, take_set_next _ hpos]
  rcases Nat.lt_or_ge (t.card.bufPos + 1) sectorBytes with hp | hp
  · rw [dataWrite_within value hs hp]
    refine ⟨hu, ?_⟩
    simp only [hs]
    exact ⟨⟨hat.left_pos, hat.left_le, hat.lba⟩, stored, hlen, hnext, hst⟩
  · have hp' : t.card.bufPos + 1 = sectorBytes := by omega
    rw [take_sector _ hp'] at hnext
    rw [dataWrite_full value hs hp']
    exact ⟨hu, ⟨hat.left_pos, hat.left_le, hat.lba⟩, stored, hlen, hnext, hst⟩

/-- A commit stores the sector in the FIFO as the next one of the run. -/
theorem writeProgress_commit [BlockDevice δ] (hdev : ReliableDevice content) (hok : EngineOk t.card)
    (hwrap : c.lba + c.count ≤ 0x100000000) (h : WriteProgress content t c)
    (hs : t.card.state = .writeCommitting) : WriteProgress content (t.step .tick) c := by
  unfold WriteProgress at h
  rw [hs] at h
  obtain ⟨hu, hat, stored, hlen, hmoved, hst⟩ := h
  obtain ⟨_, d, hd, hfit⟩ := hok.span (by rw [hs]; rfl)
  have hlba := hat.lba
  have hle := hat.left_le
  have hleft := hat.left_pos
  have hlt : (t.card.currentLba.setWidth 64 : Quad).toNat < (BlockDevice.sectorCount d).toNat := by
    rw [toNat_lba64]
    omega
  obtain ⟨d', hw, hcontent⟩ := hdev.write d _ t.card.sectorBuf hlt
  rw [toNat_lba64] at hcontent
  -- the run stored so far, with the current sector behind it
  have hgrow : Stored content (t.card.setUnit t.card.activeUnit d').units c
      (c.count - t.card.sectorsLeft + 1) t.moved := by
    obtain ⟨⟨d₀, hd₀, hcd⟩, hothers⟩ := hst
    rw [← hu, hd] at hd₀
    cases hd₀
    refine ⟨⟨d', by rw [← hu]; exact setUnit_active t.card d', ?_⟩, fun u hne => ?_⟩
    · rw [hcontent, storeRun_succ, hmoved, sectorOf_append_sector hlen,
        storeRun_append _ _ _ (by omega), ← hcd,
        show c.lba + (c.count - t.card.sectorsLeft) = t.card.currentLba.toNat by omega]
    · rw [← hothers u hne]
      have hne' : u ≠ t.card.activeUnit := fun he => hne (he.trans hu)
      simp [setUnit, hne']
  have hbytes : t.moved.length = sectorBytes * (c.count - t.card.sectorsLeft + 1) := by
    rw [hmoved, List.length_append, hlen, Vector.length_toList]
    rfl
  rw [show t.step .tick = { t with
    card := t.card.tick, acked := !t.card.state.isDelay && t.acked } from rfl,
    tick_commit hok hs hd hw]
  dsimp only
  rw [if_pos rfl]
  by_cases hl : t.card.sectorsLeft - 1 = 0
  · have hlast : c.count - t.card.sectorsLeft + 1 = c.count := by omega
    rw [hlast] at hgrow hbytes
    rw [if_pos hl]
    exact ⟨hu, hbytes, hgrow, Or.inl (flagged_raise t.card.intStatus)⟩
  · have hmore : c.count - (t.card.sectorsLeft - 1) = c.count - t.card.sectorsLeft + 1 := by omega
    rw [if_neg hl]
    refine ⟨hu, ⟨Nat.one_le_iff_ne_zero.mpr hl, ?_, hat.next hwrap hl⟩, t.moved, ?_, ?_, ?_⟩
    · show t.card.sectorsLeft - 1 ≤ c.count
      omega
    · show t.moved.length = sectorBytes * (c.count - (t.card.sectorsLeft - 1))
      rw [hmore]
      exact hbytes
    · show t.moved = t.moved ++ List.take 0 _
      rw [List.take_zero, List.append_nil]
    · show Stored content (t.card.setUnit _ d').units c (c.count - (t.card.sectorsLeft - 1)) t.moved
      rw [hmore]
      exact hgrow

/-! ## Every operation keeps the progress -/

/-- How far the last accepted command is, while its span stays within the sector register. -/
def Progress (content : δ → Nat → Sector) (t : Observed δ) : Prop :=
  ∀ c, t.transfer = some c → c.lba + c.count ≤ 0x100000000 →
    (c.command = Cmd.read → ReadProgress content t c)
      ∧ (c.command = Cmd.write → WriteProgress content t c)

theorem progress_accepted [BlockDevice δ] (h : accepted t.card o value = some c) :
    Progress content ⟨t.card.write o value, some c, [], false⟩ := by
  obtain ⟨_, _, _, _, _, _, hlba, _, hat⟩ := accepted_eq_some h
  obtain ⟨hread, hwrite⟩ := write_accepted h
  intro c' hc' _
  cases hc'
  constructor
  · intro hcmd
    obtain ⟨hpos, hcard⟩ := hread hcmd
    rw [hcard]
    refine ⟨rfl, fun u => ?_, ⟨hpos, Nat.le_refl _, ?_⟩, ?_⟩
    · rw [hat]
    · show t.card.lba.toNat + c.count = c.lba + c.count
      rw [hlba]
    · show [] = sectorRun _ _ (c.count - c.count)
      rw [Nat.sub_self]
      rfl
  · intro hcmd
    obtain ⟨hpos, hcard⟩ := hwrite hcmd
    rw [hcard]
    refine ⟨rfl, ⟨hpos, Nat.le_refl _, ?_⟩, rfl, rfl, ⟨c.device, ?_, ?_⟩, fun u _ => ?_⟩
    · show t.card.lba.toNat + c.count = c.lba + c.count
      rw [hlba]
    · show t.card.units c.unit = some c.device
      rw [← hat]
      exact c.attached
    · rw [storeRun_zero]
    · show (t.card.units u).map content = _
      rw [hat]

theorem progress_tick [BlockDevice δ] (hdev : ReliableDevice content) (hok : EngineOk t.card)
    (h : Progress content t) : Progress content (t.step .tick) := by
  intro c hc hwrap
  have hcard : (t.step .tick).card = t.card.tick := rfl
  -- outside a delay the tick does nothing, and nothing is acknowledged
  have inert : t.card.state.isDelay = false → SameEngine t.card (t.step .tick).card
      ∧ (Completed t → Completed (t.step .tick)) := by
    intro hd
    rw [hcard, tick_inert hok hd]
    refine ⟨SameEngine.refl _, fun hcomp => ?_⟩
    rcases hcomp with hf | ha
    · exact Or.inl (by rw [hcard, tick_inert hok hd]; exact hf)
    · exact Or.inr (by simp [Observed.step, hd, ha])
  obtain ⟨hr, hw⟩ := h c hc hwrap
  constructor
  · intro hcmd
    have hp := hr hcmd
    cases hs : t.card.state with
    | readPending => exact readProgress_fetch hdev hok hp hs
    | idle | readReady =>
      obtain ⟨hsame, hcomp⟩ := inert (by rw [hs]; rfl)
      exact hp.of_same hsame rfl hcomp
    | writePending | writeReady | writeCommitting | flushPending =>
      unfold ReadProgress at hp
      rw [hs] at hp
      exact absurd hp.2.2 id
  · intro hcmd
    have hp := hw hcmd
    cases hs : t.card.state with
    | writePending => exact writeProgress_prepare hok hp hs
    | writeCommitting => exact writeProgress_commit hdev hok hwrap hp hs
    | idle | writeReady =>
      obtain ⟨hsame, hcomp⟩ := inert (by rw [hs]; rfl)
      exact hp.of_same hsame rfl hcomp
    | readPending | readReady | flushPending =>
      unfold WriteProgress at hp
      rw [hs] at hp
      exact absurd hp.2 id

theorem progress_read [BlockDevice δ] (o : Nat) (hok : EngineOk t.card) (h : Progress content t) :
    Progress content (t.step (.read o)) := by
  intro c hc hwrap
  obtain ⟨hr, hw⟩ := h c hc hwrap
  by_cases hlive : inSlot o Reg.data = true ∧ t.card.state = .readReady
  · obtain ⟨hd, hs⟩ := hlive
    have hstep : t.step (.read o) = { t with
        card := t.card.dataRead.2, moved := t.moved ++ [t.card.dataRead.1] } := by
      simp only [Observed.step, read_data hd, hd, hs]
      rfl
    rw [hstep]
    refine ⟨fun hcmd => readProgress_dataRead hok hwrap (hr hcmd) hs, fun hcmd => ?_⟩
    have hp := hw hcmd
    unfold WriteProgress at hp
    rw [hs] at hp
    exact absurd hp.2 id
  · -- any other read shows a register
    have hcard : (t.card.read o).2 = t.card := by
      by_cases hd : inSlot o Reg.data = true
      · rw [read_data hd, dataRead_inert fun hs => hlive ⟨hd, hs⟩]
      · exact read_other hd
    have hstep : t.step (.read o) = t := by
      have hno : (inSlot o Reg.data && decide (t.card.state = .readReady)) = false := by
        rw [Bool.and_eq_false_iff, decide_eq_false_iff_not, ← Bool.not_eq_true]
        exact Classical.not_and_iff_not_or_not.mp hlive
      simp only [Observed.step, hcard, hno]
      rfl
    rw [hstep]
    exact ⟨hr, hw⟩

theorem progress_write [BlockDevice δ] (o : Nat) (value : Byte) (hok : EngineOk t.card)
    (h : Progress content t) : Progress content (t.step (.write o value)) := by
  cases hacc : accepted t.card o value with
  | some c =>
    simp only [Observed.step, hacc]
    exact progress_accepted hacc
  | none =>
    simp only [Observed.step, hacc]
    intro c hc hwrap
    obtain ⟨hr, hw⟩ := h c hc hwrap
    by_cases hlive : inSlot o Reg.data = true ∧ t.card.state = .writeReady
    · obtain ⟨hd, hs⟩ := hlive
      simp only [hd, hs, write_data value hd, decide_true, Bool.and_self, if_true]
      refine ⟨fun hcmd => ?_, fun hcmd => writeProgress_dataWrite hok (hw hcmd) hs value _⟩
      have hp := hr hcmd
      unfold ReadProgress at hp
      rw [hs] at hp
      exact absurd hp.2.2 id
    · have hno : (inSlot o Reg.data && decide (t.card.state = .writeReady)) = false := by
        rw [Bool.and_eq_false_iff, decide_eq_false_iff_not, ← Bool.not_eq_true]
        exact Classical.not_and_iff_not_or_not.mp hlive
      simp only [hno, Bool.false_eq_true, if_false]
      by_cases hcmdreg : o = Reg.cmdStatus + 3
      · subst hcmdreg
        rcases write_command_refused hacc with hsame | ⟨hi, hfail⟩
        · have hcomp : Completed t → Completed ⟨t.card.write (Reg.cmdStatus + 3) value,
              t.transfer, t.moved, t.acked || acknowledges (Reg.cmdStatus + 3) value⟩ := by
            rw [hsame]
            exact Or.imp id fun ha => by simp only [ha, Bool.true_or]
          have hse : SameEngine t.card (t.card.write (Reg.cmdStatus + 3) value) := by
            rw [hsame]
            exact SameEngine.refl _
          exact ⟨fun hcmd => (hr hcmd).of_same hse rfl hcomp,
            fun hcmd => (hw hcmd).of_same hse rfl hcomp⟩
        · exact ⟨fun hcmd => (hr hcmd).of_fail hi hfail rfl,
            fun hcmd => (hw hcmd).of_fail hi hfail rfl⟩
      · have hother : SameEngine t.card (t.card.write o value) ∧ (t.card.flagged = true →
            acknowledges o value = false → (t.card.write o value).flagged = true) := by
          by_cases hd : inSlot o Reg.data = true
          · rw [write_data value hd, dataWrite_inert value fun hs => hlive ⟨hd, hs⟩]
            exact ⟨SameEngine.refl _, fun hf _ => hf⟩
          · exact write_other value hd hcmdreg
        obtain ⟨hse, hflag⟩ := hother
        have hcomp : Completed t → Completed ⟨t.card.write o value, t.transfer, t.moved,
            t.acked || acknowledges o value⟩ := by
          rintro (hf | ha)
          · cases hack : acknowledges o value with
            | true => exact Or.inr (by simp)
            | false => exact Or.inl (hflag hf hack)
          · exact Or.inr (by simp only [ha, Bool.true_or])
        exact ⟨fun hcmd => (hr hcmd).of_same hse rfl hcomp,
          fun hcmd => (hw hcmd).of_same hse rfl hcomp⟩

theorem progress_step [BlockDevice δ] (hdev : ReliableDevice content) (op : Op)
    (hok : EngineOk t.card) (h : Progress content t) : Progress content (t.step op) := by
  cases op with
  | read o => exact progress_read o hok h
  | write o value => exact progress_write o value hok h
  | tick => exact progress_tick hdev hok h
  | notifyMediaChange unit =>
    intro c hc hwrap
    obtain ⟨hr, hw⟩ := h c hc hwrap
    obtain ⟨hse, hflag⟩ := sameEngine_notifyMediaChange t.card unit
    have hcomp : Completed t → Completed (t.step (.notifyMediaChange unit)) :=
      Or.imp hflag id
    exact ⟨fun hcmd => (hr hcmd).of_same hse rfl hcomp,
      fun hcmd => (hw hcmd).of_same hse rfl hcomp⟩

end M68kMachine.Mirage
