import M68kMachine.Properties.PrometheusConfig
import M68kMachine.Properties.PrometheusWalk
import Mathlib.Data.BitVec
import Mathlib.Data.Fintype.Card

/-!
# The interrupt servers of prometheus.library

The four lines of the bridge are shared. The library counts the servers on each, so in every run an
enable bit is set exactly while the line has a server.

* `Registration`, `Step` — the calls, with the servers added and not yet removed
* `Counted` — the invariant that ties the counts, the register and those servers together
-/

namespace M68kMachine

open Pci Pcibridge

namespace Prometheus

open ServerChain

variable {π χ : Type} [PciBackend π] [ServerChain χ] (d : PciBridge π) {line : Fin 4}

/-! ## The enable register -/

theorem updateEnable_eq (f : Long → Long) : updateEnable d f =
    { d with intxEnable := byteOf (f (d.intxEnable.setWidth 32)) 3 &&& 0x0F } := by
  have hread : readLong d Reg.intxEnable = (d.intxEnable.setWidth 32, d) :=
    congrArg (fun v => (v, d)) (be32_low d.intxEnable)
  unfold updateEnable
  rw [hread]
  rfl

theorem getLsbD_updateEnable (f : Long → Long) (i : Nat) :
    (updateEnable d f).intxEnable.getLsbD i =
      (decide (i < 4) && (f (d.intxEnable.setWidth 32)).getLsbD i) := by
  have hmask : ∀ i, (0x0F : Byte).getLsbD i = decide (i < 4) := by
    intro i
    by_cases hi : i < 8
    · revert i
      decide
    · rw [BitVec.getLsbD_of_ge _ _ (by omega), eq_comm, decide_eq_false_iff_not]
      omega
  rw [updateEnable_eq]
  show (byteOf (f (d.intxEnable.setWidth 32)) 3 &&& 0x0F).getLsbD i = _
  rw [BitVec.getLsbD_and, hmask, Bool.and_comm]
  by_cases hi : i < 4
  · rw [getLsbD_byteOf _ _ (by omega)]
    simp
  · simp [hi]

/-! ## Calls -/

/-- A server and the board it was added for. -/
structure Registration where
  server : Long
  board : PciFunction

/-- The library, and the registrations that were added and not yet removed. -/
structure Session (π χ : Type) where
  servers : Servers π χ
  live : List Registration

inductive Step : Session π χ → Session π χ → Prop
  /-- exec takes a server that is in the chain already in no chain a second time. -/
  | add (s : Session π χ) (f : PciFunction) (server : Long) (hserver : server ≠ 0)
      (hnew : ¬Linked s.servers.ports server) :
      Step s ⟨(prmAddIntServer s.servers (some f) server).2, s.live ++ [⟨server, f⟩]⟩
  /-- A call without a board or without a server. -/
  | addNothing (s : Session π χ) (board : Option PciFunction) (server : Long)
      (h : board = none ∨ server = 0) :
      Step s ⟨(prmAddIntServer s.servers board server).2, s.live⟩
  | rem (servers : Servers π χ) (before after : List Registration) (r : Registration) :
      Step ⟨servers, before ++ r :: after⟩
        ⟨prmRemIntServer servers (some r.board) r.server, before ++ after⟩
  /-- The bus and the device behind it go on; nobody else writes the enable register. -/
  | bus (s : Session π χ) (d : PciBridge π) (h : d.intxEnable = s.servers.bridge.intxEnable) :
      Step s ⟨{ s.servers with bridge := d }, s.live⟩

abbrev Reaches : Session π χ → Session π χ → Prop := Relation.ReflTransGen Step

/-- A registration on a line. -/
def Registration.on (line : Fin 4) (r : Registration) : Bool :=
  intxLine r.board.intPin = some line

theorem Registration.on_iff (line : Fin 4) (r : Registration) :
    r.on line = true ↔ r.board.intPin.toNat = line.val + 1 := by
  unfold Registration.on intxLine
  rw [decide_eq_true_eq]
  split
  · simp only [Option.some.injEq, Fin.ext_iff]
    omega
  · have := line.isLt
    simp only [reduceCtorEq, false_iff]
    omega

/-! ## The invariant -/

omit [PciBackend π] in
/-- Different servers have different addresses, none of them zero, so the counts do not wrap. -/
theorem length_lt_of_nodup {live : List Registration}
    (hnodup : (live.map Registration.server).Nodup) (hserver : ∀ r ∈ live, r.server ≠ 0) :
    live.length < 4294967296 := by
  have hall : ((0 :: live.map Registration.server).map BitVec.toFin).Nodup := by
    refine (List.nodup_cons.mpr ⟨fun hzero => ?_, hnodup⟩).map BitVec.toFin_injective
    obtain ⟨r, hr, hzero⟩ := List.mem_map.mp hzero
    exact hserver r hr hzero
  have hle := hall.length_le_card
  rw [Fintype.card_fin, List.length_map, List.length_cons, List.length_map] at hle
  exact hle

theorem getLsbD_one_shiftLeft : ∀ line : Fin 4, ∀ i < 32,
    ((1 : Long) <<< line.val).getLsbD i = decide (line.val = i) := by decide

variable {r : Registration}

theorem intxLine_eq_some : intxLine r.board.intPin = some line ↔ r.on line = true := by
  simp [Registration.on]

/-- A registration is on one line at most. -/
theorem Registration.on_eq {line' : Fin 4} (h : r.on line = true) (h' : r.on line' = true) :
    line = line' := by
  rw [Registration.on_iff] at h h'
  exact Fin.ext (by omega)

/-- A bit of the enable register after a change to the longword the library reads. -/
theorem enable_bit {d : PciBridge π} {f : Long → Long} :
    (updateEnable d f).intxEnable.getLsbD line.val =
      (f (d.intxEnable.setWidth 32)).getLsbD line.val := by
  have := line.isLt
  rw [getLsbD_updateEnable, decide_eq_true (by omega), Bool.true_and]

theorem enable_high {d : PciBridge π} {f : Long → Long} {i : Nat} (h : 4 ≤ i) :
    (updateEnable d f).intxEnable.getLsbD i = false := by
  rw [getLsbD_updateEnable, decide_eq_false (by omega), Bool.false_and]

section

variable {s : Servers π χ} {f : PciFunction} {server : Long} {line : Fin 4}

theorem prmAddIntServer_none (hserver : server ≠ 0) (hline : intxLine f.intPin = none) :
    (prmAddIntServer s (some f) server).2 = { s with ports := addIntServer s.ports server } := by
  simp only [prmAddIntServer, if_neg hserver, hline]

theorem prmAddIntServer_some (hserver : server ≠ 0) (hline : intxLine f.intPin = some line) :
    (prmAddIntServer s (some f) server).2 =
      { ports := addIntServer s.ports server
        intxRefCount := Function.update s.intxRefCount line (s.intxRefCount line + 1)
        bridge := updateEnable s.bridge fun enable => enable ||| ((1 : Long) <<< line.val) } := by
  simp only [prmAddIntServer, if_neg hserver, hline]

theorem prmRemIntServer_none (hserver : server ≠ 0) (hline : intxLine f.intPin = none) :
    prmRemIntServer s (some f) server = { s with ports := remIntServer s.ports server } := by
  simp only [prmRemIntServer, if_neg hserver, hline]

theorem prmRemIntServer_some (hserver : server ≠ 0) (hline : intxLine f.intPin = some line) :
    prmRemIntServer s (some f) server =
      releaseLine { s with ports := remIntServer s.ports server } line := by
  simp only [prmRemIntServer, if_neg hserver, hline]

end

/-- The enable bits, line by line, and none above. -/
structure Enables (d : PciBridge π) (live : List Registration) : Prop where
  line (line : Fin 4) : d.intxEnable.getLsbD line.val = true ↔ ∃ r ∈ live, r.on line = true
  high (i : Nat) (h : 4 ≤ i) : d.intxEnable.getLsbD i = false

structure Counted (s : Session π χ) : Prop where
  nodup : (s.live.map Registration.server).Nodup
  chained : ∀ r ∈ s.live, r.server ≠ 0 ∧ Linked s.servers.ports r.server
  count (line : Fin 4) : (s.servers.intxRefCount line).toNat = s.live.countP (·.on line)
  enables : Enables s.servers.bridge s.live

variable {s : Session π χ}

theorem Counted.add [LawfulServerChain χ] (h : Counted s) {f : PciFunction} {server : Long}
    (hserver : server ≠ 0) (hnew : ¬Linked s.servers.ports server) :
    Counted ⟨(prmAddIntServer s.servers (some f) server).2, s.live ++ [⟨server, f⟩]⟩ := by
  have hnodup : ((s.live ++ [Registration.mk server f]).map Registration.server).Nodup := by
    rw [List.map_append, List.map_singleton]
    refine h.nodup.append (List.nodup_singleton _) fun a ha hb => ?_
    obtain ⟨r, hr, rfl⟩ := List.mem_map.mp ha
    have hsame : r.server = server := List.mem_singleton.mp hb
    exact hnew (hsame ▸ (h.chained r hr).2)
  have hchained : ∀ r ∈ s.live ++ [⟨server, f⟩],
      r.server ≠ 0 ∧ Linked (addIntServer s.servers.ports server) r.server := by
    intro r hr
    rcases List.mem_append.mp hr with hold | hlast
    · exact ⟨(h.chained r hold).1, LawfulServerChain.linked_add _ _ _ (h.chained r hold).2⟩
    · cases List.mem_singleton.mp hlast
      exact ⟨hserver, LawfulServerChain.linked_add_self _ _⟩
  have hroom := length_lt_of_nodup hnodup fun r hr => (hchained r hr).1
  cases hline : intxLine f.intPin with
  | none =>
    -- a board without a pin has a server in the chain only
    have hoff : ∀ line, Registration.on line ⟨server, f⟩ = false := by
      intro line
      simp [Registration.on, hline]
    rw [prmAddIntServer_none hserver hline]
    refine ⟨hnodup, hchained, fun line => ?_, fun line => ?_, h.enables.high⟩
    · rw [List.countP_append, List.countP_singleton, hoff]
      exact h.count line
    · rw [h.enables.line]
      simp [hoff]
  | some line =>
    have hon : Registration.on line ⟨server, f⟩ = true :=
      (intxLine_eq_some (r := ⟨server, f⟩)).mp hline
    have hbound : s.live.countP (·.on line) ≤ s.live.length := List.countP_le_length
    simp only [List.length_append, List.length_singleton] at hroom
    have henables : Enables (updateEnable s.servers.bridge fun enable =>
        enable ||| ((1 : Long) <<< line.val)) (s.live ++ [⟨server, f⟩]) := by
      refine ⟨fun line' => ?_, fun i hi => enable_high hi⟩
      have := line'.isLt
      rw [enable_bit, BitVec.getLsbD_or, getLsbD_one_shiftLeft line _ (by omega),
        BitVec.getLsbD_setWidth, decide_eq_true (by omega), Bool.true_and, Bool.or_eq_true,
        h.enables.line, decide_eq_true_eq]
      constructor
      · rintro (⟨r, hr, hr'⟩ | heq)
        · exact ⟨r, List.mem_append_left _ hr, hr'⟩
        · cases Fin.ext heq
          exact ⟨_, List.mem_append_right _ (List.mem_singleton_self _), hon⟩
      · rintro ⟨r, hr, hr'⟩
        rcases List.mem_append.mp hr with hold | hlast
        · exact .inl ⟨r, hold, hr'⟩
        · cases List.mem_singleton.mp hlast
          exact .inr (congrArg Fin.val (Registration.on_eq hon hr'))
    rw [prmAddIntServer_some hserver hline]
    refine ⟨hnodup, hchained, fun line' => ?_, henables⟩
    rw [List.countP_append, List.countP_singleton]
    dsimp only
    by_cases hsame : line' = line
    · subst hsame
      have hlt : s.live.countP (·.on line') + 1 < 4294967296 := by omega
      rw [Function.update_self, BitVec.toNat_add, h.count, if_pos hon]
      exact Nat.mod_eq_of_lt hlt
    · rw [Function.update_of_ne hsame, h.count,
        if_neg fun hon' => hsame (Registration.on_eq hon' hon), Nat.add_zero]

theorem Counted.rem [LawfulServerChain χ] {servers : Servers π χ} {before after : List Registration}
    (h : Counted ⟨servers, before ++ r :: after⟩) :
    Counted ⟨prmRemIntServer servers (some r.board) r.server, before ++ after⟩ := by
  have hperm : (before ++ r :: after).Perm (r :: (before ++ after)) := List.perm_middle
  have hsplit := List.nodup_cons.mp ((hperm.map Registration.server).nodup_iff.mp h.nodup)
  have hmem : ∀ r' ∈ before ++ after, r' ∈ before ++ r :: after :=
    fun r' hr' => hperm.mem_iff.mpr (List.mem_cons_of_mem _ hr')
  have hserver := (h.chained r (hperm.mem_iff.mpr List.mem_cons_self)).1
  have hchained : ∀ r' ∈ before ++ after,
      r'.server ≠ 0 ∧ Linked (remIntServer servers.ports r.server) r'.server := by
    intro r' hr'
    obtain ⟨hne, hin⟩ := h.chained r' (hmem r' hr')
    refine ⟨hne, LawfulServerChain.linked_rem _ _ _ (fun heq => hsplit.1 ?_) hin⟩
    exact heq ▸ List.mem_map_of_mem hr'
  have hcount : ∀ line, (servers.intxRefCount line).toNat =
      (before ++ after).countP (·.on line) + if r.on line = true then 1 else 0 := by
    intro line
    rw [h.count, hperm.countP_eq, List.countP_cons]
  have hlive : ∀ line, (∃ r' ∈ before ++ r :: after, r'.on line = true) ↔
      r.on line = true ∨ ∃ r' ∈ before ++ after, r'.on line = true := by
    intro line
    constructor
    · rintro ⟨r', hr', hon⟩
      rcases List.mem_cons.mp (hperm.mem_iff.mp hr') with rfl | hrest
      · exact .inl hon
      · exact .inr ⟨r', hrest, hon⟩
    · rintro (hon | ⟨r', hr', hon⟩)
      · exact ⟨r, hperm.mem_iff.mpr List.mem_cons_self, hon⟩
      · exact ⟨r', hmem r' hr', hon⟩
  cases hline : intxLine r.board.intPin with
  | none =>
    have hoff : ∀ line, r.on line = false := by
      intro line
      simp [Registration.on, hline]
    rw [prmRemIntServer_none hserver hline]
    refine ⟨hsplit.2, hchained, fun line => ?_, fun line => ?_, h.enables.high⟩
    · refine (hcount line).trans ?_
      simp [hoff]
    · rw [h.enables.line, hlive, hoff]
      simp
  | some line =>
    have hon : r.on line = true := intxLine_eq_some.mp hline
    have hpos := hcount line
    rw [if_pos hon] at hpos
    have hne : servers.intxRefCount line ≠ 0 := by
      intro hzero
      rw [hzero] at hpos
      simp at hpos
    have hle : (1 : Long) ≤ servers.intxRefCount line := by
      have hone : (1 : Long).toNat = 1 := rfl
      rw [BitVec.le_def, hone, hpos]
      exact Nat.le_add_left 1 _
    have hdec : (servers.intxRefCount line - 1).toNat = (before ++ after).countP (·.on line) := by
      rw [BitVec.toNat_sub_of_le hle, hpos]
      rfl
    have hupdate : ∀ line', (Function.update servers.intxRefCount line
        (servers.intxRefCount line - 1) line').toNat = (before ++ after).countP (·.on line') := by
      intro line'
      by_cases hsame : line' = line
      · subst hsame
        rw [Function.update_self, hdec]
      · rw [Function.update_of_ne hsame, hcount,
          if_neg fun hon' => hsame (Registration.on_eq hon' hon), Nat.add_zero]
    rw [prmRemIntServer_some hserver hline]
    unfold releaseLine
    rw [if_neg hne]
    dsimp only
    split
    · -- that was the last server of the line
      rename_i hzero
      have hnone : (before ++ after).countP (·.on line) = 0 := by
        rw [← hdec, hzero]
        rfl
      have henables : Enables (updateEnable servers.bridge fun enable =>
          enable &&& ~~~((1 : Long) <<< line.val)) (before ++ after) := by
        refine ⟨fun line' => ?_, fun i hi => enable_high hi⟩
        have := line'.isLt
        rw [enable_bit, BitVec.getLsbD_and, BitVec.getLsbD_not,
          getLsbD_one_shiftLeft line _ (by omega), BitVec.getLsbD_setWidth,
          decide_eq_true (show line'.val < 32 by omega), Bool.true_and, Bool.true_and]
        by_cases hsame : line' = line
        · subst hsame
          have hno : ¬ ∃ r' ∈ before ++ after, r'.on line' = true := fun ⟨r', hr', hon'⟩ =>
            List.countP_eq_zero.mp hnone r' hr' hon'
          rw [decide_eq_true rfl, Bool.not_true, Bool.and_false]
          exact iff_of_false Bool.false_ne_true hno
        · have hval : ¬ line.val = line'.val := fun heq => hsame (Fin.ext heq).symm
          have hoff : ¬ r.on line' = true := fun hon' => hsame (Registration.on_eq hon' hon)
          rw [decide_eq_false hval, Bool.not_false, Bool.and_true, h.enables.line, hlive]
          exact or_iff_right hoff
      exact ⟨hsplit.2, hchained, hupdate, henables⟩
    · rename_i hleft
      have hsome : ∃ r' ∈ before ++ after, r'.on line = true := by
        refine List.countP_pos_iff.mp (Nat.pos_of_ne_zero fun hzero => hleft ?_)
        exact BitVec.eq_of_toNat_eq (hdec.trans hzero)
      refine ⟨hsplit.2, hchained, hupdate, fun line' => ?_, h.enables.high⟩
      rw [h.enables.line, hlive]
      refine or_iff_right_of_imp fun hon' => ?_
      rwa [Registration.on_eq hon' hon]

theorem Counted.step [LawfulServerChain χ] {s' : Session π χ} (h : Counted s) (hstep : Step s s') :
    Counted s' := by
  cases hstep with
  | add _ f server hserver hnew => exact h.add hserver hnew
  | addNothing _ board server hnone =>
    have hsame : (prmAddIntServer s.servers board server).2 = s.servers := by
      cases board with
      | none => rfl
      | some f =>
        have hzero : server = 0 := hnone.resolve_left (Option.some_ne_none f)
        simp only [prmAddIntServer, if_pos hzero]
    rw [hsame]
    exact h
  | rem servers before after r => exact h.rem
  | bus _ d hd =>
    refine ⟨h.nodup, h.chained, h.count, fun line => ?_, fun i hi => ?_⟩
    · rw [← h.enables.line, ← hd]
    · rw [← h.enables.high i hi, ← hd]

theorem Counted.reaches [LawfulServerChain χ] {s' : Session π χ} (h : Counted s)
    (hrun : Reaches s s') : Counted s' := by
  induction hrun with
  | refl => exact h
  | tail _ hstep ih => exact ih.step hstep

/-! ## The state after init -/

theorem intxEnable_cfgOp (op : Byte) : (d.cfgOp op).intxEnable = d.intxEnable := by
  unfold PciBridge.cfgOp
  split
  · rfl
  · split
    · rfl
    · dsimp only
      split_ifs <;> rfl

@[simp] theorem intxEnable_cfgCycle (bus dev fn : Byte) (offset : Word) (width op : Byte)
    (wdata : Long) :
    (cfgCycle d bus dev fn offset width op wdata).bridge.intxEnable = d.intxEnable := by
  unfold cfgCycle
  simp only [writeLong_cfgData, writeLong_cfgAddr, write_cfgWidth, write_cfgOp, read_cfgStatus,
    write_cfgStatus_ones, readLong_cfgData]
  split_ifs <;> exact intxEnable_cfgOp _ _

theorem intxEnable_assignBar (a : Assign π) (i : Fin 6) :
    (assignBar a i).1.bridge.intxEnable = a.bridge.intxEnable := by
  unfold assignBar
  dsimp only
  split_ifs <;> simp [Assign.read, Assign.write, Assign.place]

theorem intxEnable_assignBars (a : Assign π) :
    (assignBars a).bridge.intxEnable = a.bridge.intxEnable := by
  have hbars : ∀ a' : Assign π, (assignFrom 6 0 a').bridge.intxEnable = a'.bridge.intxEnable := by
    intro a'
    obtain ⟨_, _, h⟩ := assignFrom_of
      (J := fun _ b => b.bridge.intxEnable = a'.bridge.intxEnable)
      (fun b i hb => (intxEnable_assignBar b i).trans hb) 6 0 a' (by omega) rfl
    exact h
  simp [assignBars, Assign.write, Assign.read, hbars]

theorem intxEnable_recordFunction {s s' : Scan π} {bus dev fn : Byte}
    (h : recordFunction s bus dev fn = some s') : s'.bridge.intxEnable = s.bridge.intxEnable := by
  unfold recordFunction at h
  split at h
  · exact absurd h (Option.some_ne_none _).symm
  · cases Option.some.inj h
    simp [intxEnable_assignBars]

/-- No cycle of the walk writes the enable register. -/
theorem intxEnable_enumerateBus0 : (enumerateBus0 d).bridge.intxEnable = d.intxEnable := by
  have hwalked : Walked fun _ (s : Scan π) => s.bridge.intxEnable = d.intxEnable :=
    { read := fun _ s dev fn offset width _ h => (intxEnable_cfgCycle ..).trans h
      record := fun _ s s' dev fn _ _ _ hrecord h =>
        (intxEnable_recordFunction hrecord).trans ((intxEnable_cfgCycle ..).trans h)
      skip := fun _ _ _ _ h => h }
  obtain ⟨_, h⟩ := enumerateBus0_of hwalked rfl
  exact h

theorem intxEnable_writeLong_apertureBase (value : Long) :
    (writeLong d Reg.apertureBase value).intxEnable = d.intxEnable := rfl

theorem Counted.start (backend : π) (ports : χ) :
    Counted ⟨libInit (PciBridge.new backend) ports, []⟩ := by
  have hzero : (libInit (PciBridge.new backend) ports).bridge.intxEnable = 0 := by
    unfold libInit
    rw [intxEnable_writeLong_apertureBase, intxEnable_enumerateBus0]
    rfl
  refine ⟨List.nodup_nil, fun r hr => (nomatch hr), fun line => rfl, fun line => ?_, fun i _ => ?_⟩
  · rw [hzero]
    simp
  · rw [hzero]
    exact BitVec.getLsbD_zero

/-! ## The line to the CPU -/

/-- The bridge asserts INT2 exactly for a line that is up and enabled. -/
theorem irqPending_iff : d.irqPending.1 = true ↔
    ∃ i, d.intxStatus.1.getLsbD i = true ∧ d.intxEnable.getLsbD i = true := by
  unfold PciBridge.irqPending
  rw [decide_eq_true_eq]
  constructor
  · intro hne
    by_contra hnone
    refine hne (BitVec.eq_of_getLsbD_eq fun i _ => ?_)
    have hzero : (0 : Byte).getLsbD i = false := BitVec.getLsbD_zero
    rw [BitVec.getLsbD_and, hzero, Bool.and_eq_false_iff]
    by_cases hstatus : d.intxStatus.1.getLsbD i = true
    · exact .inr (Bool.eq_false_iff.mpr fun henable => hnone ⟨i, hstatus, henable⟩)
    · exact .inl (Bool.eq_false_iff.mpr hstatus)
  · rintro ⟨i, hstatus, henable⟩ hzero
    have hbit := congrArg (·.getLsbD i) hzero
    simp [hstatus, henable] at hbit

/-- **A line is enabled exactly while it has servers**, after every run of the two calls from
`LibInit` on and whatever the bus does between, and INT2 is asserted only for such a line. -/
theorem enabled_iff_live [LawfulServerChain χ] (backend : π) (ports : χ) (s : Session π χ)
    (hrun : Reaches ⟨libInit (PciBridge.new backend) ports, []⟩ s) :
    (∀ line : Fin 4, s.servers.bridge.intxEnable.getLsbD line.val = true ↔
      ∃ r ∈ s.live, r.board.intPin.toNat = line.val + 1) ∧
    (∀ i, 4 ≤ i → s.servers.bridge.intxEnable.getLsbD i = false) ∧
    (s.servers.bridge.irqPending.1 = true ↔
      ∃ line : Fin 4, s.servers.bridge.intxStatus.1.getLsbD line.val = true ∧
        ∃ r ∈ s.live, r.board.intPin.toNat = line.val + 1) := by
  have h := (Counted.start backend ports).reaches hrun
  have hline : ∀ line : Fin 4, s.servers.bridge.intxEnable.getLsbD line.val = true ↔
      ∃ r ∈ s.live, r.board.intPin.toNat = line.val + 1 := by
    intro line
    simp only [h.enables.line, Registration.on_iff]
  refine ⟨hline, h.enables.high, ?_⟩
  rw [irqPending_iff]
  constructor
  · rintro ⟨i, hstatus, henable⟩
    have hi : i < 4 := by
      by_contra hge
      rw [h.enables.high i (by omega)] at henable
      exact Bool.false_ne_true henable
    exact ⟨⟨i, hi⟩, hstatus, (hline ⟨i, hi⟩).mp henable⟩
  · rintro ⟨line, hstatus, hserver⟩
    exact ⟨line.val, hstatus, (hline line).mpr hserver⟩

/-- A chain of servers of one priority. -/
instance : ServerChain (List Long) where
  addIntServer chain intr := chain ++ [intr]
  remIntServer chain intr := chain.erase intr
  Linked chain intr := intr ∈ chain

instance : LawfulServerChain (List Long) where
  linked_add_self _ _ := List.mem_append_right _ (List.mem_singleton_self _)
  linked_add _ _ _ h := List.mem_append_left _ h
  linked_rem _ _ _ hne h := (List.mem_erase_of_ne hne).mpr h

/-- Two drivers on the line of one board. -/
def sharedLine : Servers (VirtualPciBus (Pci.PciFunction Unit)) (List Long) :=
  (prmAddIntServer
    (prmAddIntServer (libInit (PciBridge.new netBridge.backend) []) (some netBoard) 0x1000).2
    (some netBoard) 0x2000).2

/-- The first leaves, and the line stays enabled for the second; with that one it is disabled. -/
theorem enabled_iff_live_sharedLine :
    (prmRemIntServer sharedLine (some netBoard) 0x1000).bridge.intxEnable.getLsbD 0 = true ∧
      (prmRemIntServer (prmRemIntServer sharedLine (some netBoard) 0x1000) (some netBoard)
        0x2000).bridge.intxEnable.getLsbD 0 = false := by
  have hnew : (0x2000 : Long) ∉ [0x1000] := by decide
  have hfirst : Reaches ⟨libInit (PciBridge.new netBridge.backend) ([] : List Long), []⟩
      ⟨prmRemIntServer sharedLine (some netBoard) 0x1000, [⟨0x2000, netBoard⟩]⟩ :=
    ((Relation.ReflTransGen.single (Step.add _ netBoard 0x1000 (by decide) List.not_mem_nil)).tail
      (Step.add _ netBoard 0x2000 (by decide) hnew)).tail
      (Step.rem sharedLine [] [⟨0x2000, netBoard⟩] ⟨0x1000, netBoard⟩)
  have hboth : Reaches ⟨libInit (PciBridge.new netBridge.backend) ([] : List Long), []⟩
      ⟨prmRemIntServer (prmRemIntServer sharedLine (some netBoard) 0x1000) (some netBoard) 0x2000,
        []⟩ :=
    hfirst.tail
      (Step.rem (prmRemIntServer sharedLine (some netBoard) 0x1000) [] [] ⟨0x2000, netBoard⟩)
  constructor
  · exact ((enabled_iff_live netBridge.backend [] _ hfirst).1 ⟨0, by decide⟩).mpr
      ⟨⟨0x2000, netBoard⟩, List.mem_singleton_self _, rfl⟩
  · have hline := (enabled_iff_live netBridge.backend [] _ hboth).1 ⟨0, by decide⟩
    refine Bool.eq_false_iff.mpr fun hset => ?_
    obtain ⟨r, hr, -⟩ := hline.mp hset
    exact List.not_mem_nil hr

end Prometheus

end M68kMachine
