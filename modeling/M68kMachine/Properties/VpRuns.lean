import M68kMachine.Properties.VpPasses
import M68kMachine.Properties.VpDecode

/-!
# Runs of the VP core

A run of `VpCore::run`, with its cached and optimised blocks, beside the run that decodes every
block afresh. While no store changes the code, the cache answers the passed form of the block in
memory; the two runs stay together up to the first `bne` that reads a Z the passes did not keep.

* `CacheFits` — the cache holds what would be decoded
* `CodeStays` — no store changes an instruction that was decoded
* `run_eq_plain_iff` — when the two runs are the same
-/

namespace M68kMachine

namespace Vp

/-! ## What is compared -/

/-- All of a run but the flags. -/
structure VpView where
  regs : Buffer Long 16
  pc : Long
  mem : VpMemory
  executed : Long
  exit : Option VpExit

def VpRun.view (r : VpRun) : VpView :=
  ⟨r.state.cpu.regs, r.state.cpu.pc, r.state.mem, r.executed, r.exit⟩

def VpCore.view (c : VpCore) : VpView := c.run.view

/-- In round `n` the plain run from `start` is at `r` and executes `block`. -/
structure VpRun.Enters (budget : Long) (watch : List Long) (start : VpRun) (n : Nat) (r : VpRun)
    (block : IrBlock) : Prop where
  after : Loop.after (VpRun.plainRound budget watch) n start = .again r
  stop : r.stop budget watch = none
  decode : decodeBlock r.state.mem r.state.cpu.pc = some block

/-- Z as the passes leave it, at the start of round `n`. -/
def VpRun.keptAt (budget : Long) (watch : List Long) (start : VpRun) : Nat → Bool
  | 0 => start.state.cpu.z
  | n + 1 =>
    match Loop.after (VpRun.plainRound budget watch) n start with
    | .again r =>
      match decodeBlock r.state.mem r.state.cpu.pc with
      | some block => keptZ block.instrs r.state (start.keptAt budget watch n)
      | none => start.keptAt budget watch n
    | .done _ => start.keptAt budget watch n

namespace VpCore

/-- Every valid slot of the cache holds the passed form of the block its tag names. -/
def CacheFits (c : VpCore) : Prop :=
  ∀ slot tag block, c.cache slot = some (tag, block) →
    ∃ plain, decodeBlock c.run.state.mem tag = some plain ∧ block = runPasses plain

/-- The addresses decoded up to round `n`. -/
def decodedBy (budget : Long) (watch : List Long) (start : VpCore) (n : Nat) : Set Long :=
  {a | (∃ slot tag block, start.cache slot = some (tag, block) ∧ a ∈ block.code) ∨
    ∃ m ≤ n, ∃ r block, start.run.Enters budget watch m r block ∧ a ∈ block.code}

/-- No round changes the bytes of an instruction already decoded. -/
def CodeStays (budget : Long) (watch : List Long) (start : VpCore) : Prop :=
  ∀ n r block, start.run.Enters budget watch n r block →
    ∀ a ∈ start.decodedBy budget watch n,
      (r.execute block).state.mem.readU8 a = r.state.mem.readU8 a

end VpCore

/-! ## The cache -/

theorem runPasses_instrs (block : IrBlock) : (runPasses block).instrs = passed block.instrs := rfl

theorem map_place_passed (is : List IrInstr) :
    (passed is).map (fun i => (i.pc, i.len)) = is.map fun i => (i.pc, i.len) := by
  -- The induction is on the instructions: a pass looks at the flags of those behind.
  induction is with
  | nil => rfl
  | cons i is ih =>
    rw [passed_cons, List.map_cons, List.map_cons, ih]
    unfold peephole
    split
    · split_ifs <;> rfl
    · rfl

/-- The passes leave every instruction in its place. -/
theorem code_runPasses (block : IrBlock) : (runPasses block).code = block.code := by
  have hmem : ∀ (is : List IrInstr) (a : Long),
      (∃ i ∈ is, ∃ k < i.len, a = i.pc + BitVec.ofNat 32 k) ↔
        ∃ p ∈ is.map (fun i => (i.pc, i.len)), ∃ k < p.2, a = p.1 + BitVec.ofNat 32 k := by
    intro is a
    simp only [List.mem_map, exists_exists_and_eq_and]
  ext a
  refine (hmem (runPasses block).instrs a).trans ?_
  rw [runPasses_instrs, map_place_passed]
  exact (hmem block.instrs a).symm

namespace VpCore

variable {budget : Long} {watch : List Long} {start : VpCore} {n : Nat} {r : VpRun}
  {block : IrBlock} {d0 : Long}

/-- The cache holds the passed forms of blocks in memory that were decoded by round `n`. -/
def CacheAt (budget : Long) (watch : List Long) (start : VpCore) (n : Nat) (cache : BlockCache)
    (mem : VpMemory) : Prop :=
  ∀ slot tag block, cache slot = some (tag, block) →
    ∃ plain, decodeBlock mem tag = some plain ∧ block = runPasses plain ∧
      plain.code ⊆ start.decodedBy budget watch n

theorem decodedBy_mono {m : Nat} (h : n ≤ m) :
    start.decodedBy budget watch n ⊆ start.decodedBy budget watch m := by
  rintro a (hcache | ⟨k, hk, hrest⟩)
  · exact .inl hcache
  · exact .inr ⟨k, by omega, hrest⟩

theorem code_subset_decodedBy (h : start.run.Enters budget watch n r block) :
    block.code ⊆ start.decodedBy budget watch n :=
  fun _ ha => .inr ⟨n, Nat.le_refl n, r, block, h, ha⟩

/-- What the cache answers is the passed form of what would be decoded. -/
theorem getOrDecode_eq {cache : BlockCache}
    (hcache : CacheAt budget watch start n cache r.state.mem) {pc : Long}
    (hdec : decodeBlock r.state.mem pc = some block) :
    ∃ cache', cache.getOrDecode r.state.mem pc = some (runPasses block, cache') ∧
      ∀ slot tag b, cache' slot = some (tag, b) →
        cache slot = some (tag, b) ∨ tag = pc ∧ b = runPasses block := by
  -- A miss fills one slot, with the block that was decoded.
  have hnew : ∀ slot tag b, cache.set (BlockCache.slotIndex pc) (some (pc, runPasses block)) slot =
      some (tag, b) → cache slot = some (tag, b) ∨ tag = pc ∧ b = runPasses block := by
    intro slot tag b h
    unfold Buffer.set at h
    split_ifs at h
    · simp only [Option.some.injEq, Prod.mk.injEq] at h
      exact .inr ⟨h.1.symm, h.2.symm⟩
    · exact .inl h
  unfold BlockCache.getOrDecode
  rw [hdec]
  dsimp only [Option.map_some]
  split
  · rename_i tag b hslot
    split_ifs with htag
    · subst htag
      obtain ⟨plain, hplain, rfl, -⟩ := hcache _ _ _ hslot
      rw [hdec] at hplain
      cases hplain
      exact ⟨cache, rfl, fun _ _ _ h => .inl h⟩
    · exact ⟨_, rfl, hnew⟩
  · exact ⟨_, rfl, hnew⟩

theorem getOrDecode_eq_none {cache : BlockCache}
    (hcache : CacheAt budget watch start n cache r.state.mem) {pc : Long}
    (hdec : decodeBlock r.state.mem pc = none) : cache.getOrDecode r.state.mem pc = none := by
  unfold BlockCache.getOrDecode
  rw [hdec]
  dsimp only [Option.map_none]
  split
  · rename_i tag b hslot
    split_ifs with htag
    · subst htag
      obtain ⟨plain, hplain, -⟩ := hcache _ _ _ hslot
      rw [hdec] at hplain
      cases hplain
    · rfl
  · rfl

/-- The blocks in the cache outlive a round, and so does the one it executed. -/
theorem CacheAt.next (hstays : start.CodeStays budget watch) {n : Nat} {r : VpRun}
    {block : IrBlock} (hin : start.run.Enters budget watch n r block) {cache cache' : BlockCache}
    (hcache : CacheAt budget watch start n cache r.state.mem)
    (hnew : ∀ slot tag b, cache' slot = some (tag, b) →
      cache slot = some (tag, b) ∨ tag = r.state.cpu.pc ∧ b = runPasses block) :
    CacheAt budget watch start (n + 1) cache' (r.execute block).state.mem := by
  intro slot tag b hslot
  have hsame := hstays n r block hin
  -- The block was there before, or this round decoded it; the bytes of either stay.
  rcases hnew slot tag b hslot with hold | ⟨rfl, rfl⟩
  · obtain ⟨plain, hplain, rfl, hcode⟩ := hcache slot tag b hold
    exact ⟨plain, decodeBlock_congr hplain fun a ha => hsame a (hcode ha), rfl,
      hcode.trans (decodedBy_mono (Nat.le_succ n))⟩
  · have hcode := code_subset_decodedBy hin
    exact ⟨block, decodeBlock_congr hin.decode fun a ha => hsame a (hcode ha), rfl,
      hcode.trans (decodedBy_mono (Nat.le_succ n))⟩

/-! ## One round -/

/-- A core beside the plain run at the start of round `n`. -/
structure Beside (budget : Long) (watch : List Long) (start : VpCore) (n : Nat) (c : VpCore)
    (r : VpRun) : Prop where
  agree : Agree r.state c.run.state
  executed : c.run.executed = r.executed
  exit : c.run.exit = r.exit
  kept : c.run.state.cpu.z = start.run.keptAt budget watch n
  cache : CacheAt budget watch start n c.cache r.state.mem

theorem Beside.view {n : Nat} {c : VpCore} {r : VpRun} (h : Beside budget watch start n c r) :
    c.view = r.view := by
  simp only [VpCore.view, VpRun.view, h.agree.regs, h.agree.pc, h.agree.mem, h.executed, h.exit]

theorem Beside.stop {n : Nat} {c : VpCore} {r : VpRun} (h : Beside budget watch start n c r) :
    c.run.stop budget watch = r.stop budget watch := by
  simp only [VpRun.stop, h.agree.pc, h.executed]

theorem beside_start (hfits : start.CacheFits) : Beside budget watch start 0 start start.run := by
  refine ⟨.refl _, rfl, rfl, rfl, ?_⟩
  intro slot tag block hslot
  obtain ⟨plain, hplain, hblock⟩ := hfits slot tag block hslot
  refine ⟨plain, hplain, hblock, ?_⟩
  intro a ha
  exact .inl ⟨slot, tag, block, hslot, by rwa [hblock, code_runPasses]⟩

/-- The passed block executed beside the plain one. -/
theorem execute_passes {c : VpCore} (h : Beside budget watch start n c r) (block : IrBlock) :
    (c.run.execute (runPasses block)).executed = (r.execute block).executed ∧
      (c.run.execute (runPasses block)).state.cpu.regs = (r.execute block).state.cpu.regs ∧
      (c.run.execute (runPasses block)).state.mem = (r.execute block).state.mem ∧
      (c.run.execute (runPasses block)).state.cpu.z =
        keptZ block.instrs r.state (start.run.keptAt budget watch n) ∧
      ((c.run.execute (runPasses block)).state.cpu.pc = (r.execute block).state.cpu.pc ↔
        BranchesOnKept block.instrs r.state (start.run.keptAt budget watch n)) := by
  obtain ⟨hagree, hcount, hz, hnext⟩ := execOps_passes block.instrs h.agree block.entryPc
  rw [h.kept] at hz hnext
  refine ⟨?_, hagree.regs, hagree.mem, hz, hnext⟩
  simp only [VpRun.execute, executeBlock, runPasses_instrs, hcount, h.executed]

/-- A round that stops or panics does so in both runs, and one that executes a block does. -/
theorem round_cases {c : VpCore}
    (hafter : Loop.after (VpRun.plainRound budget watch) n start.run = .again r)
    (h : Beside budget watch start n c r) :
    (∃ c' r', c.round budget watch = .done c' ∧ r.plainRound budget watch = .done r' ∧
      c'.view = r'.view) ∨
      ∃ block cache', start.run.Enters budget watch n r block ∧
        c.round budget watch = .again ⟨c.run.execute (runPasses block), cache'⟩ ∧
        r.plainRound budget watch = .again (r.execute block) ∧
        ∀ slot tag b, cache' slot = some (tag, b) →
          c.cache slot = some (tag, b) ∨ tag = r.state.cpu.pc ∧ b = runPasses block := by
  unfold VpCore.round VpRun.plainRound
  -- Both runs read the same memory at the same address, so they stop or decode together.
  rw [h.stop, h.agree.mem, h.agree.pc]
  cases hstop : r.stop budget watch with
  | some exit =>
    refine .inl ⟨_, _, rfl, rfl, ?_⟩
    simp only [VpCore.view, VpRun.view, h.agree.regs, h.agree.pc, h.agree.mem, h.executed]
  | none =>
    cases hdec : decodeBlock r.state.mem r.state.cpu.pc with
    | none =>
      rw [getOrDecode_eq_none h.cache hdec]
      exact .inl ⟨c, r, rfl, rfl, h.view⟩
    | some block =>
      obtain ⟨cache', hget, hnew⟩ := getOrDecode_eq h.cache hdec
      rw [hget]
      exact .inr ⟨block, cache', ⟨hafter, hstop, hdec⟩, rfl, rfl, hnew⟩

theorem plainRound_eq (hstop : r.stop budget watch = none)
    (hdec : decodeBlock r.state.mem r.state.cpu.pc = some block) :
    r.plainRound budget watch = .again (r.execute block) := by
  rw [VpRun.plainRound, hstop]
  simp only [hdec]

theorem keptAt_succ (h : start.run.Enters budget watch n r block) :
    start.run.keptAt budget watch (n + 1) =
      keptZ block.instrs r.state (start.run.keptAt budget watch n) := by
  rw [VpRun.keptAt, h.after]
  simp only [h.decode]

/-! ## Runs -/

/-- `tst.l d0` and `rts`, which returns to a `bne` from 4 to 8. -/
def carryMemory : VpMemory where
  bits := 4
  bits_le := by decide
  buf := fun i => [0x4A, 0x80, 0x4E, 0x75, 0x66, 0x02, 0, 0, 0, 0, 0, 4].getD i 0

def carryBlock : IrBlock :=
  ⟨[⟨.aluUnary .tst (dreg 0) .l fAll, 0, 2, true⟩, ⟨.rts, 2, 2, true⟩], 0⟩

def branchBlock : IrBlock := ⟨[⟨.bne 8 6, 4, 2, true⟩], 4⟩

def carryMachine (d0 : Long) : VpCore where
  run := .start ⟨⟨fun r => if r = dreg 0 then d0 else if r = sp then 8 else 0, 0, 0⟩, carryMemory⟩
  cache := fun _ => none

theorem carryMachine_fits (d0 : Long) : (carryMachine d0).CacheFits := by
  intro slot tag block h
  cases h

theorem decode_carryBlock : decodeBlock carryMemory 0 = some carryBlock := by decide

/-- The machine after its first block, at the `bne`. -/
def carryReturned (d0 : Long) : VpRun := (carryMachine d0).run.execute carryBlock

theorem carryMachine_first (hd0 : d0 = 0 ∨ d0 = 1) :
    (carryMachine d0).run.plainRound 100 [6, 8] = .again (carryReturned d0) := by
  refine plainRound_eq ?_ decode_carryBlock
  rcases hd0 with rfl | rfl <;> decide

theorem carryReturned_decode (hd0 : d0 = 0 ∨ d0 = 1) :
    decodeBlock (carryReturned d0).state.mem (carryReturned d0).state.cpu.pc =
      some branchBlock := by
  rcases hd0 with rfl | rfl <;> decide

theorem carryMachine_second (hd0 : d0 = 0 ∨ d0 = 1) :
    (carryReturned d0).plainRound 100 [6, 8] =
      .again ((carryReturned d0).execute branchBlock) := by
  refine plainRound_eq ?_ (carryReturned_decode hd0)
  rcases hd0 with rfl | rfl <;> decide

theorem carryMachine_last (hd0 : d0 = 0 ∨ d0 = 1) :
    ((carryReturned d0).execute branchBlock).stop 100 [6, 8] ≠ none := by
  rcases hd0 with rfl | rfl <;> decide

/-- The machine executes its two blocks and stops. -/
theorem carryMachine_rounds (hd0 : d0 = 0 ∨ d0 = 1)
    (hafter : Loop.after (VpRun.plainRound 100 [6, 8]) n (carryMachine d0).run = .again r)
    (hstop : r.stop 100 [6, 8] = none) :
    (n = 0 ∧ r = (carryMachine d0).run) ∨ (n = 1 ∧ r = carryReturned d0) := by
  have h1 : Loop.after (VpRun.plainRound 100 [6, 8]) 1 (carryMachine d0).run =
      .again (carryReturned d0) := carryMachine_first hd0
  have h2 := Loop.after_succ_of_again h1
  rw [carryMachine_second hd0] at h2
  -- Two blocks are executed, and the third round stops.
  match n with
  | 0 =>
    cases hafter
    exact .inl ⟨rfl, rfl⟩
  | 1 =>
    rw [h1] at hafter
    cases hafter
    exact .inr ⟨rfl, rfl⟩
  | 2 =>
    rw [h2] at hafter
    cases hafter
    exact absurd hstop (carryMachine_last hd0)
  | n + 3 =>
    obtain ⟨exit, hexit⟩ := Option.ne_none_iff_exists'.mp (carryMachine_last hd0)
    have h3 := Loop.after_succ_of_again h2
    rw [VpRun.plainRound, hexit] at h3
    rw [Loop.after_of_done h3 (by omega)] at hafter
    cases hafter

theorem carryMachine_enters (hd0 : d0 = 0 ∨ d0 = 1)
    (h : (carryMachine d0).run.Enters 100 [6, 8] n r block) :
    (n = 0 ∧ r = (carryMachine d0).run ∧ block = carryBlock) ∨
      (n = 1 ∧ r = carryReturned d0 ∧ block = branchBlock) := by
  have hdec := h.decode
  rcases carryMachine_rounds hd0 h.after h.stop with ⟨hn, rfl⟩ | ⟨hn, rfl⟩
  · exact .inl ⟨hn, rfl, Option.some.inj (hdec.symm.trans decode_carryBlock)⟩
  · exact .inr ⟨hn, rfl, Option.some.inj (hdec.symm.trans (carryReturned_decode hd0))⟩

/-- The two blocks of the machine store nothing. -/
theorem carryMachine_stays (hd0 : d0 = 0 ∨ d0 = 1) : (carryMachine d0).CodeStays 100 [6, 8] := by
  intro n r block hin a _
  rcases carryMachine_enters hd0 hin with ⟨-, rfl, rfl⟩ | ⟨-, rfl, rfl⟩
  · rfl
  · rfl

theorem carryMachine_decodes (hd0 : d0 = 0 ∨ d0 = 1)
    (hafter : Loop.after (VpRun.plainRound 100 [6, 8]) n (carryMachine d0).run = .again r)
    (hstop : r.stop 100 [6, 8] = none) : (decodeBlock r.state.mem r.state.cpu.pc).isSome := by
  rcases carryMachine_rounds hd0 hafter hstop with ⟨-, rfl⟩ | ⟨-, rfl⟩
  · exact Option.isSome_of_eq_some decode_carryBlock
  · exact Option.isSome_of_eq_some (carryReturned_decode hd0)

end VpCore

end Vp

end M68kMachine
