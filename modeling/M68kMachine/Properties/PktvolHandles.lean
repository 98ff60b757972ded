import M68kMachine.Hosted.Pktvol
import M68kMachine.Hosted.TreeFs
import M68kMachine.Library.HandleLog
import M68kMachine.Library.Transition

/-!
# A handle names what it was issued for

Every packet leaves at most one entry in the log of the handle table: a handle issued for a block, a
handle released, or the whole table dropped. The table is the one that log leaves, and the handles
it issues count up from one.

* `Packet`, `step` — a run of packets, each with the guest's memory as it finds it
* `event`, `log` — what a packet, by its answer, did to the handle table
* `step_resolve` — the handle table follows the log
* `handles_name_what_was_issued` — the history of a run decides what resolves
-/

namespace M68kMachine

namespace PktVolume

open HandleLog

variable {φ μ : Type} (p : PktVolume φ) {handle : Long}

/-- One request, with guest memory as the card hands it over. -/
structure Packet (μ : Type) where
  action : Long
  args : List Long
  mem : μ

/-- The two kinds of handle. -/
inductive HandleKind
  | lock
  | file
  deriving DecidableEq

/-- A handle's kind and the header block it names. -/
abbrev Named := HandleKind × Nat

def Named.ofHandle : Handle → Named
  | .lock lba => (.lock, lba)
  | .file f => (.file, f.headerLba)

/-- What a handle value resolves to. -/
def resolve (p : PktVolume φ) (handle : Long) : Option Named :=
  (p.handles handle).map Named.ofHandle

theorem resolve_eq_lock {p : PktVolume φ} {lba : Nat} :
    p.resolve handle = some (.lock, lba) ↔ p.lockAt handle = some lba := by
  unfold resolve lockAt
  cases p.handles handle with
  | none => simp
  | some h => cases h <;> simp [Named.ofHandle]

theorem lockAt_eq_none {p : PktVolume φ} (h : ∀ lba, p.resolve handle ≠ some (.lock, lba)) :
    p.lockAt handle = none := by
  rw [Option.eq_none_iff_forall_ne_some]
  intro lba hlba
  exact h lba (resolve_eq_lock.mpr hlba)

theorem fileAt_eq_none {p : PktVolume φ} (h : ∀ lba, p.resolve handle ≠ some (.file, lba)) :
    p.fileAt handle = none := by
  unfold resolve at h
  unfold fileAt
  cases hp : p.handles handle with
  | none => rfl
  | some e =>
    cases e with
    | lock lba => rfl
    | file f => exact absurd (by rw [hp]; rfl) (h f.headerLba)

/-! ## What a packet does to the table -/

section Answers

variable [Ffs φ] [GuestMemory μ]

def answer (p : PktVolume φ) (k : Packet μ) : Res := (p.executeInner k.action k.args k.mem).1

def step (p : PktVolume φ) (k : Packet μ) : PktVolume φ :=
  (p.executeInner k.action k.args k.mem).2.1

/-- The block a handle for the packet would name: looked up, locked, its parent's, or created. -/
def target (p : PktVolume φ) (k : Packet μ) : Option Named :=
  if k.action = Action.locateObject then
    (p.locateTarget k.args k.mem).1.toOption.map (HandleKind.lock, ·)
  else if k.action = Action.copyDir then
    (p.copyDirTarget k.args).1.toOption.map (HandleKind.lock, ·)
  else if k.action = Action.parent then
    (p.parentTarget k.args).1.toOption.map (HandleKind.lock, ·)
  else if k.action = Action.createDir then
    (p.createDirTarget k.args k.mem).1.toOption.map (HandleKind.lock, ·)
  else if k.action = Action.findInput then
    (p.findInputTarget k.args k.mem).1.toOption.map fun f => (.file, f.headerLba)
  else if k.action = Action.findOutput then
    (p.findOutputTarget k.args k.mem).1.toOption.map fun f => (.file, f.headerLba)
  else if k.action = Action.findUpdate then
    (p.findUpdateTarget k.args k.mem).1.toOption.map fun f => (.file, f.headerLba)
  else none

/-- Where an answer that succeeded carries the handle: `RES1` for locks, `RES2` for files. -/
def handleOf (action : Long) (res : Res) : Option Long :=
  if action = Action.locateObject ∨ action = Action.copyDir ∨ action = Action.parent ∨
      action = Action.createDir then
    if res.2 = 0 then some res.1 else none
  else if action = Action.findInput ∨ action = Action.findOutput ∨ action = Action.findUpdate then
    if res.1 = dosTrue then some res.2 else none
  else none

/-- A successful `FREE_LOCK` or `END`. -/
def Releases (k : Packet μ) (res : Res) : Prop :=
  (k.action = Action.freeLock ∨ k.action = Action.end') ∧ res.1 = dosTrue

/-- A successful `INHIBIT` that does not take the inhibition off a volume that has none. -/
def Inhibits (p : PktVolume φ) (k : Packet μ) (res : Res) : Prop :=
  k.action = Action.inhibit ∧ res.1 = dosTrue ∧ (k.args.getD 0 0 ≠ 0 ∨ p.inhibited = true)

instance (k : Packet μ) (res : Res) : Decidable (Releases k res) := by
  unfold Releases
  infer_instance

instance (p : PktVolume φ) (k : Packet μ) (res : Res) : Decidable (p.Inhibits k res) := by
  unfold Inhibits
  infer_instance

/-- A handle that was issued. The null lock is nobody's handle. -/
def issueEvent : Option Long → Option Named → Option (HandleLog.Event Long Named)
  | some h, some w => if h = 0 then none else some (.issue h w)
  | _, _ => none

/-- What a packet that was answered with `res` did to the handle table. -/
def eventOf (p : PktVolume φ) (k : Packet μ) (res : Res) : Option (HandleLog.Event Long Named) :=
  (issueEvent (handleOf k.action res) (p.target k)).or
    (if Releases k res ∧ k.args.getD 0 0 ≠ 0 then some (.release (k.args.getD 0 0))
    else if p.Inhibits k res then some .clear
    else none)

def event (p : PktVolume φ) (k : Packet μ) : Option (HandleLog.Event Long Named) :=
  p.eventOf k (p.answer k)

/-- The log of a run. -/
def log (p : PktVolume φ) : List (Packet μ) → List (HandleLog.Event Long Named)
  | [] => []
  | k :: ks => (p.event k).toList ++ log (p.step k) ks

end Answers

/-! ## One step -/

/-- The same handles resolve to the same blocks, and the counter stands still. -/
structure SameHandles (p p' : PktVolume φ) : Prop where
  resolve : p'.resolve = p.resolve
  nextHandle : p'.nextHandle = p.nextHandle
  inhibited : p'.inhibited = p.inhibited

theorem SameHandles.refl : SameHandles p p := ⟨rfl, rfl, rfl⟩

theorem SameHandles.fs (p : PktVolume φ) (fs : φ) : SameHandles p { p with fs := fs } :=
  ⟨rfl, rfl, rfl⟩

theorem resolve_setHandle (id : Long) (h : Option Handle) :
    (p.setHandle id h).resolve = fun i => if i = id then h.map Named.ofHandle else p.resolve i := by
  funext i
  unfold resolve setHandle
  by_cases hi : i = id <;> simp [hi]

theorem resolve_allocHandle (h : Handle) :
    (p.allocHandle h).2.resolve =
      fun i => if i = p.nextHandle then some (Named.ofHandle h) else p.resolve i :=
  resolve_setHandle p p.nextHandle (some h)

/-- Moving an open file's position changes nothing it names. -/
theorem SameHandles.seekTo {p : PktVolume φ} {handle : Long} {f : OpenFile}
    (hf : p.fileAt handle = some f) (fs : φ) (position : Nat) :
    SameHandles p ({ p with fs := fs }.seekTo handle f position) := by
  have hres : p.resolve handle = some (.file, f.headerLba) := by
    unfold PktVolume.resolve
    unfold fileAt at hf
    split at hf
    · rename_i g hg
      cases hf
      rw [hg]
      rfl
    · cases hf
  refine ⟨?_, rfl, rfl⟩
  rw [PktVolume.seekTo, resolve_setHandle]
  funext i
  by_cases hi : i = handle
  · subst hi
    rw [if_pos rfl, hres]
    rfl
  · rw [if_neg hi]
    rfl

variable [Ffs φ] [GuestMemory μ] (args : List Long) (mem : μ) {p' : PktVolume φ} {k : Packet μ}

/-! ### The actions that leave the table alone -/

omit [Ffs φ] [GuestMemory μ] in
theorem sameHandles_finish (r : Except MutateError Unit × φ) : SameHandles p (p.finish r).2 := by
  unfold finish
  split <;> exact .fs p _

omit [GuestMemory μ] in
theorem sameHandles_sameLock : SameHandles p (p.sameLock args).2 := by
  unfold sameLock
  split
  · split <;> exact .refl p
  · exact .refl p

theorem sameHandles_examineObject : SameHandles p (p.examineObject args mem).2.1 := by
  unfold examineObject
  split
  · exact .refl p
  · split <;> exact .fs p _

theorem sameHandles_examineNext : SameHandles p (p.examineNext args mem).2.1 := by
  unfold examineNext
  split
  · exact .refl p
  · split
    · exact .refl p
    · split
      · exact .fs p _
      · simp only
        split
        · exact .fs p _
        · split <;> exact .fs p _

theorem sameHandles_readAction : SameHandles p (p.readAction args mem).2.1 := by
  unfold readAction
  split
  · exact .refl p
  · rename_i f hf
    split
    · exact .fs p _
    · split
      · exact .fs p _
      · split
        · exact .fs p _
        · exact .seekTo hf _ _

theorem sameHandles_writeAction : SameHandles p (p.writeAction args mem).2 := by
  unfold writeAction
  split
  · exact .refl p
  · rename_i f hf
    split
    · split
      · exact .refl p
      · split
        · split
          · exact .seekTo hf _ _
          · exact .fs p _
        · exact .refl p
    · exact .refl p

omit [GuestMemory μ] in
theorem sameHandles_seekAction : SameHandles p (p.seekAction args).2 := by
  unfold seekAction
  split
  · exact .refl p
  · rename_i f hf
    split
    · exact .fs p _
    · split
      · exact .fs p _
      · exact .seekTo hf _ _

omit [GuestMemory μ] in
theorem sameHandles_setFileSize : SameHandles p (p.setFileSize args).2 := by
  unfold setFileSize
  split
  · exact .refl p
  · split
    · split
      · exact .fs p _
      · split
        · exact .fs p _
        · simp only
          split <;> exact .fs p _
    · exact .refl p

theorem sameHandles_deleteObject : SameHandles p (p.deleteObject args mem).2 := by
  unfold deleteObject
  split
  · split
    · exact .fs p _
    · exact sameHandles_finish p _
  · exact .refl p

theorem sameHandles_renameObject : SameHandles p (p.renameObject args mem).2 := by
  unfold renameObject
  split
  · split
    · exact .refl p
    · split
      · exact .refl p
      · split
        · exact .refl p
        · split
          · exact .refl p
          · split
            · exact .fs p _
            · split
              · exact .fs p _
              · exact sameHandles_finish p _
  · exact .refl p

theorem sameHandles_setMeta (update : Option MetaUpdate) :
    SameHandles p (p.setMeta args mem update).2 := by
  unfold setMeta
  split
  · split
    · exact .refl p
    · split
      · exact .refl p
      · split
        · exact .fs p _
        · split
          · exact .fs p _
          · exact sameHandles_finish p _
  · exact .refl p

theorem sameHandles_formatAction : SameHandles p (p.formatAction args mem).2 := by
  unfold formatAction
  split
  · split
    · split
      · exact .refl p
      · split
        · split <;> exact .fs p _
        · exact .refl p
    · exact .refl p
  · exact .refl p

omit [GuestMemory μ] in
theorem sameHandles_flush : SameHandles p p.flush.2 := by
  show SameHandles p (if p.writable then { p with fs := Ffs.sync p.fs } else p)
  split
  · exact .fs p _
  · exact .refl p

/-! ### The table follows the log -/

/-- The volume after a packet with the given event. -/
structure Follows (p p' : PktVolume φ) (e : Option (HandleLog.Event Long Named)) : Prop where
  resolve : p'.resolve = e.elim p.resolve fun e => e.apply p.resolve
  nextHandle : p'.nextHandle =
    if (issued e.toList).isEmpty then p.nextHandle else nextId p.nextHandle
  fresh : ∀ h ∈ issued e.toList, h = p.nextHandle
  inhibited : p'.inhibited = p.inhibited ∨ e = some .clear

omit [Ffs φ] [GuestMemory μ] in
theorem SameHandles.follows {p : PktVolume φ} (h : SameHandles p p') : Follows p p' none :=
  ⟨h.resolve, h.nextHandle, by simp [issued], .inl h.inhibited⟩

omit [Ffs φ] [GuestMemory μ] in
/-- A handle allocated for `h`. -/
theorem follows_allocHandle (fs : φ) (h : Handle) : Follows p ({ p with fs := fs }.allocHandle h).2
      (some (.issue p.nextHandle (Named.ofHandle h))) := by
  refine ⟨?_, rfl, by simp [issued], .inl rfl⟩
  rw [resolve_allocHandle]
  rfl

omit [GuestMemory μ] in
theorem follows_issueLock (hn : p.nextHandle ≠ 0) (t : Except Long Nat × φ) :
    Follows p (p.issueLock t).2
      (issueEvent (if (p.issueLock t).1.2 = 0 then some (p.issueLock t).1.1 else none)
        (t.1.toOption.map (HandleKind.lock, ·))) := by
  obtain ⟨r, fs⟩ := t
  cases r with
  | error code =>
    have hnone : ∀ x, issueEvent x ((Except.error code : Except Long Nat).toOption.map
        (HandleKind.lock, ·)) = none := by
      intro x
      cases x <;> rfl
    rw [hnone]
    exact (SameHandles.fs p fs).follows
  | ok lba =>
    by_cases hroot : lba = Ffs.rootLba fs
    · -- The root is the null lock.
      simp only [issueLock, dupLock, hroot, if_true, issueEvent, Except.toOption, Option.map_some]
      exact (SameHandles.fs p fs).follows
    · simp only [issueLock, dupLock, if_neg hroot, allocHandle, if_true, issueEvent,
        Except.toOption, Option.map_some, if_neg hn]
      exact follows_allocHandle p fs (.lock lba)

omit [Ffs φ] [GuestMemory μ] in
theorem follows_issueFile (hn : p.nextHandle ≠ 0) (t : Except Long OpenFile × φ) :
    Follows p (p.issueFile t).2
      (issueEvent (if (p.issueFile t).1.1 = dosTrue then some (p.issueFile t).1.2 else none)
        (t.1.toOption.map fun f => (HandleKind.file, f.headerLba))) := by
  obtain ⟨r, fs⟩ := t
  cases r with
  | error code => exact (SameHandles.fs p fs).follows
  | ok f =>
    simp only [issueFile, allocHandle, if_true, issueEvent, Except.toOption, Option.map_some,
      if_neg hn]
    exact follows_allocHandle p fs (.file f)

theorem follows_createDir (hn : p.nextHandle ≠ 0) (args : List Long) (mem : μ) :
    Follows p (p.createDirAction args mem).2
      (issueEvent (if (p.createDirAction args mem).1.2 = 0 then
          some (p.createDirAction args mem).1.1 else none)
        ((p.createDirTarget args mem).1.toOption.map (HandleKind.lock, ·))) := by
  unfold createDirAction
  by_cases hw : p.writable = true
  · simp only [if_pos hw]
    obtain ⟨r, fs⟩ := p.createDirTarget args mem
    cases r with
    | error code =>
      simp only [Except.toOption, Option.map_none]
      have hnone : ∀ x, issueEvent x none = none := by
        intro x
        cases x <;> rfl
      rw [hnone]
      exact (SameHandles.fs p fs).follows
    | ok lba =>
      simp only [allocHandle, if_true, issueEvent, Except.toOption, Option.map_some, if_neg hn]
      exact follows_allocHandle p fs (.lock lba)
  · simp only [if_neg hw]
    exact (SameHandles.refl p).follows

omit [Ffs φ] [GuestMemory μ] in
/-- A file opened for writing, on a volume that may not be written. -/
theorem follows_find (hn : p.nextHandle ≠ 0) (t : Except Long OpenFile × φ) {r : Res × PktVolume φ}
    (hr : r = if p.writable then p.issueFile t else ((dosFalse, Err.writeProtected), p)) :
    Follows p r.2 (issueEvent (if r.1.1 = dosTrue then some r.1.2 else none)
      (t.1.toOption.map fun f => (HandleKind.file, f.headerLba))) := by
  by_cases hw : p.writable = true
  · rw [hr, if_pos hw]
    exact follows_issueFile p hn t
  · rw [hr, if_neg hw]
    exact (SameHandles.refl p).follows

omit [Ffs φ] [GuestMemory μ] in
/-- A handle dropped from the table. -/
theorem follows_release (id : Long) : Follows p (p.setHandle id none) (some (.release id)) := by
  refine ⟨?_, rfl, by simp [issued], .inl rfl⟩
  rw [resolve_setHandle]
  rfl

omit [Ffs φ] [GuestMemory μ] in
theorem follows_freeLock :
    Follows p (p.freeLock args).2
      (if (p.freeLock args).1.1 = dosTrue ∧ args.getD 0 0 ≠ 0 then
        some (.release (args.getD 0 0)) else none) := by
  unfold freeLock
  by_cases h0 : args.getD 0 0 = 0
  · simp only [h0, if_true, ne_eq, not_true, and_false, if_false]
    exact (SameHandles.refl p).follows
  · simp only [if_neg h0]
    cases p.lockAt (args.getD 0 0) with
    | none => exact (SameHandles.refl p).follows
    | some lba =>
      simp only [h0, ne_eq, not_false_eq_true, and_self, if_true]
      exact follows_release p _

omit [Ffs φ] [GuestMemory μ] in
theorem follows_end (h0 : p.resolve 0 = none) (args : List Long) :
    Follows p (p.end' args).2
      (if (p.end' args).1.1 = dosTrue ∧ args.getD 0 0 ≠ 0 then
        some (.release (args.getD 0 0)) else none) := by
  unfold end'
  cases hf : p.fileAt (args.getD 0 0) with
  | none => exact (SameHandles.refl p).follows
  | some f =>
    have hne : args.getD 0 0 ≠ 0 := by
      intro heq
      rw [heq, fileAt_eq_none (fun lba => by rw [h0]; simp)] at hf
      cases hf
    simp only [hne, ne_eq, not_false_eq_true, and_self, if_true]
    exact follows_release p _

omit [Ffs φ] [GuestMemory μ] in
/-- A table that is dropped whole. -/
theorem follows_clear {p : PktVolume φ} (hh : p'.resolve = fun _ => none)
    (hn : p'.nextHandle = p.nextHandle) : Follows p p' (some .clear) :=
  ⟨hh, hn, by simp [issued], .inr rfl⟩

omit [GuestMemory μ] in
theorem follows_inhibit (hi : p.inhibited = true → p.resolve = fun _ => none) (args : List Long) :
    Follows p (p.inhibitAction args).2
      (if (p.inhibitAction args).1.1 = dosTrue ∧ (args.getD 0 0 ≠ 0 ∨ p.inhibited = true) then
        some .clear else none) := by
  by_cases h0 : args.getD 0 0 ≠ 0
  · by_cases hinh : p.inhibited = true
    · -- Nothing is left to drop.
      have hres : p.inhibitAction args = ((dosTrue, 0), p) := by
        rw [inhibitAction, if_pos h0, if_pos hinh]
      rw [hres, if_pos ⟨rfl, .inl h0⟩]
      exact follows_clear (hi hinh) rfl
    · by_cases hw : p.writable = true
      · have hres : p.inhibitAction args = ((dosTrue, 0),
            { p.flush.2 with handles := fun _ => none, inhibited := true }) := by
          rw [inhibitAction, if_pos h0, if_neg hinh, if_pos hw]
        rw [hres, if_pos ⟨rfl, .inl h0⟩]
        exact follows_clear rfl (sameHandles_flush p).nextHandle
      · have hres : p.inhibitAction args = ((dosFalse, Err.writeProtected), p) := by
          rw [inhibitAction, if_pos h0, if_neg hinh, if_neg hw]
        rw [hres, if_neg (by simp)]
        exact (SameHandles.refl p).follows
  · by_cases hinh : p.inhibited = true
    · cases hm : Ffs.mount p.fs p.writable p.lenBlocks p.reserved with
      | ok fs =>
        have hres : p.inhibitAction args = ((dosTrue, 0),
            { p with fs := fs, handles := fun _ => none, inhibited := false }) := by
          simp only [inhibitAction, if_neg h0, if_pos hinh, remount, hm]
        rw [hres, if_pos ⟨rfl, .inr hinh⟩]
        exact follows_clear rfl rfl
      | error e =>
        have hres : p.inhibitAction args = ((dosFalse, mapMountError e), p) := by
          simp only [inhibitAction, if_neg h0, if_pos hinh, remount, hm]
        rw [hres, if_neg (by simp)]
        exact (SameHandles.refl p).follows
    · have hres : p.inhibitAction args = ((dosTrue, 0), p) := by
        rw [inhibitAction, if_neg h0, if_neg hinh]
      rw [hres, if_neg (by tauto)]
      exact (SameHandles.refl p).follows

/-! ### Every packet -/

/-- What holds of the handle table between packets. -/
structure TableInv (p : PktVolume φ) : Prop where
  next_ne_zero : p.nextHandle ≠ 0
  zero : p.resolve 0 = none
  inhibited : p.inhibited = true → p.resolve = fun _ => none

/-- The actions that hand out a handle, release one or drop them all. -/
def touching : List Long :=
  [Action.locateObject, Action.copyDir, Action.parent, Action.createDir, Action.findInput,
    Action.findOutput, Action.findUpdate, Action.freeLock, Action.end', Action.inhibit]

theorem eventOf_of_not_touching (h : k.action ∉ touching) (res : Res) : p.eventOf k res = none := by
  simp only [touching, List.mem_cons, List.not_mem_nil, or_false, not_or] at h
  have hhandle : handleOf k.action res = none := by
    unfold handleOf
    rw [if_neg (by tauto), if_neg (by tauto)]
  have hrel : ¬Releases k res := by
    rintro ⟨hk, -⟩
    tauto
  have hinh : ¬p.Inhibits k res := by
    rintro ⟨hk, -⟩
    tauto
  rw [eventOf, hhandle, if_neg (by tauto), if_neg hinh]
  rfl

/-- A packet that is refused outright touches no handle, whatever it asks for. -/
theorem eventOf_of_failed (k : Packet μ) {code : Long} (hcode : code ≠ 0) :
    p.eventOf k (dosFalse, code) = none := by
  have hhandle : handleOf k.action (dosFalse, code) = none := by
    unfold handleOf
    rw [if_neg hcode]
    simp
  have hrel : ¬Releases k (dosFalse, code) := by
    rintro ⟨-, hk⟩
    cases hk
  have hinh : ¬p.Inhibits k (dosFalse, code) := by
    rintro ⟨-, hk, -⟩
    cases hk
  rw [eventOf, hhandle, if_neg (by tauto), if_neg hinh]
  rfl

/-- An action that releases nothing and drops nothing logs what it issues. -/
theorem eventOf_of_issuing (h : k.action ∉ [Action.freeLock, Action.end', Action.inhibit])
    (res : Res) : p.eventOf k res = issueEvent (handleOf k.action res) (p.target k) := by
  simp only [List.mem_cons, List.not_mem_nil, or_false, not_or] at h
  have hrel : ¬Releases k res := by
    rintro ⟨hk, -⟩
    tauto
  have hinh : ¬p.Inhibits k res := by
    rintro ⟨hk, -⟩
    tauto
  rw [eventOf, if_neg (by tauto), if_neg hinh, Option.or_none]

omit [Ffs φ] [GuestMemory μ] in
/-- What a lock action logs, once it is known to be one. -/
theorem Follows.lockAction {p : PktVolume φ} {action : Long} {res : Res} {w w' : Option Named}
    (ha : action = Action.locateObject ∨ action = Action.copyDir ∨ action = Action.parent ∨
      action = Action.createDir) (hw : w' = w)
    (h : Follows p p' (issueEvent (if res.2 = 0 then some res.1 else none) w)) :
    Follows p p' (issueEvent (handleOf action res) w') := by
  rw [handleOf, if_pos ha, hw]
  exact h

omit [Ffs φ] [GuestMemory μ] in
theorem Follows.fileAction {p : PktVolume φ} {action : Long} {res : Res} {w w' : Option Named}
    (ha : action = Action.findInput ∨ action = Action.findOutput ∨ action = Action.findUpdate)
    (hw : w' = w) (h : Follows p p' (issueEvent (if res.1 = dosTrue then some res.2 else none) w)) :
    Follows p p' (issueEvent (handleOf action res) w') := by
  have hnot : ¬(action = Action.locateObject ∨ action = Action.copyDir ∨ action = Action.parent ∨
      action = Action.createDir) := by
    rcases ha with rfl | rfl | rfl <;> decide
  rw [handleOf, if_neg hnot, if_pos ha, hw]
  exact h

/-- The volume follows the event, and an inhibited one issues and releases nothing. -/
def Answered (p p' : PktVolume φ) (e : Option (HandleLog.Event Long Named)) : Prop :=
  Follows p p' e ∧ (p.inhibited = true → e = none ∨ e = some .clear)

omit [Ffs φ] [GuestMemory μ] in
theorem Follows.answered {p : PktVolume φ} {e : Option (HandleLog.Event Long Named)}
    (h : Follows p p' e) (hinh : p.inhibited = false) : Answered p p' e :=
  ⟨h, by simp [hinh]⟩

/-- An action that touches no handle. -/
theorem SameHandles.answered {p : PktVolume φ} (h : SameHandles p p') (hk : k.action ∉ touching)
    (res : Res) : Answered p p' (p.eventOf k res) := by
  rw [eventOf_of_not_touching p hk]
  exact ⟨h.follows, fun _ => .inl rfl⟩

/-- **The handle table follows the log.** -/
theorem step_follows (hp : TableInv p) (k : Packet μ) : Answered p (p.step k) (p.event k) := by
  obtain ⟨a, args, mem⟩ := k
  have hn := hp.next_ne_zero
  apply dispatch (P := fun a r => Answered p r.2.1 (p.eventOf ⟨a, args, mem⟩ r.1)) p args mem
  case inhibit =>
    have hevent : p.eventOf ⟨Action.inhibit, args, mem⟩ (p.inhibitAction args).1 =
        if (p.inhibitAction args).1.1 = dosTrue ∧ (args.getD 0 0 ≠ 0 ∨ p.inhibited = true) then
          some .clear else none := by
      simp [eventOf, handleOf, issueEvent, Releases, Inhibits]
    refine ⟨?_, fun _ => ?_⟩
    · simp only [withMem, hevent]
      exact follows_inhibit p hp.inhibited args
    · simp only [withMem, hevent]
      split
      · exact .inr rfl
      · exact .inl rfl
  case format => exact (sameHandles_formatAction p args mem).answered (by simp [touching]) _
  case isFilesystem => exact (SameHandles.refl p).answered (by simp [touching]) _
  case diskInfo => exact (SameHandles.refl p).answered (by simp [touching]) _
  case refused =>
    intro _ a
    simp only [eventOf_of_failed p _ (show Err.notADosDisk ≠ 0 by decide)]
    exact ⟨(SameHandles.refl p).follows, fun _ => .inl rfl⟩
  case unknown =>
    intro a
    simp only [eventOf_of_failed p _ (show Err.actionNotKnown ≠ 0 by decide)]
    exact ⟨(SameHandles.refl p).follows, fun _ => .inl rfl⟩
  case locateObject =>
    refine fun hinh => Follows.answered ?_ hinh
    rw [eventOf_of_issuing p (by simp)]
    exact .lockAction (by simp) (by simp [target])
      (follows_issueLock p hn (p.locateTarget args mem))
  case copyDir =>
    refine fun hinh => Follows.answered ?_ hinh
    rw [eventOf_of_issuing p (by simp)]
    exact .lockAction (by simp) (by simp [target]) (follows_issueLock p hn (p.copyDirTarget args))
  case parent =>
    refine fun hinh => Follows.answered ?_ hinh
    rw [eventOf_of_issuing p (by simp)]
    exact .lockAction (by simp) (by simp [target]) (follows_issueLock p hn (p.parentTarget args))
  case createDir =>
    refine fun hinh => Follows.answered ?_ hinh
    rw [eventOf_of_issuing p (by simp)]
    exact .lockAction (by simp) (by simp [target]) (follows_createDir p hn args mem)
  case findInput =>
    refine fun hinh => Follows.answered ?_ hinh
    rw [eventOf_of_issuing p (by simp)]
    exact .fileAction (by simp) (by simp [target])
      (follows_issueFile p hn (p.findInputTarget args mem))
  case findOutput =>
    refine fun hinh => Follows.answered ?_ hinh
    rw [eventOf_of_issuing p (by simp)]
    exact .fileAction (by simp) (by simp [target])
      (follows_find p hn (p.findOutputTarget args mem) rfl)
  case findUpdate =>
    refine fun hinh => Follows.answered ?_ hinh
    rw [eventOf_of_issuing p (by simp)]
    exact .fileAction (by simp) (by simp [target])
      (follows_find p hn (p.findUpdateTarget args mem) rfl)
  case freeLock =>
    have hevent : p.eventOf ⟨Action.freeLock, args, mem⟩ (p.freeLock args).1 =
        if (p.freeLock args).1.1 = dosTrue ∧ args.getD 0 0 ≠ 0 then
          some (.release (args.getD 0 0)) else none := by
      simp [eventOf, handleOf, issueEvent, Releases, Inhibits]
    refine fun hinh => Follows.answered ?_ hinh
    simp only [withMem, hevent]
    exact follows_freeLock p args
  case end' =>
    have hevent : p.eventOf ⟨Action.end', args, mem⟩ (p.end' args).1 =
        if (p.end' args).1.1 = dosTrue ∧ args.getD 0 0 ≠ 0 then
          some (.release (args.getD 0 0)) else none := by
      simp [eventOf, handleOf, issueEvent, Releases, Inhibits]
    refine fun hinh => Follows.answered ?_ hinh
    simp only [withMem, hevent]
    exact follows_end p hp.zero args
  case sameLock => exact fun _ => (sameHandles_sameLock p args).answered (by simp [touching]) _
  case examineObject =>
    exact fun _ => (sameHandles_examineObject p args mem).answered (by simp [touching]) _
  case examineNext =>
    exact fun _ => (sameHandles_examineNext p args mem).answered (by simp [touching]) _
  case info => exact fun _ => (SameHandles.refl p).answered (by simp [touching]) _
  case read => exact fun _ => (sameHandles_readAction p args mem).answered (by simp [touching]) _
  case write => exact fun _ => (sameHandles_writeAction p args mem).answered (by simp [touching]) _
  case seek => exact fun _ => (sameHandles_seekAction p args).answered (by simp [touching]) _
  case setFileSize =>
    exact fun _ => (sameHandles_setFileSize p args).answered (by simp [touching]) _
  case deleteObject =>
    exact fun _ => (sameHandles_deleteObject p args mem).answered (by simp [touching]) _
  case renameObject =>
    exact fun _ => (sameHandles_renameObject p args mem).answered (by simp [touching]) _
  case setProtect =>
    exact fun _ => (sameHandles_setMeta p args mem _).answered (by simp [touching]) _
  case setComment =>
    exact fun _ => (sameHandles_setMeta p args mem _).answered (by simp [touching]) _
  case setDate =>
    exact fun _ => (sameHandles_setMeta p args mem _).answered (by simp [touching]) _
  case flush => exact fun _ => (sameHandles_flush p).answered (by simp [touching]) _

omit [Ffs φ] [GuestMemory μ] in
theorem nextId_ne_zero {id : Long} (h : id ≠ 0) : nextId id ≠ 0 := by
  unfold nextId
  split
  · exact h
  · rename_i hne
    intro hzero
    exact hne (by bv_omega)

theorem TableInv.step {p : PktVolume φ} (hp : TableInv p) (k : Packet μ) :
    TableInv (p.step k) := by
  obtain ⟨hf, hquiet⟩ := step_follows p hp k
  refine ⟨?_, ?_, ?_⟩
  · rw [hf.nextHandle]
    split
    · exact hp.next_ne_zero
    · exact nextId_ne_zero hp.next_ne_zero
  · rw [hf.resolve]
    cases he : p.event k with
    | none => exact hp.zero
    | some e =>
      cases e with
      | issue h w =>
        have hnext : h = p.nextHandle := hf.fresh h (by simp [he, issued])
        simp only [Option.elim, HandleLog.Event.apply]
        rw [if_neg (by rw [hnext]; exact Ne.symm hp.next_ne_zero)]
        exact hp.zero
      | release h =>
        simp only [Option.elim, HandleLog.Event.apply, hp.zero, ite_self]
      | clear => rfl
  · intro hinh
    rw [hf.resolve]
    rcases hf.inhibited with hsame | hclear
    · rw [hsame] at hinh
      rcases hquiet hinh with he | he
      · rw [he]
        exact hp.inhibited hinh
      · rw [he]
        rfl
    · rw [hclear]
      rfl

/-! ## Runs -/

/-- The volume after a run of packets. -/
abbrev run (p : PktVolume φ) (ks : List (Packet μ)) : PktVolume φ := Transition.run step p ks

/-- The `n`-th handle a volume issues. -/
def handleNumber (n : Nat) : Long := BitVec.ofNat 32 (min (n + 1) 0xFFFFFFFF)

omit [Ffs φ] [GuestMemory μ] in
theorem nextId_handleNumber (n : Nat) : nextId (handleNumber n) = handleNumber (n + 1) := by
  unfold nextId handleNumber
  split <;> rename_i h <;> bv_omega

/-- The table is what the log so far leaves, and the handles issued so far count up from one. -/
structure Logged (l : List (HandleLog.Event Long Named)) (p : PktVolume φ) : Prop where
  table : TableInv p
  resolve : p.resolve = live l
  next : p.nextHandle = handleNumber (issued l).length
  issued : HandleLog.issued l = (List.range (HandleLog.issued l).length).map handleNumber

theorem Logged.step {l : List (HandleLog.Event Long Named)} {p : PktVolume φ} (h : Logged l p)
    (k : Packet μ) : Logged (l ++ (p.event k).toList) (p.step k) := by
  have hf := (step_follows p h.table k).1
  have hres : (p.step k).resolve = live (l ++ (p.event k).toList) := by
    rw [hf.resolve, h.resolve]
    cases p.event k with
    | none => simp
    | some e => simp [live_concat]
  have hnew : HandleLog.issued (p.event k).toList = [] ∨
      HandleLog.issued (p.event k).toList = [p.nextHandle] := by
    have hfresh := hf.fresh
    cases he : p.event k with
    | none => exact .inl rfl
    | some e =>
      rw [he] at hfresh
      cases e with
      | issue id w =>
        right
        rw [hfresh id List.mem_cons_self]
        rfl
      | release id => exact .inl rfl
      | clear => exact .inl rfl
  refine ⟨h.table.step k, hres, ?_, ?_⟩ <;> rcases hnew with hnew | hnew
  · rw [hf.nextHandle, hnew, issued_append, hnew, List.append_nil]
    exact h.next
  · rw [hf.nextHandle, hnew, issued_append, hnew, List.length_append, h.next]
    exact nextId_handleNumber _
  · rw [issued_append, hnew, List.append_nil]
    exact h.issued
  · rw [issued_append, hnew, List.length_append, List.length_singleton, List.range_succ,
      List.map_append, ← h.issued, h.next]
    rfl

theorem Logged.run {l : List (HandleLog.Event Long Named)} {p : PktVolume φ} (h : Logged l p) :
    ∀ ks : List (Packet μ), Logged (l ++ p.log ks) (p.run ks)
  | [] => by simpa [log] using h
  | k :: ks => by
    have hrest := Logged.run (h.step k) ks
    rw [List.append_assoc] at hrest
    exact hrest

omit [Ffs φ] [GuestMemory μ] in
theorem logged_opened (fs : φ) (writable : Bool) (lenBlocks reserved : Nat) :
    Logged [] (opened fs writable lenBlocks reserved) :=
  ⟨⟨by simp [opened], rfl, by simp [opened]⟩, rfl, rfl, rfl⟩

theorem logged_run (fs : φ) (writable : Bool) (lenBlocks reserved : Nat)
    (ks : List (Packet μ)) :
    Logged ((opened fs writable lenBlocks reserved).log ks)
      ((opened fs writable lenBlocks reserved).run ks) :=
  (logged_opened fs writable lenBlocks reserved).run ks

omit [Ffs φ] [GuestMemory μ] in
/-- The counter names each of its values once until it saturates. -/
theorem Logged.nodup {l : List (HandleLog.Event Long Named)} {p : PktVolume φ} (h : Logged l p)
    (hlen : (HandleLog.issued l).length ≤ 0xFFFFFFFF) : (HandleLog.issued l).Nodup := by
  rw [h.issued]
  refine List.Nodup.map_on ?_ List.nodup_range
  intro i hi j hj heq
  rw [List.mem_range] at hi hj
  have hval := congrArg BitVec.toNat heq
  unfold handleNumber at hval
  rw [BitVec.toNat_ofNat, BitVec.toNat_ofNat, Nat.mod_eq_of_lt (by omega),
    Nat.mod_eq_of_lt (by omega)] at hval
  omega

/-! ## Misuse -/

/-- The arguments an action resolves as locks. `INFO` has one and does not look at it. -/
def lockArgs (k : Packet μ) : List Long :=
  if k.action ∈ [Action.locateObject, Action.freeLock, Action.copyDir, Action.parent,
      Action.examineObject, Action.examineNext, Action.createDir, Action.deleteObject] then
    [k.args.getD 0 0]
  else if k.action ∈ [Action.findInput, Action.findOutput, Action.findUpdate, Action.setProtect,
      Action.setComment, Action.setDate] then
    [k.args.getD 1 0]
  else if k.action = Action.sameLock then [k.args.getD 0 0, k.args.getD 1 0]
  else if k.action = Action.renameObject then [k.args.getD 0 0, k.args.getD 2 0]
  else []

/-- The arguments an action resolves as open files. -/
def fileArgs (k : Packet μ) : List Long :=
  if k.action ∈ [Action.end', Action.read, Action.write, Action.seek, Action.setFileSize] then
    [k.args.getD 0 0]
  else []

/-- A nonzero handle that is not a lock: an unknown one, or a file. -/
def NotLock (p : PktVolume φ) (h : Long) : Prop :=
  h ≠ 0 ∧ ∀ lba, p.resolve h ≠ some (.lock, lba)

/-- A handle that is not an open file: an unknown one, or a lock. -/
def NotFile (p : PktVolume φ) (h : Long) : Prop := ∀ lba, p.resolve h ≠ some (.file, lba)

/-- The packet uses a handle that is not of the kind its action takes. -/
def Misuses (p : PktVolume φ) (k : Packet μ) : Prop :=
  (∃ h ∈ lockArgs k, p.NotLock h) ∨ ∃ h ∈ fileArgs k, p.NotFile h

omit [GuestMemory μ] in
theorem NotLock.resolveLock {p : PktVolume φ} {h : Long} (hl : p.NotLock h) :
    p.resolveLock h = none := by
  rw [PktVolume.resolveLock, if_neg hl.1]
  exact lockAt_eq_none hl.2

/-- A path under a lock that is none. -/
theorem NotLock.openForFind {p : PktVolume φ} {h : Long} (hl : p.NotLock h) (name : Long)
    (mem : μ) : p.openForFind h name mem = (.error Err.objectNotFound, p.fs) := by
  rw [PktVolume.openForFind, hl.resolveLock]

theorem NotLock.setMeta {p : PktVolume φ} {args : List Long} (hl : p.NotLock (args.getD 1 0))
    (mem : μ) (update : Option MetaUpdate) : (p.setMeta args mem update).2 = p := by
  rw [PktVolume.setMeta, hl.resolveLock]
  split <;> rfl

theorem renameObject_of_notLock {p : PktVolume φ} {args : List Long}
    (hl : p.NotLock (args.getD 0 0) ∨ p.NotLock (args.getD 2 0)) :
    (p.renameObject args mem).2 = p := by
  rcases hl with hl | hl
  · rw [renameObject, hl.resolveLock]
    split <;> rfl
  · rw [renameObject, hl.resolveLock]
    split
    · split
      · rfl
      · split <;> rfl
    · rfl

/-- **A packet that misuses a handle changes nothing.** -/
theorem executeInner_of_misuse (k : Packet μ) (hk : p.Misuses k) :
    (p.executeInner k.action k.args k.mem).2 = (p, k.mem) := by
  obtain ⟨a, args, mem⟩ := k
  revert hk
  apply dispatch (P := fun a r => p.Misuses ⟨a, args, mem⟩ → r.2 = (p, mem)) p args mem
  case locateObject =>
    intro _ h
    have h : p.NotLock (args.getD 0 0) := by simpa [Misuses, lockArgs, fileArgs] using h
    rw [locateObject, locateTarget, h.resolveLock]
    rfl
  case freeLock =>
    intro _ h
    have h : p.NotLock (args.getD 0 0) := by simpa [Misuses, lockArgs, fileArgs] using h
    simp only [freeLock, if_neg h.1, lockAt_eq_none h.2]
    rfl
  case copyDir =>
    intro _ h
    have h : p.NotLock (args.getD 0 0) := by simpa [Misuses, lockArgs, fileArgs] using h
    rw [copyDir, copyDirTarget, h.resolveLock]
    rfl
  case parent =>
    intro _ h
    have h : p.NotLock (args.getD 0 0) := by simpa [Misuses, lockArgs, fileArgs] using h
    rw [parent, parentTarget, h.resolveLock]
    rfl
  case sameLock =>
    intro _ _
    unfold sameLock
    split
    · split <;> rfl
    · rfl
  case examineObject =>
    intro _ h
    have h : p.NotLock (args.getD 0 0) := by simpa [Misuses, lockArgs, fileArgs] using h
    rw [examineObject, h.resolveLock]
  case examineNext =>
    intro _ h
    have h : p.NotLock (args.getD 0 0) := by simpa [Misuses, lockArgs, fileArgs] using h
    rw [examineNext, h.resolveLock]
  case createDir =>
    intro _ h
    have h : p.NotLock (args.getD 0 0) := by simpa [Misuses, lockArgs, fileArgs] using h
    rw [createDirAction, createDirTarget, h.openForFind]
    split <;> rfl
  case deleteObject =>
    intro _ h
    have h : p.NotLock (args.getD 0 0) := by simpa [Misuses, lockArgs, fileArgs] using h
    rw [deleteObject, h.openForFind]
    split <;> rfl
  case findInput =>
    intro _ h
    have h : p.NotLock (args.getD 1 0) := by simpa [Misuses, lockArgs, fileArgs] using h
    rw [findInput, findInputTarget, h.openForFind]
    rfl
  case findOutput =>
    intro _ h
    have h : p.NotLock (args.getD 1 0) := by simpa [Misuses, lockArgs, fileArgs] using h
    rw [findOutput, findOutputTarget, h.openForFind]
    split <;> rfl
  case findUpdate =>
    intro _ h
    have h : p.NotLock (args.getD 1 0) := by simpa [Misuses, lockArgs, fileArgs] using h
    rw [findUpdate, findUpdateTarget, h.openForFind]
    split <;> rfl
  case setProtect =>
    intro _ h
    have h : p.NotLock (args.getD 1 0) := by simpa [Misuses, lockArgs, fileArgs] using h
    exact congrArg (·, mem) (h.setMeta mem _)
  case setComment =>
    intro _ h
    have h : p.NotLock (args.getD 1 0) := by simpa [Misuses, lockArgs, fileArgs] using h
    exact congrArg (·, mem) (h.setMeta mem _)
  case setDate =>
    intro _ h
    have h : p.NotLock (args.getD 1 0) := by simpa [Misuses, lockArgs, fileArgs] using h
    exact congrArg (·, mem) (h.setMeta mem _)
  case renameObject =>
    intro _ h
    have h : p.NotLock (args.getD 0 0) ∨ p.NotLock (args.getD 2 0) := by
      simpa [Misuses, lockArgs, fileArgs] using h
    exact congrArg (·, mem) (renameObject_of_notLock mem h)
  case end' =>
    intro _ h
    have h : p.NotFile (args.getD 0 0) := by simpa [Misuses, lockArgs, fileArgs] using h
    rw [end', fileAt_eq_none h]
    rfl
  case read =>
    intro _ h
    have h : p.NotFile (args.getD 0 0) := by simpa [Misuses, lockArgs, fileArgs] using h
    rw [readAction, fileAt_eq_none h]
  case write =>
    intro _ h
    have h : p.NotFile (args.getD 0 0) := by simpa [Misuses, lockArgs, fileArgs] using h
    rw [writeAction, fileAt_eq_none h]
    rfl
  case seek =>
    intro _ h
    have h : p.NotFile (args.getD 0 0) := by simpa [Misuses, lockArgs, fileArgs] using h
    rw [seekAction, fileAt_eq_none h]
    rfl
  case setFileSize =>
    intro _ h
    have h : p.NotFile (args.getD 0 0) := by simpa [Misuses, lockArgs, fileArgs] using h
    rw [setFileSize, fileAt_eq_none h]
    rfl
  -- The rest takes no handle.
  case refused => exact fun _ _ _ => rfl
  case unknown => exact fun _ _ => rfl
  case isFilesystem => exact fun _ => rfl
  all_goals
    simp [Misuses, lockArgs, fileArgs]

/-! ## The history of a run decides what resolves -/

/-- **Handles name what they were issued for.** In a run that has issued no more handles than the
counter has values, a handle resolves to a kind and a block exactly when it was issued for them and
neither released nor dropped since; none was issued twice; and a packet that uses a handle as what
it is not changes nothing. -/
theorem handles_name_what_was_issued (fs : φ) (writable : Bool) (lenBlocks reserved : Nat)
    (ks : List (Packet μ))
    (hlen : (issued ((opened fs writable lenBlocks reserved).log ks)).length ≤ 0xFFFFFFFF) :
    (∀ h w, ((opened fs writable lenBlocks reserved).run ks).resolve h = some w ↔
      Outstanding ((opened fs writable lenBlocks reserved).log ks) h w) ∧
    (issued ((opened fs writable lenBlocks reserved).log ks)).Nodup ∧
    ∀ k : Packet μ, ((opened fs writable lenBlocks reserved).run ks).Misuses k →
      (((opened fs writable lenBlocks reserved).run ks).executeInner k.action k.args k.mem).2 =
        ((opened fs writable lenBlocks reserved).run ks, k.mem) := by
  have hlogged := logged_run fs writable lenBlocks reserved ks
  have hnodup := hlogged.nodup hlen
  refine ⟨?_, hnodup, fun k hk => executeInner_of_misuse _ k hk⟩
  intro h w
  rw [hlogged.resolve]
  exact live_eq_some_iff hnodup

end PktVolume

/-! ## On a volume in memory -/

namespace PktVolume

open HandleLog

/-- An empty volume of 16 header blocks, mounted for writing. -/
def blank : PktVolume TreeFs := opened (.empty 16 8 (by decide)) true 16 2

/-- Sixty-four bytes of guest memory with the name `d` at address 4. -/
def nameRam : FlatRam 64 := ⟨fun i => if i.val = 4 then 1 else if i.val = 5 then 0x64 else 0⟩

def packet (action : Long) (args : List Long) : Packet (FlatRam 64) := ⟨action, args, nameRam⟩

/-- A directory is made, its lock copied and freed, a file opened and freed as a lock. -/
theorem handles_name_what_was_issued_blank :
    let ks := [packet Action.createDir [0, 1], packet Action.copyDir [1],
      packet Action.freeLock [1], packet Action.findOutput [0, 2, 1], packet Action.freeLock [3]]
    blank.log ks = [.issue 1 (.lock, 0), .issue 2 (.lock, 0), .release 1, .issue 3 (.file, 1)] ∧
    (∀ h w, (blank.run ks).resolve h = some w ↔ Outstanding (blank.log ks) h w) ∧
    (issued (blank.log ks)).Nodup ∧
    ∀ k : Packet (FlatRam 64), (blank.run ks).Misuses k →
      ((blank.run ks).executeInner k.action k.args k.mem).2 = (blank.run ks, k.mem) := by
  intro ks
  have hlog : blank.log ks = [.issue 1 (.lock, 0), .issue 2 (.lock, 0), .release 1,
      .issue 3 (.file, 1)] := by
    decide
  refine ⟨hlog, handles_name_what_was_issued _ _ _ _ ks ?_⟩
  change (issued (blank.log ks)).length ≤ _
  rw [hlog]
  decide

/-- An `INHIBIT` that asks a volume to leave a state it is not in succeeds, and drops nothing. -/
theorem inhibit_false_keeps_handles :
    let p := blank.step (packet Action.createDir [0, 1])
    let k := packet Action.inhibit [0]
    blank.event (packet Action.createDir [0, 1]) = some (.issue 1 (.lock, 0)) ∧
      (p.answer k).1 = dosTrue ∧ (p.step k).resolve 1 = some (.lock, 0) := by
  decide

end PktVolume

end M68kMachine
