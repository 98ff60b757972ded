import M68kMachine.Hosted.TreeFs
import M68kMachine.Properties.PktvolHandles
import M68kMachine.Properties.PktvolReads

/-!
# Which refusals a guest can tell from an answer

A packet that is refused should leave the volume as it was and say so in both result fields: `READ`,
`WRITE`, `SEEK` and `SET_FILE_SIZE` answer a count or a position, of which zero is one, and refuse
with −1.

* `KeptOnFailure` — the filesystem's operations that fail change nothing
* `success`, `failureValue` — the two conventions of `RES1`
* `Refusal` — what a refusal has to be
* `refuses_visibly_iff` — which refusals do
-/

namespace M68kMachine

namespace PktVolume

variable {φ μ V : Type} [Ffs φ] {a : Long}

/-- What `view` sees of a volume survives a read, and an operation that fails. -/
structure KeptOnFailure (view : φ → V) : Prop extends ReadsKeep view where
  createFile {fs : φ} {d : Nat} {n : List Byte} {e : MutateError} :
    (Ffs.createFile fs d n).1 = .error e → view (Ffs.createFile fs d n).2 = view fs
  createDir {fs : φ} {d : Nat} {n : List Byte} {e : MutateError} :
    (Ffs.createDir fs d n).1 = .error e → view (Ffs.createDir fs d n).2 = view fs
  writeFile {fs : φ} {d : Nat} {n : List Byte} {pos : Nat} {data : List Byte} {e : MutateError} :
    (Ffs.writeFile fs d n pos data).1 = .error e → view (Ffs.writeFile fs d n pos data).2 = view fs
  truncate {fs : φ} {d : Nat} {n : List Byte} {size : Nat} {e : MutateError} :
    (Ffs.truncate fs d n size).1 = .error e → view (Ffs.truncate fs d n size).2 = view fs
  delete {fs : φ} {d : Nat} {n : List Byte} {e : MutateError} :
    (Ffs.delete fs d n).1 = .error e → view (Ffs.delete fs d n).2 = view fs
  rename {fs : φ} {d d' : Nat} {n n' : List Byte} {e : MutateError} :
    (Ffs.rename fs d n d' n').1 = .error e → view (Ffs.rename fs d n d' n').2 = view fs
  setMetadata {fs : φ} {b : Nat} {u : MetaUpdate} {e : MutateError} :
    (Ffs.setMetadata fs b u).1 = .error e → view (Ffs.setMetadata fs b u).2 = view fs
  format {fs : φ} {dosType : Long} {blocks reserved : Nat} {n : List Byte} {e : FormatError} :
    (Ffs.format fs dosType blocks reserved n).1 = .error e →
      view (Ffs.format fs dosType blocks reserved n).2 = view fs

/-! ## The two conventions -/

/-- The actions that answer a handle in `RES2`. -/
def findActions : List Long := [Action.findInput, Action.findOutput, Action.findUpdate]

/-- The actions that answer a lock, which may be zero, or whether two locks are the same. -/
def lockActions : List Long :=
  [Action.locateObject, Action.copyDir, Action.parent, Action.createDir, Action.sameLock]

/-- The answer of a packet that was carried out. -/
def success (a : Long) (res : Res) : Prop :=
  if findActions.contains a then res.1 = dosTrue
  else if dataActions.contains a || lockActions.contains a then res.2 = 0
  else res = (dosTrue, 0)

/-- `RES1` of a packet that was refused. -/
def failureValue (a : Long) : Long :=
  if dataActions.contains a then readWriteError else dosFalse

theorem success_find (h : a ∈ findActions) (res : Res) : success a res ↔ res.1 = dosTrue := by
  unfold success
  rw [if_pos (List.contains_iff_mem.mpr h)]

theorem success_coded (hf : a ∉ findActions) (h : a ∈ dataActions ∨ a ∈ lockActions) (res : Res) :
    success a res ↔ res.2 = 0 := by
  have hor : (dataActions.contains a || lockActions.contains a) = true := by
    rw [Bool.or_eq_true, List.contains_iff_mem, List.contains_iff_mem]
    exact h
  unfold success
  rw [if_neg (mt List.contains_iff_mem.mp hf), if_pos hor]

theorem success_bool (hf : a ∉ findActions) (h : ¬(a ∈ dataActions ∨ a ∈ lockActions)) (res : Res) :
    success a res ↔ res = (dosTrue, 0) := by
  have hor : ¬(dataActions.contains a || lockActions.contains a) = true := by
    rw [Bool.or_eq_true, List.contains_iff_mem, List.contains_iff_mem]
    exact h
  unfold success
  rw [if_neg (mt List.contains_iff_mem.mp hf), if_neg hor]

theorem failureValue_data (h : a ∈ dataActions) : failureValue a = readWriteError :=
  if_pos (List.contains_iff_mem.mpr h)

theorem failureValue_other (h : a ∉ dataActions) : failureValue a = dosFalse :=
  if_neg (mt List.contains_iff_mem.mp h)

/-- A refusal that is one in both fields, and has changed nothing. -/
structure Refusal (view : φ → V) (fail : Long) (p : PktVolume φ) (r : Res × PktVolume φ) :
    Prop where
  res1 : r.1.1 = fail
  res2 : r.1.2 ≠ 0
  handles : r.2.handles = p.handles
  nextHandle : r.2.nextHandle = p.nextHandle
  inhibited : r.2.inhibited = p.inhibited
  volume : view r.2.fs = view p.fs

/-- What is not answered with success is refused. -/
def Reports (view : φ → V) (ok : Res → Prop) (fail : Long) (p : PktVolume φ)
    (r : Res × PktVolume φ) : Prop := ¬ok r.1 → Refusal view fail p r

/-- The claim of a packet. -/
def RefusesVisibly [GuestMemory μ] (view : φ → V) (p : PktVolume φ) (k : Packet μ) : Prop :=
  Reports view (success k.action) (failureValue k.action) p (p.answer k, p.step k)

section Refusals

variable {view : φ → V} {fail code : Long} {ok : Res → Prop}

omit [Ffs φ] in
theorem Refusal.same (p : PktVolume φ) (hcode : code ≠ 0) :
    Refusal view fail p ((fail, code), p) := ⟨rfl, hcode, rfl, rfl, rfl, rfl⟩

omit [Ffs φ] in
theorem Refusal.fs (p : PktVolume φ) {fs : φ} (hcode : code ≠ 0) (h : view fs = view p.fs) :
    Refusal view fail p ((fail, code), { p with fs := fs }) := ⟨rfl, hcode, rfl, rfl, rfl, h⟩

omit [Ffs φ] in
theorem Refusal.reports {p : PktVolume φ} {r : Res × PktVolume φ} (h : Refusal view fail p r) :
    Reports view ok fail p r := fun _ => h

omit [Ffs φ] in
theorem Reports.of_ok {p : PktVolume φ} {r : Res × PktVolume φ} (h : ok r.1) :
    Reports view ok fail p r := fun hno => absurd h hno

end Refusals

/-! ## What is worked out before an action -/

/-- A target that is not reached: a code to refuse with, and the volume as it was. -/
def Declines {α : Type} (view : φ → V) (fs : φ) (t : Except Long α × φ) : Prop :=
  ∀ code, t.1 = .error code → code ≠ 0 ∧ view t.2 = view fs

section Targets

variable {view : φ → V}

omit [Ffs φ] in
theorem Declines.ok {α : Type} (fs fs' : φ) (a : α) : Declines view fs (.ok a, fs') := by
  rintro code ⟨⟩

omit [Ffs φ] in
theorem Declines.error {α : Type} {fs fs' : φ} {code : Long} (hcode : code ≠ 0)
    (h : view fs' = view fs) : Declines (α := α) view fs (.error code, fs') := by
  rintro _ ⟨⟩
  exact ⟨hcode, h⟩

omit [Ffs φ] in
theorem Declines.trans {α : Type} {fs fs' : φ} {t : Except Long α × φ} (h : Declines view fs' t)
    (hfs : view fs' = view fs) : Declines view fs t := by
  intro code ht
  rcases h code ht with ⟨hcode, hview⟩
  exact ⟨hcode, hview.trans hfs⟩

theorem declines_walk (hv : ReadsKeep view) (fs : φ) (here : Nat) (comps : List (List Byte)) :
    Declines view fs (walk fs here comps) := by
  induction comps generalizing fs here with
  | nil => exact .ok fs fs here
  -- Each component is looked up in the directory that the ones before it led to.
  | cons comp rest ih =>
    have hview := hv.lookup fs here comp
    unfold walk
    generalize Ffs.lookup fs here comp = r at hview ⊢
    rcases r with ⟨e | _ | e, fs'⟩
    · exact .error (mapReadError_ne_zero e) hview
    · exact .error (by decide) hview
    · simp only
      split
      · exact (ih fs' e.lba).trans hview
      · exact .error (by decide) hview

theorem declines_splitParent (hv : ReadsKeep view) (fs : φ) (dir : Nat) (path : List Byte) :
    Declines view fs (splitParent fs dir path) := by
  unfold splitParent
  split
  · exact .error (by decide) rfl
  · have hwalk := declines_walk hv fs dir (components path).dropLast
    generalize walk fs dir (components path).dropLast = r at hwalk ⊢
    rcases r with ⟨code | here, fs'⟩
    · exact .error (hwalk code rfl).1 (hwalk code rfl).2
    · exact .ok fs fs' _

theorem declines_resolveMetaTarget (hv : ReadsKeep view) (fs : φ) (dir : Nat) (name : List Byte) :
    Declines view fs (resolveMetaTarget fs dir name) := by
  unfold resolveMetaTarget
  split
  · exact .ok fs fs dir
  · have hsplit := declines_splitParent hv fs dir name
    have hview := hv.splitParent fs dir name
    generalize splitParent fs dir name = r at hsplit hview ⊢
    rcases r with ⟨code | ⟨d, n⟩, fs'⟩
    · exact .error (hsplit code rfl).1 hview
    · have hlook := hv.lookup fs' d n
      simp only
      generalize Ffs.lookup fs' d n = r at hlook ⊢
      rcases r with ⟨e | _ | e, fs''⟩
      · exact .error (mapReadError_ne_zero e) (hlook.trans hview)
      · exact .error (by decide) (hlook.trans hview)
      · exact .ok fs fs'' e.lba

variable [GuestMemory μ]

theorem declines_openForFind (hv : ReadsKeep view) (p : PktVolume φ) (lock name : Long) (mem : μ) :
    Declines view p.fs (p.openForFind lock name mem) := by
  unfold openForFind
  split
  · exact .error (by decide) rfl
  · split
    · exact .error (by decide) rfl
    · exact declines_splitParent hv _ _ _

theorem declines_locateTarget (hv : ReadsKeep view) (p : PktVolume φ) (args : List Long)
    (mem : μ) : Declines view p.fs (p.locateTarget args mem) := by
  unfold locateTarget
  cases p.resolveLock (args.getD 0 0) with
  | none => exact .error (by decide) rfl
  | some dir =>
    simp only
    cases readBstr mem (args.getD 1 0) with
    | none => exact .error (by decide) rfl
    | some name =>
      simp only
      split
      · exact .ok _ _ _
      · have hview := hv.lookupPath p.fs dir name
        generalize Ffs.lookupPath p.fs dir name = r at hview ⊢
        rcases r with ⟨e | _ | e, fs'⟩
        · exact .error (mapReadError_ne_zero e) hview
        · exact .error (by decide) hview
        · exact .ok _ _ _

omit [GuestMemory μ] in
theorem declines_copyDirTarget (p : PktVolume φ) (args : List Long) :
    Declines view p.fs (p.copyDirTarget args) := by
  unfold copyDirTarget
  cases p.resolveLock (args.getD 0 0) with
  | none => exact .error (by decide) rfl
  | some lba => exact .ok _ _ _

omit [GuestMemory μ] in
theorem declines_parentTarget (hv : ReadsKeep view) (p : PktVolume φ) (args : List Long) :
    Declines view p.fs (p.parentTarget args) := by
  unfold parentTarget
  cases p.resolveLock (args.getD 0 0) with
  | none => exact .error (by decide) rfl
  | some lba =>
    simp only
    split
    · exact .ok _ _ _
    · have hview := hv.entryAt p.fs lba
      generalize Ffs.entryAt p.fs lba = r at hview ⊢
      rcases r with ⟨e | entry, fs'⟩
      · exact .error (mapReadError_ne_zero e) hview
      · exact .ok _ _ _

theorem declines_createDirTarget (hv : KeptOnFailure view) (p : PktVolume φ) (args : List Long)
    (mem : μ) : Declines view p.fs (p.createDirTarget args mem) := by
  unfold createDirTarget
  have hfind := declines_openForFind hv.toReadsKeep p (args.getD 0 0) (args.getD 1 0) mem
  have hview := hv.toReadsKeep.openForFind p (args.getD 0 0) (args.getD 1 0) mem
  generalize p.openForFind (args.getD 0 0) (args.getD 1 0) mem = r at hfind hview ⊢
  rcases r with ⟨code | ⟨d, n⟩, fs⟩
  · exact hfind code rfl |>.elim fun hcode h => .error hcode h
  · have hmake := fun e => @hv.createDir fs d n e
    simp only
    generalize Ffs.createDir fs d n = r at hmake ⊢
    rcases r with ⟨e | lba, fs'⟩
    · exact .error (mapMutateError_ne_zero e) ((hmake e rfl).trans hview)
    · exact .ok _ _ _

omit [GuestMemory μ] in
theorem declines_createTarget (hv : KeptOnFailure view) (fs : φ) (d : Nat) (n : List Byte) :
    Declines view fs (createTarget fs d n) := by
  have hmake := fun e => @hv.createFile fs d n e
  unfold createTarget
  generalize Ffs.createFile fs d n = r at hmake ⊢
  rcases r with ⟨e | lba, fs'⟩
  · exact .error (mapMutateError_ne_zero e) (hmake e rfl)
  · exact .ok _ _ _

/-- The errors that a search gives itself. -/
theorem searchError_ne_zero (hv : ReadsKeep view) {p : PktVolume φ} {args : List Long} {mem : μ}
    {code : Long} (h : (p.openForFind (args.getD 1 0) (args.getD 2 0) mem).1 = .error code ∨
      (∃ e, code = mapReadError e) ∨ code = Err.objectWrongType) : code ≠ 0 := by
  rcases h with hopen | ⟨e, rfl⟩ | rfl
  · exact (declines_openForFind hv p _ _ mem code hopen).1
  · exact mapReadError_ne_zero e
  · decide

theorem declines_findInputTarget (hv : ReadsKeep view) (p : PktVolume φ) (args : List Long)
    (mem : μ) : Declines view p.fs (p.findInputTarget args mem) := by
  rw [findInputTarget_eq]
  refine hv.findTarget (fun code fs hcode hview => .error (searchError_ne_zero hv hcode) hview)
    (fun fs d n hview => .error (by decide) hview) ?_
  intro d n fs e _ _ _ _ _
  exact .ok _ _ _

theorem declines_findUpdateTarget (hv : KeptOnFailure view) (p : PktVolume φ) (args : List Long)
    (mem : μ) : Declines view p.fs (p.findUpdateTarget args mem) := by
  have hr := hv.toReadsKeep
  rw [findUpdateTarget_eq]
  refine hr.findTarget (fun code fs hcode hview => .error (searchError_ne_zero hr hcode) hview)
    (fun fs d n hview => (declines_createTarget hv fs d n).trans hview) ?_
  intro d n fs e _ _ _ _ _
  exact .ok _ _ _

theorem declines_findOutputTarget (hv : KeptOnFailure view) (p : PktVolume φ) (args : List Long)
    (mem : μ) : Declines view p.fs (p.findOutputTarget args mem) := by
  have hr := hv.toReadsKeep
  rw [findOutputTarget_eq]
  refine hr.findTarget (fun code fs hcode hview => .error (searchError_ne_zero hr hcode) hview)
    (fun fs d n hview => (declines_createTarget hv fs d n).trans hview) ?_
  -- The file is there already, and is emptied.
  intro d n fs e _ _ _ _ hview
  have hcut := fun e => @hv.truncate (Ffs.lookup fs d n).2 d n 0 e
  generalize Ffs.truncate (Ffs.lookup fs d n).2 d n 0 = r at hcut ⊢
  rcases r with ⟨e | u, fs'⟩
  · exact .error (mapMutateError_ne_zero e) ((hcut e rfl).trans hview)
  · exact .ok _ _ _

end Targets

/-! ## Every action -/

section Actions

variable {view : φ → V} {fail : Long} (p : PktVolume φ) {r : Res × PktVolume φ} {a : Long}

theorem reports_issueLock {t : Except Long Nat × φ} (ht : Declines view p.fs t) :
    Reports view (fun res => res.2 = 0) dosFalse p (p.issueLock t) := by
  rcases t with ⟨code | lba, fs⟩
  · exact (Refusal.fs p (ht code rfl).1 (ht code rfl).2).reports
  · exact .of_ok rfl

omit [Ffs φ] in
theorem reports_issueFile {t : Except Long OpenFile × φ} (ht : Declines view p.fs t) :
    Reports view (fun res => res.1 = dosTrue) dosFalse p (p.issueFile t) := by
  rcases t with ⟨code | f, fs⟩
  · exact (Refusal.fs p (ht code rfl).1 (ht code rfl).2).reports
  · exact .of_ok rfl

omit [Ffs φ] in
theorem reports_finish {fs : φ} {r : Except MutateError Unit × φ} (hfs : view fs = view p.fs)
    (hr : ∀ e, r.1 = .error e → view r.2 = view fs) :
    Reports view (· = (dosTrue, 0)) dosFalse p (p.finish r) := by
  rcases r with ⟨e | u, fs'⟩
  · exact (Refusal.fs p (mapMutateError_ne_zero e) ((hr e rfl).trans hfs)).reports
  · exact .of_ok rfl

omit [Ffs φ] in
theorem reports_freeLock (args : List Long) :
    Reports view (· = (dosTrue, 0)) dosFalse p (p.freeLock args) := by
  unfold freeLock
  simp only
  split
  · exact .of_ok rfl
  · split
    · exact .of_ok rfl
    · exact (Refusal.same p (by decide)).reports

theorem reports_sameLock (args : List Long) :
    Reports view (fun res => res.2 = 0) dosFalse p (p.sameLock args) := by
  unfold sameLock
  split
  · split
    · exact .of_ok rfl
    · exact .of_ok rfl
  · exact (Refusal.same p (by decide)).reports

omit [Ffs φ] in
theorem reports_end (args : List Long) :
    Reports view (· = (dosTrue, 0)) dosFalse p (p.end' args) := by
  unfold end'
  split
  · exact .of_ok rfl
  · exact (Refusal.same p (by decide)).reports

theorem reports_flush : Reports view (· = (dosTrue, 0)) dosFalse p p.flush := .of_ok rfl

/-- A remount that fails leaves the volume inhibited. -/
theorem reports_inhibitAction (args : List Long) :
    Reports view (· = (dosTrue, 0)) dosFalse p (p.inhibitAction args) := by
  unfold inhibitAction
  split
  · split
    · exact .of_ok rfl
    · split
      · exact .of_ok rfl
      · exact (Refusal.same p (by decide)).reports
  · split
    · unfold remount
      cases Ffs.mount p.fs p.writable p.lenBlocks p.reserved with
      | ok fs => exact .of_ok rfl
      | error e => exact (Refusal.same p (mapMountError_ne_zero e)).reports
    · exact .of_ok rfl

section Memory

variable [GuestMemory μ]

omit [Ffs φ] in
theorem reports_storeStruct {p : PktVolume φ} {fs : φ} (mem : μ) (bptr : Long) (bytes : List Byte)
    (h : view fs = view p.fs) :
    Reports view (· = (dosTrue, 0)) dosFalse p
      ((storeStruct mem bptr bytes).1, { p with fs := fs }) := by
  unfold storeStruct
  split
  · exact .of_ok rfl
  · exact (Refusal.fs p (by decide) h).reports

theorem reports_formatAction (hv : KeptOnFailure view) (p : PktVolume φ) (args : List Long)
    (mem : μ) : Reports view (· = (dosTrue, 0)) dosFalse p (p.formatAction args mem) := by
  unfold formatAction
  split
  · split
    · split
      · exact (Refusal.same p (by decide)).reports
      · rename_i name _
        split
        · have hmake := fun e => @hv.format p.fs (args.getD 1 0) p.lenBlocks p.reserved name e
          generalize Ffs.format p.fs (args.getD 1 0) p.lenBlocks p.reserved name = r at hmake ⊢
          rcases r with ⟨e | u, fs⟩
          · exact (Refusal.fs p (mapFormatError_ne_zero e) (hmake e rfl)).reports
          · exact .of_ok rfl
        · exact (Refusal.same p (by decide)).reports
    · exact (Refusal.same p (by decide)).reports
  · exact (Refusal.same p (by decide)).reports

theorem reports_fillDiskInfo (p : PktVolume φ) (infoBptr : Long) (mem : μ) :
    Reports view (· = (dosTrue, 0)) dosFalse p
      ((p.fillDiskInfo infoBptr mem).1, (p.fillDiskInfo infoBptr mem).2.1) :=
  reports_storeStruct mem infoBptr _ rfl

theorem reports_examineObject (hv : ReadsKeep view) (p : PktVolume φ) (args : List Long)
    (mem : μ) : Reports view (· = (dosTrue, 0)) dosFalse p
      ((p.examineObject args mem).1, (p.examineObject args mem).2.1) := by
  unfold examineObject
  split
  · exact (Refusal.same p (by decide)).reports
  · rename_i lba _
    have hview := hv.examineTarget p.fs lba
    generalize examineTarget p.fs lba = r at hview ⊢
    rcases r with ⟨e | ⟨type, name, protection, size, date, comment, owner, isDir⟩, fs⟩
    · exact (Refusal.fs p (mapReadError_ne_zero e) hview).reports
    · exact reports_storeStruct mem _ _ ((hv.countBlocks fs lba isDir).trans hview)

theorem reports_examineNext (hv : ReadsKeep view) (p : PktVolume φ) (args : List Long) (mem : μ) :
    Reports view (· = (dosTrue, 0)) dosFalse p
      ((p.examineNext args mem).1, (p.examineNext args mem).2.1) := by
  unfold examineNext
  split
  · exact (Refusal.same p (by decide)).reports
  · rename_i dir _
    split
    · exact (Refusal.same p (by decide)).reports
    · have hview := hv.readDir p.fs dir
      generalize Ffs.readDir p.fs dir = r at hview ⊢
      rcases r with ⟨e | entries, fs⟩
      · exact (Refusal.fs p (mapReadError_ne_zero e) hview).reports
      · simp only
        split
        · exact (Refusal.fs p (by decide) hview).reports
        · rename_i entry _
          have hcomment := (hv.comment fs entry).trans hview
          generalize Ffs.comment fs entry = r at hcomment ⊢
          rcases r with ⟨e | comment, fs'⟩
          · exact (Refusal.fs p (mapReadError_ne_zero e) hcomment).reports
          · exact reports_storeStruct mem _ _ ((hv.countBlocks fs' _ _).trans hcomment)

theorem reports_createDirAction (hv : KeptOnFailure view) (p : PktVolume φ) (args : List Long)
    (mem : μ) : Reports view (fun res => res.2 = 0) dosFalse p (p.createDirAction args mem) := by
  unfold createDirAction
  split
  · have ht := declines_createDirTarget hv p args mem
    generalize p.createDirTarget args mem = t at ht ⊢
    rcases t with ⟨code | lba, fs⟩
    · exact (Refusal.fs p (ht code rfl).1 (ht code rfl).2).reports
    · exact .of_ok rfl
  · exact (Refusal.same p (by decide)).reports

theorem reports_findOutput (hv : KeptOnFailure view) (p : PktVolume φ) (args : List Long)
    (mem : μ) :
    Reports view (fun res => res.1 = dosTrue) dosFalse p (p.findOutput args mem) := by
  unfold findOutput
  split
  · exact reports_issueFile p (declines_findOutputTarget hv p args mem)
  · exact (Refusal.same p (by decide)).reports

theorem reports_findUpdate (hv : KeptOnFailure view) (p : PktVolume φ) (args : List Long)
    (mem : μ) :
    Reports view (fun res => res.1 = dosTrue) dosFalse p (p.findUpdate args mem) := by
  unfold findUpdate
  split
  · exact reports_issueFile p (declines_findUpdateTarget hv p args mem)
  · exact (Refusal.same p (by decide)).reports

theorem reports_deleteObject (hv : KeptOnFailure view) (p : PktVolume φ) (args : List Long)
    (mem : μ) : Reports view (· = (dosTrue, 0)) dosFalse p (p.deleteObject args mem) := by
  unfold deleteObject
  split
  · have hfind := declines_openForFind hv.toReadsKeep p (args.getD 0 0) (args.getD 1 0) mem
    have hview := hv.toReadsKeep.openForFind p (args.getD 0 0) (args.getD 1 0) mem
    generalize p.openForFind (args.getD 0 0) (args.getD 1 0) mem = r at hfind hview ⊢
    rcases r with ⟨code | ⟨d, n⟩, fs⟩
    · exact (Refusal.fs p (hfind code rfl).1 hview).reports
    · exact reports_finish p hview fun e => hv.delete
  · exact (Refusal.same p (by decide)).reports

theorem reports_renameObject (hv : KeptOnFailure view) (p : PktVolume φ) (args : List Long)
    (mem : μ) : Reports view (· = (dosTrue, 0)) dosFalse p (p.renameObject args mem) := by
  unfold renameObject
  split
  · split
    · exact (Refusal.same p (by decide)).reports
    · rename_i srcDir _
      split
      · exact (Refusal.same p (by decide)).reports
      · rename_i srcName _
        split
        · exact (Refusal.same p (by decide)).reports
        · rename_i dstDir _
          split
          · exact (Refusal.same p (by decide)).reports
          · rename_i dstName _
            -- The two paths are walked one after the other.
            have hsrc := declines_splitParent hv.toReadsKeep p.fs srcDir srcName
            have hview := hv.toReadsKeep.splitParent p.fs srcDir srcName
            generalize splitParent p.fs srcDir srcName = r at hsrc hview ⊢
            rcases r with ⟨code | ⟨srcParent, srcLeaf⟩, fs⟩
            · exact (Refusal.fs p (hsrc code rfl).1 hview).reports
            · have hdst := declines_splitParent hv.toReadsKeep fs dstDir dstName
              have hview' := (hv.toReadsKeep.splitParent fs dstDir dstName).trans hview
              simp only
              generalize splitParent fs dstDir dstName = r at hdst hview' ⊢
              rcases r with ⟨code | ⟨dstParent, dstLeaf⟩, fs'⟩
              · exact (Refusal.fs p (hdst code rfl).1 hview').reports
              · exact reports_finish p hview' fun e => hv.rename
  · exact (Refusal.same p (by decide)).reports

theorem reports_setMeta (hv : KeptOnFailure view) (p : PktVolume φ) (args : List Long) (mem : μ)
    (update : Option MetaUpdate) :
    Reports view (· = (dosTrue, 0)) dosFalse p (p.setMeta args mem update) := by
  unfold setMeta
  split
  · split
    · exact (Refusal.same p (by decide)).reports
    · rename_i dir _
      split
      · exact (Refusal.same p (by decide)).reports
      · rename_i name _
        have hmeta := declines_resolveMetaTarget hv.toReadsKeep p.fs dir name
        have hview := hv.toReadsKeep.resolveMetaTarget p.fs dir name
        generalize resolveMetaTarget p.fs dir name = r at hmeta hview ⊢
        rcases r with ⟨code | target, fs⟩
        · exact (Refusal.fs p (hmeta code rfl).1 hview).reports
        · cases update with
          | none => exact (Refusal.fs p (by decide) hview).reports
          | some u => exact reports_finish p hview fun e => hv.setMetadata
  · exact (Refusal.same p (by decide)).reports

/-! ### The data actions, reached with an open file -/

theorem reports_readAction (hv : ReadsKeep view) (p : PktVolume φ) {args : List Long} (mem : μ)
    (hf : (p.fileAt (args.getD 0 0)).isSome) :
    Reports view (fun res => res.2 = 0) readWriteError p
      ((p.readAction args mem).1, (p.readAction args mem).2.1) := by
  rcases Option.isSome_iff_exists.mp hf with ⟨f, hf⟩
  unfold readAction
  rw [hf]
  have hview := hv.fileChain p.fs f.headerLba
  simp only
  generalize Ffs.fileChain p.fs f.headerLba = r at hview ⊢
  rcases r with ⟨e | chain, fs⟩
  · exact (Refusal.fs p (mapReadError_ne_zero e) hview).reports
  · simp only
    split
    · exact (Refusal.fs p (by decide) hview).reports
    · rename_i out put _
      have hread := (hv.readRange fs chain f.position out).trans hview
      generalize Ffs.readRange fs chain f.position out = r at hread ⊢
      -- The handle moves only when the range was read.
      rcases r with ⟨e | n, out', fs'⟩
      · exact (Refusal.fs p (mapReadError_ne_zero e) hread).reports
      · exact .of_ok rfl

theorem reports_writeAction (hv : KeptOnFailure view) (p : PktVolume φ) {args : List Long}
    (mem : μ) (hf : (p.fileAt (args.getD 0 0)).isSome) :
    Reports view (fun res => res.2 = 0) readWriteError p (p.writeAction args mem) := by
  rcases Option.isSome_iff_exists.mp hf with ⟨f, hf⟩
  unfold writeAction
  rw [hf]
  simp only
  split
  · split
    · exact (Refusal.same p (by decide)).reports
    · rename_i data _
      split
      · have hwrite := fun e => @hv.writeFile p.fs f.parentLba f.name f.position data e
        generalize Ffs.writeFile p.fs f.parentLba f.name f.position data = r at hwrite ⊢
        rcases r with ⟨e | u, fs⟩
        · exact (Refusal.fs p (mapMutateError_ne_zero e) (hwrite e rfl)).reports
        · exact .of_ok rfl
      · exact (Refusal.same p (by decide)).reports
  · exact (Refusal.same p (by decide)).reports

omit [GuestMemory μ] in
theorem reports_seekAction (hv : ReadsKeep view) (p : PktVolume φ) (args : List Long) :
    Reports view (fun res => res.2 = 0) readWriteError p (p.seekAction args) := by
  unfold seekAction
  split
  · exact (Refusal.same p (by decide)).reports
  · rename_i f _
    have hview := hv.fileChain p.fs f.headerLba
    generalize Ffs.fileChain p.fs f.headerLba = r at hview ⊢
    rcases r with ⟨e | chain, fs⟩
    · exact (Refusal.fs p (mapReadError_ne_zero e) hview).reports
    · simp only
      split
      · exact (Refusal.fs p (by decide) hview).reports
      · exact .of_ok rfl

omit [GuestMemory μ] in
theorem reports_setFileSize (hv : KeptOnFailure view) (p : PktVolume φ) (args : List Long) :
    Reports view (fun res => res.2 = 0) readWriteError p (p.setFileSize args) := by
  unfold setFileSize
  split
  · exact (Refusal.same p (by decide)).reports
  · rename_i f _
    split
    · have hview := hv.fileChain p.fs f.headerLba
      generalize Ffs.fileChain p.fs f.headerLba = r at hview ⊢
      rcases r with ⟨e | chain, fs⟩
      · exact (Refusal.fs p (mapReadError_ne_zero e) hview).reports
      · simp only
        split
        · exact (Refusal.fs p (by decide) hview).reports
        · rename_i base _
          generalize (base + (args.getD 1 0).toInt).toNat = size
          have hcut := fun e => @hv.truncate fs f.parentLba f.name size e
          generalize Ffs.truncate fs f.parentLba f.name size = r at hcut ⊢
          rcases r with ⟨e | u, fs'⟩
          · exact (Refusal.fs p (mapMutateError_ne_zero e) ((hcut e rfl).trans hview)).reports
          · exact .of_ok rfl
    · exact (Refusal.same p (by decide)).reports

end Memory

/-! ### The packet -/

omit [Ffs φ] in
theorem Reports.bool {p : PktVolume φ} (ha : a ∉ findActions ∧ a ∉ dataActions ∧ a ∉ lockActions)
    (h : Reports view (· = (dosTrue, 0)) fail p r) : Reports view (success a) fail p r := by
  intro hno
  rw [success_bool ha.1 (not_or.mpr ha.2)] at hno
  exact h hno

omit [Ffs φ] in
theorem Reports.coded {p : PktVolume φ} (ha : a ∉ findActions ∧ (a ∈ dataActions ∨ a ∈ lockActions))
    (h : Reports view (fun res => res.2 = 0) fail p r) : Reports view (success a) fail p r := by
  intro hno
  rw [success_coded ha.1 ha.2] at hno
  exact h hno

omit [Ffs φ] in
theorem Reports.find {p : PktVolume φ} (ha : a ∈ findActions)
    (h : Reports view (fun res => res.1 = dosTrue) fail p r) :
    Reports view (success a) fail p r := by
  intro hno
  rw [success_find ha] at hno
  exact h hno

variable [GuestMemory μ]

/-- Of the actions that answer a truth value, a lock or a file, every refusal is a good one. -/
theorem reports_of_not_data (hv : KeptOnFailure view) (p : PktVolume φ) (args : List Long)
    (mem : μ) (a : Long) : a ∉ dataActions → Reports view (success a) dosFalse p
      ((p.executeInner a args mem).1, (p.executeInner a args mem).2.1) := by
  apply dispatch (P := fun a r => a ∉ dataActions →
    Reports view (success a) dosFalse p (r.1, r.2.1)) p args mem
  case inhibit => exact fun _ => (reports_inhibitAction p args).bool (by decide)
  case format => exact fun _ => (reports_formatAction hv p args mem).bool (by decide)
  case isFilesystem => exact fun _ => Reports.bool (by decide) (.of_ok rfl)
  case diskInfo => exact fun _ => (reports_fillDiskInfo p _ mem).bool (by decide)
  case refused => exact fun _ a _ => (Refusal.same p (by decide)).reports
  case unknown => exact fun a _ => (Refusal.same p (by decide)).reports
  case locateObject =>
    exact fun _ _ => (reports_issueLock p (declines_locateTarget hv.toReadsKeep p args mem)).coded
      (by decide)
  case freeLock => exact fun _ _ => (reports_freeLock p args).bool (by decide)
  case copyDir =>
    exact fun _ _ => (reports_issueLock p (declines_copyDirTarget p args)).coded (by decide)
  case parent =>
    exact fun _ _ => (reports_issueLock p (declines_parentTarget hv.toReadsKeep p args)).coded
      (by decide)
  case sameLock => exact fun _ _ => (reports_sameLock p args).coded (by decide)
  case examineObject =>
    exact fun _ _ => (reports_examineObject hv.toReadsKeep p args mem).bool (by decide)
  case examineNext =>
    exact fun _ _ => (reports_examineNext hv.toReadsKeep p args mem).bool (by decide)
  case info => exact fun _ _ => (reports_fillDiskInfo p _ mem).bool (by decide)
  case findInput =>
    exact fun _ _ => (reports_issueFile p (declines_findInputTarget hv.toReadsKeep p args mem)).find
      (by decide)
  case findOutput => exact fun _ _ => (reports_findOutput hv p args mem).find (by decide)
  case findUpdate => exact fun _ _ => (reports_findUpdate hv p args mem).find (by decide)
  case end' => exact fun _ _ => (reports_end p args).bool (by decide)
  case createDir => exact fun _ _ => (reports_createDirAction hv p args mem).coded (by decide)
  case deleteObject => exact fun _ _ => (reports_deleteObject hv p args mem).bool (by decide)
  case renameObject => exact fun _ _ => (reports_renameObject hv p args mem).bool (by decide)
  case setProtect => exact fun _ _ => (reports_setMeta hv p args mem _).bool (by decide)
  case setComment => exact fun _ _ => (reports_setMeta hv p args mem _).bool (by decide)
  case setDate => exact fun _ _ => (reports_setMeta hv p args mem _).bool (by decide)
  case flush => exact fun _ _ => (reports_flush p).bool (by decide)
  -- The data actions answer otherwise.
  case read => exact fun _ h => absurd (by decide) h
  case write => exact fun _ h => absurd (by decide) h
  case seek => exact fun _ h => absurd (by decide) h
  case setFileSize => exact fun _ h => absurd (by decide) h

/-- The packets whose refusals reach the guest as such. -/
def Distinguishes (p : PktVolume φ) (k : Packet μ) : Prop :=
  k.action ∈ dataActions → p.inhibited = false ∧
    (k.action = Action.read ∨ k.action = Action.write → (p.fileAt (k.args.getD 0 0)).isSome)

theorem reports_of_data (hv : KeptOnFailure view) {p : PktVolume φ} {args : List Long} {mem : μ}
    (ha : a ∈ dataActions) (hinh : p.inhibited = false)
    (hf : a = Action.read ∨ a = Action.write → (p.fileAt (args.getD 0 0)).isSome) :
    Reports view (success a) readWriteError p
      ((p.executeInner a args mem).1, (p.executeInner a args mem).2.1) := by
  rcases executeInner_data hinh args mem with ⟨hread, hwrite, hseek, hsize⟩
  simp only [dataActions, List.mem_cons, List.not_mem_nil, or_false] at ha
  rcases ha with rfl | rfl | rfl | rfl
  · rw [hread]
    exact (reports_readAction hv.toReadsKeep p mem (hf (.inl rfl))).coded (by decide)
  · rw [hwrite]
    exact (reports_writeAction hv p mem (hf (.inr rfl))).coded (by decide)
  · rw [hseek]
    exact (reports_seekAction hv.toReadsKeep p args).coded (by decide)
  · rw [hsize]
    exact (reports_setFileSize hv p args).coded (by decide)

/-- A data action answered with zero and a code. -/
theorem not_refusesVisibly {p : PktVolume φ} {k : Packet μ} {code : Long}
    (ha : k.action ∈ dataActions) (hcode : code ≠ 0) (h : p.answer k = (dosFalse, code)) :
    ¬p.RefusesVisibly view k := by
  intro hrefuses
  have hfailed : ¬success k.action (p.answer k) := by
    have hfind : k.action ∉ findActions := by
      simp only [dataActions, List.mem_cons, List.not_mem_nil, or_false] at ha
      rcases ha with h | h | h | h <;> rw [h] <;> decide
    rw [success_coded hfind (.inl ha), h]
    exact hcode
  have hres := (hrefuses hfailed).res1
  rw [h, failureValue_data ha] at hres
  exact absurd hres (show dosFalse ≠ readWriteError by decide)

end Actions

/-! ## On a volume in memory -/

theorem keptOnFailure_tree : KeptOnFailure TreeFs.tree where
  lookup _ _ _ := rfl
  lookupPath _ _ _ := rfl
  readDir _ _ := rfl
  entryAt _ _ := rfl
  comment _ _ := rfl
  fileChain _ _ := rfl
  readRange _ _ _ _ := rfl
  createFile := LawfulFfs.createFile_error
  createDir := LawfulFfs.createDir_error
  writeFile h := congrArg TreeFs.tree (TreeFs.edit_error _ h)
  truncate h := congrArg TreeFs.tree (TreeFs.edit_error _ h)
  delete := LawfulFfs.delete_error
  rename := LawfulFfs.rename_error
  setMetadata _ := rfl
  format := by
    intro t _ _ _ _ e h
    simp only [Ffs.format] at h ⊢
    split at h
    · cases h
    · rename_i hroot
      rw [dif_neg hroot]

end PktVolume

end M68kMachine
