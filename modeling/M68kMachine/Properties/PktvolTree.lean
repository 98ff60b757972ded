import M68kMachine.Properties.PktvolHandles
import M68kMachine.Properties.PktvolReads

/-!
# What a packet does to the tree, and to the files open in it

Over a filesystem that keeps its laws, a packet leaves the tree as it was or makes one of four
changes to it. A file stays attached to its header block and its entry through all but the deletion
or the renaming of that entry.

* `Kept` — what a step does to the tree keeps every file attached that it does not name
* `Quiet`, `Opens` — the open files after a packet: those there were, and the one it opened
* `step_opens` — every packet is such a step
-/

namespace M68kMachine

namespace PktVolume

open HandleLog VolumeTree

variable {φ μ : Type} [Ffs φ] [LawfulFfs φ] {t : VolumeTree}

/-- The tree a volume holds. -/
abbrev tree (p : PktVolume φ) : VolumeTree := LawfulFfs.view p.fs

/-! ## Steps of the tree -/

/-- Every file stays attached to a block and an entry, unless `e` is that entry. -/
structure Kept (t t' : VolumeTree) (e : Option (Nat × List Byte)) : Prop where
  attached : ∀ {id b dir : Nat} {name : List Byte}, t.Attached id b dir name →
    (∀ d n, e = some (d, n) → ¬(d = dir ∧ t.key n = t.key name)) → t'.Attached id b dir name

omit [Ffs φ] [LawfulFfs φ] in
theorem Kept.of_eq {t' : VolumeTree} (h : t' = t) (e : Option (Nat × List Byte)) :
    Kept t t' e := ⟨fun ha _ => h ▸ ha⟩

theorem Kept.create {t : VolumeTree} {c d : Nat} {n : List Byte} {body : Option (List Byte)}
    (hfree : t.obj c = none) : Kept t (t.create c d n body) none :=
  ⟨fun ha _ => ha.create body hfree⟩

theorem Kept.setBody (t : VolumeTree) (c : Nat) (bytes : List Byte) :
    Kept t (t.setBody c (some bytes)) none := ⟨fun ha _ => ha.setBody c bytes⟩

/-- The object an entry names is not the one attached to another entry. -/
theorem ne_of_names {id b c dir d : Nat} {name n : List Byte} (ha : t.Attached id b dir name)
    (hc : t.Names d n c) (hne : ¬(d = dir ∧ t.key n = t.key name)) : b ≠ c := by
  rintro rfl
  obtain ⟨o, ho, -, -, hp, hk⟩ := ha
  obtain ⟨o', ho', hp', hk'⟩ := hc
  rw [ho] at ho'
  cases ho'
  -- One object has one parent and one name.
  rw [hp] at hp'
  exact hne ⟨(Option.some.inj hp').symm, hk'.symm.trans hk⟩

theorem Kept.remove {t : VolumeTree} {c d : Nat} {n : List Byte} (hc : t.Names d n c) :
    Kept t (t.remove c) (some (d, n)) :=
  ⟨fun ha hne => ha.remove (ne_of_names ha hc (hne d n rfl))⟩

theorem Kept.move {t : VolumeTree} {c d : Nat} {n : List Byte} (hc : t.Names d n c) (d' : Nat)
    (n' : List Byte) : Kept t (t.move c d' n') (some (d, n)) :=
  ⟨fun ha hne => ha.move (ne_of_names ha hc (hne d n rfl)) d' n'⟩

/-! ## Reads leave the tree alone -/

theorem readsKeep_view : ReadsKeep (LawfulFfs.view : φ → VolumeTree) where
  lookup := LawfulFfs.view_lookup
  lookupPath := LawfulFfs.view_lookupPath
  readDir := LawfulFfs.view_readDir
  entryAt := LawfulFfs.view_entryAt
  comment := LawfulFfs.view_comment
  fileChain := LawfulFfs.view_fileChain
  readRange := LawfulFfs.view_readRange

variable [GuestMemory μ] (p : PktVolume φ) (args : List Long) (mem : μ) {p' : PktVolume φ}
  {e : Option (Nat × List Byte)} {k : Packet μ}

/-! ## The open files after a packet -/

/-- The same file, whatever its position. -/
def OpenFile.Same (f f' : OpenFile) : Prop :=
  f'.parentLba = f.parentLba ∧ f'.name = f.name ∧ f'.headerLba = f.headerLba

/-- Every file open after a packet was so before and is attached; only the entry `e` changed. -/
structure Quiet (p p' : PktVolume φ) (e : Option (Nat × List Byte)) : Prop where
  old : ∀ {h : Long} {f' : OpenFile}, p'.fileAt h = some f' →
    (∃ f, p.fileAt h = some f ∧ OpenFile.Same f f') ∧ Kept p.tree p'.tree e

omit [GuestMemory μ] in
theorem Quiet.fs (p : PktVolume φ) {fs : φ} {e : Option (Nat × List Byte)}
    (h : Kept p.tree (LawfulFfs.view fs) e) : Quiet p { p with fs := fs } e :=
  ⟨fun hf => ⟨⟨_, hf, rfl, rfl, rfl⟩, h⟩⟩

omit [GuestMemory μ] in
theorem Quiet.view {fs : φ} (h : LawfulFfs.view fs = p.tree) (e : Option (Nat × List Byte)) :
    Quiet p { p with fs := fs } e :=
  .fs p (Kept.of_eq h e)

omit [GuestMemory μ] in
theorem Quiet.refl (e : Option (Nat × List Byte)) : Quiet p p e :=
  .view p rfl e

omit [Ffs φ] [LawfulFfs φ] [GuestMemory μ] in
theorem fileAt_setHandle (id : Long) (x : Option Handle) (h : Long) :
    (p.setHandle id x).fileAt h =
      if h = id then (match x with | some (.file f) => some f | _ => none) else p.fileAt h := by
  unfold fileAt setHandle
  by_cases hi : h = id
  · rcases x with _ | _ | _ <;> simp only [if_pos hi]
  · simp only [if_neg hi]

omit [GuestMemory μ] in
/-- A handle that is dropped, or a lock put into the table. -/
theorem Quiet.setHandle {p : PktVolume φ} (hq : Quiet p p' e) (id : Long) {x : Option Handle}
    (hx : ∀ f, x ≠ some (.file f)) : Quiet p (p'.setHandle id x) e := by
  constructor
  intro h f' hf
  rw [fileAt_setHandle] at hf
  by_cases hi : h = id
  · rw [if_pos hi] at hf
    split at hf
    · rename_i f
      exact absurd rfl (hx f)
    · cases hf
  · rw [if_neg hi] at hf
    exact hq.old hf

omit [GuestMemory μ] in
theorem Quiet.allocLock {p : PktVolume φ} (hq : Quiet p p' e) (lba : Nat) :
    Quiet p (p'.allocHandle (.lock lba)).2 e :=
  ⟨(hq.setHandle p'.nextHandle (x := some (.lock lba)) (by simp)).old⟩

omit [GuestMemory μ] in
/-- A file whose position moves. -/
theorem Quiet.seekTo (p : PktVolume φ) {fs : φ} {e : Option (Nat × List Byte)} {handle : Long}
    {f : OpenFile} (hf : p.fileAt handle = some f) (h : Kept p.tree (LawfulFfs.view fs) e)
    (position : Nat) : Quiet p ({ p with fs := fs }.seekTo handle f position) e := by
  constructor
  intro i f' hf'
  rw [PktVolume.seekTo, fileAt_setHandle] at hf'
  by_cases hi : i = handle
  · rw [if_pos hi] at hf'
    cases hf'
    exact ⟨⟨f, hi ▸ hf, rfl, rfl, rfl⟩, h⟩
  · rw [if_neg hi] at hf'
    exact ⟨⟨f', hf', rfl, rfl, rfl⟩, h⟩

omit [GuestMemory μ] in
/-- A volume without open files. -/
theorem Quiet.of_closed {p : PktVolume φ} (h : ∀ i, p'.fileAt i = none)
    (e : Option (Nat × List Byte)) : Quiet p p' e := by
  constructor
  intro i f hf
  rw [h i] at hf
  cases hf

/-! ### The mutations -/

omit [GuestMemory μ] in
theorem kept_writeFile (fs : φ) (d : Nat) (n : List Byte) (pos : Nat) (data : List Byte) :
    Kept (LawfulFfs.view fs) (LawfulFfs.view (Ffs.writeFile fs d n pos data).2) none := by
  cases hr : (Ffs.writeFile fs d n pos data).1 with
  | ok u =>
    obtain ⟨b, bytes, -, -, hview⟩ := LawfulFfs.writeFile_ok hr
    rw [hview]
    exact Kept.setBody _ b _
  -- A failed write may have reached part of the file.
  | error e =>
    rcases LawfulFfs.writeFile_error hr with hview | ⟨b, bytes, -, hview⟩
    · exact Kept.of_eq hview none
    · rw [hview]
      exact Kept.setBody _ b bytes

omit [GuestMemory μ] in
theorem kept_truncate (fs : φ) (d : Nat) (n : List Byte) (size : Nat) :
    Kept (LawfulFfs.view fs) (LawfulFfs.view (Ffs.truncate fs d n size).2) none := by
  cases hr : (Ffs.truncate fs d n size).1 with
  | ok u =>
    obtain ⟨b, bytes, -, -, hview⟩ := LawfulFfs.truncate_ok hr
    rw [hview]
    exact Kept.setBody _ b _
  | error e =>
    rcases LawfulFfs.truncate_error hr with hview | ⟨b, bytes, -, hview⟩
    · exact Kept.of_eq hview none
    · rw [hview]
      exact Kept.setBody _ b bytes

omit [GuestMemory μ] in
theorem kept_createDir (fs : φ) (d : Nat) (n : List Byte) :
    Kept (LawfulFfs.view fs) (LawfulFfs.view (Ffs.createDir fs d n).2) none := by
  cases hr : (Ffs.createDir fs d n).1 with
  | ok b =>
    obtain ⟨hfree, hview⟩ := LawfulFfs.createDir_ok hr
    rw [hview]
    exact Kept.create hfree
  | error e => exact Kept.of_eq (LawfulFfs.createDir_error hr) none

omit [GuestMemory μ] in
theorem kept_createFile (fs : φ) (d : Nat) (n : List Byte) :
    Kept (LawfulFfs.view fs) (LawfulFfs.view (Ffs.createFile fs d n).2) none := by
  cases hr : (Ffs.createFile fs d n).1 with
  | ok b =>
    obtain ⟨hfree, hview⟩ := LawfulFfs.createFile_ok hr
    rw [hview]
    exact Kept.create hfree
  | error e => exact Kept.of_eq (LawfulFfs.createFile_error hr) none

omit [GuestMemory μ] in
theorem kept_delete (fs : φ) (d : Nat) (n : List Byte) :
    Kept (LawfulFfs.view fs) (LawfulFfs.view (Ffs.delete fs d n).2) (some (d, n)) := by
  cases hr : (Ffs.delete fs d n).1 with
  | ok u =>
    obtain ⟨b, hnames, hview⟩ := LawfulFfs.delete_ok hr
    rw [hview]
    exact Kept.remove hnames
  | error e => exact Kept.of_eq (LawfulFfs.delete_error hr) _

omit [GuestMemory μ] in
theorem kept_rename (fs : φ) (d d' : Nat) (n n' : List Byte) :
    Kept (LawfulFfs.view fs) (LawfulFfs.view (Ffs.rename fs d n d' n').2) (some (d, n)) := by
  cases hr : (Ffs.rename fs d n d' n').1 with
  | ok u =>
    obtain ⟨b, hnames, hview⟩ := LawfulFfs.rename_ok hr
    rw [hview]
    exact Kept.move hnames d' n'
  | error e => exact Kept.of_eq (LawfulFfs.rename_error hr) _

/-! ### The actions that open no file -/

omit [GuestMemory μ] in
theorem quiet_finish {r : Except MutateError Unit × φ} (h : Kept p.tree (LawfulFfs.view r.2) e) :
    Quiet p (p.finish r).2 e := by
  obtain ⟨_ | _, fs⟩ := r <;> exact .fs p h

omit [GuestMemory μ] in
theorem quiet_issueLock {r : Except Long Nat × φ} (h : LawfulFfs.view r.2 = p.tree) :
    Quiet p (p.issueLock r).2 none := by
  obtain ⟨_ | lba, fs⟩ := r
  · exact .view p h none
  -- The root has no lock of its own: nothing is issued.
  · by_cases hroot : lba = Ffs.rootLba fs
    · simp only [issueLock, dupLock, hroot, if_true]
      exact .view p h none
    · simp only [issueLock, dupLock, if_neg hroot]
      exact (Quiet.view p h none).allocLock lba

theorem quiet_createDirAction : Quiet p (p.createDirAction args mem).2 none := by
  unfold createDirAction createDirTarget
  split
  · have hview := readsKeep_view.openForFind p (args.getD 0 0) (args.getD 1 0) mem
    generalize p.openForFind (args.getD 0 0) (args.getD 1 0) mem = r at hview ⊢
    obtain ⟨_ | ⟨d, n⟩, fs⟩ := r
    · exact .view p hview none
    · have hkept := kept_createDir fs d n
      rw [show LawfulFfs.view fs = p.tree from hview] at hkept
      simp only
      generalize Ffs.createDir fs d n = r at hkept ⊢
      obtain ⟨_ | lba, fs'⟩ := r
      · exact .fs p hkept
      · exact (Quiet.fs p hkept).allocLock lba
  · exact .refl p none

omit [GuestMemory μ] in
theorem quiet_freeLock : Quiet p (p.freeLock args).2 none := by
  unfold freeLock
  simp only
  split
  · exact .refl p none
  · split
    · exact (Quiet.refl p none).setHandle _ (by simp)
    · exact .refl p none

omit [GuestMemory μ] in
theorem quiet_end : Quiet p (p.end' args).2 none := by
  unfold end'
  split
  · exact (Quiet.refl p none).setHandle _ (by simp)
  · exact .refl p none

omit [GuestMemory μ] in
theorem quiet_sameLock : Quiet p (p.sameLock args).2 none := by
  unfold sameLock
  split
  · split <;> exact .refl p none
  · exact .refl p none

theorem quiet_examineObject : Quiet p (p.examineObject args mem).2.1 none := by
  unfold examineObject
  cases p.resolveLock (args.getD 0 0) with
  | none => exact .refl p none
  | some lba =>
    have hview := readsKeep_view.examineTarget p.fs lba
    simp only
    generalize examineTarget p.fs lba = r at hview ⊢
    obtain ⟨_ | info, fs⟩ := r
    · exact .view p hview none
    · exact .view p ((readsKeep_view.countBlocks _ _ _).trans hview) none

theorem quiet_examineNext : Quiet p (p.examineNext args mem).2.1 none := by
  unfold examineNext
  cases p.resolveLock (args.getD 0 0) with
  | none => exact .refl p none
  | some dir =>
    simp only
    cases GuestMemory.ramSlice mem (args.getD 1 0 * 4) 4 with
    | none => exact .refl p none
    | some k =>
      have hview := LawfulFfs.view_readDir p.fs dir
      simp only
      generalize Ffs.readDir p.fs dir = r at hview ⊢
      obtain ⟨_ | entries, fs⟩ := r
      · exact .view p hview none
      · simp only
        split
        · exact .view p hview none
        · rename_i entry _
          have hcomment := LawfulFfs.view_comment fs entry
          generalize Ffs.comment fs entry = r at hcomment ⊢
          obtain ⟨_ | _, fs'⟩ := r
          · exact .view p (hcomment.trans hview) none
          · exact .view p ((readsKeep_view.countBlocks _ _ _).trans (hcomment.trans hview)) none

theorem quiet_readAction : Quiet p (p.readAction args mem).2.1 none := by
  unfold readAction
  cases hf : p.fileAt (args.getD 0 0) with
  | none => exact .refl p none
  | some f =>
    have hview := LawfulFfs.view_fileChain p.fs f.headerLba
    simp only
    generalize Ffs.fileChain p.fs f.headerLba = r at hview ⊢
    obtain ⟨_ | chain, fs⟩ := r
    · exact .view p hview none
    · simp only
      split
      · exact .view p hview none
      · rename_i out put _
        have hread := LawfulFfs.view_readRange fs chain f.position out
        generalize Ffs.readRange fs chain f.position out = r at hread ⊢
        obtain ⟨_ | n, out, fs'⟩ := r
        · exact .view p (hread.trans hview) none
        · exact .seekTo p hf (Kept.of_eq (hread.trans hview) none) _

theorem quiet_writeAction : Quiet p (p.writeAction args mem).2 none := by
  unfold writeAction
  cases hf : p.fileAt (args.getD 0 0) with
  | none => exact .refl p none
  | some f =>
    simp only
    split
    · split
      · exact .refl p none
      · rename_i data _
        split
        · have hkept := kept_writeFile p.fs f.parentLba f.name f.position data
          generalize Ffs.writeFile p.fs f.parentLba f.name f.position data = r at hkept ⊢
          obtain ⟨_ | _, fs⟩ := r
          · exact .fs p hkept
          · exact .seekTo p hf hkept _
        · exact .refl p none
    · exact .refl p none

omit [GuestMemory μ] in
theorem quiet_seekAction : Quiet p (p.seekAction args).2 none := by
  unfold seekAction
  cases hf : p.fileAt (args.getD 0 0) with
  | none => exact .refl p none
  | some f =>
    have hview := LawfulFfs.view_fileChain p.fs f.headerLba
    simp only
    generalize Ffs.fileChain p.fs f.headerLba = r at hview ⊢
    obtain ⟨_ | chain, fs⟩ := r
    · exact .view p hview none
    · simp only
      split
      · exact .view p hview none
      · exact .seekTo p hf (Kept.of_eq hview none) _

omit [GuestMemory μ] in
theorem quiet_setFileSize : Quiet p (p.setFileSize args).2 none := by
  unfold setFileSize
  cases hf : p.fileAt (args.getD 0 0) with
  | none => exact .refl p none
  | some f =>
    simp only
    split
    · have hview := LawfulFfs.view_fileChain p.fs f.headerLba
      generalize Ffs.fileChain p.fs f.headerLba = r at hview ⊢
      obtain ⟨_ | chain, fs⟩ := r
      · exact .view p hview none
      · simp only
        split
        · exact .view p hview none
        · rename_i base _
          -- The position is not looked at again.
          have hkept := kept_truncate fs f.parentLba f.name (base + (args.getD 1 0).toInt).toNat
          rw [show LawfulFfs.view fs = p.tree from hview] at hkept
          generalize Ffs.truncate fs f.parentLba f.name (base + (args.getD 1 0).toInt).toNat = r
            at hkept ⊢
          obtain ⟨_ | _, fs'⟩ := r <;> exact .fs p hkept
    · exact .refl p none

theorem quiet_setMeta (update : Option MetaUpdate) :
    Quiet p (p.setMeta args mem update).2 none := by
  unfold setMeta
  split
  · split
    · exact .refl p none
    · rename_i dir _
      split
      · exact .refl p none
      · rename_i name _
        have hview := readsKeep_view.resolveMetaTarget p.fs dir name
        generalize resolveMetaTarget p.fs dir name = r at hview ⊢
        obtain ⟨_ | target, fs⟩ := r
        · exact .view p hview none
        · cases update with
          | none => exact .view p hview none
          | some u =>
            exact quiet_finish p
              (Kept.of_eq ((LawfulFfs.view_setMetadata fs target u).trans hview) none)
  · exact .refl p none

omit [GuestMemory μ] in
theorem quiet_flush : Quiet p p.flush.2 none := by
  show Quiet p (if p.writable then { p with fs := Ffs.sync p.fs } else p) none
  split
  · exact .view p (LawfulFfs.view_sync p.fs) none
  · exact .refl p none

/-! ### Deleting and renaming -/

/-- The entry a `DELETE_OBJECT` or `RENAME_OBJECT` packet names. -/
def entryOf (p : PktVolume φ) (k : Packet μ) : Option (Nat × List Byte) :=
  if k.action = Action.deleteObject ∨ k.action = Action.renameObject then
    (p.openForFind (k.args.getD 0 0) (k.args.getD 1 0) k.mem).1.toOption
  else none

theorem quiet_deleteObject :
    Quiet p (p.deleteObject args mem).2
      (p.openForFind (args.getD 0 0) (args.getD 1 0) mem).1.toOption := by
  unfold deleteObject
  split
  · have hview := readsKeep_view.openForFind p (args.getD 0 0) (args.getD 1 0) mem
    generalize p.openForFind (args.getD 0 0) (args.getD 1 0) mem = r at hview ⊢
    obtain ⟨_ | ⟨d, n⟩, fs⟩ := r
    · exact .view p hview _
    · have hkept := kept_delete fs d n
      rw [show LawfulFfs.view fs = p.tree from hview] at hkept
      exact quiet_finish p hkept
  · exact .refl p _

theorem quiet_renameObject :
    Quiet p (p.renameObject args mem).2
      (p.openForFind (args.getD 0 0) (args.getD 1 0) mem).1.toOption := by
  unfold renameObject openForFind
  split
  · cases p.resolveLock (args.getD 0 0) with
    | none => exact .refl p _
    | some src =>
      simp only
      cases readName mem (args.getD 1 0) with
      | none => exact .refl p _
      | some srcName =>
        have hview := readsKeep_view.splitParent p.fs src srcName
        simp only
        split
        · exact .refl p _
        · rename_i dst _
          split
          · exact .refl p _
          · rename_i dstName _
            generalize splitParent p.fs src srcName = r at hview ⊢
            obtain ⟨_ | ⟨d, n⟩, fs⟩ := r
            · exact .view p hview _
            · have hview' := readsKeep_view.splitParent fs dst dstName
              simp only
              generalize splitParent fs dst dstName = r at hview' ⊢
              obtain ⟨_ | ⟨d', n'⟩, fs'⟩ := r
              · exact .view p (hview'.trans hview) _
              · have hkept := kept_rename fs' d d' n n'
                rw [show LawfulFfs.view fs' = p.tree from hview'.trans hview] at hkept
                exact quiet_finish p hkept
  · exact .refl p _

/-! ### Opening files -/

/-- A search parts no file from its entry, and what it finds is attached. -/
structure Finds (p : PktVolume φ) (t : Except Long OpenFile × φ) : Prop where
  kept : Kept p.tree (LawfulFfs.view t.2) none
  found : ∀ {f : OpenFile}, t.1 = .ok f →
    ∃ id, (LawfulFfs.view t.2).Attached id f.headerLba f.parentLba f.name

omit [Ffs φ] [LawfulFfs φ] [GuestMemory μ] in
theorem attached_of_namesFile {d b : Nat} {n : List Byte} (h : t.NamesFile d n b) :
    ∃ id, t.Attached id b d n := by
  obtain ⟨⟨o, ho, hp, hk⟩, hfile⟩ := h
  refine ⟨o.id, o, ho, rfl, ?_, hp, hk⟩
  rwa [VolumeTree.bytesOf, ho] at hfile

omit [GuestMemory μ] in
theorem Finds.error {fs : φ} (h : LawfulFfs.view fs = p.tree) (code : Long) :
    Finds p (.error code, fs) :=
  ⟨Kept.of_eq h none, fun hf => nomatch hf⟩

omit [GuestMemory μ] in
theorem finds_createTarget {fs : φ} (h : LawfulFfs.view fs = p.tree) (d : Nat) (n : List Byte) :
    Finds p (createTarget fs d n) := by
  have hkept := kept_createFile fs d n
  rw [h] at hkept
  -- What was created is the file the entry names.
  have hok : ∀ b, (Ffs.createFile fs d n).1 = .ok b →
      ∃ id, (LawfulFfs.view (Ffs.createFile fs d n).2).Attached id b d n := by
    intro b hb
    obtain ⟨-, hview⟩ := LawfulFfs.createFile_ok hb
    rw [hview]
    exact ⟨_, _, FileTree.obj_setObj_self _ _ _, rfl, rfl, rfl, rfl⟩
  unfold createTarget
  generalize Ffs.createFile fs d n = r at hkept hok ⊢
  obtain ⟨_ | b, fs'⟩ := r
  · exact ⟨hkept, fun hf => nomatch hf⟩
  · refine ⟨hkept, fun hf => ?_⟩
    cases hf
    exact hok b rfl

/-- The file that a search finds is attached to the name looked up. -/
theorem attached_of_lookup {fs : φ} {d : Nat} {n : List Byte} {e : Entry}
    (hview : LawfulFfs.view fs = p.tree) (hlook : (Ffs.lookup fs d n).1 = .ok (some e))
    (hfile : e.kind.isFile = true) : ∃ id, p.tree.Attached id e.lba d n := by
  have hnames := LawfulFfs.lookup_file hlook hfile
  rw [hview] at hnames
  exact attached_of_namesFile hnames

theorem finds_findInputTarget : Finds p (p.findInputTarget args mem) := by
  rw [findInputTarget_eq]
  refine readsKeep_view.findTarget (fun code _ _ hview => .error p hview code)
    (fun _ _ _ hview => .error p hview _) ?_
  intro d n fs e _ hview hlook hfile hkept
  refine ⟨Kept.of_eq hkept none, fun hf => ?_⟩
  cases hf
  rw [hkept]
  exact attached_of_lookup p hview hlook hfile

theorem finds_findUpdateTarget : Finds p (p.findUpdateTarget args mem) := by
  rw [findUpdateTarget_eq]
  refine readsKeep_view.findTarget (fun code _ _ hview => .error p hview code)
    (fun _ d n hview => finds_createTarget p hview d n) ?_
  intro d n fs e _ hview hlook hfile hkept
  refine ⟨Kept.of_eq hkept none, fun hf => ?_⟩
  cases hf
  rw [hkept]
  exact attached_of_lookup p hview hlook hfile

theorem finds_findOutputTarget : Finds p (p.findOutputTarget args mem) := by
  rw [findOutputTarget_eq]
  refine readsKeep_view.findTarget (fun code _ _ hview => .error p hview code)
    (fun _ d n hview => finds_createTarget p hview d n) ?_
  intro d n fs e _ hview hlook hfile hsame
  obtain ⟨id, hattached⟩ := attached_of_lookup p hview hlook hfile
  have hkept := kept_truncate (Ffs.lookup fs d n).2 d n 0
  rw [hsame] at hkept
  generalize Ffs.truncate (Ffs.lookup fs d n).2 d n 0 = r at hkept ⊢
  obtain ⟨_ | _, fs'⟩ := r
  · exact ⟨hkept, fun hf => nomatch hf⟩
  · refine ⟨hkept, fun hf => ?_⟩
    cases hf
    -- Emptied, the file is still attached to its entry.
    exact ⟨id, hkept.attached hattached nofun⟩

/-! ## Every packet -/

/-- The open files, with the tree changed at `e` alone, and the attached one that was opened. -/
structure Opens (p p' : PktVolume φ) (e : Option (Nat × List Byte))
    (ev : Option (HandleLog.Event Long Named)) : Prop where
  old : ∀ {h : Long} {f' : OpenFile}, p'.fileAt h = some f' → (∀ w, ev ≠ some (.issue h w)) →
    (∃ f, p.fileAt h = some f ∧ OpenFile.Same f f') ∧ Kept p.tree p'.tree e
  opened : ∀ {h : Long} {b : Nat}, ev = some (.issue h (.file, b)) → ∃ f id,
    p'.fileAt h = some f ∧ f.headerLba = b ∧ p'.tree.Attached id b f.parentLba f.name

omit [LawfulFfs φ] in
/-- Only `FIND…` issues a file. -/
theorem eventOf_ne_file (hk : k.action ∉ [Action.findInput, Action.findOutput, Action.findUpdate])
    (res : Res) (h : Long) (b : Nat) : p.eventOf k res ≠ some (.issue h (.file, b)) := by
  simp only [List.mem_cons, List.not_mem_nil, or_false, not_or] at hk
  obtain ⟨h1, h2, h3⟩ := hk
  have htarget : ∀ w, p.target k = some w → w.1 = .lock := by
    intro w hw
    unfold target at hw
    rw [if_neg h1, if_neg h2, if_neg h3] at hw
    -- The other issuing actions give a lock.
    have hmap : ∀ {x : Option Nat}, x.map (HandleKind.lock, ·) = some w → w.1 = .lock := by
      intro x hx
      obtain ⟨b, -, rfl⟩ := Option.map_eq_some_iff.mp hx
      rfl
    split at hw
    · exact hmap hw
    split at hw
    · exact hmap hw
    split at hw
    · exact hmap hw
    split at hw
    · exact hmap hw
    · cases hw
  intro hev
  unfold eventOf at hev
  cases hi : issueEvent (handleOf k.action res) (p.target k) with
  | none =>
    rw [hi, Option.none_or] at hev
    split at hev
    · cases hev
    · split at hev <;> cases hev
  | some ev =>
    rw [hi, Option.some_or] at hev
    obtain rfl := Option.some.inj hev
    unfold issueEvent at hi
    split at hi
    · rename_i x w _ htw
      split at hi
      · cases hi
      · cases hi
        exact absurd (htarget _ htw) (by simp)
    · cases hi

theorem Quiet.opens {p : PktVolume φ} (hq : Quiet p p' e)
    (hk : k.action ∉ [Action.findInput, Action.findOutput, Action.findUpdate]) (res : Res) :
    Opens p p' e (p.eventOf k res) :=
  ⟨fun hf _ => hq.old hf, fun hev => absurd hev (eventOf_ne_file p hk res _ _)⟩

omit [GuestMemory μ] in
/-- The handle issued for a file that was found. -/
theorem Finds.opens {p : PktVolume φ} {t : Except Long OpenFile × φ} (ht : Finds p t)
    (hn : p.nextHandle ≠ 0) :
    Opens p (p.issueFile t).2 none
      (issueEvent (if (p.issueFile t).1.1 = dosTrue then some (p.issueFile t).1.2 else none)
        (t.1.toOption.map fun f => (HandleKind.file, f.headerLba))) := by
  obtain ⟨_ | f, fs⟩ := t
  · exact ⟨fun hf _ => ⟨⟨_, hf, rfl, rfl, rfl⟩, ht.kept⟩, fun hev => nomatch hev⟩
  · simp only [issueFile, allocHandle, if_true, issueEvent, Except.toOption, Option.map_some,
      if_neg hn]
    have hat : ∀ h, ({ ({ p with fs := fs } : PktVolume φ).setHandle p.nextHandle
        (some (.file f)) with nextHandle := nextId p.nextHandle } : PktVolume φ).fileAt h =
          if h = p.nextHandle then some f else p.fileAt h :=
      fileAt_setHandle { p with fs := fs } p.nextHandle (some (.file f))
    refine ⟨?_, ?_⟩
    · intro h f' hf hne
      rw [hat] at hf
      -- The one handle that is new is the one the event is about.
      by_cases hh : h = p.nextHandle
      · exact absurd (by rw [hh]) (hne (.file, f.headerLba))
      · rw [if_neg hh] at hf
        exact ⟨⟨f', hf, rfl, rfl, rfl⟩, ht.kept⟩
    · intro h b hev
      simp only [Option.some.injEq, HandleLog.Event.issue.injEq, Prod.mk.injEq, true_and] at hev
      obtain ⟨rfl, rfl⟩ := hev
      obtain ⟨id, hid⟩ := ht.found rfl
      exact ⟨f, id, by rw [hat, if_pos rfl], rfl, hid⟩

omit [GuestMemory μ] in
theorem Quiet.opens_none {p : PktVolume φ} (hq : Quiet p p' e) :
    Opens p p' e none := ⟨fun hf _ => hq.old hf, fun hev => nomatch hev⟩

/-- `FIND…`, on a volume that may or may not be written. -/
theorem Finds.opens_packet {p : PktVolume φ} {t : Except Long OpenFile × φ} (ht : Finds p t)
    (hn : p.nextHandle ≠ 0)
    (hk : k.action = Action.findInput ∨ k.action = Action.findOutput ∨
      k.action = Action.findUpdate)
    (htarget : p.target k = t.1.toOption.map fun f => (HandleKind.file, f.headerLba)) :
    Opens p (p.issueFile t).2 none (p.eventOf k (p.issueFile t).1) := by
  have hnot : ¬(k.action = Action.locateObject ∨ k.action = Action.copyDir ∨
      k.action = Action.parent ∨ k.action = Action.createDir) := by
    rcases hk with h | h | h <;> rw [h] <;> decide
  have hissue : k.action ∉ [Action.freeLock, Action.end', Action.inhibit] := by
    rcases hk with h | h | h <;> rw [h] <;> simp
  rw [eventOf_of_issuing p hissue, handleOf, if_neg hnot, if_pos hk, htarget]
  exact ht.opens hn

theorem opens_of_refused (k : Packet μ) (e : Option (Nat × List Byte)) {code : Long}
    (hcode : code ≠ 0) : Opens p p e (p.eventOf k (dosFalse, code)) := by
  rw [eventOf_of_failed p k hcode]
  exact (Quiet.refl p e).opens_none

omit [Ffs φ] [LawfulFfs φ] [GuestMemory μ] in
theorem fileAt_of_resolve {p : PktVolume φ} (h : p.resolve = fun _ => none) (i : Long) :
    p.fileAt i = none :=
  fileAt_eq_none fun lba => by rw [h]; simp

omit [GuestMemory μ] in
/-- Whatever `INHIBIT` does to the tree, it leaves no file open. -/
theorem quiet_inhibitAction : Quiet p (p.inhibitAction args).2 none := by
  unfold inhibitAction
  split
  · split
    · exact .refl p none
    · split
      · exact .of_closed (fun _ => rfl) none
      · exact .refl p none
  · split
    · unfold remount
      cases Ffs.mount p.fs p.writable p.lenBlocks p.reserved with
      | ok fs => exact .of_closed (fun _ => rfl) none
      | error e => exact .refl p none
    · exact .refl p none

/-- A volume is formatted only while it is inhibited, with no file open. -/
theorem quiet_formatAction (hp : TableInv p) (args : List Long) (mem : μ) :
    Quiet p (p.formatAction args mem).2 none := by
  by_cases hinh : p.inhibited = true
  -- The handles of an inhibited volume were dropped when it was inhibited.
  · refine .of_closed (fileAt_of_resolve ?_) none
    rw [(sameHandles_formatAction p args mem).resolve]
    exact hp.inhibited hinh
  · rw [formatAction, if_neg hinh]
    exact .refl p none

/-- A packet that names no entry and opens no file. -/
theorem Quiet.opens_packet {p : PktVolume φ} (hq : Quiet p p' none) {a : Long}
    (ha : a ∉ [Action.deleteObject, Action.renameObject, Action.findInput, Action.findOutput,
      Action.findUpdate]) (args : List Long) (mem : μ) (res : Res) :
    Opens p p' (p.entryOf (⟨a, args, mem⟩ : Packet μ))
      (p.eventOf (⟨a, args, mem⟩ : Packet μ) res) := by
  simp only [List.mem_cons, List.not_mem_nil, or_false, not_or] at ha
  obtain ⟨hdelete, hrename, hfind⟩ := ha
  rw [entryOf, if_neg (not_or.mpr ⟨hdelete, hrename⟩)]
  refine hq.opens ?_ res
  simpa using hfind

/-- **A packet parts no file from its entry, unless it deletes or renames that entry.** -/
theorem step_opens (hp : TableInv p) (k : Packet μ) :
    Opens p (p.step k) (p.entryOf k) (p.event k) := by
  obtain ⟨a, args, mem⟩ := k
  have hn := hp.next_ne_zero
  have hentry : ∀ {a : Long}, a ≠ Action.deleteObject → a ≠ Action.renameObject →
      p.entryOf (⟨a, args, mem⟩ : Packet μ) = none := by
    intro a h1 h2
    rw [entryOf, if_neg (not_or.mpr ⟨h1, h2⟩)]
  apply dispatch (P := fun a r =>
    Opens p r.2.1 (p.entryOf ⟨a, args, mem⟩) (p.eventOf ⟨a, args, mem⟩ r.1)) p args mem
  case inhibit => exact (quiet_inhibitAction p args).opens_packet (by decide) args mem _
  case format => exact (quiet_formatAction p hp args mem).opens_packet (by decide) args mem _
  case isFilesystem => exact (Quiet.refl p none).opens_packet (by decide) args mem _
  case diskInfo => exact (Quiet.refl p none).opens_packet (by decide) args mem _
  case refused => exact fun _ a => opens_of_refused p _ _ (by decide)
  case unknown => exact fun a => opens_of_refused p _ _ (by decide)
  case locateObject =>
    exact fun _ => (quiet_issueLock p (readsKeep_view.locateTarget p args mem)).opens_packet
      (by decide) args mem _
  case freeLock => exact fun _ => (quiet_freeLock p args).opens_packet (by decide) args mem _
  case copyDir =>
    exact fun _ => (quiet_issueLock p (view_copyDirTarget LawfulFfs.view p args)).opens_packet
      (by decide) args mem _
  case parent =>
    exact fun _ => (quiet_issueLock p (readsKeep_view.parentTarget p args)).opens_packet
      (by decide) args mem _
  case sameLock => exact fun _ => (quiet_sameLock p args).opens_packet (by decide) args mem _
  case examineObject =>
    exact fun _ => (quiet_examineObject p args mem).opens_packet
      (by decide) args mem _
  case examineNext =>
    exact fun _ => (quiet_examineNext p args mem).opens_packet
      (by decide) args mem _
  case info => exact fun _ => (Quiet.refl p none).opens_packet (by decide) args mem _
  -- These may open a file.
  case findInput =>
    intro _
    rw [hentry (by decide) (by decide)]
    exact (finds_findInputTarget p args mem).opens_packet hn (by simp) (by simp [target])
  case findOutput =>
    intro _
    rw [hentry (by decide) (by decide)]
    simp only [withMem, findOutput]
    split
    · exact (finds_findOutputTarget p args mem).opens_packet hn (by simp) (by simp [target])
    · exact opens_of_refused p _ _ (by decide)
  case findUpdate =>
    intro _
    rw [hentry (by decide) (by decide)]
    simp only [withMem, findUpdate]
    split
    · exact (finds_findUpdateTarget p args mem).opens_packet hn (by simp) (by simp [target])
    · exact opens_of_refused p _ _ (by decide)
  case end' => exact fun _ => (quiet_end p args).opens_packet (by decide) args mem _
  case read => exact fun _ => (quiet_readAction p args mem).opens_packet (by decide) args mem _
  case write => exact fun _ => (quiet_writeAction p args mem).opens_packet (by decide) args mem _
  case seek => exact fun _ => (quiet_seekAction p args).opens_packet (by decide) args mem _
  case setFileSize => exact fun _ => (quiet_setFileSize p args).opens_packet (by decide) args mem _
  case createDir =>
    exact fun _ => (quiet_createDirAction p args mem).opens_packet
      (by decide) args mem _
  -- These take an entry away.
  case deleteObject =>
    intro _
    rw [entryOf, if_pos (by simp)]
    exact (quiet_deleteObject p args mem).opens (by simp) _
  case renameObject =>
    intro _
    rw [entryOf, if_pos (by simp)]
    exact (quiet_renameObject p args mem).opens (by simp) _
  case setProtect => exact fun _ => (quiet_setMeta p args mem _).opens_packet (by decide) args mem _
  case setComment => exact fun _ => (quiet_setMeta p args mem _).opens_packet (by decide) args mem _
  case setDate => exact fun _ => (quiet_setMeta p args mem _).opens_packet (by decide) args mem _
  case flush => exact fun _ => (quiet_flush p).opens_packet (by decide) args mem _

end PktVolume

end M68kMachine
