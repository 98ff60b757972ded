import M68kMachine.Properties.PktvolFiles

/-!
# The positions of open files

The size of a file changes through other handles and other packets. A position stays inside its file
along every run in which no packet cuts a file below the position of a handle open on it.

* `sizeAt`, `InFile` — the size of the file at a block, and every position at most the size
* `CutTo` — a step of the tree that cuts one entry's file, and no further than a size
* `cutOf`, `Fits` — how far a packet cuts which file, and when that leaves the positions inside
* `readAction_cases`, `writeAction_cases`, `seekAction_cases` — the whole effect of the three
-/

namespace M68kMachine

namespace VolumeTree

/-- The size of the file at a block, zero where there is none. -/
def sizeAt (t : VolumeTree) (b : Nat) : Nat := ((t.bytesOf b).getD []).length

variable {t : VolumeTree} {b : Nat}

theorem sizeAt_of_bytesOf {bytes : List Byte} (h : t.bytesOf b = some bytes) :
    t.sizeAt b = bytes.length := by
  rw [sizeAt, h]
  rfl

/-- At most the file of the entry `name` of `dir` was cut, no further than to `size`. -/
def CutTo (dir : Nat) (name : List Byte) (size : Nat) (t t' : VolumeTree) : Prop :=
  ∀ b, t.sizeAt b ≤ t'.sizeAt b ∨ t.Names dir name b ∧ min (t.sizeAt b) size ≤ t'.sizeAt b

/-- A step of the tree that cuts no file. -/
def CutsNone (t t' : VolumeTree) : Prop := ∀ b, t.sizeAt b ≤ t'.sizeAt b

theorem CutsNone.of_eq {t' : VolumeTree} (h : t' = t) : CutsNone t t' :=
  fun b => Nat.le_of_eq (by rw [h])

theorem CutsNone.cutTo {t' : VolumeTree} (h : CutsNone t t') (dir : Nat) (name : List Byte)
    (size : Nat) : CutTo dir name size t t' := fun b => .inl (h b)

theorem bytesOf_setBody {old : List Byte} (hb : t.bytesOf b = some old) (bytes : List Byte)
    (x : Nat) :
    VolumeTree.bytesOf (t.setBody b (some bytes)) x =
      if x = b then some bytes else t.bytesOf x := by
  unfold VolumeTree.bytesOf FileTree.setBody at *
  by_cases hx : x = b
  · subst hx
    rw [if_pos rfl, FileTree.obj_setObj_self]
    cases ho : t.obj x with
    | none =>
      rw [ho] at hb
      cases hb
    | some o => rfl
  · rw [if_neg hx, FileTree.obj_setObj_ne t _ hx]

theorem sizeAt_setBody {old : List Byte} (hb : t.bytesOf b = some old) (bytes : List Byte)
    (x : Nat) :
    VolumeTree.sizeAt (t.setBody b (some bytes)) x =
      if x = b then bytes.length else t.sizeAt x := by
  unfold sizeAt
  rw [bytesOf_setBody hb]
  by_cases hx : x = b
  · rw [if_pos hx, if_pos hx]
    rfl
  · rw [if_neg hx, if_neg hx]

theorem cutsNone_create {d : Nat} {n : List Byte} {body : Option (List Byte)}
    (hfree : t.obj b = none) : CutsNone t (t.create b d n body) := by
  intro x
  by_cases hx : x = b
  · have hzero : t.sizeAt x = 0 := by
      rw [sizeAt, VolumeTree.bytesOf, hx, hfree]
      rfl
    rw [hzero]
    exact Nat.zero_le _
  · refine Nat.le_of_eq ?_
    unfold sizeAt VolumeTree.bytesOf FileTree.create
    rw [FileTree.obj_setObj_ne t _ hx]

theorem cutsNone_move (t : VolumeTree) (b d : Nat) (n : List Byte) :
    CutsNone t (t.move b d n) := by
  intro x
  refine Nat.le_of_eq ?_
  unfold sizeAt VolumeTree.bytesOf FileTree.move
  by_cases hx : x = b
  · subst hx
    rw [FileTree.obj_setObj_self]
    cases t.obj x <;> rfl
  · rw [FileTree.obj_setObj_ne t _ hx]

theorem cutTo_remove {d : Nat} {n : List Byte} (hb : t.Names d n b) :
    CutTo d n 0 t (t.remove b) := by
  intro x
  by_cases hx : x = b
  · exact .inr ⟨hx ▸ hb, Nat.le_trans (Nat.min_le_right _ _) (Nat.zero_le _)⟩
  · left
    unfold sizeAt VolumeTree.bytesOf FileTree.remove
    rw [FileTree.obj_setObj_ne t _ hx]

theorem length_overwrite (bytes : List Byte) (position : Nat) (data : List Byte) :
    (overwrite bytes position data).length = max bytes.length (position + data.length) := by
  simp only [overwrite, List.length_append, List.length_take, List.length_replicate,
    List.length_drop]
  omega

theorem length_resize (bytes : List Byte) (size : Nat) : (resize bytes size).length = size := by
  simp only [resize, List.length_append, List.length_take, List.length_replicate]
  omega

end VolumeTree

namespace PktVolume

open HandleLog VolumeTree

variable {φ μ : Type} [Ffs φ] [LawfulFfs φ] {p : PktVolume φ}

/-! ## What the filesystem cuts -/

/-- A write that fails cuts no file, and a truncation that fails none further than was asked. -/
structure CutsNoFurther (φ : Type) [Ffs φ] [LawfulFfs φ] : Prop where
  writeFile {fs : φ} {d : Nat} {n : List Byte} {pos : Nat} {data : List Byte} {e : MutateError} :
    (Ffs.writeFile fs d n pos data).1 = .error e →
      CutsNone (LawfulFfs.view fs) (LawfulFfs.view (Ffs.writeFile fs d n pos data).2)
  truncate {fs : φ} {d : Nat} {n : List Byte} {size : Nat} {e : MutateError} :
    (Ffs.truncate fs d n size).1 = .error e →
      CutTo d n size (LawfulFfs.view fs) (LawfulFfs.view (Ffs.truncate fs d n size).2)

theorem cutsNone_createFile (fs : φ) (d : Nat) (n : List Byte) :
    CutsNone (LawfulFfs.view fs) (LawfulFfs.view (Ffs.createFile fs d n).2) := by
  cases hr : (Ffs.createFile fs d n).1 with
  | ok b =>
    rcases LawfulFfs.createFile_ok hr with ⟨hfree, hview⟩
    rw [hview]
    exact cutsNone_create hfree
  | error e => exact CutsNone.of_eq (LawfulFfs.createFile_error hr)

theorem cutsNone_createDir (fs : φ) (d : Nat) (n : List Byte) :
    CutsNone (LawfulFfs.view fs) (LawfulFfs.view (Ffs.createDir fs d n).2) := by
  cases hr : (Ffs.createDir fs d n).1 with
  | ok b =>
    rcases LawfulFfs.createDir_ok hr with ⟨hfree, hview⟩
    rw [hview]
    exact cutsNone_create hfree
  | error e => exact CutsNone.of_eq (LawfulFfs.createDir_error hr)

theorem cutsNone_rename (fs : φ) (d d' : Nat) (n n' : List Byte) :
    CutsNone (LawfulFfs.view fs) (LawfulFfs.view (Ffs.rename fs d n d' n').2) := by
  cases hr : (Ffs.rename fs d n d' n').1 with
  | ok u =>
    rcases LawfulFfs.rename_ok hr with ⟨b, -, hview⟩
    rw [hview]
    exact cutsNone_move _ b d' n'
  | error e => exact CutsNone.of_eq (LawfulFfs.rename_error hr)

theorem cutTo_delete (fs : φ) (d : Nat) (n : List Byte) :
    CutTo d n 0 (LawfulFfs.view fs) (LawfulFfs.view (Ffs.delete fs d n).2) := by
  cases hr : (Ffs.delete fs d n).1 with
  | ok u =>
    rcases LawfulFfs.delete_ok hr with ⟨b, hnames, hview⟩
    rw [hview]
    exact cutTo_remove hnames
  | error e => exact (CutsNone.of_eq (LawfulFfs.delete_error hr)).cutTo d n 0

theorem cutTo_truncate (hcut : CutsNoFurther φ) (fs : φ) (d : Nat) (n : List Byte) (size : Nat) :
    CutTo d n size (LawfulFfs.view fs) (LawfulFfs.view (Ffs.truncate fs d n size).2) := by
  cases hr : (Ffs.truncate fs d n size).1 with
  | ok u =>
    rcases LawfulFfs.truncate_ok hr with ⟨b, bytes, hnames, hbytes, hview⟩
    rw [hview]
    intro x
    rw [sizeAt_setBody hbytes, length_resize]
    by_cases hx : x = b
    · rw [if_pos hx]
      exact .inr ⟨hx ▸ hnames, Nat.min_le_right _ _⟩
    · rw [if_neg hx]
      exact .inl (Nat.le_refl _)
  | error e => exact hcut.truncate hr

/-- A write leaves its file at least as long as it reaches. -/
theorem writeFile_sizes (hcut : CutsNoFurther φ) (fs : φ) (d : Nat) (n : List Byte) (pos : Nat)
    (data : List Byte) :
    CutsNone (LawfulFfs.view fs) (LawfulFfs.view (Ffs.writeFile fs d n pos data).2) ∧
      ∀ u, (Ffs.writeFile fs d n pos data).1 = .ok u → ∀ b, (LawfulFfs.view fs).Names d n b →
        pos + data.length ≤ (LawfulFfs.view (Ffs.writeFile fs d n pos data).2).sizeAt b := by
  cases hr : (Ffs.writeFile fs d n pos data).1 with
  | ok u =>
    rcases LawfulFfs.writeFile_ok hr with ⟨b, bytes, hnames, hbytes, hview⟩
    rw [hview]
    constructor
    · intro x
      rw [sizeAt_setBody hbytes, length_overwrite]
      by_cases hx : x = b
      · rw [if_pos hx, hx, sizeAt_of_bytesOf hbytes]
        exact Nat.le_max_left _ _
      · rw [if_neg hx]
    · intro _ _ b' hb'
      rw [(LawfulFfs.wf fs).names hb' hnames, sizeAt_setBody hbytes, if_pos rfl, length_overwrite]
      exact Nat.le_max_right _ _
  | error e => exact ⟨hcut.writeFile hr, fun _ h => nomatch h⟩

/-! ## Positions -/

/-- Every open handle stands inside its file. -/
def InFile (p : PktVolume φ) : Prop :=
  ∀ h f, p.fileAt h = some f → f.position ≤ p.tree.sizeAt f.headerLba

/-- No handle open on the file at a block stands past a size. -/
def Below (p : PktVolume φ) (b size : Nat) : Prop :=
  ∀ h f, p.fileAt h = some f → f.headerLba = b → f.position ≤ size

theorem InFile.fs {p : PktVolume φ} (hp : p.InFile) {fs : φ}
    (h : CutsNone p.tree (LawfulFfs.view fs)) : InFile { p with fs := fs } := by
  intro i f hf
  exact Nat.le_trans (hp i f hf) (h f.headerLba)

theorem InFile.view (hp : p.InFile) {fs : φ} (h : LawfulFfs.view fs = p.tree) :
    InFile { p with fs := fs } := hp.fs (CutsNone.of_eq h)

/-- A file cut no further than to the positions in it. -/
theorem InFile.cut (hp : p.InFile) {fs : φ} {d size : Nat} {n : List Byte}
    (h : CutTo d n size p.tree (LawfulFfs.view fs))
    (hbelow : ∀ b, p.tree.Names d n b → p.Below b size) : InFile { p with fs := fs } := by
  intro i f hf
  rcases h f.headerLba with hle | ⟨hnames, hle⟩
  · exact Nat.le_trans (hp i f hf) hle
  · exact Nat.le_trans (Nat.le_min.mpr ⟨hp i f hf, hbelow _ hnames i f hf rfl⟩) hle

theorem InFile.setHandle (hp : p.InFile) (id : Long) {x : Option Handle}
    (hx : ∀ f, x = some (.file f) → f.position ≤ p.tree.sizeAt f.headerLba) :
    (p.setHandle id x).InFile := by
  intro h f hf
  rw [fileAt_setHandle] at hf
  by_cases hi : h = id
  · rw [if_pos hi] at hf
    split at hf
    · cases hf
      exact hx f rfl
    · cases hf
  · rw [if_neg hi] at hf
    exact hp h f hf

theorem InFile.alloc (hp : p.InFile) {x : Handle}
    (hx : ∀ f, x = .file f → f.position ≤ p.tree.sizeAt f.headerLba) : (p.allocHandle x).2.InFile :=
  hp.setHandle p.nextHandle fun f hf => hx f (Option.some.inj hf)

theorem InFile.seekTo (hp : p.InFile) (handle : Long) (f : OpenFile) {position : Nat}
    (h : position ≤ p.tree.sizeAt f.headerLba) : (p.seekTo handle f position).InFile := by
  refine hp.setHandle handle ?_
  rintro g hg
  cases hg
  exact h

theorem InFile.of_closed (h : ∀ i, p.fileAt i = none) : p.InFile := by
  intro i f hf
  rw [h i] at hf
  cases hf

/-! ## Reading, writing and seeking -/

section Transfers

variable [GuestMemory μ]

/-- A `READ` fails and leaves tree and handles alone, or stores bytes and moves the position. -/
theorem readAction_cases (p : PktVolume φ) (args : List Long) (mem : μ) :
    (∃ res fs mem', p.readAction args mem = (res, { p with fs := fs }, mem') ∧ res.2 ≠ 0 ∧
      LawfulFfs.view fs = p.tree) ∨
    ∃ f bytes old put fs, p.fileAt (args.getD 0 0) = some f ∧
      p.tree.bytesOf f.headerLba = some bytes ∧
      GuestMemory.ramSliceMut mem (args.getD 1 0) (args.getD 2 0) = some (old, put) ∧
      LawfulFfs.view fs = p.tree ∧
      p.readAction args mem =
        ((BitVec.ofNat 32 (min old.length (bytes.length - f.position)), 0),
          { p with fs := fs }.seekTo (args.getD 0 0) f
            (f.position + min old.length (bytes.length - f.position)),
          put ((bytes.drop f.position).take (min old.length (bytes.length - f.position)) ++
            old.drop (min old.length (bytes.length - f.position)))) := by
  unfold readAction
  cases hf : p.fileAt (args.getD 0 0) with
  | none => exact .inl ⟨_, p.fs, mem, rfl, show Err.objectNotFound ≠ 0 by decide, rfl⟩
  | some f =>
    have hview := LawfulFfs.view_fileChain p.fs f.headerLba
    have hchain := fun c => @LawfulFfs.fileChain_ok _ _ _ p.fs f.headerLba c
    have hread := fun c bytes off buf (hc : (Ffs.fileChain p.fs f.headerLba).1 = .ok c)
      (hb : (LawfulFfs.view p.fs).bytesOf f.headerLba = some bytes) =>
        LawfulFfs.readRange_eq off buf hc hb
    simp only
    generalize Ffs.fileChain p.fs f.headerLba = r at hview hchain hread ⊢
    rcases r with ⟨e | chain, fs⟩
    · exact .inl ⟨_, fs, mem, rfl, mapReadError_ne_zero e, hview⟩
    · rcases hchain chain rfl with ⟨bytes, hbytes, -⟩
      simp only
      cases hmem : GuestMemory.ramSliceMut mem (args.getD 1 0) (args.getD 2 0) with
      | none => exact .inl ⟨_, fs, mem, rfl, show Err.badNumber ≠ 0 by decide, hview⟩
      | some window =>
        rcases window with ⟨old, put⟩
        rcases hread chain bytes f.position old rfl hbytes with ⟨m, -, hbuf, hn⟩
        have hview' := (LawfulFfs.view_readRange fs chain f.position old).trans hview
        simp only at hbuf hn ⊢
        generalize Ffs.readRange fs chain f.position old = r at hbuf hn hview' ⊢
        rcases r with ⟨e | n, out, fs'⟩
        · exact .inl ⟨_, fs', put out, rfl, mapReadError_ne_zero e, hview'⟩
        · rcases hn n rfl with ⟨rfl, hm⟩
          refine .inr ⟨f, bytes, old, put, fs', rfl, hbytes, rfl, hview', ?_⟩
          rw [← hm, ← hbuf]

/-- A `WRITE` fails and cuts no file, or stores its bytes and moves the position. -/
theorem writeAction_cases (hcut : CutsNoFurther φ) (p : PktVolume φ) (args : List Long) (mem : μ) :
    (∃ res fs, p.writeAction args mem = (res, { p with fs := fs }) ∧ res.2 ≠ 0 ∧
      CutsNone p.tree (LawfulFfs.view fs)) ∨
    ∃ f data fs, p.fileAt (args.getD 0 0) = some f ∧ p.writable = true ∧
      GuestMemory.ramSlice mem (args.getD 1 0) (args.getD 2 0) = some data ∧
      CutsNone p.tree (LawfulFfs.view fs) ∧
      (∀ b, p.tree.Names f.parentLba f.name b →
        f.position + data.length ≤ (LawfulFfs.view fs).sizeAt b) ∧
      p.writeAction args mem = ((BitVec.ofNat 32 data.length, 0),
        { p with fs := fs }.seekTo (args.getD 0 0) f (f.position + data.length)) := by
  have hsame : CutsNone p.tree p.tree := .of_eq rfl
  unfold writeAction
  cases hf : p.fileAt (args.getD 0 0) with
  | none => exact .inl ⟨_, p.fs, rfl, show Err.objectNotFound ≠ 0 by decide, hsame⟩
  | some f =>
    simp only
    split
    · cases hmem : GuestMemory.ramSlice mem (args.getD 1 0) (args.getD 2 0) with
      | none => exact .inl ⟨_, p.fs, rfl, show Err.badNumber ≠ 0 by decide, hsame⟩
      | some data =>
        simp only
        split
        · rename_i hw
          rcases writeFile_sizes hcut p.fs f.parentLba f.name f.position data with ⟨hnone, hreach⟩
          generalize Ffs.writeFile p.fs f.parentLba f.name f.position data = r at hnone hreach ⊢
          rcases r with ⟨e | u, fs⟩
          · exact .inl ⟨_, fs, rfl, mapMutateError_ne_zero e, hnone⟩
          · exact .inr ⟨f, data, fs, rfl, hw, rfl, hnone, hreach u rfl, rfl⟩
        · exact .inl ⟨_, p.fs, rfl, show Err.writeProtected ≠ 0 by decide, hsame⟩
    · exact .inl ⟨_, p.fs, rfl, show Err.writeProtectedFile ≠ 0 by decide, hsame⟩

omit [GuestMemory μ] in
/-- A `SEEK` fails and leaves tree and handles alone, or moves the position inside the file. -/
theorem seekAction_cases (p : PktVolume φ) (args : List Long) :
    (∃ res fs, p.seekAction args = (res, { p with fs := fs }) ∧ res.2 ≠ 0 ∧
      LawfulFfs.view fs = p.tree) ∨
    ∃ f fs position, p.fileAt (args.getD 0 0) = some f ∧ LawfulFfs.view fs = p.tree ∧
      position ≤ p.tree.sizeAt f.headerLba ∧
      p.seekAction args = ((BitVec.ofNat 32 f.position, 0),
        { p with fs := fs }.seekTo (args.getD 0 0) f position) := by
  unfold seekAction
  cases hf : p.fileAt (args.getD 0 0) with
  | none => exact .inl ⟨_, p.fs, rfl, show Err.objectNotFound ≠ 0 by decide, rfl⟩
  | some f =>
    have hview := LawfulFfs.view_fileChain p.fs f.headerLba
    have hchain := fun c => @LawfulFfs.fileChain_ok _ _ _ p.fs f.headerLba c
    simp only
    generalize Ffs.fileChain p.fs f.headerLba = r at hview hchain ⊢
    rcases r with ⟨e | chain, fs⟩
    · exact .inl ⟨_, fs, rfl, mapReadError_ne_zero e, hview⟩
    · rcases hchain chain rfl with ⟨bytes, hbytes, hsize⟩
      simp only
      split
      · exact .inl ⟨_, fs, rfl, show Err.badNumber ≠ 0 by decide, hview⟩
      · refine .inr ⟨f, fs, _, rfl, hview, ?_, rfl⟩
        have hat : p.tree.sizeAt f.headerLba = bytes.length := sizeAt_of_bytesOf hbytes
        rw [hat, hsize]
        exact Nat.min_le_right _ _

end Transfers

/-! ## What a packet cuts -/

variable [GuestMemory μ]

/-- The entry whose file a packet cuts, and the size it leaves of it. -/
def cutOf (p : PktVolume φ) (k : Packet μ) : Option ((Nat × List Byte) × Nat) :=
  if k.action = Action.deleteObject then
    (p.openForFind (k.args.getD 0 0) (k.args.getD 1 0) k.mem).1.toOption.map (·, 0)
  else if k.action = Action.findOutput then
    (p.openForFind (k.args.getD 1 0) (k.args.getD 2 0) k.mem).1.toOption.map (·, 0)
  else if k.action = Action.setFileSize then
    (p.fileAt (k.args.getD 0 0)).bind fun f =>
      (seekBase (k.args.getD 2 0).toInt f.position (p.tree.sizeAt f.headerLba)).map fun base =>
        ((f.parentLba, f.name), (base + (k.args.getD 1 0).toInt).toNat)
  else none

omit [Ffs φ] [LawfulFfs φ] [GuestMemory μ] in
theorem toOption_of_ok {t : Except Long (Nat × List Byte) × φ} {e : Nat × List Byte}
    (h : t.1 = .ok e) : t.1.toOption.map (·, 0) = some (e, 0) := by
  rw [h]
  rfl

theorem cutOf_deleteObject (p : PktVolume φ) (args : List Long) (mem : μ) :
    p.cutOf (⟨Action.deleteObject, args, mem⟩ : Packet μ) =
      (p.openForFind (args.getD 0 0) (args.getD 1 0) mem).1.toOption.map (·, 0) := rfl

theorem cutOf_findOutput (p : PktVolume φ) (args : List Long) (mem : μ) :
    p.cutOf (⟨Action.findOutput, args, mem⟩ : Packet μ) =
      (p.openForFind (args.getD 1 0) (args.getD 2 0) mem).1.toOption.map (·, 0) := rfl

theorem cutOf_setFileSize {args : List Long} (mem : μ) {f : OpenFile} {base size : Nat}
    (hf : p.fileAt (args.getD 0 0) = some f) (hsize : p.tree.sizeAt f.headerLba = size)
    (hbase : seekBase (args.getD 2 0).toInt f.position size = some base) :
    p.cutOf (⟨Action.setFileSize, args, mem⟩ : Packet μ) =
      some ((f.parentLba, f.name), (base + (args.getD 1 0).toInt).toNat) := by
  show ((p.fileAt (args.getD 0 0)).bind fun f =>
    (seekBase (args.getD 2 0).toInt f.position (p.tree.sizeAt f.headerLba)).map fun base =>
      ((f.parentLba, f.name), (base + (args.getD 1 0).toInt).toNat)) = _
  rw [hf, Option.bind_some, hsize, hbase]
  rfl

/-- No file is cut below a position, and a `WRITE` goes to the file its handle reads, or fits it. -/
structure Fits (p : PktVolume φ) (k : Packet μ) : Prop where
  cut : p.writable = true → ∀ d n size, p.cutOf k = some ((d, n), size) →
    ∀ b, p.tree.Names d n b → p.Below b size
  write : k.action = Action.write → ∀ f data, p.fileAt (k.args.getD 0 0) = some f →
    p.writable = true →
    GuestMemory.ramSlice k.mem (k.args.getD 1 0) (k.args.getD 2 0) = some data →
      p.tree.Names f.parentLba f.name f.headerLba ∨
        f.position + data.length ≤ p.tree.sizeAt f.headerLba

/-! ### Actions that cut nothing -/

omit [GuestMemory μ] in
theorem InFile.issueLock {p : PktVolume φ} (hp : p.InFile) {t : Except Long Nat × φ}
    (h : LawfulFfs.view t.2 = p.tree) : (p.issueLock t).2.InFile := by
  rcases t with ⟨code | lba, fs⟩
  · exact hp.view h
  · simp only [PktVolume.issueLock, dupLock]
    split
    · exact hp.view h
    · exact (hp.view h).alloc (by simp)

/-- The positions are inside their files, and the file that was found is opened at its start. -/
structure AtStart (p : PktVolume φ) (t : Except Long OpenFile × φ) : Prop where
  inFile : ({ p with fs := t.2 } : PktVolume φ).InFile
  position : ∀ f, t.1 = .ok f → f.position = 0

omit [GuestMemory μ] in
theorem AtStart.error {fs : φ} (h : ({ p with fs := fs } : PktVolume φ).InFile) (code : Long) :
    AtStart p (.error code, fs) := ⟨h, fun _ hf => nomatch hf⟩

omit [GuestMemory μ] in
theorem AtStart.ok {fs : φ} (h : ({ p with fs := fs } : PktVolume φ).InFile)
    (parentLba headerLba : Nat) (name : List Byte) (write : Bool) :
    AtStart p (.ok ⟨parentLba, name, headerLba, 0, write⟩, fs) := by
  refine ⟨h, ?_⟩
  rintro f hf
  cases hf
  rfl

omit [GuestMemory μ] in
theorem AtStart.issueFile {t : Except Long OpenFile × φ} (h : AtStart p t) :
    (p.issueFile t).2.InFile := by
  rcases t with ⟨code | f, fs⟩
  · exact h.inFile
  · refine h.inFile.alloc ?_
    rintro g hg
    cases hg
    rw [h.position f rfl]
    exact Nat.zero_le _

omit [GuestMemory μ] in
theorem InFile.finish {r : Except MutateError Unit × φ}
    (h : ({ p with fs := r.2 } : PktVolume φ).InFile) : (p.finish r).2.InFile := by
  rcases r with ⟨e | u, fs⟩ <;> exact h

omit [GuestMemory μ] in
theorem InFile.freeLock {p : PktVolume φ} (hp : p.InFile) (args : List Long) :
    (p.freeLock args).2.InFile := by
  unfold PktVolume.freeLock
  simp only
  split
  · exact hp
  · split
    · exact hp.setHandle _ (by simp)
    · exact hp

omit [GuestMemory μ] in
theorem InFile.end' {p : PktVolume φ} (hp : p.InFile) (args : List Long) :
    (p.end' args).2.InFile := by
  unfold PktVolume.end'
  split
  · exact hp.setHandle _ (by simp)
  · exact hp

omit [GuestMemory μ] in
theorem InFile.sameLock {p : PktVolume φ} (hp : p.InFile) (args : List Long) :
    (p.sameLock args).2.InFile := by
  unfold PktVolume.sameLock
  split
  · split <;> exact hp
  · exact hp

omit [GuestMemory μ] in
theorem InFile.flush (hp : p.InFile) : p.flush.2.InFile := by
  show InFile (if p.writable then { p with fs := Ffs.sync p.fs } else p)
  split
  · exact hp.view (LawfulFfs.view_sync p.fs)
  · exact hp

omit [GuestMemory μ] in
/-- Inhibiting and remounting drop every handle. -/
theorem InFile.inhibitAction {p : PktVolume φ} (hp : p.InFile) (args : List Long) :
    (p.inhibitAction args).2.InFile := by
  unfold PktVolume.inhibitAction
  split
  · split
    · exact hp
    · split
      · exact .of_closed fun _ => rfl
      · exact hp
  · split
    · unfold remount
      cases Ffs.mount p.fs p.writable p.lenBlocks p.reserved with
      | ok fs => exact .of_closed fun _ => rfl
      | error e => exact hp
    · exact hp

theorem InFile.formatAction {p : PktVolume φ} (hp : p.InFile) (ht : TableInv p) (args : List Long)
    (mem : μ) : (p.formatAction args mem).2.InFile := by
  by_cases hinh : p.inhibited = true
  · refine .of_closed (fileAt_of_resolve ?_)
    rw [(sameHandles_formatAction p args mem).resolve]
    exact ht.inhibited hinh
  · rw [PktVolume.formatAction, if_neg hinh]
    exact hp

theorem InFile.examineObject {p : PktVolume φ} (hp : p.InFile) (args : List Long) (mem : μ) :
    (p.examineObject args mem).2.1.InFile := by
  unfold PktVolume.examineObject
  split
  · exact hp
  · rename_i lba _
    have hview := readsKeep_view.examineTarget p.fs lba
    generalize examineTarget p.fs lba = r at hview ⊢
    rcases r with ⟨e | info, fs⟩
    · exact hp.view hview
    · exact hp.view ((readsKeep_view.countBlocks _ _ _).trans hview)

theorem InFile.examineNext {p : PktVolume φ} (hp : p.InFile) (args : List Long) (mem : μ) :
    (p.examineNext args mem).2.1.InFile := by
  unfold PktVolume.examineNext
  split
  · exact hp
  · rename_i dir _
    split
    · exact hp
    · have hview := LawfulFfs.view_readDir p.fs dir
      generalize Ffs.readDir p.fs dir = r at hview ⊢
      rcases r with ⟨e | entries, fs⟩
      · exact hp.view hview
      · simp only
        split
        · exact hp.view hview
        · rename_i entry _
          have hcomment := (LawfulFfs.view_comment fs entry).trans hview
          generalize Ffs.comment fs entry = r at hcomment ⊢
          rcases r with ⟨e | comment, fs'⟩
          · exact hp.view hcomment
          · exact hp.view ((readsKeep_view.countBlocks _ _ _).trans hcomment)

theorem InFile.createDirAction {p : PktVolume φ} (hp : p.InFile) (args : List Long) (mem : μ) :
    (p.createDirAction args mem).2.InFile := by
  unfold PktVolume.createDirAction createDirTarget
  split
  · have hview := readsKeep_view.openForFind p (args.getD 0 0) (args.getD 1 0) mem
    generalize p.openForFind (args.getD 0 0) (args.getD 1 0) mem = r at hview ⊢
    rcases r with ⟨code | ⟨d, n⟩, fs⟩
    · exact hp.view hview
    · have hnone := cutsNone_createDir fs d n
      rw [show LawfulFfs.view fs = p.tree from hview] at hnone
      simp only
      generalize Ffs.createDir fs d n = r at hnone ⊢
      rcases r with ⟨e | lba, fs'⟩
      · exact hp.fs hnone
      · exact (hp.fs hnone).alloc (by simp)
  · exact hp

theorem InFile.renameObject {p : PktVolume φ} (hp : p.InFile) (args : List Long) (mem : μ) :
    (p.renameObject args mem).2.InFile := by
  unfold PktVolume.renameObject
  split
  · split
    · exact hp
    · rename_i srcDir _
      split
      · exact hp
      · rename_i srcName _
        split
        · exact hp
        · rename_i dstDir _
          split
          · exact hp
          · rename_i dstName _
            have hview := readsKeep_view.splitParent p.fs srcDir srcName
            generalize splitParent p.fs srcDir srcName = r at hview ⊢
            rcases r with ⟨code | ⟨d, n⟩, fs⟩
            · exact hp.view hview
            · have hview' := (readsKeep_view.splitParent fs dstDir dstName).trans hview
              simp only
              generalize splitParent fs dstDir dstName = r at hview' ⊢
              rcases r with ⟨code | ⟨d', n'⟩, fs'⟩
              · exact hp.view hview'
              -- Both parents were found by reading only, and the move cuts no file.
              · have hnone := cutsNone_rename fs' d d' n n'
                rw [show LawfulFfs.view fs' = p.tree from hview'] at hnone
                exact InFile.finish (hp.fs hnone)
  · exact hp

theorem InFile.setMeta {p : PktVolume φ} (hp : p.InFile) (args : List Long) (mem : μ)
    (update : Option MetaUpdate) : (p.setMeta args mem update).2.InFile := by
  unfold PktVolume.setMeta
  split
  · split
    · exact hp
    · rename_i dir _
      split
      · exact hp
      · rename_i name _
        have hview := readsKeep_view.resolveMetaTarget p.fs dir name
        generalize resolveMetaTarget p.fs dir name = r at hview ⊢
        rcases r with ⟨code | target, fs⟩
        · exact hp.view hview
        · cases update with
          | none => exact hp.view hview
          | some u =>
            exact InFile.finish (hp.view ((LawfulFfs.view_setMetadata fs target u).trans hview))
  · exact hp

/-! ### Opening files -/

omit [GuestMemory μ] in
theorem InFile.createTarget {p : PktVolume φ} (hp : p.InFile) {fs : φ}
    (h : LawfulFfs.view fs = p.tree) (d : Nat) (n : List Byte) :
    AtStart p (PktVolume.createTarget fs d n) := by
  have hnone := cutsNone_createFile fs d n
  rw [h] at hnone
  unfold PktVolume.createTarget
  generalize Ffs.createFile fs d n = r at hnone ⊢
  rcases r with ⟨e | lba, fs'⟩
  · exact .error (hp.fs hnone) _
  · exact .ok (hp.fs hnone) _ _ _ _

theorem InFile.findInputTarget {p : PktVolume φ} (hp : p.InFile) (args : List Long) (mem : μ) :
    AtStart p (p.findInputTarget args mem) := by
  rw [findInputTarget_eq]
  refine readsKeep_view.findTarget (fun code _ _ hview => .error (hp.view hview) code)
    (fun _ _ _ hview => .error (hp.view hview) _) ?_
  intro d n fs e _ _ _ _ hview
  exact .ok (hp.view hview) _ _ _ _

theorem InFile.findUpdateTarget {p : PktVolume φ} (hp : p.InFile) (args : List Long) (mem : μ) :
    AtStart p (p.findUpdateTarget args mem) := by
  rw [findUpdateTarget_eq]
  refine readsKeep_view.findTarget (fun code _ _ hview => .error (hp.view hview) code)
    (fun _ d n hview => hp.createTarget hview d n) ?_
  intro d n fs e _ _ _ _ hview
  exact .ok (hp.view hview) _ _ _ _

/-- `FINDOUTPUT` empties the file it finds, so no handle on it may be past its start. -/
theorem InFile.findOutputTarget (hcut : CutsNoFurther φ) {p : PktVolume φ} (hp : p.InFile)
    (args : List Long) (mem : μ)
    (hbelow : ∀ d n, (p.openForFind (args.getD 1 0) (args.getD 2 0) mem).1 = .ok (d, n) →
      ∀ b, p.tree.Names d n b → p.Below b 0) : AtStart p (p.findOutputTarget args mem) := by
  rw [findOutputTarget_eq]
  refine readsKeep_view.findTarget (fun code _ _ hview => .error (hp.view hview) code)
    (fun _ d n hview => hp.createTarget hview d n) ?_
  intro d n fs e hopen _ _ _ hview
  have hto := cutTo_truncate hcut (Ffs.lookup fs d n).2 d n 0
  rw [hview] at hto
  have hin := hp.cut hto (hbelow d n hopen)
  generalize Ffs.truncate (Ffs.lookup fs d n).2 d n 0 = r at hin ⊢
  rcases r with ⟨e | u, fs'⟩
  · exact .error hin _
  · exact .ok hin _ _ _ _

theorem InFile.findOutput (hcut : CutsNoFurther φ) {p : PktVolume φ} (hp : p.InFile)
    {args : List Long} {mem : μ} (hfits : p.Fits ⟨Action.findOutput, args, mem⟩) :
    (p.findOutput args mem).2.InFile := by
  unfold PktVolume.findOutput
  split
  · rename_i hw
    -- The file that `FINDOUTPUT` empties is the one the packet cuts.
    refine (hp.findOutputTarget hcut args mem ?_).issueFile
    intro d n hopen
    exact hfits.cut hw d n 0 ((p.cutOf_findOutput args mem).trans (toOption_of_ok hopen))
  · exact hp

theorem InFile.findUpdate {p : PktVolume φ} (hp : p.InFile) (args : List Long) (mem : μ) :
    (p.findUpdate args mem).2.InFile := by
  unfold PktVolume.findUpdate
  split
  · exact (hp.findUpdateTarget args mem).issueFile
  · exact hp

/-! ### Cutting and moving -/

theorem InFile.deleteObject {p : PktVolume φ} (hp : p.InFile) {args : List Long} {mem : μ}
    (hfits : p.Fits ⟨Action.deleteObject, args, mem⟩) : (p.deleteObject args mem).2.InFile := by
  unfold PktVolume.deleteObject
  split
  · rename_i hw
    have hbelow : ∀ d n, (p.openForFind (args.getD 0 0) (args.getD 1 0) mem).1 = .ok (d, n) →
        ∀ b, p.tree.Names d n b → p.Below b 0 := by
      intro d n hopen
      exact hfits.cut hw d n 0 ((p.cutOf_deleteObject args mem).trans (toOption_of_ok hopen))
    have hview := readsKeep_view.openForFind p (args.getD 0 0) (args.getD 1 0) mem
    generalize p.openForFind (args.getD 0 0) (args.getD 1 0) mem = r at hview hbelow ⊢
    rcases r with ⟨code | ⟨d, n⟩, fs⟩
    · exact hp.view hview
    · have hto := cutTo_delete fs d n
      rw [show LawfulFfs.view fs = p.tree from hview] at hto
      exact InFile.finish (hp.cut hto (hbelow d n rfl))
  · exact hp

theorem InFile.setFileSize (hcut : CutsNoFurther φ) {p : PktVolume φ} (hp : p.InFile)
    {args : List Long} {mem : μ} (hfits : p.Fits ⟨Action.setFileSize, args, mem⟩) :
    (p.setFileSize args).2.InFile := by
  unfold PktVolume.setFileSize
  cases hf : p.fileAt (args.getD 0 0) with
  | none => exact hp
  | some f =>
    simp only
    split
    · rename_i hw
      have hview := LawfulFfs.view_fileChain p.fs f.headerLba
      have hchain := fun c => @LawfulFfs.fileChain_ok _ _ _ p.fs f.headerLba c
      generalize Ffs.fileChain p.fs f.headerLba = r at hview hchain ⊢
      rcases r with ⟨e | chain, fs⟩
      · exact hp.view hview
      · rcases hchain chain rfl with ⟨bytes, hbytes, hsize⟩
        -- The size the guest asks for is counted from the end of the file as the tree has it.
        have hat : p.tree.sizeAt f.headerLba = chain.byteSize := by
          rw [hsize]
          exact sizeAt_of_bytesOf hbytes
        simp only
        cases hbase : seekBase (args.getD 2 0).toInt f.position chain.byteSize with
        | none => exact hp.view hview
        | some base =>
          have hto := cutTo_truncate hcut fs f.parentLba f.name (base + (args.getD 1 0).toInt).toNat
          rw [show LawfulFfs.view fs = p.tree from hview] at hto
          have hin := hp.cut hto (hfits.cut hw _ _ _ (cutOf_setFileSize mem hf hat hbase))
          simp only
          generalize Ffs.truncate fs f.parentLba f.name (base + (args.getD 1 0).toInt).toNat = r
            at hin ⊢
          rcases r with ⟨e | u, fs'⟩ <;> exact hin
    · exact hp

theorem InFile.readAction (hp : p.InFile) (args : List Long) (mem : μ) :
    (p.readAction args mem).2.1.InFile := by
  rcases p.readAction_cases args mem with ⟨res, fs, mem', heq, -, hview⟩ |
    ⟨f, bytes, old, put, fs, hf, hbytes, -, hview, heq⟩
  · rw [heq]
    exact hp.view hview
  · rw [heq]
    refine (hp.view hview).seekTo _ f ?_
    have hpos := hp _ f hf
    rw [sizeAt_of_bytesOf hbytes] at hpos
    have hat : (LawfulFfs.view fs).sizeAt f.headerLba = bytes.length := by
      rw [hview]
      exact sizeAt_of_bytesOf hbytes
    show _ ≤ (LawfulFfs.view fs).sizeAt f.headerLba
    omega

theorem InFile.writeAction (hcut : CutsNoFurther φ) (hp : p.InFile) {args : List Long} {mem : μ}
    (hfits : p.Fits ⟨Action.write, args, mem⟩) : (p.writeAction args mem).2.InFile := by
  rcases p.writeAction_cases hcut args mem with ⟨res, fs, heq, -, hnone⟩ |
    ⟨f, data, fs, hf, hw, hmem, hnone, hreach, heq⟩
  · rw [heq]
    exact hp.fs hnone
  · rw [heq]
    refine (hp.fs hnone).seekTo _ f ?_
    -- The bytes went to the file the handle reads, or that one is long enough as it is.
    rcases hfits.write rfl f data hf hw hmem with hnames | hle
    · exact hreach _ hnames
    · exact Nat.le_trans hle (hnone _)

theorem InFile.seekAction (hp : p.InFile) (args : List Long) : (p.seekAction args).2.InFile := by
  rcases p.seekAction_cases args with ⟨res, fs, heq, -, hview⟩ |
    ⟨f, fs, position, hf, hview, hle, heq⟩
  · rw [heq]
    exact hp.view hview
  · rw [heq]
    refine (hp.view hview).seekTo _ f ?_
    show _ ≤ (LawfulFfs.view fs).sizeAt f.headerLba
    rw [hview]
    exact hle

/-! ## The run -/

/-- **A packet that fits keeps every position inside its file.** -/
theorem InFile.step (hcut : CutsNoFurther φ) (ht : TableInv p) (hp : p.InFile) {k : Packet μ}
    (hfits : p.Fits k) : (p.step k).InFile := by
  rcases k with ⟨a, args, mem⟩
  revert hfits
  apply dispatch (P := fun a r => p.Fits (⟨a, args, mem⟩ : Packet μ) → r.2.1.InFile) p args mem
  case inhibit => exact fun _ => hp.inhibitAction args
  case format => exact fun _ => hp.formatAction ht args mem
  case isFilesystem => exact fun _ => hp
  case diskInfo => exact fun _ => hp
  case refused => exact fun _ _ _ => hp
  case unknown => exact fun _ _ => hp
  case locateObject => exact fun _ _ => hp.issueLock (readsKeep_view.locateTarget p args mem)
  case freeLock => exact fun _ _ => hp.freeLock args
  case copyDir => exact fun _ _ => hp.issueLock (view_copyDirTarget LawfulFfs.view p args)
  case parent => exact fun _ _ => hp.issueLock (readsKeep_view.parentTarget p args)
  case sameLock => exact fun _ _ => hp.sameLock args
  case examineObject => exact fun _ _ => hp.examineObject args mem
  case examineNext => exact fun _ _ => hp.examineNext args mem
  case info => exact fun _ _ => hp
  case findInput => exact fun _ _ => (hp.findInputTarget args mem).issueFile
  case findOutput => exact fun _ hfits => hp.findOutput hcut hfits
  case findUpdate => exact fun _ _ => hp.findUpdate args mem
  case end' => exact fun _ _ => hp.end' args
  case read => exact fun _ _ => hp.readAction args mem
  case write => exact fun _ hfits => hp.writeAction hcut hfits
  case seek => exact fun _ _ => hp.seekAction args
  case setFileSize => exact fun _ hfits => hp.setFileSize hcut hfits
  case createDir => exact fun _ _ => hp.createDirAction args mem
  case deleteObject => exact fun _ hfits => hp.deleteObject hfits
  case renameObject => exact fun _ _ => hp.renameObject args mem
  case setProtect => exact fun _ _ => hp.setMeta args mem _
  case setComment => exact fun _ _ => hp.setMeta args mem _
  case setDate => exact fun _ _ => hp.setMeta args mem _
  case flush => exact fun _ _ => hp.flush

/-! ### What is transferred -/

/-- The handle's position is set and every other open file is as it was. -/
def MovesOnly (p p' : PktVolume φ) (handle : Long) (f : OpenFile) (position : Nat) : Prop :=
  p'.fileAt = fun i => if i = handle then some { f with position := position } else p.fileAt i

omit [Ffs φ] [LawfulFfs φ] [GuestMemory μ] in
theorem movesOnly_seekTo (p : PktVolume φ) (fs : φ) (handle : Long) (f : OpenFile)
    (position : Nat) : MovesOnly p ({ p with fs := fs }.seekTo handle f position) handle f
      position := by
  funext i
  exact fileAt_setHandle { p with fs := fs } handle _ i

/-- A `READ` moves the bytes from the position on and the position behind them, a `WRITE` the
position behind its bytes; a `SEEK` answers the old position. No other position moves. -/
structure Transfers (p : PktVolume φ) (k : Packet μ) : Prop where
  read : k.action = Action.read → (p.answer k).2 = 0 → ∃ f bytes old n,
    p.fileAt (k.args.getD 0 0) = some f ∧ p.tree.bytesOf f.headerLba = some bytes ∧
      GuestMemory.ramSlice k.mem (k.args.getD 1 0) (k.args.getD 2 0) = some old ∧
      n = min (k.args.getD 2 0).toNat (bytes.length - f.position) ∧
      (p.answer k).1.toNat = n ∧
      GuestMemory.ramSlice (p.executeInner k.action k.args k.mem).2.2 (k.args.getD 1 0)
        (k.args.getD 2 0) = some ((bytes.drop f.position).take n ++ old.drop n) ∧
      (p.step k).tree = p.tree ∧
      MovesOnly p (p.step k) (k.args.getD 0 0) f (f.position + n)
  write : k.action = Action.write → (p.answer k).2 = 0 → ∃ f,
    p.fileAt (k.args.getD 0 0) = some f ∧ (p.answer k).1 = k.args.getD 2 0 ∧
      MovesOnly p (p.step k) (k.args.getD 0 0) f (f.position + (k.args.getD 2 0).toNat)
  seek : k.action = Action.seek → (p.answer k).2 = 0 → ∃ f position,
    p.fileAt (k.args.getD 0 0) = some f ∧ (p.answer k).1 = BitVec.ofNat 32 f.position ∧
      position ≤ p.tree.sizeAt f.headerLba ∧ (p.step k).tree = p.tree ∧
      MovesOnly p (p.step k) (k.args.getD 0 0) f position

omit [LawfulFfs φ] in
/-- An action that succeeds was not refused by an inhibited volume. -/
theorem not_inhibited_of_served {k : Packet μ} (ha : k.action ∈ dataActions)
    (h : (p.answer k).2 = 0) : p.inhibited = false := by
  cases hinh : p.inhibited with
  | false => rfl
  | true =>
    rw [answer, executeInner_data_inhibited hinh k.args k.mem ha] at h
    exact absurd h (show Err.notADosDisk ≠ 0 by decide)

theorem transfers [LawfulGuestMemory μ] (hcut : CutsNoFurther φ) (p : PktVolume φ)
    (k : Packet μ) : p.Transfers k := by
  rcases k with ⟨a, args, mem⟩
  refine ⟨?_, ?_, ?_⟩
  · rintro rfl hok
    -- A packet answered without a code was not refused: of the cases it is the last.
    have hinh := not_inhibited_of_served (by simp [dataActions]) hok
    have hexec := (executeInner_data hinh args mem).1
    simp only [answer, step] at hok ⊢
    rw [hexec] at hok ⊢
    rcases p.readAction_cases args mem with ⟨res, fs, mem', heq, hcode, -⟩ |
      ⟨f, bytes, old, put, fs, hf, hbytes, hmem, hview, heq⟩
    · rw [heq] at hok
      exact absurd hok hcode
    · have hold := GuestMemory.ramSlice_of_ramSliceMut hmem
      have hlen := LawfulGuestMemory.length_ramSlice hold
      rw [heq]
      refine ⟨f, bytes, old, _, hf, hbytes, hold, rfl, ?_, ?_, hview, ?_⟩
      · rw [BitVec.toNat_ofNat, hlen]
        exact Nat.mod_eq_of_lt (Nat.lt_of_le_of_lt (Nat.min_le_left _ _) (args.getD 2 0).isLt)
      · rw [← hlen]
        refine LawfulGuestMemory.slice_put hmem ?_
        simp only [List.length_append, List.length_take, List.length_drop, ← hlen]
        omega
      · rw [← hlen]
        exact movesOnly_seekTo p fs _ f _
  · rintro rfl hok
    have hinh := not_inhibited_of_served (by simp [dataActions]) hok
    have hexec := (executeInner_data hinh args mem).2.1
    simp only [answer, step] at hok ⊢
    rw [hexec] at hok ⊢
    rcases p.writeAction_cases hcut args mem with ⟨res, fs, heq, hcode, -⟩ |
      ⟨f, data, fs, hf, -, hmem, -, -, heq⟩
    · simp only [withMem, heq] at hok
      exact absurd hok hcode
    · have hlen := LawfulGuestMemory.length_ramSlice hmem
      simp only [withMem, heq]
      refine ⟨f, hf, ?_, ?_⟩
      · rw [hlen, BitVec.ofNat_toNat, BitVec.setWidth_eq]
      · rw [← hlen]
        exact movesOnly_seekTo p fs _ f _
  · rintro rfl hok
    have hinh := not_inhibited_of_served (by simp [dataActions]) hok
    have hexec := (executeInner_data hinh args mem).2.2.1
    simp only [answer, step] at hok ⊢
    rw [hexec] at hok ⊢
    rcases p.seekAction_cases args with ⟨res, fs, heq, hcode, -⟩ |
      ⟨f, fs, position, hf, hview, hle, heq⟩
    · simp only [withMem, heq] at hok
      exact absurd hok hcode
    · simp only [withMem, heq]
      exact ⟨f, position, hf, rfl, hle, hview, movesOnly_seekTo p fs _ f _⟩

/-- **Positions stay inside their files.** Along every run of a freshly mounted volume in which no
packet cuts a file below the position of a handle open on it, and no `WRITE` goes past the file its
handle reads, every position is at most the size of its file, and `READ`, `WRITE` and `SEEK` move by
exactly what they answer. -/
theorem positions_stay_in_files [LawfulGuestMemory μ] (hcut : CutsNoFurther φ) (fs : φ)
    (writable : Bool) (lenBlocks reserved : Nat) (ks : List (Packet μ))
    (hfits : Transition.Each PktVolume.step (fun p k => p.Fits k)
      (opened fs writable lenBlocks reserved) ks) :
    Transition.Always PktVolume.step (fun p => p.InFile ∧ ∀ k : Packet μ, p.Transfers k)
      (opened fs writable lenBlocks reserved) ks := by
  have hstart : TableInv (opened fs writable lenBlocks reserved) ∧
      (opened fs writable lenBlocks reserved).InFile :=
    ⟨(logged_opened fs writable lenBlocks reserved).table, .of_closed fun _ => rfl⟩
  -- The table has to be in order for the positions to stay, so the two are carried together.
  have hkeep := Transition.always_of_each (P := fun p : PktVolume φ => TableInv p ∧ p.InFile)
    (fun p k hp hk => ⟨hp.1.step k, hp.2.step hcut hp.1 hk⟩) hstart hfits
  intro before after hsplit
  exact ⟨(hkeep before after hsplit).2, transfers hcut _⟩

/-! ## On a volume in memory -/

theorem cutsNoFurther_tree : CutsNoFurther TreeFs where
  writeFile h := CutsNone.of_eq (congrArg TreeFs.tree (TreeFs.edit_error _ h))
  truncate h := (CutsNone.of_eq (congrArg TreeFs.tree (TreeFs.edit_error _ h))).cutTo _ _ _

/-- Two bytes are written to a new file, and one of them is read again. -/
theorem positions_stay_in_files_blank :
    let ks := [openA, request Action.write [1, 16, 2], request Action.seek [1, 1, 0xFFFFFFFF],
      request Action.read [1, 32, 4]]
    (blank.run ks).fileAt 1 = some ⟨8, [0x61], 0, 2, true⟩ ∧
      Transition.Always PktVolume.step
        (fun p => p.InFile ∧ ∀ k : Packet (FlatRam 64), p.Transfers k) blank ks := by
  intro ks
  refine ⟨by decide, positions_stay_in_files cutsNoFurther_tree _ _ _ _ ks ?_⟩
  have hnone : ∀ (p : PktVolume TreeFs) (k : Packet (FlatRam 64)), p.cutOf k = none →
      k.action ≠ Action.write → p.Fits k := by
    intro p k hcut hwrite
    refine ⟨?_, fun h => absurd h hwrite⟩
    rintro - d n size h
    rw [hcut] at h
    cases h
  simp only [ks, Transition.each_cons]
  refine ⟨⟨?_, ?_⟩, ⟨?_, ?_⟩, hnone _ _ rfl (by decide), hnone _ _ rfl (by decide),
    Transition.each_nil⟩
  · -- Nothing is open yet.
    rintro - d n size - b - h f hf
    cases hf
  · intro h
    exact absurd h (by decide)
  · rintro - d n size h
    cases h
  -- The handle is that of the new file, and the name still leads to it.
  · rintro - f data hf - -
    have hfile : (blank.step openA).fileAt 1 = some ⟨8, [0x61], 0, 0, true⟩ := by decide
    obtain rfl := Option.some.inj (hf.symm.trans hfile)
    exact .inl ((TreeFs.namesB_iff _ 8 [0x61] 0).mp (by decide))

/-- A file with two bytes is emptied under its handle, by `FINDOUTPUT` or by `SET_FILE_SIZE`. The
position stays at 2, and the next byte leaves two before it that nobody wrote. -/
theorem emptied_file_keeps_positions :
    let p := (blank.step openA).step (request Action.write [1, 16, 2])
    let q := p.step (request Action.findOutput [0, 0, 1])
    let r := p.step (request Action.setFileSize [1, 0, 0xFFFFFFFF])
    q.fileAt 1 = some ⟨8, [0x61], 0, 2, true⟩ ∧ q.tree.sizeAt 0 = 0 ∧ ¬q.InFile ∧
      r.fileAt 1 = some ⟨8, [0x61], 0, 2, true⟩ ∧ r.tree.sizeAt 0 = 0 ∧ ¬r.InFile ∧
      (r.step (request Action.write [1, 16, 1])).tree.bytesOf 0 = some [0, 0, 0xAA] := by
  intro p q r
  have hq : q.fileAt 1 = some ⟨8, [0x61], 0, 2, true⟩ := by decide
  have hq0 : q.tree.sizeAt 0 = 0 := by decide
  have hr : r.fileAt 1 = some ⟨8, [0x61], 0, 2, true⟩ := by decide
  have hr0 : r.tree.sizeAt 0 = 0 := by decide
  refine ⟨hq, hq0, fun h => ?_, hr, hr0, fun h => ?_, by decide⟩
  -- The handle is at 2 and its file is empty.
  · have hle := h 1 _ hq
    rw [hq0] at hle
    exact absurd hle (by decide)
  · have hle := h 1 _ hr
    rw [hr0] at hle
    exact absurd hle (by decide)

end PktVolume

end M68kMachine
