import M68kMachine.Properties.PktvolTree

/-!
# What an open file handle acts on

A handle to a file records a header block, which reads and seeks use, and a directory and a name,
which writes and truncations use. The two name one file as long as nothing renames or deletes that
entry.

* `ActsOn`, `Fails` — what a packet through a handle does to the file, and when it is gone
* `Spares` — the packet does not rename or delete the entry a handle records
* `handle_acts_on_its_file` — along a run of packets that spare it
-/

namespace M68kMachine

namespace PktVolume

open HandleLog VolumeTree

variable {φ μ : Type} [Ffs φ] [LawfulFfs φ] [GuestMemory μ] {args : List Long} {f : OpenFile}
  {bytes : List Byte} {p : PktVolume φ} {k : Packet μ}

/-! ## What a packet through a file handle does -/

/-- The tree stays, and the buffer gets bytes of the file from its position, all if the packet
succeeds. -/
def ReadsFile (p : PktVolume φ) (f : OpenFile) (bytes : List Byte) (args : List Long) (mem : μ)
    (r : Res × PktVolume φ × μ) : Prop :=
  r.2.1.tree = p.tree ∧
    (r.1.2 ≠ 0 ∧ r.2.2 = mem ∨
      ∃ old put m, GuestMemory.ramSliceMut mem (args.getD 1 0) (args.getD 2 0) = some (old, put) ∧
        m ≤ min old.length (bytes.length - f.position) ∧
        r.2.2 = put ((bytes.drop f.position).take m ++ old.drop m) ∧
        (r.1.2 = 0 → r.1.1 = BitVec.ofNat 32 m ∧ m = min old.length (bytes.length - f.position)))

/-- The file has the guest's bytes over its own from its position, or, on failure, any other
contents; no other object changes. -/
def WritesFile (p : PktVolume φ) (f : OpenFile) (bytes : List Byte) (args : List Long) (mem : μ)
    (r : Res × PktVolume φ × μ) : Prop :=
  r.2.2 = mem ∧
    (r.1.2 = 0 → ∃ data, GuestMemory.ramSlice mem (args.getD 1 0) (args.getD 2 0) = some data ∧
      r.1.1 = BitVec.ofNat 32 data.length ∧
      r.2.1.tree = p.tree.setBody f.headerLba (some (overwrite bytes f.position data))) ∧
    (r.1.2 ≠ 0 → r.2.1.tree = p.tree ∨
      ∃ bytes', r.2.1.tree = p.tree.setBody f.headerLba (some bytes'))

/-- `SEEK`: the tree stays, and the position is found from the size of the file. -/
def SeeksFile (p : PktVolume φ) (f : OpenFile) (bytes : List Byte) (args : List Long) (mem : μ)
    (r : Res × PktVolume φ × μ) : Prop :=
  r.2.2 = mem ∧ r.2.1.tree = p.tree ∧
    (r.1.2 = 0 → ∃ base, seekBase (args.getD 2 0).toInt f.position bytes.length = some base ∧
      r.2.1.fileAt (args.getD 0 0) = some { f with
        position := min (base + (args.getD 1 0).toInt).toNat bytes.length })

/-- `SET_FILE_SIZE`: the file is cut or extended to a size found from its own. -/
def ResizesFile (p : PktVolume φ) (f : OpenFile) (bytes : List Byte) (args : List Long) (mem : μ)
    (r : Res × PktVolume φ × μ) : Prop :=
  r.2.2 = mem ∧
    (r.1.2 = 0 → ∃ base, seekBase (args.getD 2 0).toInt f.position bytes.length = some base ∧
      r.1.1 = BitVec.ofNat 32 (base + (args.getD 1 0).toInt).toNat ∧
      r.2.1.tree = p.tree.setBody f.headerLba
        (some (resize bytes (base + (args.getD 1 0).toInt).toNat))) ∧
    (r.1.2 ≠ 0 → r.2.1.tree = p.tree ∨
      ∃ bytes', r.2.1.tree = p.tree.setBody f.headerLba (some bytes'))

theorem readAction_reads (p : PktVolume φ) (mem : μ) (hf : p.fileAt (args.getD 0 0) = some f)
    (hbytes : p.tree.bytesOf f.headerLba = some bytes) :
    p.ReadsFile f bytes args mem (p.readAction args mem) := by
  unfold readAction
  rw [hf]
  have hview := LawfulFfs.view_fileChain p.fs f.headerLba
  have hread := fun c off buf (hc : (Ffs.fileChain p.fs f.headerLba).1 = .ok c) =>
    LawfulFfs.readRange_eq off buf hc hbytes
  simp only
  generalize Ffs.fileChain p.fs f.headerLba = r at hview hread ⊢
  obtain ⟨e | chain, fs⟩ := r
  · exact ⟨hview, .inl ⟨mapReadError_ne_zero e, rfl⟩⟩
  · simp only
    cases hmem : GuestMemory.ramSliceMut mem (args.getD 1 0) (args.getD 2 0) with
    | none => exact ⟨hview, .inl ⟨show Err.badNumber ≠ 0 by decide, rfl⟩⟩
    | some view =>
      obtain ⟨old, put⟩ := view
      obtain ⟨m, hm, hbuf, hn⟩ := hread chain f.position old rfl
      have hview' := LawfulFfs.view_readRange fs chain f.position old
      simp only at hbuf hn ⊢
      generalize Ffs.readRange fs chain f.position old = r at hbuf hn hview' ⊢
      obtain ⟨e | n, out, fs'⟩ := r
      -- The read failed half way: the bytes before are in the buffer all the same.
      · refine ⟨hview'.trans hview, .inr ⟨old, put, m, hmem, hm, congrArg put hbuf, ?_⟩⟩
        intro hzero
        exact absurd hzero (mapReadError_ne_zero e)
      · refine ⟨hview'.trans hview, .inr ⟨old, put, m, hmem, hm, congrArg put hbuf, ?_⟩⟩
        intro _
        obtain ⟨rfl, hmin⟩ := hn n rfl
        exact ⟨rfl, hmin⟩

theorem writeAction_writes (p : PktVolume φ) (mem : μ) (hf : p.fileAt (args.getD 0 0) = some f)
    (hnames : p.tree.Names f.parentLba f.name f.headerLba)
    (hbytes : p.tree.bytesOf f.headerLba = some bytes) :
    p.WritesFile f bytes args mem (withMem mem (p.writeAction args mem)) := by
  have hwf := LawfulFfs.wf p.fs
  unfold writeAction
  rw [hf]
  simp only [withMem]
  split
  · cases hmem : GuestMemory.ramSlice mem (args.getD 1 0) (args.getD 2 0) with
    | none => exact ⟨rfl, fun hz => absurd hz
        (show Err.badNumber ≠ 0 by decide), fun _ => .inl rfl⟩
    | some data =>
      simp only
      split
      · have hok := fun u => @LawfulFfs.writeFile_ok _ _ _ p.fs f.parentLba f.name f.position data u
        have herr := fun e => @LawfulFfs.writeFile_error _ _ _ p.fs f.parentLba f.name
          f.position data e
        generalize Ffs.writeFile p.fs f.parentLba f.name f.position data = r at hok herr ⊢
        obtain ⟨e | u, fs⟩ := r
        · refine ⟨rfl, fun hz => absurd hz (mapMutateError_ne_zero e), fun _ => ?_⟩
          rcases herr e rfl with hsame | ⟨b, bytes', hb, htree⟩
          · exact .inl hsame
          -- The name the handle records leads to its own block, so no other file was touched.
          · obtain rfl := hwf.names hb.1 hnames
            exact .inr ⟨bytes', htree⟩
        · obtain ⟨b, bytes', hb, hbytes', htree⟩ := hok u rfl
          obtain rfl := hwf.names hb hnames
          rw [show (LawfulFfs.view p.fs).bytesOf f.headerLba = some bytes from hbytes] at hbytes'
          cases hbytes'
          exact ⟨rfl, fun _ => ⟨data, hmem, rfl, htree⟩, fun hz => absurd rfl hz⟩
      · exact ⟨rfl, fun hz => absurd hz
          (show Err.writeProtected ≠ 0 by decide), fun _ => .inl rfl⟩
  · exact ⟨rfl, fun hz => absurd hz
      (show Err.writeProtectedFile ≠ 0 by decide), fun _ => .inl rfl⟩

omit [GuestMemory μ] in
theorem seekAction_seeks (p : PktVolume φ) (mem : μ) (hf : p.fileAt (args.getD 0 0) = some f)
    (hbytes : p.tree.bytesOf f.headerLba = some bytes) :
    p.SeeksFile f bytes args mem (withMem mem (p.seekAction args)) := by
  unfold seekAction
  rw [hf]
  have hview := LawfulFfs.view_fileChain p.fs f.headerLba
  have hsize := fun c => @LawfulFfs.fileChain_ok _ _ _ p.fs f.headerLba c
  simp only [withMem]
  generalize Ffs.fileChain p.fs f.headerLba = r at hview hsize ⊢
  obtain ⟨e | chain, fs⟩ := r
  · exact ⟨rfl, hview, fun hz => absurd hz (mapReadError_ne_zero e)⟩
  · obtain ⟨bytes', hbytes', hlen⟩ := hsize chain rfl
    rw [show (LawfulFfs.view p.fs).bytesOf f.headerLba = some bytes from hbytes] at hbytes'
    cases hbytes'
    simp only [hlen]
    cases hbase : seekBase (args.getD 2 0).toInt f.position bytes.length with
    | none => exact ⟨rfl, hview, fun hz => absurd hz (show Err.badNumber ≠ 0 by decide)⟩
    | some base =>
      refine ⟨rfl, hview, fun _ => ⟨base, hbase, ?_⟩⟩
      simp only
      rw [seekTo, fileAt_setHandle, if_pos rfl]

omit [GuestMemory μ] in
theorem setFileSize_resizes (p : PktVolume φ) (mem : μ) (hf : p.fileAt (args.getD 0 0) = some f)
    (hnames : p.tree.Names f.parentLba f.name f.headerLba)
    (hbytes : p.tree.bytesOf f.headerLba = some bytes) :
    p.ResizesFile f bytes args mem (withMem mem (p.setFileSize args)) := by
  have hwf := LawfulFfs.wf p.fs
  unfold setFileSize
  rw [hf]
  simp only [withMem]
  split
  · have hview := LawfulFfs.view_fileChain p.fs f.headerLba
    have hsize := fun c => @LawfulFfs.fileChain_ok _ _ _ p.fs f.headerLba c
    generalize Ffs.fileChain p.fs f.headerLba = r at hview hsize ⊢
    obtain ⟨e | chain, fs⟩ := r
    · exact ⟨rfl, fun hz => absurd hz (mapReadError_ne_zero e), fun _ => .inl hview⟩
    -- The chain is that of the file the handle reads: its size is the length of the bytes.
    · obtain ⟨bytes', hbytes', hlen⟩ := hsize chain rfl
      rw [show (LawfulFfs.view p.fs).bytesOf f.headerLba = some bytes from hbytes] at hbytes'
      cases hbytes'
      simp only [hlen]
      cases hbase : seekBase (args.getD 2 0).toInt f.position bytes.length with
      | none => exact ⟨rfl, fun hz => absurd hz
          (show Err.badNumber ≠ 0 by decide), fun _ => .inl hview⟩
      | some base =>
        simp only
        generalize hnew : (base + (args.getD 1 0).toInt).toNat = size
        have hok := fun u => @LawfulFfs.truncate_ok _ _ _ fs f.parentLba f.name size u
        have herr := fun e => @LawfulFfs.truncate_error _ _ _ fs f.parentLba f.name size e
        rw [show LawfulFfs.view fs = LawfulFfs.view p.fs from hview] at hok herr
        generalize Ffs.truncate fs f.parentLba f.name size = r at hok herr ⊢
        obtain ⟨e | u, fs'⟩ := r
        · refine ⟨rfl, fun hz => absurd hz (mapMutateError_ne_zero e), fun _ => ?_⟩
          rcases herr e rfl with hsame | ⟨b, bytes', hb, htree⟩
          · exact .inl hsame
          · obtain rfl := hwf.names hb.1 hnames
            exact .inr ⟨bytes', htree⟩
        · obtain ⟨b, bytes', hb, hbytes', htree⟩ := hok u rfl
          obtain rfl := hwf.names hb hnames
          rw [show (LawfulFfs.view p.fs).bytesOf f.headerLba = some bytes from hbytes] at hbytes'
          cases hbytes'
          refine ⟨rfl, fun _ => ⟨base, hbase, ?_, ?_⟩, fun hz => absurd rfl hz⟩
          · rw [hnew]
          · rw [hnew]
            exact htree
  · exact ⟨rfl, fun hz => absurd hz
      (show Err.writeProtectedFile ≠ 0 by decide), fun _ => .inl rfl⟩

/-! ### A file that is gone -/

/-- The packet fails and changes neither the tree nor memory. -/
def Fails (p : PktVolume φ) (mem : μ) (r : Res × PktVolume φ × μ) : Prop :=
  r.1.2 ≠ 0 ∧ r.2.1.tree = p.tree ∧ r.2.2 = mem

/-- Neither what the handle records as its header block nor its entry is a file. -/
def Gone (p : PktVolume φ) (f : OpenFile) : Prop :=
  p.tree.bytesOf f.headerLba = none ∧ ∀ b, ¬p.tree.NamesFile f.parentLba f.name b

omit [GuestMemory μ] in
/-- A block that is no file has no chain. -/
theorem Gone.fileChain {p : PktVolume φ} {f : OpenFile} (h : p.Gone f) :
    ∃ e fs, Ffs.fileChain p.fs f.headerLba = (.error e, fs) ∧ LawfulFfs.view fs = p.tree := by
  have hview := LawfulFfs.view_fileChain p.fs f.headerLba
  have hok := fun c => @LawfulFfs.fileChain_ok _ _ _ p.fs f.headerLba c
  generalize Ffs.fileChain p.fs f.headerLba = r at hview hok ⊢
  obtain ⟨e | chain, fs⟩ := r
  · exact ⟨e, fs, rfl, hview⟩
  · obtain ⟨bytes, hbytes, -⟩ := hok chain rfl
    rw [show (LawfulFfs.view p.fs).bytesOf f.headerLba = none from h.1] at hbytes
    cases hbytes

theorem Gone.readAction {p : PktVolume φ} {f : OpenFile} (h : p.Gone f) {args : List Long}
    (mem : μ) (hf : p.fileAt (args.getD 0 0) = some f) :
    p.Fails mem (p.readAction args mem) := by
  obtain ⟨e, fs, hchain, hview⟩ := h.fileChain
  simp only [PktVolume.readAction, hf, hchain]
  exact ⟨mapReadError_ne_zero e, hview, rfl⟩

omit [GuestMemory μ] in
theorem Gone.seekAction {p : PktVolume φ} {f : OpenFile} (h : p.Gone f) {args : List Long}
    (mem : μ) (hf : p.fileAt (args.getD 0 0) = some f) :
    p.Fails mem (withMem mem (p.seekAction args)) := by
  obtain ⟨e, fs, hchain, hview⟩ := h.fileChain
  simp only [PktVolume.seekAction, hf, hchain]
  exact ⟨mapReadError_ne_zero e, hview, rfl⟩

omit [GuestMemory μ] in
theorem Gone.setFileSize {p : PktVolume φ} {f : OpenFile} (h : p.Gone f) {args : List Long}
    (mem : μ) (hf : p.fileAt (args.getD 0 0) = some f) :
    p.Fails mem (withMem mem (p.setFileSize args)) := by
  obtain ⟨e, fs, hchain, hview⟩ := h.fileChain
  simp only [PktVolume.setFileSize, hf, hchain]
  split
  · exact ⟨mapReadError_ne_zero e, hview, rfl⟩
  · exact ⟨show Err.writeProtectedFile ≠ 0 by decide, rfl, rfl⟩

theorem Gone.writeAction {p : PktVolume φ} {f : OpenFile} (h : p.Gone f) {args : List Long}
    (mem : μ) (hf : p.fileAt (args.getD 0 0) = some f) :
    p.Fails mem (withMem mem (p.writeAction args mem)) := by
  unfold PktVolume.writeAction
  rw [hf]
  simp only
  split
  · split
    · exact ⟨show Err.badNumber ≠ 0 by decide, rfl, rfl⟩
    · rename_i data _
      split
      · have hok := fun u => @LawfulFfs.writeFile_ok _ _ _ p.fs f.parentLba f.name f.position data u
        have herr := fun e => @LawfulFfs.writeFile_error _ _ _ p.fs f.parentLba f.name
          f.position data e
        generalize Ffs.writeFile p.fs f.parentLba f.name f.position data = r at hok herr ⊢
        obtain ⟨e | u, fs⟩ := r
        · refine ⟨mapMutateError_ne_zero e, ?_, rfl⟩
          rcases herr e rfl with hsame | ⟨b, bytes, hb, -⟩
          -- A write goes by the name, and there is no file under it to write to.
          · exact hsame
          · exact absurd hb (h.2 b)
        · obtain ⟨b, bytes, hb, hbytes, -⟩ := hok u rfl
          exact absurd ⟨hb, by rw [hbytes]; rfl⟩ (h.2 b)
      · exact ⟨show Err.writeProtected ≠ 0 by decide, rfl, rfl⟩
  · exact ⟨show Err.writeProtectedFile ≠ 0 by decide, rfl, rfl⟩

/-! ## Runs -/

/-- The packet does not name the entry the open file `h` records, to delete or rename it. -/
def Spares (p : PktVolume φ) (k : Packet μ) (h : Long) : Prop :=
  ∀ f, p.fileAt h = some f → ∀ d n, p.entryOf k = some (d, n) →
    ¬(d = f.parentLba ∧ p.tree.key n = p.tree.key f.name)

theorem Spares.of_none (h : Long) (he : p.entryOf k = none) : p.Spares k h := by
  intro f _ d n hd
  rw [he] at hd
  cases hd

theorem Spares.of_ne {h : Long} {d : Nat} {n : List Byte} (hf : p.fileAt h = some f)
    (he : p.entryOf k = some (d, n)) (hne : ¬(d = f.parentLba ∧ p.tree.key n = p.tree.key f.name)) :
    p.Spares k h := by
  intro f' hf' d' n' hd
  rw [hf] at hf'
  rw [he] at hd
  cases hf'
  cases hd
  exact hne

/-- While handle `h` is open its block is `b`, and block and entry name the file `id`. -/
def HoldsFile (p : PktVolume φ) (h : Long) (id b : Nat) : Prop :=
  ∀ f, p.fileAt h = some f → f.headerLba = b ∧ p.tree.Attached id b f.parentLba f.name

theorem HoldsFile.step {h : Long} {id b : Nat} (hh : p.HoldsFile h id b) (hp : TableInv p)
    (hk : p.Spares k h) (hne : ∀ w, p.event k ≠ some (.issue h w)) :
    (p.step k).HoldsFile h id b := by
  intro f' hf'
  obtain ⟨⟨f, hf, hparent, hname, hheader⟩, hkept⟩ := (step_opens p hp k).old hf' hne
  obtain ⟨hb, hattached⟩ := hh f hf
  refine ⟨hheader.trans hb, ?_⟩
  rw [hparent, hname]
  exact hkept.attached hattached (hk f hf)

/-- Every packet of the run spares the handle, and none issues it again. -/
def SparedBy (p : PktVolume φ) (h : Long) : List (Packet μ) → Prop
  | [] => True
  | k :: ks => p.Spares k h ∧ (∀ w, p.event k ≠ some (.issue h w)) ∧ SparedBy (p.step k) h ks

theorem HoldsFile.run {p : PktVolume φ} {h : Long} {id b : Nat} (hh : p.HoldsFile h id b)
    (hp : TableInv p) :
    ∀ ks : List (Packet μ), p.SparedBy h ks → (p.run ks).HoldsFile h id b
  | [], _ => hh
  | _ :: ks, ⟨hk, hne, hks⟩ => HoldsFile.run (hh.step hp hk hne) (hp.step _) ks hks

/-- The file a handle was opened on. -/
theorem holdsFile_of_issue (hp : TableInv p) {h : Long} {b : Nat}
    (hev : p.event k = some (.issue h (.file, b))) : ∃ id, (p.step k).HoldsFile h id b ∧
      ∃ o, (p.step k).tree.obj b = some o ∧ o.id = id ∧ o.body.isSome := by
  obtain ⟨f, id, hf, hb, hattached⟩ := (step_opens p hp k).opened hev
  refine ⟨id, ?_, ?_⟩
  · intro f' hf'
    rw [hf] at hf'
    cases hf'
    exact ⟨hb, hattached⟩
  · obtain ⟨o, ho, hid, hbody, -⟩ := hattached
    exact ⟨o, ho, hid, hbody⟩

/-- What each packet through handle `h` does, when it is open on a file with these contents. -/
structure ActsOn (p : PktVolume φ) (f : OpenFile) (bytes : List Byte) (k : Packet μ) : Prop where
  read : k.action = Action.read →
    p.ReadsFile f bytes k.args k.mem (p.executeInner k.action k.args k.mem)
  write : k.action = Action.write →
    p.WritesFile f bytes k.args k.mem (p.executeInner k.action k.args k.mem)
  seek : k.action = Action.seek →
    p.SeeksFile f bytes k.args k.mem (p.executeInner k.action k.args k.mem)
  setFileSize : k.action = Action.setFileSize →
    p.ResizesFile f bytes k.args k.mem (p.executeInner k.action k.args k.mem)

omit [LawfulFfs φ] in
/-- A volume with an open file is not inhibited, so the four actions are carried out. -/
theorem executeInner_of_open (hp : TableInv p) {h : Long} (hf : p.fileAt h = some f)
    (args : List Long) (mem : μ) :
    p.executeInner Action.read args mem = p.readAction args mem ∧
    p.executeInner Action.write args mem = withMem mem (p.writeAction args mem) ∧
    p.executeInner Action.seek args mem = withMem mem (p.seekAction args) ∧
    p.executeInner Action.setFileSize args mem = withMem mem (p.setFileSize args) := by
  -- An inhibited volume has dropped its table, so no handle of it is open.
  have hinh : p.inhibited = false := by
    cases hi : p.inhibited with
    | false => rfl
    | true =>
      rw [fileAt_of_resolve (hp.inhibited hi) h] at hf
      cases hf
  exact executeInner_data hinh args mem

theorem actsOn_of_attached (hp : TableInv p) {id : Nat} (hf : p.fileAt (k.args.getD 0 0) = some f)
    (hattached : p.tree.Attached id f.headerLba f.parentLba f.name)
    (hbytes : p.tree.bytesOf f.headerLba = some bytes) : p.ActsOn f bytes k := by
  obtain ⟨hread, hwrite, hseek, hsize⟩ := executeInner_of_open hp hf k.args k.mem
  refine ⟨fun ha => ?_, fun ha => ?_, fun ha => ?_, fun ha => ?_⟩ <;> rw [ha]
  · rw [hread]
    exact readAction_reads p k.mem hf hbytes
  · rw [hwrite]
    exact writeAction_writes p k.mem hf hattached.names hbytes
  · rw [hseek]
    exact seekAction_seeks p k.mem hf hbytes
  · rw [hsize]
    exact setFileSize_resizes p k.mem hf hattached.names hbytes

theorem fails_of_gone (hp : TableInv p) (hf : p.fileAt (k.args.getD 0 0) = some f)
    (hgone : p.Gone f)
    (hk : k.action ∈ [Action.read, Action.write, Action.seek, Action.setFileSize]) :
    p.Fails k.mem (p.executeInner k.action k.args k.mem) := by
  obtain ⟨hread, hwrite, hseek, hsize⟩ := executeInner_of_open hp hf k.args k.mem
  simp only [List.mem_cons, List.not_mem_nil, or_false] at hk
  rcases hk with ha | ha | ha | ha <;> rw [ha]
  · rw [hread]
    exact hgone.readAction k.mem hf
  · rw [hwrite]
    exact hgone.writeAction k.mem hf
  · rw [hseek]
    exact hgone.seekAction k.mem hf
  · rw [hsize]
    exact hgone.setFileSize k.mem hf

/-- A state some run of packets takes a freshly mounted volume to. -/
def Reached (μ : Type) [GuestMemory μ] (p : PktVolume φ) : Prop :=
  ∃ (fs : φ) (writable : Bool) (lenBlocks reserved : Nat) (ks : List (Packet μ)),
    p = (opened fs writable lenBlocks reserved).run ks

omit [LawfulFfs φ] in
theorem Reached.tableInv (hp : p.Reached μ) : TableInv p := by
  obtain ⟨fs, writable, lenBlocks, reserved, ks, rfl⟩ := hp
  exact (logged_run fs writable lenBlocks reserved ks).table

omit [LawfulFfs φ] in
theorem tableInv_run (hp : TableInv p) (ks : List (Packet μ)) :
    TableInv (p.run ks) := Transition.run_invariant (fun _ k h => h.step k) ks hp

/-- **A handle acts on the file it was opened on.** Along every run of packets that spare it, as
long as `h` is open its header block and its entry name the file at `b`, and the next packet reads,
writes, seeks or resizes that file and no other. A handle whose block and entry name no file fails
without effect. -/
theorem handle_acts_on_its_file {p : PktVolume φ} (hp : p.Reached μ) (k₀ : Packet μ)
    (ks : List (Packet μ)) (h : Long) (b : Nat)
    (hopen : p.event k₀ = some (.issue h (.file, b))) :
    ∃ id, (∃ o, (p.step k₀).tree.obj b = some o ∧ o.id = id ∧ o.body.isSome) ∧
      ∀ p' f, p' = (p.step k₀).run ks → p'.fileAt h = some f →
        ((p.step k₀).SparedBy h ks → f.headerLba = b ∧
          p'.tree.Attached id b f.parentLba f.name ∧
          ∃ bytes, p'.tree.bytesOf b = some bytes ∧
            ∀ k : Packet μ, k.args.getD 0 0 = h → p'.ActsOn f bytes k) ∧
        (p'.Gone f → ∀ k : Packet μ, k.args.getD 0 0 = h →
          k.action ∈ [Action.read, Action.write, Action.seek, Action.setFileSize] →
          p'.Fails k.mem (p'.executeInner k.action k.args k.mem)) := by
  obtain ⟨i, hholds, hobj⟩ := holdsFile_of_issue hp.tableInv hopen
  refine ⟨i, hobj, ?_⟩
  rintro p' f rfl hf
  have hp' := tableInv_run (hp.tableInv.step k₀) ks
  refine ⟨fun hspared => ?_, fun hgone k hk hact => fails_of_gone hp' (hk ▸ hf) hgone hact⟩
  obtain ⟨rfl, hattached⟩ := hholds.run (hp.tableInv.step k₀) ks hspared f hf
  obtain ⟨o, ho, -, hbody, -⟩ := id hattached
  obtain ⟨bytes, hbytes⟩ := Option.isSome_iff_exists.mp hbody
  have hof : ((p.step k₀).run ks).tree.bytesOf f.headerLba = some bytes := by
    rw [VolumeTree.bytesOf, ho]
    exact hbytes
  exact ⟨rfl, hattached, bytes, hof, fun k hk => actsOn_of_attached hp' (hk ▸ hf) hattached hof⟩

/-! ## On a volume in memory -/

/-- Guest memory with the names `a` at address 4 and `b` at address 8. -/
def twoNames : FlatRam 64 :=
  ⟨fun i => if i.val = 4 ∨ i.val = 8 then 1 else if i.val = 5 then 0x61 else
    if i.val = 9 then 0x62 else 0xAA⟩

def request (action : Long) (args : List Long) : Packet (FlatRam 64) := ⟨action, args, twoNames⟩

/-- The file `a`, opened as handle 1 for writing. -/
def openA : Packet (FlatRam 64) := request Action.findOutput [0, 0, 1]

/-- Another file is opened, renamed and deleted under the handle: it keeps its file. -/
theorem handle_acts_on_its_file_blank :
    let ks := [request Action.findOutput [0, 0, 2], request Action.renameObject [0, 2, 0, 2],
      request Action.deleteObject [0, 2]]
    let p' := (blank.step openA).run ks
    ∃ id, (∃ o, (blank.step openA).tree.obj 0 = some o ∧ o.id = id ∧ o.body.isSome) ∧
      ∃ f, p'.fileAt 1 = some f ∧ p'.tree.Attached id 0 f.parentLba f.name ∧
        ∃ bytes, p'.tree.bytesOf 0 = some bytes ∧
          ∀ k : Packet (FlatRam 64), k.args.getD 0 0 = 1 → p'.ActsOn f bytes k := by
  intro ks p'
  have hreached : (blank : PktVolume TreeFs).Reached (FlatRam 64) := ⟨_, _, _, _, [], rfl⟩
  have hev : blank.event openA = some (.issue 1 (.file, 0)) := by decide
  obtain ⟨id, hobj, hall⟩ := handle_acts_on_its_file hreached openA ks 1 0 hev
  have hfile : p'.fileAt 1 = some ⟨8, [0x61], 0, 0, true⟩ := by decide
  have hspared : (blank.step openA).SparedBy 1 ks := by
    refine ⟨.of_none 1 rfl, ?_, ?_, ?_, ?_, ?_, trivial⟩
    · have he : (blank.step openA).event (request Action.findOutput [0, 0, 2]) =
          some (.issue 2 (.file, 1)) := by
        decide
      rw [he]
      simp
    · exact .of_ne (f := ⟨8, [0x61], 0, 0, true⟩) (d := 8) (n := [0x62]) (by decide)
        (by decide) (by decide)
    · rw [event, eventOf_of_not_touching _ (by simp [touching, request])]
      simp
    · exact .of_ne (f := ⟨8, [0x61], 0, 0, true⟩) (d := 8) (n := [0x62]) (by decide)
        (by decide) (by decide)
    · rw [event, eventOf_of_not_touching _ (by simp [touching, request])]
      simp
  obtain ⟨-, hattached, bytes, hbytes, hacts⟩ := (hall p' _ rfl hfile).1 hspared
  exact ⟨id, hobj, _, hfile, hattached, bytes, hbytes, hacts⟩

/-- A file is renamed while open, and bytes written through its handle go to the one in its
place. -/
theorem write_reaches_another_file :
    let p := (blank.step openA).run [request Action.renameObject [0, 1, 0, 2],
      request Action.findOutput [0, 0, 1]]
    let k := request Action.write [1, 16, 2]
    blank.event openA = some (.issue 1 (.file, 0)) ∧
      ((blank.step openA).tree.obj 0).map FileTree.Obj.id = some 1 ∧
      (p.tree.obj 0).map FileTree.Obj.id = some 1 ∧ (p.tree.obj 1).map FileTree.Obj.id = some 2 ∧
      p.answer k = (2, 0) ∧ (p.step k).tree.bytesOf 0 = p.tree.bytesOf 0 ∧
      p.tree.bytesOf 1 = some [] ∧ (p.step k).tree.bytesOf 1 = some [0xAA, 0xAA] := by
  decide

end PktVolume

end M68kMachine
