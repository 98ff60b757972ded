import M68kMachine.Hosted.Pktvol

/-!
# Reads leave a volume as they found it

Whatever part of a volume a backend's reads keep, the names, paths and blocks a packet resolves keep
too.

* `ReadsKeep` — the part of the volume that `view` gives survives every read
* `ReadsKeep.walk` … `ReadsKeep.copyDirTarget` — and all the backend reads before it acts
* `findTarget` — what `FINDINPUT`, `FINDOUTPUT` and `FINDUPDATE` share
-/

namespace M68kMachine

namespace PktVolume

variable {φ μ V : Type} [Ffs φ]

structure ReadsKeep (view : φ → V) : Prop where
  lookup (fs : φ) (d : Nat) (n : List Byte) : view (Ffs.lookup fs d n).2 = view fs
  lookupPath (fs : φ) (d : Nat) (n : List Byte) : view (Ffs.lookupPath fs d n).2 = view fs
  readDir (fs : φ) (d : Nat) : view (Ffs.readDir fs d).2 = view fs
  entryAt (fs : φ) (b : Nat) : view (Ffs.entryAt fs b).2 = view fs
  comment (fs : φ) (e : Entry) : view (Ffs.comment fs e).2 = view fs
  fileChain (fs : φ) (b : Nat) : view (Ffs.fileChain fs b).2 = view fs
  readRange (fs : φ) (c : FileChain) (off : Nat) (buf : List Byte) :
    view (Ffs.readRange fs c off buf).2.2 = view fs

namespace ReadsKeep

variable {view : φ → V}

theorem walk (h : ReadsKeep view) (fs : φ) (here : Nat) (comps : List (List Byte)) :
    view (PktVolume.walk fs here comps).2 = view fs := by
  induction comps generalizing fs here with
  | nil => rfl
  | cons comp rest ih =>
    have hview := h.lookup fs here comp
    unfold PktVolume.walk
    generalize Ffs.lookup fs here comp = r at hview ⊢
    obtain ⟨_ | _ | e, fs'⟩ := r
    · exact hview
    · exact hview
    · simp only
      split
      · exact (ih fs' e.lba).trans hview
      · exact hview

theorem splitParent (h : ReadsKeep view) (fs : φ) (dir : Nat) (path : List Byte) :
    view (PktVolume.splitParent fs dir path).2 = view fs := by
  unfold PktVolume.splitParent
  split
  · rfl
  · have hview := h.walk fs dir (components path).dropLast
    generalize PktVolume.walk fs dir (components path).dropLast = r at hview ⊢
    obtain ⟨_ | _, fs'⟩ := r <;> exact hview

theorem countBlocks (h : ReadsKeep view) (fs : φ) (b : Nat) (isDir : Bool) :
    view (PktVolume.countBlocks fs b isDir).2 = view fs := by
  unfold PktVolume.countBlocks
  split
  · rfl
  · have hview := h.fileChain fs b
    generalize Ffs.fileChain fs b = r at hview ⊢
    obtain ⟨_ | _, fs'⟩ := r <;> exact hview

theorem examineTarget (h : ReadsKeep view) (fs : φ) (b : Nat) :
    view (PktVolume.examineTarget fs b).2 = view fs := by
  unfold PktVolume.examineTarget
  split
  · rfl
  · have hview := h.entryAt fs b
    generalize Ffs.entryAt fs b = r at hview ⊢
    obtain ⟨_ | entry, fs'⟩ := r
    · exact hview
    · have hcomment := h.comment fs' entry
      simp only
      generalize Ffs.comment fs' entry = r at hcomment ⊢
      obtain ⟨_ | _, fs''⟩ := r <;> exact hcomment.trans hview

theorem resolveMetaTarget (h : ReadsKeep view) (fs : φ) (dir : Nat) (name : List Byte) :
    view (PktVolume.resolveMetaTarget fs dir name).2 = view fs := by
  unfold PktVolume.resolveMetaTarget
  split
  · rfl
  · have hview := h.splitParent fs dir name
    generalize PktVolume.splitParent fs dir name = r at hview ⊢
    obtain ⟨_ | ⟨d, n⟩, fs'⟩ := r
    · exact hview
    · have hlook := h.lookup fs' d n
      simp only
      generalize Ffs.lookup fs' d n = r at hlook ⊢
      obtain ⟨_ | _ | _, fs''⟩ := r <;> exact hlook.trans hview

variable [GuestMemory μ]

theorem openForFind (h : ReadsKeep view) (p : PktVolume φ) (lock name : Long) (mem : μ) :
    view (p.openForFind lock name mem).2 = view p.fs := by
  unfold PktVolume.openForFind
  split
  · rfl
  · split
    · rfl
    · exact h.splitParent _ _ _

theorem locateTarget (h : ReadsKeep view) (p : PktVolume φ) (args : List Long) (mem : μ) :
    view (p.locateTarget args mem).2 = view p.fs := by
  unfold PktVolume.locateTarget
  cases p.resolveLock (args.getD 0 0) with
  | none => rfl
  | some dir =>
    simp only
    cases readBstr mem (args.getD 1 0) with
    | none => rfl
    | some name =>
      simp only
      split
      · rfl
      · have hview := h.lookupPath p.fs dir name
        generalize Ffs.lookupPath p.fs dir name = r at hview ⊢
        obtain ⟨_ | _ | _, fs'⟩ := r <;> exact hview

omit [GuestMemory μ] in
theorem parentTarget (h : ReadsKeep view) (p : PktVolume φ) (args : List Long) :
    view (p.parentTarget args).2 = view p.fs := by
  unfold PktVolume.parentTarget
  cases p.resolveLock (args.getD 0 0) with
  | none => rfl
  | some lba =>
    simp only
    split
    · rfl
    · have hview := h.entryAt p.fs lba
      generalize Ffs.entryAt p.fs lba = r at hview ⊢
      obtain ⟨_ | _, fs'⟩ := r <;> exact hview

end ReadsKeep

theorem view_copyDirTarget (view : φ → V) (p : PktVolume φ) (args : List Long) :
    view (p.copyDirTarget args).2 = view p.fs := by
  unfold copyDirTarget
  cases p.resolveLock (args.getD 0 0) <;> rfl

/-! ## The three searches for a file -/

section Searches

variable [GuestMemory μ] (p : PktVolume φ) (args : List Long) (mem : μ)

/-- The name is looked up; `there` goes on at the file it names, `missing` where there is none. -/
def findTarget (missing : φ → Nat → List Byte → Except Long OpenFile × φ)
    (there : φ → Nat → List Byte → Entry → Except Long OpenFile × φ) :
    Except Long OpenFile × φ :=
  match p.openForFind (args.getD 1 0) (args.getD 2 0) mem with
  | (.error code, fs) => (.error code, fs)
  | (.ok (d, n), fs) =>
    match Ffs.lookup fs d n with
    | (.error e, fs) => (.error (mapReadError e), fs)
    | (.ok none, fs) => missing fs d n
    | (.ok (some e), fs) =>
      if e.kind.isFile then there fs d n e else (.error Err.objectWrongType, fs)

theorem findInputTarget_eq : p.findInputTarget args mem =
    p.findTarget args mem (fun fs _ _ => (.error Err.objectNotFound, fs))
      fun fs d n e => (.ok ⟨d, n, e.lba, 0, p.writable⟩, fs) := by
  unfold findInputTarget findTarget
  rcases p.openForFind (args.getD 1 0) (args.getD 2 0) mem with ⟨_ | ⟨d, n⟩, fs⟩
  · rfl
  · dsimp only
    rcases Ffs.lookup fs d n with ⟨_ | _ | e, fs'⟩ <;> rfl

theorem findUpdateTarget_eq : p.findUpdateTarget args mem =
    p.findTarget args mem createTarget fun fs d n e => (.ok ⟨d, n, e.lba, 0, true⟩, fs) := by
  unfold findUpdateTarget findTarget
  rcases p.openForFind (args.getD 1 0) (args.getD 2 0) mem with ⟨_ | ⟨d, n⟩, fs⟩
  · rfl
  · dsimp only
    rcases Ffs.lookup fs d n with ⟨_ | _ | e, fs'⟩ <;> rfl

theorem findOutputTarget_eq : p.findOutputTarget args mem =
    p.findTarget args mem createTarget fun fs d n e =>
      match Ffs.truncate fs d n 0 with
      | (.ok _, fs) => (.ok ⟨d, n, e.lba, 0, true⟩, fs)
      | (.error e, fs) => (.error (mapMutateError e), fs) := by
  unfold findOutputTarget findTarget
  rcases p.openForFind (args.getD 1 0) (args.getD 2 0) mem with ⟨_ | ⟨d, n⟩, fs⟩
  · rfl
  · dsimp only
    rcases Ffs.lookup fs d n with ⟨_ | _ | e, fs'⟩ <;> rfl

variable {p args mem} {view : φ → V} {C : Except Long OpenFile × φ → Prop}
  {missing : φ → Nat → List Byte → Except Long OpenFile × φ}
  {there : φ → Nat → List Byte → Entry → Except Long OpenFile × φ}

/-- **The outcomes of a search**, up to which only reading was done. -/
theorem ReadsKeep.findTarget (h : ReadsKeep view)
    (herror : ∀ code fs, (p.openForFind (args.getD 1 0) (args.getD 2 0) mem).1 = .error code ∨
      (∃ e, code = mapReadError e) ∨ code = Err.objectWrongType → view fs = view p.fs →
      C (.error code, fs))
    (hmissing : ∀ fs d n, view fs = view p.fs → C (missing fs d n))
    (hthere : ∀ d n fs e, (p.openForFind (args.getD 1 0) (args.getD 2 0) mem).1 = .ok (d, n) →
      view fs = view p.fs → (Ffs.lookup fs d n).1 = .ok (some e) → e.kind.isFile = true →
      view (Ffs.lookup fs d n).2 = view p.fs → C (there (Ffs.lookup fs d n).2 d n e)) :
    C (p.findTarget args mem missing there) := by
  unfold PktVolume.findTarget
  have hopen := h.openForFind p (args.getD 1 0) (args.getD 2 0) mem
  generalize p.openForFind (args.getD 1 0) (args.getD 2 0) mem = r at herror hthere hopen ⊢
  obtain ⟨code | ⟨d, n⟩, fs⟩ := r
  · exact herror code fs (.inl rfl) hopen
  · have hlook := (h.lookup fs d n).trans hopen
    have hfound := fun e => hthere d n fs e rfl hopen
    dsimp only
    generalize Ffs.lookup fs d n = r at hlook hfound ⊢
    obtain ⟨e | _ | e, fs'⟩ := r
    · exact herror _ fs' (.inr (.inl ⟨e, rfl⟩)) hlook
    · exact hmissing fs' d n hlook
    · dsimp only
      split
      · exact hfound e rfl ‹_› hlook
      · exact herror _ fs' (.inr (.inr rfl)) hlook

end Searches

end PktVolume

end M68kMachine
