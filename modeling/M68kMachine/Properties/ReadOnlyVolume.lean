import M68kMachine.Hosted.Pktvol
import M68kMachine.Properties.CardsAlone
import M68kMachine.Properties.PktvolTree

/-!
# A volume on an image opened read-only

No action writes to it, it cannot be inhibited and so never formatted or mounted again: the
filesystem is only read.

* `OnlyRead` — whatever reads of the filesystem keep is as it was
* `unwritten_executeInner` — every packet
* `read_only_image_only_read` — over any run
-/

namespace M68kMachine

open Evolution

variable {φ δ π μ : Type} [Ffs φ]

namespace PktVolume

/-- Whatever reads of the filesystem keep is as it was. -/
def OnlyRead (fs fs' : φ) : Prop :=
  ∀ ⦃V : Type⦄ ⦃view : φ → V⦄, ReadsKeep view → view fs' = view fs

theorem OnlyRead.trans {fs fs' fs'' : φ} (h : OnlyRead fs fs') (h' : OnlyRead fs' fs'') :
    OnlyRead fs fs'' := fun _ _ hv => (h' hv).trans (h hv)

/-- The volume was read, and its handles may have changed. -/
structure Unwritten (p p' : PktVolume φ) : Prop where
  writable : p'.writable = p.writable
  inhibited : p'.inhibited = p.inhibited
  image : OnlyRead p.fs p'.fs

theorem Unwritten.fs (p : PktVolume φ) {fs : φ} (h : OnlyRead p.fs fs) :
    Unwritten p { p with fs := fs } := ⟨rfl, rfl, h⟩

variable (p : PktVolume φ) {p' : PktVolume φ}

theorem Unwritten.refl : Unwritten p p := .fs p fun _ _ _ => rfl

theorem Unwritten.trans {p p' p'' : PktVolume φ} (h : Unwritten p p') (h' : Unwritten p' p'') :
    Unwritten p p'' :=
  ⟨h'.writable.trans h.writable, h'.inhibited.trans h.inhibited, h.image.trans h'.image⟩

theorem Unwritten.setHandle {p : PktVolume φ} (h : Unwritten p p') (id : Long) (x : Option Handle) :
    Unwritten p (p'.setHandle id x) := ⟨h.writable, h.inhibited, h.image⟩

theorem Unwritten.allocHandle {p : PktVolume φ} (h : Unwritten p p') (x : Handle) :
    Unwritten p (p'.allocHandle x).2 := ⟨h.writable, h.inhibited, h.image⟩

theorem Unwritten.refused {p : PktVolume φ} (hw : p.writable = false) (x : Res × PktVolume φ)
    (res : Res) : Unwritten p (if p.writable then x else (res, p)).2 := by
  rw [hw]
  exact .refl p

/-! ## Actions that read -/

theorem unwritten_issueLock {t : Except Long Nat × φ} (h : OnlyRead p.fs t.2) :
    Unwritten p (p.issueLock t).2 := by
  obtain ⟨_ | lba, fs⟩ := t
  · exact .fs p h
  · unfold issueLock dupLock
    dsimp only
    split
    · exact .fs p h
    · exact (Unwritten.fs p h).allocHandle _

theorem unwritten_issueFile {t : Except Long OpenFile × φ} (h : OnlyRead p.fs t.2) :
    Unwritten p (p.issueFile t).2 := by
  obtain ⟨_ | f, fs⟩ := t
  · exact .fs p h
  · exact (Unwritten.fs p h).allocHandle _

variable (args : List Long)

theorem unwritten_freeLock : Unwritten p (p.freeLock args).2 := by
  unfold freeLock
  dsimp only
  split
  · exact .refl p
  · split
    · exact (Unwritten.refl p).setHandle _ _
    · exact .refl p

theorem unwritten_end : Unwritten p (p.end' args).2 := by
  unfold end'
  split
  · exact (Unwritten.refl p).setHandle _ _
  · exact .refl p

theorem unwritten_sameLock : Unwritten p (p.sameLock args).2 := by
  unfold sameLock
  split
  · split <;> exact .refl p
  · exact .refl p

variable [GuestMemory μ]

theorem onlyRead_findInputTarget (mem : μ) : OnlyRead p.fs (p.findInputTarget args mem).2 := by
  intro V view hv
  rw [findInputTarget_eq]
  refine hv.findTarget (C := fun r => view r.2 = view p.fs) (fun _ _ _ hview => hview)
    (fun _ _ _ hview => hview) ?_
  intro d n fs e _ _ _ _ hview
  exact hview

theorem unwritten_examineObject (mem : μ) : Unwritten p (p.examineObject args mem).2.1 := by
  unfold examineObject
  split
  · exact .refl p
  · rename_i lba _
    have hexamine : OnlyRead p.fs (examineTarget p.fs lba).2 :=
      fun _ _ hv => hv.examineTarget p.fs lba
    generalize examineTarget p.fs lba = r at hexamine ⊢
    obtain ⟨_ | ⟨_, _, _, _, _, _, _, isDir⟩, fs⟩ := r
    · exact .fs p hexamine
    · exact .fs p (hexamine.trans fun _ _ hv => hv.countBlocks fs lba isDir)

theorem unwritten_examineNext (mem : μ) : Unwritten p (p.examineNext args mem).2.1 := by
  unfold examineNext
  split
  · exact .refl p
  · rename_i dirLba _
    split
    · exact .refl p
    · have hdir : OnlyRead p.fs (Ffs.readDir p.fs dirLba).2 :=
        fun _ _ hv => hv.readDir p.fs dirLba
      dsimp only
      generalize Ffs.readDir p.fs dirLba = r at hdir ⊢
      obtain ⟨_ | entries, fs⟩ := r
      · exact .fs p hdir
      · dsimp only
        split
        · exact .fs p hdir
        · rename_i entry _
          have hcomment : OnlyRead fs (Ffs.comment fs entry).2 :=
            fun _ _ hv => hv.comment fs entry
          generalize Ffs.comment fs entry = r at hcomment ⊢
          obtain ⟨_ | comment, fs'⟩ := r
          · exact .fs p (hdir.trans hcomment)
          · exact .fs p ((hdir.trans hcomment).trans fun _ _ hv => hv.countBlocks fs' _ _)

theorem unwritten_readAction (mem : μ) : Unwritten p (p.readAction args mem).2.1 := by
  unfold readAction
  split
  · exact .refl p
  · rename_i f _
    have hchain : OnlyRead p.fs (Ffs.fileChain p.fs f.headerLba).2 :=
      fun _ _ hv => hv.fileChain p.fs f.headerLba
    generalize Ffs.fileChain p.fs f.headerLba = r at hchain ⊢
    obtain ⟨_ | chain, fs⟩ := r
    · exact .fs p hchain
    · dsimp only
      split
      · exact .fs p hchain
      · rename_i out put _
        have hrange : OnlyRead fs (Ffs.readRange fs chain f.position out).2.2 :=
          fun _ _ hv => hv.readRange fs chain f.position out
        generalize Ffs.readRange fs chain f.position out = r at hrange ⊢
        obtain ⟨_ | n, out', fs'⟩ := r
        · exact .fs p (hchain.trans hrange)
        · exact (Unwritten.fs p (hchain.trans hrange)).setHandle _ _

omit [GuestMemory μ] in
theorem unwritten_seekAction : Unwritten p (p.seekAction args).2 := by
  unfold seekAction
  split
  · exact .refl p
  · rename_i f _
    have hchain : OnlyRead p.fs (Ffs.fileChain p.fs f.headerLba).2 :=
      fun _ _ hv => hv.fileChain p.fs f.headerLba
    generalize Ffs.fileChain p.fs f.headerLba = r at hchain ⊢
    obtain ⟨_ | chain, fs⟩ := r
    · exact .fs p hchain
    · dsimp only
      split
      · exact .fs p hchain
      · exact (Unwritten.fs p hchain).setHandle _ _

/-! ## Packets -/

theorem unwritten_writeAction {p : PktVolume φ} (hw : p.writable = false) (args : List Long)
    (mem : μ) : Unwritten p (p.writeAction args mem).2 := by
  unfold writeAction
  split
  · exact .refl p
  · split
    · split
      · exact .refl p
      · exact .refused hw _ _
    · exact .refl p

omit [GuestMemory μ] in
theorem unwritten_setFileSize {p : PktVolume φ} (hw : p.writable = false) (args : List Long) :
    Unwritten p (p.setFileSize args).2 := by
  unfold setFileSize
  split
  · exact .refl p
  · exact .refused hw _ _

/-- A volume on an image opened read-only, before or after any of its packets. -/
structure ReadOnly (p : PktVolume φ) : Prop where
  writable : p.writable = false
  inhibited : p.inhibited = false

omit [GuestMemory μ] in
theorem ReadOnly.kept {p : PktVolume φ} (hp : p.ReadOnly) (h : Unwritten p p') : p'.ReadOnly :=
  ⟨h.writable.trans hp.writable, h.inhibited.trans hp.inhibited⟩

omit [GuestMemory μ] in
/-- It is neither inhibited nor, being so, mounted again. -/
theorem unwritten_inhibitAction {p : PktVolume φ} (hp : p.ReadOnly) (args : List Long) :
    Unwritten p (p.inhibitAction args).2 := by
  unfold inhibitAction
  rw [hp.inhibited]
  split
  · exact .refused hp.writable _ _
  · exact .refl p

theorem unwritten_formatAction {p : PktVolume φ} (hp : p.ReadOnly) (args : List Long) (mem : μ) :
    Unwritten p (p.formatAction args mem).2 := by
  unfold formatAction
  rw [hp.inhibited]
  exact .refl p

theorem unwritten_executeInner {p : PktVolume φ} (hp : p.ReadOnly) (action : Long)
    (args : List Long) (mem : μ) : Unwritten p (p.executeInner action args mem).2.1 := by
  have hw := hp.writable
  apply dispatch (P := fun _ r => Unwritten p r.2.1) p args mem
  case inhibit => exact unwritten_inhibitAction hp args
  case format => exact unwritten_formatAction hp args mem
  case isFilesystem => exact .refl p
  case diskInfo => exact .refl p
  case refused => exact fun _ _ => .refl p
  case locateObject => exact fun _ => unwritten_issueLock p fun _ _ hv => hv.locateTarget p args mem
  case freeLock => exact fun _ => unwritten_freeLock p args
  case copyDir =>
    exact fun _ => unwritten_issueLock p fun _ view _ => view_copyDirTarget view p args
  case parent => exact fun _ => unwritten_issueLock p fun _ _ hv => hv.parentTarget p args
  case sameLock => exact fun _ => unwritten_sameLock p args
  case examineObject => exact fun _ => unwritten_examineObject p args mem
  case examineNext => exact fun _ => unwritten_examineNext p args mem
  case info => exact fun _ => .refl p
  case findInput => exact fun _ => unwritten_issueFile p (onlyRead_findInputTarget p args mem)
  case findOutput => exact fun _ => .refused hw _ _
  case findUpdate => exact fun _ => .refused hw _ _
  case end' => exact fun _ => unwritten_end p args
  case read => exact fun _ => unwritten_readAction p args mem
  case write => exact fun _ => unwritten_writeAction hw args mem
  case seek => exact fun _ => unwritten_seekAction p args
  case setFileSize => exact fun _ => unwritten_setFileSize hw args
  case createDir => exact fun _ => .refused hw _ _
  case deleteObject => exact fun _ => .refused hw _ _
  case renameObject => exact fun _ => .refused hw _ _
  case setProtect => exact fun _ => .refused hw _ _
  case setComment => exact fun _ => .refused hw _ _
  case setDate => exact fun _ => .refused hw _ _
  case flush =>
    intro _
    show Unwritten p p.flush.2
    unfold flush
    rw [hw]
    exact .refl p
  case unknown => exact fun _ => .refl p

end PktVolume

namespace Pktport

/-- A step of the card leaves its backend alone or has it execute a request. -/
theorem Does.backend {ρ : Type} [PacketBackend ρ] {p p' : Pktport ρ} (h : p.Does p') :
    p'.backend = p.backend ∨ ∃ action args, ∃ ram : GuestRam,
      p'.backend = (PacketBackend.execute p.backend action args ram).2.1 := by
  cases h with
  | write offset value =>
    left
    unfold Pktport.write submit
    split_ifs <;> rfl
  | tick ram =>
    unfold Pktport.tick
    split
    · exact .inl rfl
    · dsimp only
      split
      · exact .inl rfl
      · exact .inr ⟨_, _, _, rfl⟩

/-- A volume on an image opened read-only is only read. -/
def ImageKept (p p' : Pktport (PktVolume φ)) : Prop :=
  p.backend.ReadOnly → PktVolume.Unwritten p.backend p'.backend

instance : Std.Refl (@ImageKept φ _) where
  refl p _ := .refl p.backend

instance : IsTrans (Pktport (PktVolume φ)) ImageKept where
  trans _ _ _ h h' hp := (h hp).trans (h' (hp.kept (h hp)))

theorem Does.imageKept {p p' : Pktport (PktVolume φ)} (h : p.Does p') : ImageKept p p' := by
  intro hp
  obtain hsame | ⟨action, args, ram, hexecute⟩ := h.backend
  · rw [hsame]
    exact .refl p.backend
  · rw [hexecute]
    exact PktVolume.unwritten_executeInner hp action args ram

end Pktport

namespace MachineBus

variable [BlockDevice δ] [PciBackend π]

/-- **An image opened read-only is only read**, in every run of the machine with its packet card. -/
theorem read_only_image_only_read (b : MachineBus δ (PktVolume φ) π) (ops : List LiveOp) :
    Option.Rel Pktport.ImageKept b.devices.pktport (b.liveRun ops).2.devices.pktport :=
  (evolve_liveRun ops b).pktport.rel fun _ _ hd => hd.imageKept

end MachineBus

end M68kMachine
