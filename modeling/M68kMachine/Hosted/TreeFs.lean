import M68kMachine.Hosted.Ffs
import M68kMachine.Library.FileTree

/-!
# What a volume's filesystem does to its tree

The laws of a backend say what each operation of `Ffs` does to a tree of files and directories: a
failing one has at most written to the file it names. `TreeFs` is the tree itself as a volume.

* `LawfulFfs` — the laws
* `TreeFs` — a volume in memory, with a free header block for every object it deletes
-/

namespace M68kMachine

/-- Names compare through the volume's case folding. -/
abbrev VolumeTree := FileTree (List Byte) (List Byte) (List Byte)

namespace VolumeTree

/-- A file's contents with `data` over them from `position`. -/
def overwrite (bytes : List Byte) (position : Nat) (data : List Byte) : List Byte :=
  (bytes ++ List.replicate (position - bytes.length) 0).take position ++ data ++
    bytes.drop (position + data.length)

/-- A file's contents cut or zero-filled to `size`. -/
def resize (bytes : List Byte) (size : Nat) : List Byte :=
  bytes.take size ++ List.replicate (size - bytes.length) 0

/-- The contents of the file at a header block. -/
def bytesOf (t : VolumeTree) (b : Nat) : Option (List Byte) := (t.obj b).bind FileTree.Obj.body

/-- The file `name` of directory `dir` is at `b`. -/
def NamesFile (t : VolumeTree) (dir : Nat) (name : List Byte) (b : Nat) : Prop :=
  t.Names dir name b ∧ (t.bytesOf b).isSome

end VolumeTree

open VolumeTree

/-- The operations as those on a tree of directories. -/
class LawfulFfs (φ : Type) [Ffs φ] where
  view : φ → VolumeTree
  wf (fs : φ) : (view fs).Wf
  view_lookup (fs : φ) (d : Nat) (n : List Byte) : view (Ffs.lookup fs d n).2 = view fs
  view_lookupPath (fs : φ) (d : Nat) (n : List Byte) : view (Ffs.lookupPath fs d n).2 = view fs
  view_readDir (fs : φ) (d : Nat) : view (Ffs.readDir fs d).2 = view fs
  view_entryAt (fs : φ) (b : Nat) : view (Ffs.entryAt fs b).2 = view fs
  view_comment (fs : φ) (e : Entry) : view (Ffs.comment fs e).2 = view fs
  view_fileChain (fs : φ) (b : Nat) : view (Ffs.fileChain fs b).2 = view fs
  view_readRange (fs : φ) (c : FileChain) (off : Nat) (buf : List Byte) :
    view (Ffs.readRange fs c off buf).2.2 = view fs
  view_setMetadata (fs : φ) (b : Nat) (u : MetaUpdate) :
    view (Ffs.setMetadata fs b u).2 = view fs
  view_sync (fs : φ) : view (Ffs.sync fs) = view fs
  /-- An entry that is found is there, as a file if it says so. -/
  lookup_file {fs : φ} {d : Nat} {n : List Byte} {e : Entry} :
    (Ffs.lookup fs d n).1 = .ok (some e) → e.kind.isFile = true →
      (view fs).NamesFile d n e.lba
  /-- Only files have chains, and a chain knows its file's size. -/
  fileChain_ok {fs : φ} {b : Nat} {c : FileChain} : (Ffs.fileChain fs b).1 = .ok c →
    ∃ bytes, (view fs).bytesOf b = some bytes ∧ c.byteSize = bytes.length
  /-- What reaches the buffer are the bytes of the file whose chain it is. -/
  readRange_eq {fs : φ} {b : Nat} {c : FileChain} {bytes : List Byte} (off : Nat)
    (buf : List Byte) : (Ffs.fileChain fs b).1 = .ok c → (view fs).bytesOf b = some bytes →
      ∃ m ≤ min buf.length (bytes.length - off),
        (Ffs.readRange (Ffs.fileChain fs b).2 c off buf).2.1 =
            (bytes.drop off).take m ++ buf.drop m ∧
          ∀ n, (Ffs.readRange (Ffs.fileChain fs b).2 c off buf).1 = .ok n →
            n = m ∧ m = min buf.length (bytes.length - off)
  createFile_ok {fs : φ} {d b : Nat} {n : List Byte} : (Ffs.createFile fs d n).1 = .ok b →
    (view fs).obj b = none ∧ view (Ffs.createFile fs d n).2 = (view fs).create b d n (some [])
  createFile_error {fs : φ} {d : Nat} {n : List Byte} {e : MutateError} :
    (Ffs.createFile fs d n).1 = .error e → view (Ffs.createFile fs d n).2 = view fs
  createDir_ok {fs : φ} {d b : Nat} {n : List Byte} : (Ffs.createDir fs d n).1 = .ok b →
    (view fs).obj b = none ∧ view (Ffs.createDir fs d n).2 = (view fs).create b d n none
  createDir_error {fs : φ} {d : Nat} {n : List Byte} {e : MutateError} :
    (Ffs.createDir fs d n).1 = .error e → view (Ffs.createDir fs d n).2 = view fs
  /-- A write that fails may have written part of the file it names. -/
  writeFile_ok {fs : φ} {d : Nat} {n : List Byte} {pos : Nat} {data : List Byte} {u : Unit} :
    (Ffs.writeFile fs d n pos data).1 = .ok u → ∃ b bytes, (view fs).Names d n b ∧
      (view fs).bytesOf b = some bytes ∧
      view (Ffs.writeFile fs d n pos data).2 =
        (view fs).setBody b (some (overwrite bytes pos data))
  writeFile_error {fs : φ} {d : Nat} {n : List Byte} {pos : Nat} {data : List Byte}
    {e : MutateError} : (Ffs.writeFile fs d n pos data).1 = .error e →
      view (Ffs.writeFile fs d n pos data).2 = view fs ∨
        ∃ b bytes, (view fs).NamesFile d n b ∧
          view (Ffs.writeFile fs d n pos data).2 = (view fs).setBody b (some bytes)
  truncate_ok {fs : φ} {d : Nat} {n : List Byte} {size : Nat} {u : Unit} :
    (Ffs.truncate fs d n size).1 = .ok u → ∃ b bytes, (view fs).Names d n b ∧
      (view fs).bytesOf b = some bytes ∧
      view (Ffs.truncate fs d n size).2 = (view fs).setBody b (some (resize bytes size))
  truncate_error {fs : φ} {d : Nat} {n : List Byte} {size : Nat} {e : MutateError} :
    (Ffs.truncate fs d n size).1 = .error e → view (Ffs.truncate fs d n size).2 = view fs ∨
      ∃ b bytes, (view fs).NamesFile d n b ∧
        view (Ffs.truncate fs d n size).2 = (view fs).setBody b (some bytes)
  delete_ok {fs : φ} {d : Nat} {n : List Byte} {u : Unit} : (Ffs.delete fs d n).1 = .ok u →
    ∃ b, (view fs).Names d n b ∧ view (Ffs.delete fs d n).2 = (view fs).remove b
  delete_error {fs : φ} {d : Nat} {n : List Byte} {e : MutateError} :
    (Ffs.delete fs d n).1 = .error e → view (Ffs.delete fs d n).2 = view fs
  rename_ok {fs : φ} {d d' : Nat} {n n' : List Byte} {u : Unit} :
    (Ffs.rename fs d n d' n').1 = .ok u →
      ∃ b, (view fs).Names d n b ∧ view (Ffs.rename fs d n d' n').2 = (view fs).move b d' n'
  rename_error {fs : φ} {d d' : Nat} {n n' : List Byte} {e : MutateError} :
    (Ffs.rename fs d n d' n').1 = .error e → view (Ffs.rename fs d n d' n').2 = view fs

/-! ## A volume in memory -/

/-- A tree with `blocks` header blocks. -/
structure TreeFs where
  tree : VolumeTree
  blocks : Nat
  root : Nat
  wf : tree.Wf
  bound : ∀ {b : Nat} {o : FileTree.Obj (List Byte) (List Byte)}, tree.obj b = some o → b < blocks

namespace TreeFs

/-- ASCII letters compare without case. -/
def foldCase (name : List Byte) : List Byte :=
  name.map fun c => if 0x61 ≤ c ∧ c ≤ 0x7A then c - 0x20 else c

/-- The root directory alone. -/
def empty (blocks root : Nat) (h : root < blocks) : TreeFs where
  tree := {
    key := foldCase
    obj := fun b => if b = root then some ⟨0, none, [], none⟩ else none
    born := 1 }
  blocks := blocks
  root := root
  wf := by
    have hobj : ∀ {b : Nat} {o : FileTree.Obj (List Byte) (List Byte)},
        (if b = root then some ⟨0, none, [], none⟩ else none) = some o →
          b = root ∧ o = ⟨0, none, [], none⟩ := by
      intro b o hb
      split at hb
      · exact ⟨‹_›, (Option.some.inj hb).symm⟩
      · cases hb
    refine ⟨?_, ?_, ?_⟩
    · rintro dir name b b' ⟨o, ho, -⟩ ⟨o', ho', -⟩
      rw [(hobj ho).1, (hobj ho').1]
    · intro b o ho
      rw [(hobj ho).2]
      exact Nat.one_pos
    · intro b b' o o' ho ho' _
      rw [(hobj ho).1, (hobj ho').1]
  bound := by
    intro b o ho
    have hb : b = root := by
      by_contra hne
      simp [hne] at ho
    rwa [hb]

variable (t : TreeFs) (dir : Nat) (name : List Byte) {d : Nat} {n : List Byte}

def namesB (dir : Nat) (name : List Byte) (b : Nat) : Bool :=
  match t.tree.obj b with
  | some o => o.parent == some dir && t.tree.key o.name == t.tree.key name
  | none => false

theorem namesB_iff (b : Nat) : t.namesB dir name b = true ↔ t.tree.Names dir name b := by
  unfold namesB FileTree.Names
  cases t.tree.obj b with
  | none => simp
  | some o => simp

/-- The block of a directory entry. -/
def entry? (dir : Nat) (name : List Byte) : Option Nat :=
  (List.range t.blocks).find? (t.namesB dir name)

theorem names_of_entry? {dir b : Nat} {name : List Byte} (h : t.entry? dir name = some b) :
    t.tree.Names dir name b := (t.namesB_iff dir name b).mp (List.find?_some h)

theorem not_names_of_entry? {dir : Nat} {name : List Byte} (h : t.entry? dir name = none)
    (b : Nat) : ¬t.tree.Names dir name b := by
  intro hb
  obtain ⟨o, ho, -⟩ := id hb
  have hnone := List.find?_eq_none.mp h b (List.mem_range.mpr (t.bound ho))
  exact hnone ((t.namesB_iff dir name b).mpr hb)

def isDir (b : Nat) : Bool :=
  match t.tree.obj b with
  | some o => o.body.isNone
  | none => false

def toEntry (b : Nat) : Entry where
  lba := b
  kind :=
    { isFile := (t.tree.bytesOf b).isSome
      isDirectory := t.isDir b
      secondaryType := if t.isDir b then 2 else 0xFFFFFFFD }
  name := ((t.tree.obj b).map FileTree.Obj.name).getD []
  protection := 0
  byteSize := BitVec.ofNat 32 ((t.tree.bytesOf b).getD []).length
  date := ⟨0, 0, 0⟩
  owner := 0
  parent := BitVec.ofNat 32 (((t.tree.obj b).bind FileTree.Obj.parent).getD 0)

/-! ### Changing the tree -/

/-- A new object in the first free block. -/
def create (dir : Nat) (name : List Byte) (body : Option (List Byte)) :
    Except MutateError Nat × TreeFs :=
  if t.isDir dir then
    -- A directory holds one entry of a name, and the volume must have a block left.
    match hname : t.entry? dir name with
    | some _ => (.error .duplicateName, t)
    | none =>
      match hb : (List.range t.blocks).find? fun b => (t.tree.obj b).isNone with
      | none => (.error (.alloc .volumeFull), t)
      | some b =>
        (.ok b,
          { t with
            tree := t.tree.create b dir name body
            wf := t.wf.create body (t.not_names_of_entry? hname)
            bound := by
              intro x o hx
              by_cases hxb : x = b
              · rw [hxb]
                exact List.mem_range.mp (List.mem_of_find?_eq_some hb)
              · exact t.bound ((FileTree.obj_setObj_ne t.tree _ hxb).symm.trans hx) })
  else (.error .notADirectory, t)

/-- New contents for the file at `b`, where there is one. -/
def rewrite (b : Nat) (f : List Byte → List Byte) : Except MutateError Unit × TreeFs :=
  match hb : t.tree.bytesOf b with
  | none => (.error .notAFile, t)
  | some bytes =>
    (.ok (),
      { t with
        tree := t.tree.setBody b (some (f bytes))
        wf := by
          refine t.wf.setBody b _ ?_
          unfold VolumeTree.bytesOf at hb
          cases ho : t.tree.obj b with
          | none =>
            rw [ho] at hb
            cases hb
          | some o => rfl
        bound := by
          intro x o hx
          by_cases hxb : x = b
          · subst hxb
            unfold FileTree.setBody at hx
            rw [FileTree.obj_setObj_self] at hx
            obtain ⟨o', ho', -⟩ := Option.map_eq_some_iff.mp hx
            exact t.bound ho'
          · exact t.bound ((FileTree.obj_setObj_ne t.tree _ hxb).symm.trans hx) })

/-- New contents for the file an entry names. -/
def edit (dir : Nat) (name : List Byte) (f : List Byte → List Byte) :
    Except MutateError Unit × TreeFs :=
  match t.entry? dir name with
  | none => (.error .notFound, t)
  | some b => t.rewrite b f

def hasChildren (b : Nat) : Bool :=
  (List.range t.blocks).any fun x => ((t.tree.obj x).bind FileTree.Obj.parent) == some b

def delete (dir : Nat) (name : List Byte) : Except MutateError Unit × TreeFs :=
  match t.entry? dir name with
  | none => (.error .notFound, t)
  | some b =>
    if t.hasChildren b then (.error .directoryNotEmpty, t)
    else
      (.ok (),
        { t with
          tree := t.tree.remove b
          wf := t.wf.remove b
          bound := by
            intro x o hx
            by_cases hxb : x = b
            · subst hxb
              unfold FileTree.remove at hx
              rw [FileTree.obj_setObj_self] at hx
              cases hx
            · exact t.bound ((FileTree.obj_setObj_ne t.tree _ hxb).symm.trans hx) })

/-- `b` is `x` or one of the directories above it, `fuel` steps up at most. -/
def above (b : Nat) : Nat → Nat → Bool
  | 0, x => x == b
  | fuel + 1, x =>
    x == b ||
      match (t.tree.obj x).bind FileTree.Obj.parent with
      | some d => above b fuel d
      | none => false

def rename (dir : Nat) (name : List Byte) (dir' : Nat) (name' : List Byte) :
    Except MutateError Unit × TreeFs :=
  match h : t.entry? dir name with
  | none => (.error .notFound, t)
  | some b =>
    -- Nothing moves below itself, and the new name is free or the entry's own.
    if ¬t.isDir dir' then (.error .notADirectory, t)
    else if t.above b t.blocks dir' then (.error .intoOwnSubtree, t)
    else if hname : t.entry? dir' name' = none ∨ t.entry? dir' name' = some b then
      (.ok (),
        { t with
          tree := t.tree.move b dir' name'
          wf := by
            obtain ⟨o, ho, -⟩ := t.names_of_entry? h
            refine t.wf.move (by rw [ho]; rfl) ?_
            intro x hx
            -- The entry may keep its name.
            rcases hname with hnone | hsome
            · exact absurd hx (t.not_names_of_entry? hnone x)
            · exact t.wf.names hx (t.names_of_entry? hsome)
          bound := by
            intro x o hx
            by_cases hxb : x = b
            · subst hxb
              unfold FileTree.move at hx
              rw [FileTree.obj_setObj_self] at hx
              obtain ⟨o', ho', -⟩ := Option.map_eq_some_iff.mp hx
              exact t.bound ho'
            · exact t.bound ((FileTree.obj_setObj_ne t.tree _ hxb).symm.trans hx) })
    else (.error .duplicateName, t)

/-! ### Reading it -/

def lookup (dir : Nat) (name : List Byte) : Except ReadError (Option Entry) :=
  if t.isDir dir then .ok ((t.entry? dir name).map t.toEntry) else .error .notADirectory

/-- The object a path leads to, with the entry each component names a directory for the next. -/
def lookupPath (dir : Nat) : List (List Byte) → Except ReadError (Option Entry)
  | [] => .ok (some (t.toEntry dir))
  | name :: rest =>
    match t.lookup dir name with
    | .ok (some e) => lookupPath e.lba rest
    | r => r

def readDir (dir : Nat) : Except ReadError (List Entry) :=
  if t.isDir dir then
    .ok (((List.range t.blocks).filter fun b =>
      ((t.tree.obj b).bind FileTree.Obj.parent) == some dir).map t.toEntry)
  else .error .notADirectory

def fileChain (b : Nat) : Except ReadError FileChain :=
  match t.tree.bytesOf b with
  | some bytes => .ok ⟨[b], [], bytes.length⟩
  | none => .error .notHeader

def readRange (chain : FileChain) (off : Nat) (buf : List Byte) :
    Except ReadError Nat × List Byte :=
  match chain.blocks.head?.bind t.tree.bytesOf with
  | some bytes =>
    let n := min buf.length (bytes.length - off)
    (.ok n, (bytes.drop off).take n ++ buf.drop n)
  | none => (.error .other, buf)

instance : Ffs TreeFs where
  rootLba t := t.root
  root _ := ([], ⟨0, 0, 0⟩)
  blockCount t := t.blocks
  blockSize _ := 512
  dosType _ := 0x444F5301
  blocksUsed t := ((List.range t.blocks).filter fun b => (t.tree.obj b).isSome).length
  lookup t d n := (t.lookup d n, t)
  lookupPath t d n := (t.lookupPath d ((n.splitOn 0x2F).filter fun c => !c.isEmpty), t)
  readDir t d := (t.readDir d, t)
  entryAt t b := (if (t.tree.obj b).isSome then .ok (t.toEntry b) else .error .notHeader, t)
  -- Comments are not kept, and neither is other metadata.
  comment t _ := (.ok [], t)
  fileChain t b := (t.fileChain b, t)
  readRange t c off buf := let r := t.readRange c off buf; (r.1, r.2, t)
  createFile t d n := t.create d n (some [])
  createDir t d n := t.create d n none
  writeFile t d n pos data := t.edit d n (overwrite · pos data)
  truncate t d n size := t.edit d n (resize · size)
  delete t d n := t.delete d n
  rename t d n d' n' := t.rename d n d' n'
  setMetadata t b _ := (if (t.tree.obj b).isSome then .ok () else .error .notFound, t)
  isVariant _ dosType := dosType &&& 0xFFFFFFF8 == 0x444F5300
  format t _ _ _ _ :=
    if h : t.root < t.blocks then (.ok (), empty t.blocks t.root h)
    else (.error .volumeTooSmall, t)
  sync t := t
  mount t _ _ _ := .ok t

/-! ### The laws hold -/

theorem create_cases (body : Option (List Byte)) :
    (∃ b t', t.create dir name body = (.ok b, t') ∧ t.tree.obj b = none ∧
      t'.tree = t.tree.create b dir name body) ∨
    ∃ e, t.create dir name body = (.error e, t) := by
  unfold create
  split
  · split
    · exact .inr ⟨_, rfl⟩
    · split
      · exact .inr ⟨_, rfl⟩
      · rename_i b hb
        exact .inl ⟨b, _, rfl, by simpa using List.find?_some hb, rfl⟩
  · exact .inr ⟨_, rfl⟩

theorem edit_cases (f : List Byte → List Byte) :
    (∃ b bytes t', t.edit dir name f = (.ok (), t') ∧ t.tree.Names dir name b ∧
      t.tree.bytesOf b = some bytes ∧ t'.tree = t.tree.setBody b (some (f bytes))) ∨
    ∃ e, t.edit dir name f = (.error e, t) := by
  unfold edit
  split
  · exact .inr ⟨_, rfl⟩
  · rename_i b hb
    unfold rewrite
    split
    · exact .inr ⟨_, rfl⟩
    · rename_i bytes hbytes
      exact .inl ⟨b, bytes, _, rfl, t.names_of_entry? hb, hbytes, rfl⟩

theorem edit_ok {f : List Byte → List Byte} {u : Unit} (h : (t.edit d n f).1 = .ok u) :
    ∃ b bytes, t.tree.Names d n b ∧
      t.tree.bytesOf b = some bytes ∧
      (t.edit d n f).2.tree = t.tree.setBody b (some (f bytes)) := by
  rcases t.edit_cases d n f with ⟨b, bytes, t', heq, hnames, hbytes, htree⟩ | ⟨e, heq⟩
  · exact ⟨b, bytes, hnames, hbytes, by rw [heq]; exact htree⟩
  · rw [heq] at h
    cases h

theorem edit_error {f : List Byte → List Byte} {e : MutateError} (h : (t.edit d n f).1 = .error e) :
    (t.edit d n f).2 = t := by
  rcases t.edit_cases d n f with ⟨b, bytes, t', heq, -⟩ | ⟨e', heq⟩
  · rw [heq] at h
    cases h
  · rw [heq]

theorem create_ok {b : Nat} {body : Option (List Byte)} (h : (t.create d n body).1 = .ok b) :
    t.tree.obj b = none ∧ (t.create d n body).2.tree = t.tree.create b d n body := by
  rcases t.create_cases d n body with ⟨b', t', heq, hfree, htree⟩ | ⟨e, heq⟩
  · rw [heq] at h ⊢
    cases h
    exact ⟨hfree, htree⟩
  · rw [heq] at h
    cases h

theorem create_error {body : Option (List Byte)} {e : MutateError}
    (h : (t.create d n body).1 = .error e) : (t.create d n body).2 = t := by
  rcases t.create_cases d n body with ⟨b', t', heq, -⟩ | ⟨e', heq⟩
  · rw [heq] at h
    cases h
  · rw [heq]

theorem delete_cases :
    (∃ b t', t.delete dir name = (.ok (), t') ∧ t.tree.Names dir name b ∧
      t'.tree = t.tree.remove b) ∨
    ∃ e, t.delete dir name = (.error e, t) := by
  unfold delete
  split
  · exact .inr ⟨_, rfl⟩
  · rename_i b hb
    split
    · exact .inr ⟨_, rfl⟩
    · exact .inl ⟨b, _, rfl, t.names_of_entry? hb, rfl⟩

theorem rename_cases (dir' : Nat) (name' : List Byte) :
    (∃ b t', t.rename dir name dir' name' = (.ok (), t') ∧ t.tree.Names dir name b ∧
      t'.tree = t.tree.move b dir' name') ∨
    ∃ e, t.rename dir name dir' name' = (.error e, t) := by
  unfold rename
  split
  · exact .inr ⟨_, rfl⟩
  · rename_i b hb
    split
    · exact .inr ⟨_, rfl⟩
    · split
      · exact .inr ⟨_, rfl⟩
      · split
        · exact .inl ⟨b, _, rfl, t.names_of_entry? hb, rfl⟩
        · exact .inr ⟨_, rfl⟩

/-- An entry that is found and its file. -/
theorem lookup_file {d : Nat} {n : List Byte} {e : Entry} (h : t.lookup d n = .ok (some e))
    (hfile : e.kind.isFile = true) : t.tree.NamesFile d n e.lba := by
  unfold lookup at h
  split at h
  · simp only [Except.ok.injEq, Option.map_eq_some_iff] at h
    obtain ⟨b, hb, rfl⟩ := h
    exact ⟨t.names_of_entry? hb, hfile⟩
  · cases h

theorem readDir_eq {entries : List Entry} (h : t.readDir d = .ok entries) :
    entries = ((List.range t.blocks).filter fun b =>
      ((t.tree.obj b).bind FileTree.Obj.parent) == some d).map t.toEntry := by
  unfold readDir at h
  split at h
  · exact (Except.ok.inj h).symm
  · cases h

theorem map_lba_toEntry (bs : List Nat) : (bs.map t.toEntry).map Entry.lba = bs := by
  rw [List.map_map]
  exact List.map_id bs

theorem fileChain_ok {b : Nat} {c : FileChain} (h : t.fileChain b = .ok c) :
    ∃ bytes, t.tree.bytesOf b = some bytes ∧ c = ⟨[b], [], bytes.length⟩ := by
  unfold fileChain at h
  split at h
  · rename_i bytes hb
    exact ⟨bytes, hb, (Except.ok.inj h).symm⟩
  · cases h

instance : LawfulFfs TreeFs where
  view t := t.tree
  wf t := t.wf
  view_lookup _ _ _ := rfl
  view_lookupPath _ _ _ := rfl
  view_readDir _ _ := rfl
  view_entryAt _ _ := rfl
  view_comment _ _ := rfl
  view_fileChain _ _ := rfl
  view_readRange _ _ _ _ := rfl
  view_setMetadata _ _ _ := rfl
  view_sync _ := rfl
  lookup_file {t} _ _ _ h hfile := t.lookup_file h hfile
  fileChain_ok := by
    intro t b c h
    obtain ⟨bytes, hb, rfl⟩ := t.fileChain_ok h
    exact ⟨bytes, hb, rfl⟩
  readRange_eq := by
    intro t b c bytes off buf h hb
    obtain ⟨bytes', hb', rfl⟩ := t.fileChain_ok h
    -- The chain is the header block of the file, so the bytes are those of that block.
    rw [hb] at hb'
    cases hb'
    refine ⟨min buf.length (bytes.length - off), Nat.le_refl _, ?_, ?_⟩
    · simp only [Ffs.readRange, Ffs.fileChain, readRange, List.head?_cons, Option.bind_some, hb]
    · intro n hn
      simp only [Ffs.readRange, Ffs.fileChain, readRange, List.head?_cons, Option.bind_some, hb,
        Except.ok.injEq] at hn
      exact ⟨hn.symm, rfl⟩
  createFile_ok {t} _ _ _ h := t.create_ok h
  createFile_error {t} _ _ _ h := congrArg tree (t.create_error h)
  createDir_ok {t} _ _ _ h := t.create_ok h
  createDir_error {t} _ _ _ h := congrArg tree (t.create_error h)
  writeFile_ok {t} _ _ _ _ _ h := t.edit_ok h
  writeFile_error {t} _ _ _ _ _ h := .inl (congrArg tree (t.edit_error h))
  truncate_ok {t} _ _ _ _ h := t.edit_ok h
  truncate_error {t} _ _ _ _ h := .inl (congrArg tree (t.edit_error h))
  delete_ok := by
    intro t d n u h
    rcases t.delete_cases d n with ⟨b, t', heq, hnames, htree⟩ | ⟨e, heq⟩
    · exact ⟨b, hnames, by simp only [Ffs.delete, heq, htree]⟩
    · simp only [Ffs.delete, heq] at h
      cases h
  delete_error := by
    intro t d n e h
    rcases t.delete_cases d n with ⟨b, t', heq, hnames, htree⟩ | ⟨e', heq⟩
    · simp only [Ffs.delete, heq] at h
      cases h
    · simp only [Ffs.delete, heq]
  rename_ok := by
    intro t d d' n n' u h
    rcases t.rename_cases d n d' n' with ⟨b, t', heq, hnames, htree⟩ | ⟨e, heq⟩
    · exact ⟨b, hnames, by simp only [Ffs.rename, heq, htree]⟩
    · simp only [Ffs.rename, heq] at h
      cases h
  rename_error := by
    intro t d d' n n' e h
    rcases t.rename_cases d n d' n' with ⟨b, t', heq, hnames, htree⟩ | ⟨e', heq⟩
    · simp only [Ffs.rename, heq] at h
      cases h
    · simp only [Ffs.rename, heq]

end TreeFs

end M68kMachine
