import Mathlib.Tactic.Common

/-!
# Trees of files and directories, by header block

A volume's objects are found by the block of their header. Each carries the directory its entry is
in and its name, so an entry is an object seen from its directory, and a deleted object's block is
free for another. An `id` tells an object from the others that had its block.

* `FileTree`, `Names` — the objects, and what a directory entry names
* `Wf` — no directory has two entries of one name, no two objects one `id`
* `create`, `setBody`, `remove`, `move` — the operations, each of which keeps `Wf`
* `Attached` — a block and a directory entry that both still name one given file
-/

/-- An object. A file has contents, a directory has none, and only the root has no parent. -/
structure FileTree.Obj (ν γ : Type) where
  id : Nat
  parent : Option Nat
  name : ν
  body : Option γ

structure FileTree (ν κ γ : Type) where
  /-- Two names are the same entry when their keys are. -/
  key : ν → κ
  obj : Nat → Option (FileTree.Obj ν γ)
  /-- How many objects there have been. -/
  born : Nat

namespace FileTree

variable {ν κ γ : Type} {b : Nat} {t : FileTree ν κ γ} {dir : Nat} {name : ν} {id c : Nat}

/-- The entry `name` of directory `dir` is the object at `b`. -/
def Names (t : FileTree ν κ γ) (dir : Nat) (name : ν) (b : Nat) : Prop :=
  ∃ o, t.obj b = some o ∧ o.parent = some dir ∧ t.key o.name = t.key name

structure Wf (t : FileTree ν κ γ) : Prop where
  names : ∀ {dir : Nat} {name : ν} {b b' : Nat}, t.Names dir name b → t.Names dir name b' → b = b'
  fresh : ∀ {b : Nat} {o : Obj ν γ}, t.obj b = some o → o.id < t.born
  ids : ∀ {b b' : Nat} {o o' : Obj ν γ}, t.obj b = some o → t.obj b' = some o' → o.id = o'.id →
    b = b'

/-! ## The operations -/

def setObj (t : FileTree ν κ γ) (b : Nat) (o : Option (Obj ν γ)) : FileTree ν κ γ :=
  { t with obj := fun x => if x = b then o else t.obj x }

/-- A new object in a free block. -/
def create (t : FileTree ν κ γ) (b dir : Nat) (name : ν) (body : Option γ) : FileTree ν κ γ :=
  { t.setObj b (some ⟨t.born, some dir, name, body⟩) with born := t.born + 1 }

/-- New contents for the object at `b`. -/
def setBody (t : FileTree ν κ γ) (b : Nat) (body : Option γ) : FileTree ν κ γ :=
  t.setObj b ((t.obj b).map fun o => { o with body := body })

def remove (t : FileTree ν κ γ) (b : Nat) : FileTree ν κ γ := t.setObj b none

/-- The object at `b` under another directory and name. -/
def move (t : FileTree ν κ γ) (b dir : Nat) (name : ν) : FileTree ν κ γ :=
  t.setObj b ((t.obj b).map fun o => { o with parent := some dir, name := name })

theorem obj_setObj_self (t : FileTree ν κ γ) (b : Nat) (o : Option (Obj ν γ)) :
    (t.setObj b o).obj b = o := if_pos rfl

theorem obj_setObj_ne (t : FileTree ν κ γ) {x : Nat} (o : Option (Obj ν γ)) (h : x ≠ b) :
    (t.setObj b o).obj x = t.obj x := if_neg h

/-! ## Well-formedness is kept -/

/-- What an object written over block `b` must not clash with. -/
theorem Wf.setObj {t : FileTree ν κ γ} (ht : t.Wf) {b : Nat} {o : Obj ν γ} {born : Nat}
    (hborn : t.born ≤ born) (hid : o.id < born)
    (hids : ∀ x o', x ≠ b → t.obj x = some o' → o'.id ≠ o.id)
    (hnames : ∀ dir x, o.parent = some dir → t.Names dir o.name x → x = b) :
    ({ t.setObj b (some o) with born := born } : FileTree ν κ γ).Wf := by
  have hobj : ∀ {x : Nat} {o' : Obj ν γ}, (t.setObj b (some o)).obj x = some o' →
      x = b ∧ o' = o ∨ x ≠ b ∧ t.obj x = some o' := by
    intro x o' hx
    by_cases hxb : x = b
    · subst hxb
      rw [obj_setObj_self] at hx
      exact .inl ⟨rfl, (Option.some.inj hx).symm⟩
    · rw [obj_setObj_ne t _ hxb] at hx
      exact .inr ⟨hxb, hx⟩
  refine ⟨?_, ?_, ?_⟩
  · rintro dir name x x' ⟨p, hx, hp, hk⟩ ⟨p', hx', hp', hk'⟩
    rcases hobj hx with ⟨rfl, rfl⟩ | ⟨hxb, hy⟩ <;>
      rcases hobj hx' with ⟨heq, rfl⟩ | ⟨hxb', hy'⟩
    · exact heq.symm
    · exact (hnames dir x' hp ⟨p', hy', hp', hk'.trans hk.symm⟩).symm
    · rw [heq]
      exact hnames dir x hp' ⟨p, hy, hp, hk.trans hk'.symm⟩
    · exact ht.names ⟨p, hy, hp, hk⟩ ⟨p', hy', hp', hk'⟩
  · intro x p hx
    rcases hobj hx with ⟨-, rfl⟩ | ⟨-, hy⟩
    · exact hid
    · exact Nat.lt_of_lt_of_le (ht.fresh hy) hborn
  · intro x x' p p' hx hx' heq
    rcases hobj hx with ⟨rfl, rfl⟩ | ⟨hxb, hy⟩ <;>
      rcases hobj hx' with ⟨hxb', rfl⟩ | ⟨hxb', hy'⟩
    · exact hxb'.symm
    · exact absurd heq.symm (hids x' p' hxb' hy')
    · exact absurd heq (hids x p hxb hy)
    · exact ht.ids hy hy' heq

theorem Wf.create (ht : t.Wf) (body : Option γ) (hname : ∀ x, ¬t.Names dir name x) :
    (t.create b dir name body).Wf := by
  refine ht.setObj (Nat.le_succ _) (Nat.lt_succ_self _) ?_ ?_
  · intro x o _ hx
    exact Nat.ne_of_lt (ht.fresh hx)
  · intro dir' x hdir hx
    cases hdir
    exact absurd hx (hname x)

/-- An object rewritten in place keeps its identity. -/
theorem Wf.rewrite (ht : t.Wf) {o o' : Obj ν γ} (hb : t.obj b = some o) (hid : o'.id = o.id)
    (hnames : ∀ dir x, o'.parent = some dir → t.Names dir o'.name x → x = b) :
    (t.setObj b (some o')).Wf := by
  refine ht.setObj (Nat.le_refl _) (hid ▸ ht.fresh hb) ?_ hnames
  intro x p hx hp heq
  exact hx (ht.ids hp hb (heq.trans hid))

theorem Wf.setBody {t : FileTree ν κ γ} (ht : t.Wf) (b : Nat) (body : Option γ)
    (hb : (t.obj b).isSome) : (t.setBody b body).Wf := by
  obtain ⟨o, ho⟩ := Option.isSome_iff_exists.mp hb
  rw [FileTree.setBody, ho]
  exact ht.rewrite ho rfl fun dir x hdir hx => ht.names hx ⟨o, ho, hdir, rfl⟩

theorem Wf.move {t : FileTree ν κ γ} (ht : t.Wf) {b dir : Nat} {name : ν}
    (hb : (t.obj b).isSome) (hname : ∀ x, t.Names dir name x → x = b) :
    (t.move b dir name).Wf := by
  obtain ⟨o, ho⟩ := Option.isSome_iff_exists.mp hb
  rw [FileTree.move, ho]
  refine ht.rewrite ho rfl ?_
  intro dir' x hdir hx
  cases hdir
  exact hname x hx

theorem Wf.remove {t : FileTree ν κ γ} (ht : t.Wf) (b : Nat) : (t.remove b).Wf := by
  have hobj : ∀ {x : Nat} {o : Obj ν γ}, (t.remove b).obj x = some o → t.obj x = some o := by
    intro x o hx
    by_cases hxb : x = b
    · subst hxb
      rw [FileTree.remove, obj_setObj_self] at hx
      cases hx
    · rwa [FileTree.remove, obj_setObj_ne t _ hxb] at hx
  refine ⟨?_, fun hx => ht.fresh (hobj hx), fun hx hx' => ht.ids (hobj hx) (hobj hx')⟩
  rintro dir name x x' ⟨o, hx, hp, hk⟩ ⟨o', hx', hp', hk'⟩
  exact ht.names ⟨o, hobj hx, hp, hk⟩ ⟨o', hobj hx', hp', hk'⟩

/-! ## A file that two names keep naming -/

/-- The file `id` is at block `b` and is the entry `name` of `dir`. -/
def Attached (t : FileTree ν κ γ) (id b dir : Nat) (name : ν) : Prop :=
  ∃ o, t.obj b = some o ∧ o.id = id ∧ o.body.isSome ∧ o.parent = some dir ∧
    t.key o.name = t.key name

theorem Attached.names (h : t.Attached id b dir name) : t.Names dir name b := by
  obtain ⟨o, ho, -, -, hp, hk⟩ := h
  exact ⟨o, ho, hp, hk⟩

/-- Writing another block leaves it. -/
theorem Attached.of_obj_eq {t' : FileTree ν κ γ} (h : t.Attached id b dir name)
    (hobj : t'.obj b = t.obj b) (hkey : t'.key = t.key) : t'.Attached id b dir name := by
  obtain ⟨o, ho, hid, hbody, hp, hk⟩ := h
  exact ⟨o, hobj.trans ho, hid, hbody, hp, by rw [hkey, hk]⟩

theorem Attached.create (h : t.Attached id b dir name) {dir' : Nat} {name' : ν} (body : Option γ)
    (hfree : t.obj c = none) : (t.create c dir' name' body).Attached id b dir name := by
  refine h.of_obj_eq (obj_setObj_ne t _ ?_) rfl
  rintro rfl
  obtain ⟨o, ho, -⟩ := h
  rw [hfree] at ho
  cases ho

theorem Attached.setBody {t : FileTree ν κ γ} {id b dir : Nat} {name : ν}
    (h : t.Attached id b dir name) (c : Nat) (body : γ) :
    (t.setBody c (some body)).Attached id b dir name := by
  by_cases hc : b = c
  · subst hc
    obtain ⟨o, ho, hid, -, hp, hk⟩ := h
    refine ⟨{ o with body := some body }, ?_, hid, rfl, hp, hk⟩
    rw [FileTree.setBody, obj_setObj_self, ho]
    rfl
  · exact h.of_obj_eq (obj_setObj_ne t _ hc) rfl

theorem Attached.remove (h : t.Attached id b dir name) (hc : b ≠ c) :
    (t.remove c).Attached id b dir name := h.of_obj_eq (obj_setObj_ne t _ hc) rfl

theorem Attached.move (h : t.Attached id b dir name) (hc : b ≠ c) (dir' : Nat) (name' : ν) :
    (t.move c dir' name').Attached id b dir name := h.of_obj_eq (obj_setObj_ne t _ hc) rfl

end FileTree
