import M68kMachine.Library.ListCursor
import M68kMachine.Properties.PktvolTree

/-!
# Walks through a directory

`EXAMINE_NEXT` keeps a number in the guest's `FileInfoBlock`: how far the last packet got in the
list that `read_dir` makes afresh each time. A walk is a run of such packets among others that may
change the directory.

* `ListsDirs` — what is relied on of `read_dir`: the current entries, in an order reads keep
* `Walk` — the packets of a walk and the entries they return
* `Walk.reads` — a walk reads the list of entries as a cursor does
* `examine_next_complete` — when every entry that stays is returned exactly once
-/

namespace M68kMachine

namespace PktVolume

open ListCursor VolumeTree

variable {φ μ : Type} [Ffs φ]

/-! ## The list of entries -/

/-- The entries `read_dir` lists. -/
def entriesOf (fs : φ) (d : Nat) : List Entry := (Ffs.readDir fs d).1.toOption.getD []

/-- Their header blocks. -/
def listing (fs : φ) (d : Nat) : List Nat := (entriesOf fs d).map Entry.lba

/-- The object at `b` is an entry of directory `d`. -/
def Entered (t : VolumeTree) (d b : Nat) : Prop := ∃ o, t.obj b = some o ∧ o.parent = some d

/-- Every entry of a directory is listed once, in an order that stands while it is only read, and
can be read. -/
structure ListsDirs (φ : Type) [Ffs φ] [LawfulFfs φ] : Prop where
  reads : ReadsKeep (listing : φ → Nat → List Nat)
  readDir_ok {fs : φ} {d : Nat} {o : FileTree.Obj (List Byte) (List Byte)} :
    (LawfulFfs.view fs).obj d = some o → o.body = none →
      ∃ entries, (Ffs.readDir fs d).1 = .ok entries
  mem_listing {fs : φ} {d : Nat} {entries : List Entry} : (Ffs.readDir fs d).1 = .ok entries →
    ∀ b, b ∈ entries.map Entry.lba ↔ Entered (LawfulFfs.view fs) d b
  nodup {fs : φ} {d : Nat} {entries : List Entry} : (Ffs.readDir fs d).1 = .ok entries →
    (entries.map Entry.lba).Nodup
  comment_ok {fs : φ} {d : Nat} {entries : List Entry} {e : Entry} :
    (Ffs.readDir fs d).1 = .ok entries → e ∈ entries →
      ∃ text, (Ffs.comment (Ffs.readDir fs d).2 e).1 = .ok text

/-! ## The key in guest memory -/

section Fib

variable [GuestMemory μ]

/-- The key in the `FileInfoBlock` at a BPTR. -/
def LeavesKey (mem : μ) (fib key : Long) : Prop :=
  (GuestMemory.ramSlice mem (fib * 4) fibSize).map (List.take 4) = some (toBytes32 key)

instance (mem : μ) (fib key : Long) : Decidable (LeavesKey mem fib key) :=
  inferInstanceAs (Decidable (_ = _))

/-- The same, of a block that is RAM in one piece: its first long is granted alone too. -/
def HoldsKey (mem : μ) (fib key : Long) : Prop :=
  LeavesKey mem fib key ∧ GuestMemory.ramSlice mem (fib * 4) 4 = some (toBytes32 key)

instance (mem : μ) (fib key : Long) : Decidable (HoldsKey mem fib key) :=
  inferInstanceAs (Decidable (_ ∧ _))

theorem toBytes32_inj {a b : Long} (h : toBytes32 a = toBytes32 b) : a = b := by
  unfold toBytes32 at h
  simp only [List.cons.injEq, and_true] at h
  rcases h with ⟨h0, h1, h2, h3⟩
  rw [← be32_byteOf a, ← be32_byteOf b, h0, h1, h2, h3]

theorem HoldsKey.be32 {mem : μ} {fib key : Long} (h : HoldsKey mem fib key) :
    ∃ k, GuestMemory.ramSlice mem (fib * 4) 4 = some k ∧
      be32 (k.getD 0 0) (k.getD 1 0) (k.getD 2 0) (k.getD 3 0) = key :=
  ⟨_, h.2, be32_byteOf key⟩

theorem length_bstrField (cap : Nat) (bytes : List Byte) :
    (bstrField cap bytes).length = cap + 1 := by
  simp only [bstrField, List.length_cons, List.length_append, List.length_take,
    List.length_replicate]
  omega

theorem length_fillFib (key type : Long) (name : List Byte) (protection size blocks : Long)
    (date : DateStamp) (comment : List Byte) (owner : Long) :
    (fillFib key type name protection size blocks date comment owner).length = 260 := by
  simp [fillFib, length_bstrField, toBytes32]

theorem take_fillFib (key type : Long) (name : List Byte) (protection size blocks : Long)
    (date : DateStamp) (comment : List Byte) (owner : Long) :
    (fillFib key type name protection size blocks date comment owner).take 4 = toBytes32 key := by
  simp only [fillFib, List.append_assoc]
  exact List.take_left' rfl

/-- The block that is stored over a `FileInfoBlock`, and the key in it. -/
theorem store_fib [LawfulGuestMemory μ] {mem : μ} {fib key : Long} (h : LeavesKey mem fib key)
    {bytes : List Byte} (hlen : bytes.length = 260) :
    ∃ mem', GuestMemory.store mem (fib * 4) bytes = some mem' ∧
      GuestMemory.ramSlice mem' (fib * 4) fibSize = some bytes := by
  have hsize : BitVec.ofNat 32 bytes.length = fibSize := by rw [hlen]; rfl
  cases hmem : GuestMemory.ramSlice mem (fib * 4) fibSize with
  | none =>
    rw [LeavesKey, hmem] at h
    cases h
  | some old =>
    rcases GuestMemory.ramSliceMut_of_ramSlice hmem with ⟨put, hput⟩
    refine ⟨put bytes, ?_, LawfulGuestMemory.slice_put hput (by rw [hlen]; rfl)⟩
    rw [GuestMemory.store, hsize, hput]
    rfl

end Fib

/-! ## One packet -/

variable [LawfulFfs φ] {p : PktVolume φ} {lock : Long} {d : Nat}

/-- The lock names directory `d`, and the volume answers. -/
structure Held (lock : Long) (d : Nat) (p : PktVolume φ) : Prop where
  inhibited : p.inhibited = false
  lock : p.resolveLock lock = some d
  dir : ∃ o, p.tree.obj d = some o ∧ o.body = none
  small : (listing p.fs d).length < 0x100000000

/-- What `EXAMINE_NEXT` finds of a directory. -/
structure Found (p : PktVolume φ) (d : Nat) (entries : List Entry) : Prop where
  readDir : (Ffs.readDir p.fs d).1 = .ok entries
  entriesOf : PktVolume.entriesOf p.fs d = entries
  nodup : (listing p.fs d).Nodup
  mem_listing : ∀ b, b ∈ listing p.fs d ↔ Entered p.tree d b

theorem Held.found (hl : ListsDirs φ) (h : Held lock d p) : ∃ entries, Found p d entries := by
  rcases h.dir with ⟨o, ho, hbody⟩
  rcases hl.readDir_ok ho hbody with ⟨entries, hread⟩
  have hentries : PktVolume.entriesOf p.fs d = entries := by
    rw [PktVolume.entriesOf, hread]
    rfl
  have hlisting : listing p.fs d = entries.map Entry.lba := congrArg _ hentries
  refine ⟨entries, hread, hentries, ?_, ?_⟩
  · rw [hlisting]
    exact hl.nodup hread
  · intro b
    rw [hlisting]
    exact hl.mem_listing hread b

variable [GuestMemory μ] {fib key : Long} {k : Packet μ} {b : Nat}

/-- The description of an entry that `EXAMINE_NEXT` leaves in the `FileInfoBlock`. -/
def Describes (mem : μ) (fib key : Long) (e : Entry) : Prop := ∃ blocks comment,
  GuestMemory.ramSlice mem (fib * 4) fibSize = some (fillFib key e.kind.secondaryType e.name
    e.protection e.byteSize blocks e.date comment e.owner)

omit [Ffs φ] [LawfulFfs φ] in
theorem Describes.leavesKey {mem : μ} {e : Entry} (h : Describes mem fib key e) :
    LeavesKey mem fib key := by
  rcases h with ⟨blocks, comment, h⟩
  rw [LeavesKey, h, Option.map_some, take_fillFib]

/-- **`EXAMINE_NEXT` answers the entry at the key**, or that there is none. -/
theorem examineNext_eq [LawfulGuestMemory μ] (hl : ListsDirs φ) {args : List Long} {mem : μ}
    (hheld : Held (args.getD 0 0) d p) (hkey : HoldsKey mem (args.getD 1 0) key) :
    (∃ fs, (listing p.fs d).length ≤ key.toNat ∧ listing fs = listing p.fs ∧
      p.examineNext args mem = ((dosFalse, Err.noMoreEntries), { p with fs := fs }, mem)) ∨
    ∃ e fs mem', (entriesOf p.fs d)[key.toNat]? = some e ∧ listing fs = listing p.fs ∧
      p.examineNext args mem = ((dosTrue, 0), { p with fs := fs }, mem') ∧
      Describes mem' (args.getD 1 0) (BitVec.ofNat 32 (key.toNat + 1)) e := by
  rcases hheld.found hl with ⟨entries, hfound⟩
  rcases hkey.be32 with ⟨k, hk, hbe⟩
  have hlist := hl.reads.readDir p.fs d
  have hcomment := fun e => @ListsDirs.comment_ok φ _ _ hl p.fs d entries e hfound.readDir
  have hread := hfound.readDir
  unfold examineNext
  rw [hheld.lock]
  simp only [hk, hbe]
  rw [hfound.entriesOf]
  have hlen : (listing p.fs d).length = entries.length := by
    rw [listing, hfound.entriesOf, List.length_map]
  generalize Ffs.readDir p.fs d = r at hlist hread hcomment ⊢
  rcases r with ⟨e | entries', fs⟩
  · cases hread
  · cases hread
    simp only
    cases hget : entries[key.toNat]? with
    | none =>
      refine .inl ⟨fs, ?_, hlist, rfl⟩
      rw [hlen]
      exact List.getElem?_eq_none_iff.mp hget
    | some e =>
      -- Nothing `EXAMINE_NEXT` does after the list changes it: each step is a read.
      have hlist' := (hl.reads.comment fs e).trans hlist
      rcases hcomment e (List.mem_of_getElem? hget) with ⟨text, htext⟩
      simp only at htext ⊢
      generalize Ffs.comment fs e = r at htext hlist' ⊢
      rcases r with ⟨err | text', fs'⟩
      · cases htext
      · cases htext
        rcases store_fib hkey.1 (length_fillFib (BitVec.ofNat 32 (key.toNat + 1))
          e.kind.secondaryType e.name e.protection e.byteSize
          (countBlocks fs' e.lba e.kind.isDirectory).1 e.date text e.owner) with ⟨mem', hmem, hfib⟩
        have hcount := (hl.reads.countBlocks fs' e.lba e.kind.isDirectory).trans hlist'
        refine .inr ⟨e, _, mem', rfl, hcount, ?_, _, _, hfib⟩
        simp only [storeStruct, hmem]

/-! ## The walk -/

/-- A packet of the walk: `EXAMINE_NEXT` on its lock and block. -/
def Probe (lock fib : Long) (k : Packet μ) : Prop :=
  k.action = Action.examineNext ∧ k.args.getD 0 0 = lock ∧ k.args.getD 1 0 = fib

/-- Guest memory after a packet. -/
def memAfter (p : PktVolume φ) (k : Packet μ) : μ := (p.executeInner k.action k.args k.mem).2.2

/-- The answer describes entry `e` of the directory, and carries the key `key'`. -/
structure ReturnsEntry (d : Nat) (p : PktVolume φ) (k : Packet μ) (key key' : Long) (e : Entry) :
    Prop where
  answer : p.answer k = (dosTrue, 0)
  entry : (entriesOf p.fs d)[key.toNat]? = some e
  describes : Describes (memAfter p k) (k.args.getD 1 0) key' e

/-- Packets from the key on: each `EXAMINE_NEXT` finds the key that the last one left, up to the
first that fails; others between them meet `Q`. -/
inductive Walk (lock fib : Long) (d : Nat) (Q : PktVolume φ → Long → Packet μ → Prop) :
    PktVolume φ → Long → List (Packet μ) → List Entry → Res → Prop
  | stop {p : PktVolume φ} {key : Long} {k : Packet μ} : Probe lock fib k →
      HoldsKey k.mem fib key → p.answer k ≠ (dosTrue, 0) →
      Walk lock fib d Q p key [k] [] (p.answer k)
  | next {p : PktVolume φ} {key key' : Long} {k : Packet μ} {ks : List (Packet μ)} {e : Entry}
      {es : List Entry} {res : Res} : Probe lock fib k → HoldsKey k.mem fib key →
      ReturnsEntry d p k key key' e → Walk lock fib d Q (p.step k) key' ks es res →
      Walk lock fib d Q p key (k :: ks) (e :: es) res
  | other {p : PktVolume φ} {key : Long} {k : Packet μ} {ks : List (Packet μ)} {es : List Entry}
      {res : Res} : Q p key k → Walk lock fib d Q (p.step k) key ks es res →
      Walk lock fib d Q p key (k :: ks) es res

/-- What was listed before the key is still listed before it, and the rest is not. -/
def KeepsSides (d : Nat) (p : PktVolume φ) (key : Long) (k : Packet μ) : Prop :=
  SameSide key.toNat (listing p.fs d) (listing (p.step k).fs d)

theorem Probe.step (hprobe : Probe lock fib k) (hheld : Held lock d p) :
    p.executeInner k.action k.args k.mem = p.examineNext k.args k.mem := by
  rcases hprobe with ⟨haction, -, -⟩
  rw [haction]
  simp [executeInner, hheld.inhibited]

/-- **A probe is past the last entry, or returns the entry at the key** and leaves the next. -/
theorem Probe.cases [LawfulGuestMemory μ] (hl : ListsDirs φ) (hprobe : Probe lock fib k)
    (hheld : Held lock d p) (hkey : HoldsKey k.mem fib key) :
    (listing p.fs d).length ≤ key.toNat ∧ p.answer k = (dosFalse, Err.noMoreEntries) ∨
    key.toNat < (listing p.fs d).length ∧ listing (p.step k).fs d = listing p.fs d ∧
      ∃ e, ReturnsEntry d p k key (BitVec.ofNat 32 (key.toNat + 1)) e := by
  have hstep := hprobe.step hheld
  rcases hprobe with ⟨-, rfl, rfl⟩
  rcases examineNext_eq hl hheld hkey with
    ⟨fs, hle, -, heq⟩ | ⟨e, fs, mem', hget, hlist, heq, hdesc⟩
  · exact .inl ⟨hle, by rw [answer, hstep, heq]⟩
  · refine .inr ⟨?_, by rw [PktVolume.step, hstep, heq, hlist], e, ?_, hget, ?_⟩
    · rw [listing, List.length_map]
      exact (List.getElem?_eq_some_iff.mp hget).1
    · rw [answer, hstep, heq]
    · rw [memAfter, hstep, heq]
      exact hdesc

/-- A probe that fails is past the last entry. -/
theorem Probe.fails [LawfulGuestMemory μ] (hl : ListsDirs φ) (hprobe : Probe lock fib k)
    (hheld : Held lock d p) (hkey : HoldsKey k.mem fib key) (hfails : p.answer k ≠ (dosTrue, 0)) :
    (listing p.fs d).length ≤ key.toNat ∧ p.answer k = (dosFalse, Err.noMoreEntries) := by
  rcases hprobe.cases hl hheld hkey with h | ⟨-, -, e, hreturns⟩
  · exact h
  · exact absurd hreturns.answer hfails

theorem Probe.returns [LawfulGuestMemory μ] (hl : ListsDirs φ) {key' : Long}
    (hprobe : Probe lock fib k) {e : Entry} (hheld : Held lock d p) (hkey : HoldsKey k.mem fib key)
    (hreturns : ReturnsEntry d p k key key' e) :
    (listing p.fs d)[key.toNat]? = some e.lba ∧ key'.toNat = key.toNat + 1 ∧
      listing (p.step k).fs d = listing p.fs d := by
  have hread : (listing p.fs d)[key.toNat]? = some e.lba := by
    rw [listing, List.getElem?_map, hreturns.entry]
    rfl
  rcases hprobe.cases hl hheld hkey with ⟨hle, -⟩ | ⟨hlt, hsame, e', hreturns'⟩
  · rw [List.getElem?_eq_none hle] at hread
    cases hread
  · refine ⟨hread, ?_, hsame⟩
    -- Both keys are the first long of one `FileInfoBlock`, so they are one number.
    have hleft := hreturns.describes.leavesKey
    rw [LeavesKey, hreturns'.describes.leavesKey, Option.some.injEq] at hleft
    have hsmall := hheld.small
    -- The directory has fewer entries than a key can count, so the next key does not wrap.
    rw [← toBytes32_inj hleft, BitVec.toNat_ofNat]
    exact Nat.mod_eq_of_lt (by omega)

theorem Probe.exists_entry [LawfulGuestMemory μ] (hl : ListsDirs φ) (hprobe : Probe lock fib k)
    (hheld : Held lock d p) (hkey : HoldsKey k.mem fib key)
    (hlt : key.toNat < (listing p.fs d).length) :
    ∃ e, ReturnsEntry d p k key (BitVec.ofNat 32 (key.toNat + 1)) e := by
  rcases hprobe.cases hl hheld hkey with ⟨hle, -⟩ | ⟨-, -, h⟩
  · omega
  · exact h

/-- A walk ends where there are no more entries. -/
theorem Walk.ends [LawfulGuestMemory μ] (hl : ListsDirs φ)
    {Q : PktVolume φ → Long → Packet μ → Prop} {ks : List (Packet μ)} {es : List Entry} {res : Res}
    (h : Walk lock fib d Q p key ks es res)
    (hheld : Transition.Always PktVolume.step (Held lock d) p ks) :
    res = (dosFalse, Err.noMoreEntries) := by
  induction h with
  | stop hprobe hkey hfails => exact (hprobe.fails hl hheld.first hkey hfails).2
  | next _ _ _ _ ih | other _ _ ih => exact ih (Transition.always_cons.mp hheld).2

/-- **A walk reads the list of entries as a cursor does.** -/
theorem Walk.reads [LawfulGuestMemory μ] (hl : ListsDirs φ) {ks : List (Packet μ)} {es : List Entry}
    {res : Res} (h : Walk lock fib d (KeepsSides d) p key ks es res)
    (hheld : Transition.Always PktVolume.step (Held lock d) p ks)
    (hb : Transition.Always PktVolume.step (fun p => Entered p.tree d b) p ks) :
    Reads (fun l => l.Nodup ∧ b ∈ l) (listing p.fs d) key.toNat (es.map Entry.lba) := by
  -- What is entered is listed, as long as the lock is held.
  have hin : ∀ {p : PktVolume φ}, Held lock d p → Entered p.tree d b →
      (listing p.fs d).Nodup ∧ b ∈ listing p.fs d := by
    intro p hheld hb
    rcases hheld.found hl with ⟨entries, hfound⟩
    exact ⟨hfound.nodup, (hfound.mem_listing b).mpr hb⟩
  induction h with
  | stop hprobe hkey hfails =>
    exact .stop (hin hheld.first hb.first) (hprobe.fails hl hheld.first hkey hfails).1
  | next hprobe hkey hreturns _ ih =>
    rcases hprobe.returns hl hheld.first hkey hreturns with ⟨hread, hkey', hsame⟩
    have hreads := ih (Transition.always_cons.mp hheld).2 (Transition.always_cons.mp hb).2
    rw [hkey', hsame] at hreads
    exact .next (hin hheld.first hb.first) hread hreads
  -- Any other packet may change the list, but not across the key.
  | other hside _ ih =>
    exact .change (hin hheld.first hb.first) hside
      (ih (Transition.always_cons.mp hheld).2 (Transition.always_cons.mp hb).2)

/-- **A walk is complete when nothing that stays crosses the key.** A walk from key 0 through a
locked directory whose other packets leave every entry that stays on its side of the key returns
every entry that stays exactly once, and ends with `ERROR_NO_MORE_ENTRIES`. -/
theorem examine_next_complete [LawfulGuestMemory μ] (hl : ListsDirs φ) {lock fib : Long} {d : Nat}
    {p : PktVolume φ} {ks : List (Packet μ)} {es : List Entry} {res : Res}
    (hwalk : Walk lock fib d (KeepsSides d) p 0 ks es res)
    (hheld : Transition.Always PktVolume.step (Held lock d) p ks) :
    (∀ b, Transition.Always PktVolume.step (fun p => Entered p.tree d b) p ks →
      (es.map Entry.lba).count b = 1) ∧ res = (dosFalse, Err.noMoreEntries) := by
  refine ⟨fun b hb => ?_, hwalk.ends hl hheld⟩
  rw [(hwalk.reads hl hheld hb).count]
  simp

/-! ## Deleting and creating under a walk -/

/-- Taking out an entry keeps sides exactly when it was not passed or the walk is at its end. -/
theorem keepsSides_of_erase (hl : ListsDirs φ) (hheld : Held lock d p)
    (h : listing (p.step k).fs d = (listing p.fs d).erase b) :
    KeepsSides d p key k ↔
      (b ∈ (listing p.fs d).take key.toNat → (listing p.fs d).length ≤ key.toNat) := by
  rcases hheld.found hl with ⟨entries, hfound⟩
  rw [KeepsSides, h]
  exact sameSide_erase_iff hfound.nodup

/-- A packet that puts an entry in: it must not come before the key. -/
theorem keepsSides_of_insert (hl : ListsDirs φ) (hheld : Held lock d (p.step k))
    (h : listing p.fs d = (listing (p.step k).fs d).erase b) :
    KeepsSides d p key k ↔ (b ∈ (listing (p.step k).fs d).take key.toNat →
      (listing (p.step k).fs d).length ≤ key.toNat) := by
  rcases hheld.found hl with ⟨entries, hfound⟩
  rw [KeepsSides, h]
  exact ⟨fun hside => (sameSide_erase_iff hfound.nodup).mp hside.symm,
    fun hpassed => ((sameSide_erase_iff hfound.nodup).mpr hpassed).symm⟩

/-! ## On a volume in memory -/

theorem listsDirs_tree : ListsDirs TreeFs where
  reads := ⟨fun _ _ _ => rfl, fun _ _ _ => rfl, fun _ _ => rfl, fun _ _ => rfl, fun _ _ => rfl,
    fun _ _ => rfl, fun _ _ _ _ => rfl⟩
  readDir_ok := by
    intro t d o ho hbody
    have hdir : t.isDir d = true := by
      have ho' : t.tree.obj d = some o := ho
      unfold TreeFs.isDir
      rw [ho']
      simp only [hbody, Option.isNone_none]
    exact ⟨_, if_pos hdir⟩
  mem_listing := by
    intro t d entries h b
    obtain rfl := t.readDir_eq h
    rw [t.map_lba_toEntry, List.mem_filter, List.mem_range]
    constructor
    · rintro ⟨-, hparent⟩
      rcases Option.bind_eq_some_iff.mp (beq_iff_eq.mp hparent) with ⟨o, ho, hp⟩
      exact ⟨o, ho, hp⟩
    · rintro ⟨o, ho, hp⟩
      have ho' : t.tree.obj b = some o := ho
      refine ⟨t.bound ho', ?_⟩
      rw [ho', Option.bind_some, hp, beq_self_eq_true]
  nodup := by
    intro t d entries h
    obtain rfl := t.readDir_eq h
    rw [t.map_lba_toEntry]
    exact List.nodup_range.filter _
  comment_ok _ _ := ⟨[], rfl⟩

theorem held_tree {p : PktVolume TreeFs}
    (h : p.inhibited = false ∧ p.resolveLock lock = some d ∧ p.fs.isDir d = true ∧
      (listing p.fs d).length < 0x100000000) : Held lock d p := by
  rcases h with ⟨hinh, hlock, hdir, hsmall⟩
  refine ⟨hinh, hlock, ?_, hsmall⟩
  unfold TreeFs.isDir at hdir
  split at hdir
  · rename_i o ho
    exact ⟨o, ho, Option.isNone_iff_eq_none.mp hdir⟩
  · cases hdir

theorem entered_tree {t : VolumeTree} (h : (t.obj b).bind FileTree.Obj.parent = some d) :
    Entered t d b :=
  Option.bind_eq_some_iff.mp h

/-- The names `a`, `b` and `c` at 4, 8 and 12, and a `FileInfoBlock` at 64 with a small key. -/
def fibRam (key : Byte) : FlatRam 512 :=
  ⟨fun i => if i.val = 4 ∨ i.val = 8 ∨ i.val = 12 then 1 else if i.val = 5 then 0x61 else
    if i.val = 9 then 0x62 else if i.val = 13 then 0x63 else if i.val = 67 then key else 0⟩

def probe (key : Byte) : Packet (FlatRam 512) := ⟨Action.examineNext, [0, 16], fibRam key⟩

/-- The files `a` and `b`, in blocks 0 and 1. -/
def twoFiles : PktVolume TreeFs :=
  (blank.step (⟨Action.findOutput, [0, 0, 1], fibRam 0⟩ : Packet (FlatRam 512))).step
    (⟨Action.findOutput, [0, 0, 2], fibRam 0⟩ : Packet (FlatRam 512))

theorem probe_fibRam (key : Byte) : Probe 0 16 (probe key) := ⟨rfl, rfl, rfl⟩

theorem listing_twoFiles : listing twoFiles.fs 8 = [0, 1] := by decide

/-- A third file is created behind the key, and returned in its turn. -/
theorem examine_next_complete_blank :
    let create : Packet (FlatRam 512) := ⟨Action.findOutput, [0, 0, 3], fibRam 0⟩
    let ks := [probe 0, create, probe 1, probe 2, probe 3]
    ∃ es res, Walk 0 16 8 (KeepsSides 8) twoFiles 0 ks es res ∧ es.length = 3 ∧
      (∀ b, Transition.Always PktVolume.step (fun p => Entered p.tree 8 b) twoFiles ks →
        (es.map Entry.lba).count b = 1) ∧ res = (dosFalse, Err.noMoreEntries) := by
  intro create ks
  have hheld : Transition.Always PktVolume.step (Held 0 8) twoFiles ks := by
    simp only [ks, Transition.always_cons, Transition.always_nil]
    exact ⟨held_tree (by decide), held_tree (by decide),
      held_tree (by decide), held_tree (by decide), held_tree (by decide),
      held_tree (by decide)⟩
  have hall := hheld
  simp only [ks, Transition.always_cons, Transition.always_nil] at hall
  rcases hall with ⟨h0, h1, h2, h3, h4, -⟩
  have hkey : ∀ key ∈ [0, 1, 2, 3], HoldsKey (probe key).mem 16 (key.setWidth 32) := by
    decide
  rcases (probe_fibRam 0).exists_entry listsDirs_tree h0 (hkey 0 (by decide)) (by decide)
    with ⟨e0, hreturns0⟩
  rcases (probe_fibRam 1).exists_entry listsDirs_tree h2 (hkey 1 (by decide)) (by decide)
    with ⟨e1, hreturns1⟩
  rcases (probe_fibRam 2).exists_entry listsDirs_tree h3 (hkey 2 (by decide)) (by decide)
    with ⟨e2, hreturns2⟩
  -- The new file is listed last, and the key is at 1.
  have hside : KeepsSides 8 (twoFiles.step (probe 0)) 1 create :=
    (keepsSides_of_insert listsDirs_tree (b := 2) h2 (by decide)).mpr (by decide)
  have hwalk := Walk.next (Q := KeepsSides 8) (probe_fibRam 0) (hkey 0 (by decide)) hreturns0
    (.other hside (.next (probe_fibRam 1) (hkey 1 (by decide)) hreturns1
      (.next (probe_fibRam 2) (hkey 2 (by decide)) hreturns2
        (.stop (probe_fibRam 3) (hkey 3 (by decide)) (by decide)))))
  exact ⟨_, _, hwalk, rfl, examine_next_complete listsDirs_tree hwalk hheld⟩

/-- The first entry is deleted when returned: the second moves before the key and is left out. -/
theorem deleted_entry_hides_the_next :
    let delete : Packet (FlatRam 512) := ⟨Action.deleteObject, [0, 1], fibRam 0⟩
    let ks := [probe 0, delete, probe 1]
    ∃ e, Walk 0 16 8 (fun _ _ _ => True) twoFiles 0 ks [e] (dosFalse, Err.noMoreEntries) ∧
      Transition.Always PktVolume.step (Held 0 8) twoFiles ks ∧
      Transition.Always PktVolume.step (fun p => Entered p.tree 8 1) twoFiles ks ∧
      ([e].map Entry.lba).count 1 = 0 ∧ ¬KeepsSides 8 (twoFiles.step (probe 0)) 1 delete := by
  intro delete ks
  have hheld : Transition.Always PktVolume.step (Held 0 8) twoFiles ks := by
    simp only [ks, Transition.always_cons, Transition.always_nil]
    exact ⟨held_tree (by decide), held_tree (by decide),
      held_tree (by decide), held_tree (by decide)⟩
  have hentered : Transition.Always PktVolume.step (fun p => Entered p.tree 8 1) twoFiles ks := by
    simp only [ks, Transition.always_cons, Transition.always_nil]
    exact ⟨entered_tree (by decide), entered_tree (by decide),
      entered_tree (by decide), entered_tree (by decide)⟩
  have hkey0 : HoldsKey (probe 0).mem 16 0 := by decide
  have hkey1 : HoldsKey (probe 1).mem 16 1 := by decide
  have hlast : ((twoFiles.step (probe 0)).step delete).answer (probe 1) =
      (dosFalse, Err.noMoreEntries) := by
    decide
  rcases (probe_fibRam 0).exists_entry listsDirs_tree hheld.first hkey0 (by decide) with
    ⟨e, hreturns⟩
  refine ⟨e, ?_, hheld, hentered, ?_, ?_⟩
  · have hstop := Walk.stop (Q := fun _ _ _ => True) (d := 8)
      (p := (twoFiles.step (probe 0)).step delete) (probe_fibRam 1) hkey1
      (by rw [hlast]; decide)
    rw [hlast] at hstop
    exact .next (probe_fibRam 0) hkey0 hreturns (.other trivial hstop)
  -- The entry that was returned is the first one, not the one that stays.
  · have hread := ((probe_fibRam 0).returns listsDirs_tree hheld.first hkey0 hreturns).1
    rw [listing_twoFiles] at hread
    have hlba : e.lba = 0 := (Option.some.inj hread).symm
    rw [List.map_singleton, hlba]
    decide
  · have hgone : listing ((twoFiles.step (probe 0)).step delete).fs 8 =
        (listing (twoFiles.step (probe 0)).fs 8).erase 0 := by
      decide
    have hheld' : Held 0 8 (twoFiles.step (probe 0)) := held_tree (by decide)
    rw [keepsSides_of_erase listsDirs_tree hheld' hgone]
    decide

end PktVolume

end M68kMachine
