import M68kMachine.Core.Registers
import M68kMachine.Library.Buffer

/-!
# Guest memory as a device sees it

A device never holds an address range of its own: it asks for a view of a span and gets it or
`none`. `ramSliceMut` returns the granted bytes together with the function that stores them back,
which is how a `&mut [u8]` reads in a pure model.

* `GuestMemory` — the two operations
* `LawfulGuestMemory` — what every region map promises of its views
* `Region`, `bytesAt`, `store` — whole regions read and stored
* `Frame` — two memories that agree outside a list of regions
-/

namespace M68kMachine

class GuestMemory (μ : Type) where
  /-- `ram_slice`: the bytes of a span, when it lies inside one RAM region. -/
  ramSlice : μ → Long → Long → Option (List Byte)
  /-- `ram_slice_mut`: the same bytes, and the memory after others are stored over them. -/
  ramSliceMut : μ → Long → Long → Option (List Byte × (List Byte → μ))

/-- The spans `[a, a + n)` and `[b, b + k)` share no address. -/
def SpanDisjoint (a n b k : Long) : Prop :=
  a.toNat + n.toNat ≤ b.toNat ∨ b.toNat + k.toNat ≤ a.toNat

instance (a n b k : Long) : Decidable (SpanDisjoint a n b k) := by
  unfold SpanDisjoint
  infer_instance

/-- The laws a device may rely on. -/
class LawfulGuestMemory (μ : Type) [GuestMemory μ] : Prop where
  length_ramSlice {m : μ} {a n : Long} {bs : List Byte} :
    GuestMemory.ramSlice m a n = some bs → bs.length = n.toNat
  noWrap {m : μ} {a n : Long} {bs : List Byte} :
    GuestMemory.ramSlice m a n = some bs → a.toNat + n.toNat ≤ 0x100000000
  ramSliceMut_fst (m : μ) (a n : Long) :
    (GuestMemory.ramSliceMut m a n).map Prod.fst = GuestMemory.ramSlice m a n
  isSome_put {m : μ} {a n : Long} {old : List Byte} {put : List Byte → μ} (bs : List Byte) :
    GuestMemory.ramSliceMut m a n = some (old, put) → ∀ b k,
      (GuestMemory.ramSlice (put bs) b k).isSome = (GuestMemory.ramSlice m b k).isSome
  slice_put {m : μ} {a n : Long} {old bs : List Byte} {put : List Byte → μ} :
    GuestMemory.ramSliceMut m a n = some (old, put) → bs.length = n.toNat →
      GuestMemory.ramSlice (put bs) a n = some bs
  slice_put_disjoint {m : μ} {a n : Long} {old : List Byte} {put : List Byte → μ}
    (bs : List Byte) {b k : Long} :
    GuestMemory.ramSliceMut m a n = some (old, put) → SpanDisjoint a n b k →
      GuestMemory.ramSlice (put bs) b k = GuestMemory.ramSlice m b k

/-- A memory that grants every part of a span it grants. -/
class ConvexGuestMemory (μ : Type) [GuestMemory μ] : Prop extends LawfulGuestMemory μ where
  isSome_part {m : μ} {a n b k : Long} :
    (GuestMemory.ramSlice m a n).isSome → a.toNat ≤ b.toNat →
      b.toNat + k.toNat ≤ a.toNat + n.toNat → (GuestMemory.ramSlice m b k).isSome

namespace GuestMemory

variable {μ : Type} [GuestMemory μ] [LawfulGuestMemory μ]

/-- A mutable view is granted exactly when a read-only one is, with the same bytes. -/
theorem ramSliceMut_of_ramSlice {m : μ} {a n : Long} {bs : List Byte}
    (h : ramSlice m a n = some bs) : ∃ put, ramSliceMut m a n = some (bs, put) := by
  have hfst := LawfulGuestMemory.ramSliceMut_fst m a n
  rw [h] at hfst
  cases hm : ramSliceMut m a n with
  | none => rw [hm] at hfst; simp at hfst
  | some p =>
    rw [hm] at hfst
    simp only [Option.map_some, Option.some.injEq] at hfst
    exact ⟨p.2, by rw [← hfst]⟩

theorem ramSlice_of_ramSliceMut {m : μ} {a n : Long} {bs : List Byte} {put : List Byte → μ}
    (h : ramSliceMut m a n = some (bs, put)) : ramSlice m a n = some bs := by
  rw [← LawfulGuestMemory.ramSliceMut_fst m a n, h]
  rfl

end GuestMemory

/-! ## Regions of the address space -/

/-- The addresses `start … start + len - 1`. -/
structure Region where
  start : Nat
  len : Nat
  deriving DecidableEq

namespace Region

/-- No address lies in both; an empty region is disjoint from every other. -/
def Disjoint (r t : Region) : Prop :=
  r.len = 0 ∨ t.len = 0 ∨ r.start + r.len ≤ t.start ∨ t.start + t.len ≤ r.start

/-- `r` lies inside `t`. -/
def Inside (r t : Region) : Prop := t.start ≤ r.start ∧ r.start + r.len ≤ t.start + t.len

/-- The region can be named by a 32-bit address and length. -/
def Fits (r : Region) : Prop :=
  r.start < 0x100000000 ∧ r.len < 0x100000000 ∧ r.start + r.len ≤ 0x100000000

instance (r t : Region) : Decidable (r.Disjoint t) := by unfold Disjoint; infer_instance

instance (r : Region) : Decidable r.Fits := by unfold Fits; infer_instance

variable {r t : Region}

theorem Disjoint.symm (h : r.Disjoint t) : t.Disjoint r := by
  unfold Disjoint at h ⊢
  omega

theorem Disjoint.mono {r' t' : Region} (h : r.Disjoint t) (hr : r'.Inside r) (ht : t'.Inside t) :
    r'.Disjoint t' := by
  unfold Disjoint Inside at *
  omega

theorem Fits.inside (ht : t.Fits) (h : r.Inside t) (hr : 0 < r.len) : r.Fits := by
  unfold Fits Inside at *
  omega

end Region

/-! ## Reading and storing whole regions -/

namespace GuestMemory

variable {μ : Type} [GuestMemory μ] {m : μ} {r : Region} {m' : μ} {a : Long} {bs : List Byte}

/-- The bytes of a region. -/
def bytesAt (m : μ) (r : Region) : Option (List Byte) :=
  ramSlice m (BitVec.ofNat 32 r.start) (BitVec.ofNat 32 r.len)

/-- `ram_slice_mut(a, bs.len())?.copy_from_slice(bs)`. -/
def store (m : μ) (a : Long) (bs : List Byte) : Option μ :=
  (ramSliceMut m a (BitVec.ofNat 32 bs.length)).map fun view => view.2 bs

/-- Every part of a region is granted. -/
def InRam (m : μ) (r : Region) : Prop := ∀ t : Region, t.Inside r → (bytesAt m t).isSome

theorem InRam.bytesAt {t : Region} (h : InRam m r) (ht : t.Inside r) :
    ∃ bs, bytesAt m t = some bs := Option.isSome_iff_exists.mp (h t ht)

theorem exists_put_of_store (h : store m a bs = some m') :
    ∃ old put, ramSliceMut m a (BitVec.ofNat 32 bs.length) = some (old, put) ∧ m' = put bs := by
  unfold store at h
  rw [Option.map_eq_some_iff] at h
  obtain ⟨⟨old, put⟩, hput, rfl⟩ := h
  exact ⟨old, put, hput, rfl⟩

variable [LawfulGuestMemory μ]

theorem length_bytesAt (hr : r.len < 0x100000000) (h : bytesAt m r = some bs) :
    bs.length = r.len := by
  rw [LawfulGuestMemory.length_ramSlice h, BitVec.toNat_ofNat, Nat.mod_eq_of_lt hr]

/-- What is granted does not run past the end of the address space. -/
theorem fits_of_bytesAt (hs : r.start < 0x100000000) (hl : r.len < 0x100000000)
    (h : bytesAt m r = some bs) : r.Fits := by
  have hwrap := LawfulGuestMemory.noWrap h
  rw [BitVec.toNat_ofNat, BitVec.toNat_ofNat, Nat.mod_eq_of_lt hs, Nat.mod_eq_of_lt hl] at hwrap
  exact ⟨hs, hl, hwrap⟩

theorem isSome_store (m : μ) (a : Long) (bs : List Byte) :
    (store m a bs).isSome = (ramSlice m a (BitVec.ofNat 32 bs.length)).isSome := by
  rw [store, Option.isSome_map, ← LawfulGuestMemory.ramSliceMut_fst, Option.isSome_map]

/-- A store maps and unmaps nothing. -/
theorem isSome_bytesAt_store (h : store m a bs = some m') (r : Region) :
    (bytesAt m' r).isSome = (bytesAt m r).isSome := by
  obtain ⟨old, put, hput, rfl⟩ := exists_put_of_store h
  exact LawfulGuestMemory.isSome_put bs hput _ _

/-- **What was stored is read back.** -/
theorem bytesAt_store_self (hr : r = ⟨a.toNat, bs.length⟩) (hlen : bs.length < 0x100000000)
    (h : store m a bs = some m') : bytesAt m' r = some bs := by
  obtain ⟨old, put, hput, rfl⟩ := exists_put_of_store h
  have hput' : ramSlice (put bs) a (BitVec.ofNat 32 bs.length) = some bs :=
    LawfulGuestMemory.slice_put hput (by rw [BitVec.toNat_ofNat, Nat.mod_eq_of_lt hlen])
  rw [hr, bytesAt, BitVec.ofNat_toNat, BitVec.setWidth_eq]
  exact hput'

/-- **A store changes no region disjoint from it.** -/
theorem bytesAt_store_disjoint (hne : bs ≠ []) (hbs : bs.length < 0x100000000) (hr : r.Fits)
    (hdis : r.Disjoint ⟨a.toNat, bs.length⟩) (h : store m a bs = some m') :
    bytesAt m' r = bytesAt m r := by
  obtain ⟨hstart, hlen, hend⟩ := hr
  have hpos : 0 < bs.length := List.length_pos_iff.mpr hne
  by_cases hzero : r.len = 0
  · -- Nothing is read, so both sides are the empty list or not granted.
    have hnil : ∀ {m : μ} {xs : List Byte}, bytesAt m r = some xs → xs = [] := by
      intro m xs hx
      rw [← List.length_eq_zero_iff, length_bytesAt hlen hx, hzero]
    have hsome := isSome_bytesAt_store h r
    cases hm : bytesAt m r with
    | none =>
      rw [hm] at hsome
      simpa using hsome
    | some xs =>
      rw [hm] at hsome
      obtain ⟨ys, hys⟩ := Option.isSome_iff_exists.mp hsome
      rw [hys, hnil hm, hnil hys]
  · obtain ⟨old, put, hput, rfl⟩ := exists_put_of_store h
    refine LawfulGuestMemory.slice_put_disjoint bs hput ?_
    unfold Region.Disjoint at hdis
    simp only at hdis
    unfold SpanDisjoint
    rw [BitVec.toNat_ofNat, BitVec.toNat_ofNat, BitVec.toNat_ofNat, Nat.mod_eq_of_lt hbs,
      Nat.mod_eq_of_lt hstart, Nat.mod_eq_of_lt hlen]
    omega

/-! ## Frames -/

omit [LawfulGuestMemory μ] in
/-- `m'` agrees with `m` outside the regions `rs`, and maps the same addresses. -/
structure Frame (rs : List Region) (m m' : μ) : Prop where
  bytes : ∀ r : Region, r.Fits → (∀ t ∈ rs, r.Disjoint t) → bytesAt m' r = bytesAt m r
  mapped : ∀ r : Region, (bytesAt m' r).isSome = (bytesAt m r).isSome

omit [LawfulGuestMemory μ] in
theorem Frame.refl (rs : List Region) (m : μ) : Frame rs m m := ⟨fun _ _ _ => rfl, fun _ => rfl⟩

omit [LawfulGuestMemory μ] in
theorem Frame.trans {rs : List Region} {m m' m'' : μ} (h : Frame rs m m')
    (h' : Frame rs m' m'') : Frame rs m m'' :=
  ⟨fun r hf hr => (h'.bytes r hf hr).trans (h.bytes r hf hr),
    fun r => (h'.mapped r).trans (h.mapped r)⟩

omit [LawfulGuestMemory μ] in
/-- A frame may be widened to regions that cover it. -/
theorem Frame.widen {rs ts : List Region} (h : Frame rs m m')
    (hsub : ∀ r ∈ rs, ∃ t ∈ ts, r.Inside t) : Frame ts m m' := by
  refine ⟨fun x hf hx => h.bytes x hf ?_, h.mapped⟩
  intro r hr
  obtain ⟨t, ht, hin⟩ := hsub r hr
  exact (hx t ht).mono ⟨Nat.le_refl _, Nat.le_refl _⟩ hin

omit [LawfulGuestMemory μ] in
theorem Frame.inRam {rs : List Region} (h : Frame rs m m') (hr : InRam m r) : InRam m' r := by
  intro t ht
  rw [h.mapped t]
  exact hr t ht

theorem frame_store (hne : bs ≠ []) (hlen : bs.length < 0x100000000) (h : store m a bs = some m') :
    Frame [⟨a.toNat, bs.length⟩] m m' :=
  ⟨fun _ hf hr => bytesAt_store_disjoint hne hlen hf (hr _ List.mem_cons_self) h,
    isSome_bytesAt_store h⟩

end GuestMemory

/-! ## Memory changed through the seam only -/

/-- `m'` comes from `m` by stores over granted views: all a device handed the memory can do. -/
inductive GuestMemory.Touched {μ : Type} [GuestMemory μ] : μ → μ → Prop
  | refl (m : μ) : Touched m m
  | put {m m' : μ} {a n : Long} {old : List Byte} {put : List Byte → μ} (bs : List Byte) :
      Touched m m' → GuestMemory.ramSliceMut m' a n = some (old, put) → Touched m (put bs)

theorem GuestMemory.Touched.trans {μ : Type} [GuestMemory μ] {m m' m'' : μ}
    (h : Touched m m') (h' : Touched m' m'') : Touched m m'' := by
  induction h' with
  | refl => exact h
  | put bs _ hgrant ih => exact .put bs ih hgrant

/-- Stores map and unmap nothing. -/
theorem GuestMemory.Touched.isSome_ramSlice {μ : Type} [GuestMemory μ] [LawfulGuestMemory μ]
    {m m' : μ} (h : Touched m m') (a n : Long) :
    (ramSlice m' a n).isSome = (ramSlice m a n).isSome := by
  induction h with
  | refl => rfl
  | put bs _ hgrant ih => rw [LawfulGuestMemory.isSome_put bs hgrant, ih]

/-! ## A flat memory -/

/-- `n` bytes of RAM at address zero and nothing else. -/
structure FlatRam (n : Nat) where
  bytes : Buffer Byte n

namespace FlatRam

variable {n : Nat}

/-- The span `[addr, addr + len)`, when it lies inside the memory. -/
def span? (n : Nat) (addr len : Long) : Option (Span n) :=
  if h : addr.toNat + len.toNat ≤ n ∧ addr.toNat + len.toNat < 0x100000000 then
    some ⟨addr.toNat, len.toNat, h.1⟩
  else none

instance : GuestMemory (FlatRam n) where
  ramSlice m addr len := (span? n addr len).map m.bytes.slice
  ramSliceMut m addr len :=
    (span? n addr len).map fun s => (m.bytes.slice s, fun bs => ⟨m.bytes.put s bs⟩)

theorem span?_eq_some {addr len : Long} {s : Span n} (h : span? n addr len = some s) :
    s.start = addr.toNat ∧ s.len = len.toNat := by
  unfold span? at h
  split at h
  · cases h
    exact ⟨rfl, rfl⟩
  · cases h

theorem exists_span {m : FlatRam n} {addr len : Long} {old : List Byte}
    {put : List Byte → FlatRam n} (h : GuestMemory.ramSliceMut m addr len = some (old, put)) :
    ∃ s, span? n addr len = some s ∧ old = m.bytes.slice s ∧
      put = fun bs => ⟨m.bytes.put s bs⟩ := by
  obtain ⟨s, hs, heq⟩ := Option.map_eq_some_iff.mp h
  cases heq
  exact ⟨s, hs, rfl, rfl⟩

instance : LawfulGuestMemory (FlatRam n) where
  length_ramSlice := by
    intro m addr len bs h
    obtain ⟨s, hs, rfl⟩ := Option.map_eq_some_iff.mp h
    rw [Buffer.length_slice, (span?_eq_some hs).2]
  noWrap := by
    intro m addr len bs h
    obtain ⟨s, hs, -⟩ := Option.map_eq_some_iff.mp h
    unfold span? at hs
    split at hs
    · rename_i hin
      exact Nat.le_of_lt hin.2
    · cases hs
  ramSliceMut_fst := by
    intro m addr len
    simp only [GuestMemory.ramSliceMut, GuestMemory.ramSlice, Option.map_map]
    rfl
  isSome_put := by
    intro m addr len old put bs _ b k
    simp only [GuestMemory.ramSlice, Option.isSome_map]
  slice_put := by
    intro m addr len old bs put h hlen
    obtain ⟨s, hs, -, rfl⟩ := exists_span h
    simp only [GuestMemory.ramSlice, hs, Option.map_some]
    rw [Buffer.slice_put_self _ _ (by rw [hlen, (span?_eq_some hs).2])]
  slice_put_disjoint := by
    intro m addr len old put bs b k h hdis
    obtain ⟨s, hs, -, rfl⟩ := exists_span h
    simp only [GuestMemory.ramSlice]
    cases ht : span? n b k with
    | none => rfl
    | some t =>
      obtain ⟨hs1, hs2⟩ := span?_eq_some hs
      obtain ⟨ht1, ht2⟩ := span?_eq_some ht
      have hst : s.Disjoint t := by
        unfold SpanDisjoint at hdis
        unfold Span.Disjoint
        omega
      simp only [Option.map_some]
      rw [Buffer.slice_put_disjoint _ _ hst]

instance : ConvexGuestMemory (FlatRam n) where
  isSome_part := by
    intro m a len b k h hlo hhi
    simp only [GuestMemory.ramSlice, Option.isSome_map, span?] at h ⊢
    split at h
    · rw [dif_pos (by omega)]
      rfl
    · cases h

/-- Every region inside the memory is in RAM. -/
theorem inRam (m : FlatRam n) {r : Region} (hr : r.start + r.len ≤ n) (hn : n < 0x100000000) :
    GuestMemory.InRam m r := by
  intro t ht
  obtain ⟨hlo, hhi⟩ := ht
  have hstart : (BitVec.ofNat 32 t.start).toNat = t.start := by
    rw [BitVec.toNat_ofNat]
    exact Nat.mod_eq_of_lt (by omega)
  have hlen : (BitVec.ofNat 32 t.len).toNat = t.len := by
    rw [BitVec.toNat_ofNat]
    exact Nat.mod_eq_of_lt (by omega)
  unfold GuestMemory.bytesAt
  simp only [GuestMemory.ramSlice, span?, Option.isSome_map]
  rw [dif_pos (by omega)]
  rfl

end FlatRam

end M68kMachine
