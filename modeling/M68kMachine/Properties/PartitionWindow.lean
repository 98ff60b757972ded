import M68kMachine.Hosted.Pktvol
import M68kMachine.Properties.EfiStorage

/-!
# A partition is a window of its image

A file system on the medium of a partition reads and writes the blocks of one flat image, and no
byte of the file before the partition or behind it changes.

* `FlatFile` — what the host's files are relied on for
* `seekTo_spec`, `readBlock_spec`, `writeBlock_spec` — one call
* `FileMedium.medium_is_window` — any run of calls
-/

namespace M68kMachine

open FlatImage

section Files

variable {φ : Type} [HostFile φ]

/-- Bytes and a position. A write changes at most the bytes it is about, and stores them unless it
fails. -/
structure FlatFile (content : φ → Nat → Byte) (position : φ → Nat) : Prop where
  seek : ∀ (f : φ) (off : Nat), content (HostFile.seek f off).2 = content f ∧
    ((HostFile.seek f off).1 = true → position (HostFile.seek f off).2 = off)
  read : ∀ (f : φ) (n : Nat), content (HostFile.readExact f n).2 = content f ∧
    ∀ v ∈ (HostFile.readExact f n).1, v = window (content f) (position f) n
  written : ∀ (f : φ) {n : Nat} (v : Vector Byte n), (HostFile.writeAll f v).1 = true →
    content (HostFile.writeAll f v).2 = splice (content f) (position f) v
  outside : ∀ (f : φ) {n : Nat} (v : Vector Byte n) (i : Nat),
    (i < position f ∨ position f + n ≤ i) → content (HostFile.writeAll f v).2 i = content f i

/-- A file that takes every position below `i64::MAX`, every read inside it and every write. -/
structure UnfailingFile (position size : φ → Nat) : Prop where
  seek : ∀ (f : φ) (off : Nat), size (HostFile.seek f off).2 = size f ∧
    (off < 2 ^ 63 → (HostFile.seek f off).1 = true)
  read : ∀ (f : φ) (n : Nat), size (HostFile.readExact f n).2 = size f ∧
    (position f + n ≤ size f → (HostFile.readExact f n).1.isSome)
  write : ∀ (f : φ) {n : Nat} (v : Vector Byte n), (HostFile.writeAll f v).1 = true ∧
    size f ≤ size (HostFile.writeAll f v).2

/-- A file in memory. It grows when it is written behind its end. -/
structure MemFile where
  bytes : Nat → Byte
  size : Nat
  position : Nat

instance : HostFile MemFile where
  seek f off := (true, { f with position := off })
  readExact f n :=
    if f.position + n ≤ f.size then
      (some (window f.bytes f.position n), { f with position := f.position + n })
    else (none, f)
  writeAll {n} f v :=
    (true, ⟨splice f.bytes f.position v, max f.size (f.position + n), f.position + n⟩)

theorem MemFile.flatFile : FlatFile MemFile.bytes MemFile.position where
  seek _ _ := ⟨rfl, fun _ => rfl⟩
  read f n := by
    unfold HostFile.readExact instHostFileMemFile
    dsimp only
    split
    · exact ⟨rfl, fun v hv => (Option.some.inj hv).symm⟩
    · exact ⟨rfl, fun v hv => nomatch hv⟩
  written _ _ _ _ := rfl
  outside f _ v _ h := splice_outside f.bytes v h

theorem MemFile.unfailingFile : UnfailingFile MemFile.position MemFile.size where
  seek _ _ := ⟨rfl, fun _ => rfl⟩
  read f n := by
    unfold HostFile.readExact instHostFileMemFile
    dsimp only
    split
    case isTrue => exact ⟨rfl, fun _ => rfl⟩
    case isFalse hend => exact ⟨rfl, fun h => absurd h hend⟩
  write _ _ _ := ⟨rfl, Nat.le_max_left _ _⟩

end Files

namespace FileMedium

variable {φ : Type}

/-- The bytes of the partition. -/
def partition (content : φ → Nat → Byte) (m : FileMedium φ) : Nat → Byte := fun i =>
  content m.file (m.baseLba * m.blockSize + i)

/-- The same partition of a file. -/
structure SameWindow (m m' : FileMedium φ) : Prop where
  blockSize : m'.blockSize = m.blockSize
  baseLba : m'.baseLba = m.baseLba
  lenBlocks : m'.lenBlocks = m.lenBlocks

variable [HostFile φ] {content : φ → Nat → Byte} {position : φ → Nat}

/-! ## One call -/

/-- What a seek does: the file is at the block, if there is such a block. -/
structure Seeks (content : φ → Nat → Byte) (position : φ → Nat) (m : FileMedium φ) (lba : Nat)
    (r : Except MediumError Unit × FileMedium φ) : Prop where
  same : SameWindow m r.2
  kept : content r.2.file = content m.file
  found : r.1 = .ok () → (∀ len ∈ m.lenBlocks, lba < len) ∧
    position r.2.file = (m.baseLba + lba) * m.blockSize

omit [HostFile φ] in
theorem abs_eq_ok {m : FileMedium φ} {lba a : Nat} (h : m.abs lba = .ok a) :
    (∀ len ∈ m.lenBlocks, lba < len) ∧ a = m.baseLba + lba := by
  unfold abs at h
  split at h
  case isTrue => cases h
  case isFalse hrange =>
    refine ⟨fun len hlen => Nat.lt_of_not_le fun hle => hrange ?_, ?_⟩
    · rw [Option.mem_def.mp hlen]
      exact decide_eq_true hle
    · unfold Checked.add at h
      by_cases hfits : m.baseLba + lba < u64Limit
      · rw [if_pos hfits] at h
        cases h
        rfl
      · rw [if_neg hfits] at h
        cases h

theorem seekTo_spec (h : FlatFile content position) (m : FileMedium φ) (lba : Nat) :
    Seeks content position m lba (m.seekTo lba) := by
  unfold seekTo
  cases habs : m.abs lba with
  | error e => exact ⟨⟨rfl, rfl, rfl⟩, rfl, fun hok => (nomatch hok)⟩
  | ok a =>
    obtain ⟨hrange, rfl⟩ := abs_eq_ok habs
    dsimp only
    unfold Checked.mul
    by_cases hfits : (m.baseLba + lba) * m.blockSize < u64Limit
    · rw [if_pos hfits]
      obtain ⟨hkept, hat⟩ := h.seek m.file ((m.baseLba + lba) * m.blockSize)
      refine ⟨⟨rfl, rfl, rfl⟩, hkept, fun hok => ⟨hrange, hat ?_⟩⟩
      by_contra hfailed
      dsimp only at hok
      rw [if_neg hfailed] at hok
      cases hok
    · rw [if_neg hfits]
      exact ⟨⟨rfl, rfl, rfl⟩, rfl, fun hok => (nomatch hok)⟩

/-- What reading a block does. -/
structure ReadsBlock (content : φ → Nat → Byte) (m : FileMedium φ) (lba n : Nat)
    (r : Except MediumError (Vector Byte n) × FileMedium φ) : Prop where
  same : SameWindow m r.2
  kept : content r.2.file = content m.file
  data : ∀ v, r.1 = .ok v → (∀ len ∈ m.lenBlocks, lba < len) ∧
    v = window (content m.file) ((m.baseLba + lba) * m.blockSize) n

theorem readBlock_spec (h : FlatFile content position) (m : FileMedium φ) (lba n : Nat) :
    ReadsBlock content m lba n (m.readBlock lba n) := by
  obtain ⟨hsame, hkept, hfound⟩ := seekTo_spec h m lba
  unfold readBlock
  generalize m.seekTo lba = r at hsame hkept hfound
  obtain ⟨res, m'⟩ := r
  cases res with
  | error e => exact ⟨hsame, hkept, fun _ hok => (nomatch hok)⟩
  | ok u =>
    obtain ⟨hrange, hat⟩ := hfound rfl
    obtain ⟨hread, hdata⟩ := h.read m'.file n
    refine ⟨⟨hsame.blockSize, hsame.baseLba, hsame.lenBlocks⟩, hread.trans hkept,
      fun v hok => ⟨hrange, ?_⟩⟩
    dsimp only at hok hat hkept
    rw [← hat, ← hkept]
    cases hanswer : (HostFile.readExact m'.file n).1 with
    | none =>
      rw [hanswer] at hok
      cases hok
    | some w =>
      rw [hanswer] at hok
      cases hok
      exact hdata v (by rw [hanswer]; rfl)

/-- What writing a block does. -/
structure WritesBlock (content : φ → Nat → Byte) (m : FileMedium φ) (lba : Nat) {n : Nat}
    (v : Vector Byte n) (r : Except MediumError Unit × FileMedium φ) : Prop where
  same : SameWindow m r.2
  stored : r.1 = .ok () → (∀ len ∈ m.lenBlocks, lba < len) ∧
    content r.2.file = splice (content m.file) ((m.baseLba + lba) * m.blockSize) v
  outside : ∀ i, (i < (m.baseLba + lba) * m.blockSize ∨ (m.baseLba + lba) * m.blockSize + n ≤ i) →
    content r.2.file i = content m.file i
  refused : ∀ len ∈ m.lenBlocks, len ≤ lba → content r.2.file = content m.file

theorem writeBlock_spec (h : FlatFile content position) (m : FileMedium φ) (lba : Nat) {n : Nat}
    (v : Vector Byte n) : WritesBlock content m lba v (m.writeBlock lba v) := by
  obtain ⟨hsame, hkept, hfound⟩ := seekTo_spec h m lba
  unfold writeBlock
  generalize m.seekTo lba = r at hsame hkept hfound
  obtain ⟨res, m'⟩ := r
  cases res with
  | error e =>
    exact ⟨hsame, fun hok => (nomatch hok), fun i _ => congrFun hkept i, fun _ _ _ => hkept⟩
  | ok u =>
    obtain ⟨hrange, hat⟩ := hfound rfl
    dsimp only at hat hkept
    refine ⟨⟨hsame.blockSize, hsame.baseLba, hsame.lenBlocks⟩, fun hok => ⟨hrange, ?_⟩,
      fun i hi => ?_, fun len hlen hle => ?_⟩
    · rw [← hat, ← hkept]
      refine h.written m'.file v ?_
      by_contra hfailed
      dsimp only at hok
      rw [if_neg hfailed] at hok
      cases hok
    · rw [← hat] at hi
      rw [← hkept]
      exact h.outside m'.file v i hi
    · exact absurd (hrange len hlen) (Nat.not_lt.mpr hle)

/-! ## A run -/

def answer {n : Nat} (m : FileMedium φ) : Request Byte n → Answer Byte n × FileMedium φ
  | .read lba =>
    match m.readBlock lba n with
    | (.ok v, m) => (.data v, m)
    | (.error _, m) => (.failed, m)
  | .write lba v =>
    match m.writeBlock lba v with
    | (.ok _, m) => (.stored, m)
    | (.error _, m) => (.failed, m)

def answers {n : Nat} : FileMedium φ → List (Request Byte n) →
    List (Request Byte n × Answer Byte n) × FileMedium φ
  | m, [] => ([], m)
  | m, req :: reqs =>
    let (ans, m') := m.answer req
    let (rest, m'') := answers m' reqs
    ((req, ans) :: rest, m'')

/-- Two states of a file have the same bytes around a partition of blocks of `n` bytes. -/
def SameAround (content : φ → Nat → Byte) (m : FileMedium φ) (n len : Nat) (f : φ) : Prop :=
  ∀ i, (i < m.baseLba * n ∨ (m.baseLba + len) * n ≤ i) → content f i = content m.file i

/-- What an answer to a request says of the partition. -/
structure Answers (content : φ → Nat → Byte) (m : FileMedium φ) (n len : Nat)
    (req : Request Byte n) (r : Answer Byte n × FileMedium φ) : Prop where
  same : SameWindow m r.2
  serves : Serves len n (partition content m) req r.1 (partition content r.2)
  around : SameAround content m n len r.2.file

omit [HostFile φ] in
theorem partition_congr {m m' : FileMedium φ} (hsame : SameWindow m m')
    (hkept : content m'.file = content m.file) : partition content m' = partition content m := by
  unfold partition
  rw [hsame.baseLba, hsame.blockSize, hkept]

variable {m : FileMedium φ} {n len : Nat}

theorem answer_read (h : FlatFile content position) (hsize : m.blockSize = n)
    (hlen : m.lenBlocks = some len) (lba : Nat) :
    Answers content m n len (.read lba) (m.answer (.read lba : Request Byte n)) := by
  obtain ⟨hsame, hkept, hdata⟩ := readBlock_spec h m lba n
  unfold answer
  dsimp only
  generalize m.readBlock lba n = r at hsame hkept hdata
  obtain ⟨res, m'⟩ := r
  have hpart := partition_congr hsame hkept
  have haround : SameAround content m n len m'.file := fun i _ => congrFun hkept i
  cases res with
  | error e =>
    refine ⟨hsame, ?_, haround⟩
    dsimp only
    rw [hpart]
    exact .noData
  | ok v =>
    obtain ⟨hrange, hv⟩ := hdata v rfl
    have hwindow : v = window (partition content m) (lba * n) n := by
      unfold partition
      rw [window_part, hv, hsize, Nat.add_mul]
    refine ⟨hsame, ?_, haround⟩
    dsimp only
    rw [hpart, hwindow]
    exact .data (hrange len hlen)

theorem answer_write (h : FlatFile content position) (hn : 0 < n) (hsize : m.blockSize = n)
    (hlen : m.lenBlocks = some len) (lba : Nat) (v : Vector Byte n) :
    Answers content m n len (.write lba v) (m.answer (.write lba v)) := by
  obtain ⟨hsame, hstored, houtside, hrefused⟩ := writeBlock_spec h m lba v
  unfold answer
  dsimp only
  generalize m.writeBlock lba v = r at hsame hstored houtside hrefused
  obtain ⟨res, m'⟩ := r
  dsimp only at hsame hstored houtside hrefused
  rw [hsize, Nat.add_mul] at hstored houtside
  have haround : SameAround content m n len m'.file := by
    intro i hi
    rcases Nat.lt_or_ge lba len with hlt | hge
    · refine houtside i ?_
      have hle := Nat.mul_le_mul_right n (Nat.succ_le_of_lt hlt)
      rw [Nat.succ_mul] at hle
      rw [Nat.add_mul] at hi
      omega
    · exact congrFun (hrefused len hlen hge) i
  cases res with
  | error e =>
    refine ⟨hsame, ?_, haround⟩
    rcases Nat.lt_or_ge lba len with hlt | hge
    · refine .damaged hlt fun i hi => ?_
      rw [Nat.mul_div_cancel lba hn] at hi
      have hout := EfiBlockDevice.outside_of_div_ne hn hi
      unfold partition
      dsimp only
      rw [hsame.baseLba, hsame.blockSize, hsize]
      exact houtside _ (by omega)
    · dsimp only
      rw [partition_congr hsame (hrefused len hlen hge)]
      exact .refused hge
  | ok u =>
    obtain ⟨hrange, hcontent⟩ := hstored rfl
    have hpart : partition content m' = splice (partition content m) (lba * n) v := by
      unfold partition
      rw [splice_part, hsame.baseLba, hsame.blockSize, hcontent, hsize]
    refine ⟨hsame, ?_, haround⟩
    dsimp only
    rw [hpart]
    exact .stored (hrange len hlen)

theorem answer_spec (h : FlatFile content position) (hn : 0 < n) (hsize : m.blockSize = n)
    (hlen : m.lenBlocks = some len) (req : Request Byte n) :
    Answers content m n len req (m.answer req) := by
  cases req with
  | read lba => exact answer_read h hsize hlen lba
  | write lba v => exact answer_write h hn hsize hlen lba v

/-! ## When an answer fails -/

variable {size : φ → Nat}

theorem seekTo_found (hu : UnfailingFile position size) (hn : 0 < n) (hsize : m.blockSize = n)
    (hlen : m.lenBlocks = some len) (hbound : (m.baseLba + len) * n < 2 ^ 63) {lba : Nat}
    (hlba : lba < len) : (m.seekTo lba).1 = .ok () := by
  have hrange : m.lenBlocks.any (· ≤ lba) = false := by
    rw [hlen]
    exact decide_eq_false (Nat.not_le.mpr hlba)
  have hle := Nat.mul_le_mul_right n (Nat.add_le_add_left hlba.le m.baseLba)
  have hself := Nat.le_mul_of_pos_right (m.baseLba + lba) hn
  have hlimit : 2 ^ 63 < u64Limit := by decide
  unfold seekTo abs
  rw [if_neg (by rw [hrange]; exact Bool.false_ne_true), Checked.add_of_lt (by omega)]
  dsimp only
  rw [hsize, Checked.mul_of_lt (by omega)]
  dsimp only
  rw [if_pos ((hu.seek _ _).2 (by omega))]

theorem size_seekTo (hu : UnfailingFile position size) (m : FileMedium φ) (lba : Nat) :
    size (m.seekTo lba).2.file = size m.file := by
  unfold seekTo
  split
  · rfl
  · split
    · rfl
    · exact (hu.seek _ _).1

theorem size_answer (hu : UnfailingFile position size) (m : FileMedium φ) (req : Request Byte n) :
    size m.file ≤ size (m.answer req).2.file := by
  cases req with
  | read lba =>
    have hseek := size_seekTo hu m lba
    unfold answer readBlock
    dsimp only
    generalize m.seekTo lba = r at hseek
    obtain ⟨res, m'⟩ := r
    cases res with
    | error e => exact hseek.ge
    | ok u =>
      have hread := (hu.read m'.file n).1.trans hseek
      dsimp only
      cases (HostFile.readExact m'.file n).1 <;> exact hread.ge
  | write lba v =>
    have hseek := size_seekTo hu m lba
    unfold answer writeBlock
    dsimp only
    generalize m.seekTo lba = r at hseek
    obtain ⟨res, m'⟩ := r
    cases res with
    | error e => exact hseek.ge
    | ok u =>
      have hwrite := hseek.ge.trans (hu.write m'.file v).2
      dsimp only
      rw [if_pos (hu.write m'.file v).1]
      exact hwrite

/-- A block of a partition that lies in its file is read and written. -/
theorem answer_found (h : FlatFile content position) (hu : UnfailingFile position size)
    (hn : 0 < n) (hsize : m.blockSize = n) (hlen : m.lenBlocks = some len)
    (hbound : (m.baseLba + len) * n < 2 ^ 63) (hfile : (m.baseLba + len) * n ≤ size m.file)
    {req : Request Byte n} (hreq : req.block < len) : (m.answer req).1 ≠ .failed := by
  cases req with
  | read lba =>
    have hok : (m.seekTo lba).1 = .ok () := seekTo_found hu hn hsize hlen hbound hreq
    have hseek := size_seekTo hu m lba
    have hat := ((seekTo_spec h m lba).found hok).2
    have hinside : (m.baseLba + lba) * n + n ≤ size m.file := by
      have hle := Nat.mul_le_mul_right n (Nat.succ_le_of_lt (Nat.add_lt_add_left hreq m.baseLba))
      rw [Nat.succ_mul] at hle
      exact hle.trans hfile
    unfold answer readBlock
    dsimp only
    generalize m.seekTo lba = r at hok hseek hat
    obtain ⟨res, m'⟩ := r
    dsimp only at hok hseek hat
    rw [hok]
    dsimp only
    have hread := (hu.read m'.file n).2 (by rw [hat, hsize, hseek]; exact hinside)
    obtain ⟨v, hv⟩ := Option.isSome_iff_exists.mp hread
    rw [hv]
    exact fun hfailed => nomatch hfailed
  | write lba v =>
    have hok : (m.seekTo lba).1 = .ok () := seekTo_found hu hn hsize hlen hbound hreq
    unfold answer writeBlock
    dsimp only
    generalize m.seekTo lba = r at hok
    obtain ⟨res, m'⟩ := r
    dsimp only at hok
    rw [hok]
    dsimp only
    rw [if_pos (hu.write m'.file v).1]
    exact fun hfailed => nomatch hfailed

theorem answers_found (h : FlatFile content position) (hu : UnfailingFile position size)
    (hn : 0 < n) (hsize : m.blockSize = n) (hlen : m.lenBlocks = some len)
    (hbound : (m.baseLba + len) * n < 2 ^ 63) (hfile : (m.baseLba + len) * n ≤ size m.file)
    (reqs : List (Request Byte n)) :
    ∀ a ∈ (m.answers reqs).1, a.1.block < len → a.2 ≠ .failed := by
  induction reqs generalizing m with
  | nil => exact fun a ha => absurd ha List.not_mem_nil
  | cons req reqs ih =>
    have hsame := (answer_spec h hn hsize hlen req).same
    have hbound' : ((m.answer req).2.baseLba + len) * n < 2 ^ 63 := by rwa [hsame.baseLba]
    have hfile' : ((m.answer req).2.baseLba + len) * n ≤ size (m.answer req).2.file := by
      rw [hsame.baseLba]
      exact hfile.trans (size_answer hu m req)
    intro a ha hblock
    rcases List.mem_cons.mp ha with rfl | ha
    · exact answer_found h hu hn hsize hlen hbound hfile hblock
    · exact ih (hsame.blockSize.trans hsize) (hsame.lenBlocks.trans hlen) hbound' hfile' a ha hblock

theorem served_answers (h : FlatFile content position) (hn : 0 < n) (hsize : m.blockSize = n)
    (hlen : m.lenBlocks = some len) (reqs : List (Request Byte n)) :
    Served len n (partition content m) (m.answers reqs).1 (partition content (m.answers reqs).2) ∧
      SameAround content m n len (m.answers reqs).2.file := by
  induction reqs generalizing m with
  | nil => exact ⟨.nil _, fun _ _ => rfl⟩
  | cons req reqs ih =>
    obtain ⟨hsame, hserves, haround⟩ := answer_spec h hn hsize hlen req
    obtain ⟨hserved, haround'⟩ :=
      ih (hsame.blockSize.trans hsize) (hsame.lenBlocks.trans hlen)
    refine ⟨.cons hserves hserved, fun i hi => ?_⟩
    refine (haround' i ?_).trans (haround i hi)
    rwa [hsame.baseLba]

/-- **A partition is a window of its image.** The answers to any requests are those of one flat
image of the partition's blocks, and no byte of the file changes before or behind it. When it lies
in its file and the host does not fail, no request for one of its blocks fails. -/
theorem medium_is_window (h : FlatFile content position) (hn : 0 < n) (hsize : m.blockSize = n)
    (hlen : m.lenBlocks = some len) (reqs : List (Request Byte n)) :
    Served len n (partition content m) (m.answers reqs).1 (partition content (m.answers reqs).2) ∧
      SameAround content m n len (m.answers reqs).2.file ∧
      ∀ size : φ → Nat, UnfailingFile position size → (m.baseLba + len) * n < 2 ^ 63 →
        (m.baseLba + len) * n ≤ size m.file →
        ∀ a ∈ (m.answers reqs).1, a.1.block < len → a.2 ≠ .failed := by
  obtain ⟨hserved, haround⟩ := served_answers h hn hsize hlen reqs
  exact ⟨hserved, haround, fun size hu hbound hfile =>
    answers_found h hu hn hsize hlen hbound hfile reqs⟩

/-- Two blocks of a small partition in the middle of a file. -/
def smallPartition : FileMedium MemFile := ⟨⟨fun i => BitVec.ofNat 8 i, 16, 0⟩, 2, 3, some 2⟩

/-- The block behind the partition is refused, and those in it are not. -/
theorem medium_is_window_small :
    let reqs : List (Request Byte 2) := [.write 2 #v[1, 1], .write 1 #v[2, 2], .read 1]
    let r := smallPartition.answers reqs
    r.1.map Prod.snd = [.failed, .stored, .data #v[2, 2]] ∧
      Served 2 2 (partition MemFile.bytes smallPartition) r.1 (partition MemFile.bytes r.2) ∧
      SameAround MemFile.bytes smallPartition 2 2 r.2.file ∧
      ∀ a ∈ r.1, a.1.block < 2 → a.2 ≠ .failed := by
  intro reqs r
  obtain ⟨hserved, haround, hfound⟩ :=
    medium_is_window MemFile.flatFile (by decide : 0 < 2) (m := smallPartition) rfl rfl reqs
  exact ⟨rfl, hserved, haround, hfound MemFile.size MemFile.unfailingFile (by decide) (by decide)⟩

end FileMedium

end M68kMachine
