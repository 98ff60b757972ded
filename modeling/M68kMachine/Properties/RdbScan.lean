import M68kMachine.Properties.EfiStorage

/-!
# The disk the board serves

The scan hands over the first medium that carries a Rigid Disk Block, and leaves it as it was.

* `asked`, `Readable` — the sectors of one medium, read one after the other
* `probeFrom_spec` — looking through the sectors of one medium
* `find_rdb_disk_first` — the scan, handle by handle
-/

namespace M68kMachine

open FlatImage

/-- The image has the signature at the start of a sector. -/
def MagicAt (img : Nat → Byte) (lba : Nat) : Prop :=
  (List.range 4).map (fun j => img (lba * sectorBytes + j)) = rdskMagic

instance (img : Nat → Byte) (lba : Nat) : Decidable (MagicAt img lba) :=
  inferInstanceAs (Decidable (_ = _))

namespace RdbScan

open EfiBlockDevice

variable {ι : Type} [BlockIo ι] {content : ι → Nat → Byte}

theorem take_window (img : Nat → Byte) (off : Nat) :
    (window img off sectorBytes).toList.take 4 = (List.range 4).map fun j => img (off + j) := by
  apply List.ext_getElem
  · simp [sectorBytes]
  · intro j hj hj'
    simp [window]

/-- A device and a buffer after the sectors below `n` were read, or could not be. -/
def asked (d : EfiBlockDevice ι) : Nat → Sector × EfiBlockDevice ι
  | 0 => (zeroSector, d)
  | n + 1 =>
    let (probe, d) := asked d n
    (d.readSector (BitVec.ofNat 64 n) probe).2

/-- Sector `lba` can be read, when it is its turn. -/
def Readable (d : EfiBlockDevice ι) (lba : Nat) : Prop :=
  ((asked d lba).2.readSector (BitVec.ofNat 64 lba) (asked d lba).1).1 = true

/-- What is found was read, nothing is written, and only an unreadable sector hides a signature. -/
theorem probeFrom_spec (h : BlockMedium content) {d₀ : EfiBlockDevice ι} (n : Nat) :
    ∀ {lba : Nat} {d d' : EfiBlockDevice ι} {probe : Sector} {found : Option Nat}, d.Fits →
      asked d₀ lba = (probe, d) → lba + n ≤ d.sectorCount.toNat →
      probeFrom n lba d probe = (found, d') →
      SameShape d d' ∧ content d'.io = content d.io ∧
        (∀ l, found = some l →
          lba ≤ l ∧ l < lba + n ∧ MagicAt (content d.io) l ∧ Readable d₀ l) ∧
        (found = none →
          ∀ l, lba ≤ l → l < lba + n → MagicAt (content d.io) l → ¬Readable d₀ l) := by
  induction n with
  | zero =>
    intro lba d d' probe found _ _ _ hprobe
    cases hprobe
    exact ⟨.refl d, rfl, nofun, fun _ l hle hlt => by omega⟩
  | succ n ih =>
    intro lba d d' probe found hfits hasked hcount hprobe
    have hbound := d.sectorCount.isLt
    have hlba : (BitVec.ofNat 64 lba : Quad).toNat = lba := by
      rw [BitVec.toNat_ofNat]
      exact Nat.mod_eq_of_lt (by omega)
    have hreadable : Readable d₀ lba ↔ (d.readSector (BitVec.ofNat 64 lba) probe).1 = true := by
      unfold Readable
      rw [hasked]
    have hnext : asked d₀ (lba + 1) = (d.readSector (BitVec.ofNat 64 lba) probe).2 := by
      simp only [asked, hasked]
    unfold probeFrom at hprobe
    split at hprobe
    · rename_i s d₁ hread
      obtain ⟨hshape, hkept, -⟩ := readSector_spec h hfits hread
      rw [hread] at hreadable hnext
      obtain ⟨hshape', hkept', hfound, hmissed⟩ :=
        ih (hfits.of_same hshape) hnext (by rw [hshape.count]; omega) hprobe
      rw [hkept] at hkept' hfound hmissed
      refine ⟨hshape.trans hshape', hkept', fun l hl => ?_, fun hnone l hle hlt hmagic => ?_⟩
      · obtain ⟨hle, hlt, hmagic⟩ := hfound l hl
        exact ⟨by omega, by omega, hmagic⟩
      · rcases Nat.eq_or_lt_of_le hle with rfl | hlater
        · exact fun hr => Bool.false_ne_true (hreadable.mp hr)
        · exact hmissed hnone l hlater (by omega) hmagic
    · rename_i s d₁ hread
      obtain ⟨hshape, hkept, hmoved⟩ := readSector_spec h hfits hread
      rw [hread] at hreadable hnext
      obtain ⟨-, hs⟩ := hmoved rfl
      have hmagic : s.toList.take 4 = rdskMagic ↔ MagicAt (content d.io) lba := by
        rw [hs, hlba]
        exact Eq.congr_left (take_window _ _)
      split at hprobe
      · rename_i hsig
        cases hprobe
        refine ⟨hshape, hkept, fun l hl => ?_, nofun⟩
        cases hl
        exact ⟨Nat.le_refl _, by omega, hmagic.mp hsig, hreadable.mpr rfl⟩
      · rename_i hsig
        obtain ⟨hshape', hkept', hfound, hmissed⟩ :=
          ih (hfits.of_same hshape) hnext (by rw [hshape.count]; omega) hprobe
        rw [hkept] at hkept' hfound hmissed
        refine ⟨hshape.trans hshape', hkept', fun l hl => ?_, fun hnone l hle hlt hm => ?_⟩
        · obtain ⟨hle, hlt, hm⟩ := hfound l hl
          exact ⟨by omega, by omega, hm⟩
        · rcases Nat.eq_or_lt_of_le hle with rfl | hlater
          · exact absurd (hmagic.mpr hm) hsig
          · exact hmissed hnone l hlater (by omega) hm

/-- On a firmware whose reads do not fail, every sector that is there can be read. -/
theorem readable_of_unfailing (h : BlockMedium content) (hun : UnfailingReads ι)
    {d : EfiBlockDevice ι} (hfits : d.Fits) {lba : Nat} (hlba : lba < d.sectorCount.toNat) :
    Readable d lba := by
  have hasked : ∀ n, SameShape d (asked d n).2 := by
    intro n
    induction n with
    | zero => exact .refl d
    | succ n ih =>
      exact ih.trans (readSector_spec h (hfits.of_same ih) rfl).1
  have hshape := hasked lba
  have hbound := d.sectorCount.isLt
  refine readSector_ok hun (hfits.of_same hshape) ?_ _
  rw [hshape.count, BitVec.toNat_ofNat, Nat.mod_eq_of_lt (by omega)]
  exact hlba

/-- The signature is in one of the first sixteen sectors that can be read. -/
def Carries (content : ι → Nat → Byte) (io : ι) : Prop :=
  (BlockIo.media io).mediaPresent = true ∧ ∃ d, EfiBlockDevice.new io = .ok d ∧
    ∃ lba, lba < 16 ∧ lba < d.sectorCount.toNat ∧ MagicAt (content io) lba ∧ Readable d lba

/-- The device serves that medium, with nothing of it changed. -/
structure ServesMedium (content : ι → Nat → Byte) (io : ι) (device : EfiBlockDevice ι) : Prop where
  carries : Carries content io
  fits : device.Fits
  media : BlockIo.media device.io = BlockIo.media io
  kept : content device.io = content io

theorem examine_spec (h : BlockMedium content) {index : Nat} {handle : Except String ι}
    {found : Option (EfiBlockDevice ι)} {line : String}
    (hexamine : examine index handle = (found, line)) :
    (∀ device, found = some device → ∃ io, handle = .ok io ∧ ServesMedium content io device) ∧
      (found = none → ∀ io, handle = .ok io → ¬Carries content io) := by
  unfold examine at hexamine
  split at hexamine
  · cases hexamine
    exact ⟨nofun, fun _ io hio => nomatch hio⟩
  rename_i io
  dsimp only at hexamine
  split at hexamine
  · rename_i habsent
    cases hexamine
    refine ⟨nofun, ?_⟩
    rintro - _ ⟨⟩ ⟨hpresent, -⟩
    rw [habsent] at hpresent
    cases hpresent
  rename_i hpresent
  have hpresent := Bool.eq_true_of_not_eq_false hpresent
  split at hexamine
  · rename_i reason hnew
    cases hexamine
    refine ⟨nofun, ?_⟩
    rintro - _ ⟨⟩ ⟨-, d, hd, -⟩
    rw [hnew] at hd
    cases hd
  rename_i d hnew
  obtain ⟨hfits, rfl⟩ := fits_new hnew
  have hlimit : 0 + min rdbLocationLimit d.sectorCount.toNat ≤ d.sectorCount.toNat := by omega
  have hsixteen : rdbLocationLimit = 16 := rfl
  split at hexamine
  · rename_i lba d' hprobe
    obtain ⟨hshape, hkept, hfound, -⟩ := probeFrom_spec h _ hfits rfl hlimit hprobe
    obtain ⟨-, hlt, hmagic⟩ := hfound lba rfl
    cases hexamine
    refine ⟨?_, nofun⟩
    rintro _ ⟨⟩
    exact ⟨d.io, rfl, ⟨hpresent, d, hnew, lba, by omega, by omega, hmagic⟩, hfits.of_same hshape,
      hshape.media, hkept⟩
  · rename_i d' hprobe
    obtain ⟨-, -, -, hmissed⟩ := probeFrom_spec h _ hfits rfl hlimit hprobe
    cases hexamine
    refine ⟨nofun, ?_⟩
    rintro - _ ⟨⟩ ⟨-, d₀, hd₀, lba, hlow, hlt, hmagic, hreadable⟩
    rw [hnew] at hd₀
    cases hd₀
    exact hmissed rfl lba (Nat.zero_le _) (by omega) hmagic hreadable

/-- What the scan of the handles from one on comes to. -/
inductive Scanned (content : ι → Nat → Byte) (handles : List (Except String ι)) :
    RdbScan ι → Nat → Prop
  /-- The first medium that carries one is served, and the handles after it are not looked at. -/
  | found {before after : List (Except String ι)} {io : ι} {device : EfiBlockDevice ι}
      {log : List String} (hsplit : handles = before ++ .ok io :: after)
      (hfirst : ∀ io', .ok io' ∈ before → ¬Carries content io')
      (hserves : ServesMedium content io device) :
      Scanned content handles ⟨some device, log⟩ (before.length + 1)
  | none {log : List String} (hnone : ∀ io, .ok io ∈ handles → ¬Carries content io) :
      Scanned content handles ⟨none, log⟩ (handles.length + 1)

theorem scanFrom_spec (h : BlockMedium content) (handles : List (Except String ι)) :
    ∀ (index : Nat) (log : List String), ∃ lines,
      Scanned content handles (scanFrom index handles log) lines ∧
        (scanFrom index handles log).log.length = log.length + lines := by
  induction handles with
  | nil =>
    exact fun _ log => ⟨1, .none fun io hio => absurd hio List.not_mem_nil, by simp [scanFrom]⟩
  | cons handle rest ih =>
    intro index log
    unfold scanFrom
    split
    · rename_i device line hexamine
      obtain ⟨io, rfl, hserves⟩ := (examine_spec h hexamine).1 device rfl
      have hsplit : Except.ok io :: rest = [] ++ Except.ok io :: rest := rfl
      exact ⟨1, .found hsplit (fun _ hmem => absurd hmem List.not_mem_nil) hserves, by simp⟩
    · rename_i line hexamine
      have hskipped := (examine_spec h hexamine).2 rfl
      obtain ⟨lines, hscanned, hlength⟩ := ih (index + 1) (log ++ [line])
      refine ⟨lines + 1, ?_, by rw [hlength]; simp; omega⟩
      generalize scanFrom (index + 1) rest (log ++ [line]) = r at hscanned
      cases hscanned with
      | found hsplit hfirst hserves =>
        rename_i before after io device log'
        have hsplit' : handle :: rest = (handle :: before) ++ .ok io :: after := by
          rw [hsplit]
          rfl
        refine .found hsplit' ?_ hserves
        intro io' hmem
        rcases List.mem_cons.mp hmem with hhead | hmem
        · exact hskipped io' hhead.symm
        · exact hfirst io' hmem
      | none hnone =>
        refine .none fun io hmem => ?_
        rcases List.mem_cons.mp hmem with hhead | hmem
        · exact hskipped io hhead.symm
        · exact hnone io hmem

/-- **The scan.** The disk handed over is the first medium in the firmware's order that carries a
Rigid Disk Block where it can be read, unchanged, and is then served from its flat image; there is
none only when no medium carries one. The log has a line for each handle looked at, and one more
when there is none. A sector that cannot be read hides nothing else. -/
theorem find_rdb_disk_first (h : BlockMedium content) (handles : List (Except String ι)) :
    Scanned content handles (findRdbDisk (.ok handles)) (findRdbDisk (.ok handles)).log.length ∧
      ∀ device, (findRdbDisk (.ok handles)).device = some device →
        ∃ io, .ok io ∈ handles ∧ Carries content io ∧ ∀ ops,
          Served device.sectorCount.toNat device.unit (content io) (device.answers ops).1
            (content (device.answers ops).2.io) := by
  obtain ⟨lines, hscanned, hlength⟩ := scanFrom_spec h handles 0 []
  have hlines : (findRdbDisk (.ok handles)).log.length = lines := by
    simpa [findRdbDisk] using hlength
  rw [hlines]
  refine ⟨hscanned, ?_⟩
  change Scanned content handles (findRdbDisk (.ok handles)) lines at hscanned
  intro device hdevice
  generalize findRdbDisk (.ok handles) = r at hscanned hdevice
  cases hscanned with
  | found hsplit hfirst hserves =>
    cases hdevice
    obtain ⟨hcarries, hfits, -, hkept⟩ := hserves
    refine ⟨_, by rw [hsplit]; exact List.mem_append_right _ List.mem_cons_self, hcarries,
      fun ops => ?_⟩
    rw [← hkept]
    exact served_answers h ops hfits
  | none hnone => cases hdevice

/-- Past a handle that does not open. -/
theorem find_rdb_disk_first_large :
    ∃ device, (findRdbDisk (.ok [.error "ACCESS_DENIED", .ok MemMedium.large])).device =
      some device ∧ device.io.bytes = MemMedium.large.bytes := by
  have hcarries : Carries MemMedium.bytes MemMedium.large := by
    obtain ⟨d, hnew, hcount⟩ := EfiBlockDevice.new_large
    have hfits := fits_new hnew
    have hreadable := readable_of_unfailing MemMedium.blockMedium MemMedium.unfailingReads hfits.1
      (show 3 < d.sectorCount.toNat by omega)
    exact ⟨rfl, d, hnew, 3, by decide, by omega, by decide, hreadable⟩
  obtain ⟨hscanned, -⟩ :=
    find_rdb_disk_first MemMedium.blockMedium [.error "ACCESS_DENIED", .ok MemMedium.large]
  generalize findRdbDisk (.ok [.error "ACCESS_DENIED", .ok MemMedium.large]) = r at hscanned
  generalize r.log.length = lines at hscanned
  cases hscanned with
  | none hnone => exact absurd hcarries (hnone _ (by simp))
  | found hsplit hfirst hserves =>
    rename_i before after io device log
    have hmem : Except.ok io ∈ [.error "ACCESS_DENIED", .ok MemMedium.large] := by
      rw [hsplit]
      simp
    obtain rfl : io = MemMedium.large := by simpa using hmem
    exact ⟨device, rfl, hserves.kept⟩

end RdbScan

end M68kMachine
