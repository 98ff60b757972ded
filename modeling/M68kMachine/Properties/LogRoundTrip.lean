import M68kMachine.Hosted.ReplayLog

/-!
# A replay log is read back

Every record is read back, field by field. What keeps the records apart is that each reader takes
exactly the word its writer appended, and fails where a part of it is missing.
-/

namespace M68kMachine

namespace ReplayLog

open Reader

/-! ## Fields -/

theorem reads_readU8 (v : Byte) : Reads readU8 (writeU8 v) v :=
  (reads_takeExact LogError.unexpectedEof (w := writeU8 v) rfl).map _

/-- An integer of `n` bytes. -/
theorem reads_bytesBE {w n : Nat} (hw : w = 8 * n) (v : BitVec w) :
    Reads (ofBytesBE w <$> readExact n) (bytesBE n v) v := by
  have hmap := (reads_takeExact LogError.unexpectedEof (length_bytesBE n v)).map
    (ofBytesBE w)
  rwa [ofBytesBE_bytesBE n v (by rw [← hw]; exact v.isLt)] at hmap

theorem reads_readU16 (v : Word) : Reads readU16 (writeU16 v) v :=
  reads_bytesBE (n := 2) rfl v

theorem reads_readU32 (v : Long) : Reads readU32 (writeU32 v) v :=
  reads_bytesBE (n := 4) rfl v

theorem reads_readU64 (v : Quad) : Reads readU64 (writeU64 v) v :=
  reads_bytesBE (n := 8) rfl v

theorem reads_readCount {n : Nat} (h : n < 2 ^ 64) : Reads readCount (writeCount n) n := by
  have hmap := (reads_readU64 (BitVec.ofNat 64 n)).map BitVec.toNat
  rwa [BitVec.toNat_ofNat, Nat.mod_eq_of_lt h] at hmap

theorem reads_readTable (table : PageTable) : Reads readTable (writeTable table) table := by
  have hlen : (writeTable table).length = pageCount := by
    rw [writeTable, List.length_ofFn]
  have hmap := (reads_takeExact LogError.unexpectedEof hlen).map
    fun bytes (i : Fin pageCount) => PageType.fromCode (bytes.getD i 0)
  have htable : (fun i : Fin pageCount => PageType.fromCode ((writeTable table).getD i 0)) =
      table := by
    funext i
    have hi : i.val < (writeTable table).length := by rw [hlen]; exact i.isLt
    rw [List.getD_eq_getElem?_getD, List.getElem?_eq_getElem hi, Option.getD_some]
    simp only [writeTable, List.getElem_ofFn, PageType.fromCode_toCode]
  rwa [htable] at hmap

theorem reads_readRegs (regs : Regs) : Reads readRegs (writeRegs regs) regs := by
  unfold writeRegs
  rw [List.append_assoc, List.append_assoc]
  exact (Reads.vector reads_readU32 regs.d).bind <| (Reads.vector reads_readU32 regs.a).bind <|
    (reads_readU32 regs.pc).bind <| (reads_readU16 regs.sr).bind_pure _

/-! ## Records -/

/-- The record of an access, whichever it is. -/
theorem reads_readIo (access : Nat → Long → Nat → Long → Event) {ordinal width : Nat}
    (addr value : Long) (hordinal : ordinal < 2 ^ 64) (hwidth : width < 2 ^ 8) :
    Reads (readIo access)
      (writeCount ordinal ++ (writeU32 addr ++ (writeU8 (BitVec.ofNat 8 width) ++ writeU32 value)))
      (access ordinal addr width value) := by
  have hbyte : (BitVec.ofNat 8 width).toNat = width := by
    rw [BitVec.toNat_ofNat, Nat.mod_eq_of_lt hwidth]
  have hread : Reads (readIo access) _ (access ordinal addr (BitVec.ofNat 8 width).toNat value) :=
    (reads_readCount hordinal).bind <| (reads_readU32 addr).bind <|
      (reads_readU8 (BitVec.ofNat 8 width)).bind <| (reads_readU32 value).bind_pure _
  rwa [hbyte] at hread

/-- The length that was written is the length of the payload behind it. -/
theorem reads_payload {bytes : List Byte} (h : bytes.length < 2 ^ 32) :
    Reads (readExact (BitVec.ofNat 32 bytes.length).toNat) bytes bytes := by
  rw [BitVec.toNat_ofNat, Nat.mod_eq_of_lt h]
  exact reads_takeExact LogError.unexpectedEof rfl

/-- A record is a tag, and what the reader of the tag takes off the rest gives the event. -/
theorem reads_body {ev : Event} (h : ev.Fits) :
    ∃ tag body, writeEvent ev = tag :: body ∧ Reads (readBody tag) body ev := by
  -- One case per kind of record; the fields are read in the order they were written.
  cases ev with
  | ioRead ordinal addr width value =>
    refine ⟨tagIoRead, _, ?_, reads_readIo .ioRead addr value h.1 h.2⟩
    simp only [writeEvent, writeU8, List.append_assoc, List.cons_append, List.nil_append]
  | ioWrite ordinal addr width value =>
    refine ⟨tagIoWrite, _, ?_, reads_readIo .ioWrite addr value h.1 h.2⟩
    simp only [writeEvent, writeU8, List.append_assoc, List.cons_append, List.nil_append]
  | iplChange ordinal level =>
    exact ⟨tagIplChange, _, rfl, (reads_readCount h).bind <| (reads_readU8 level).bind_pure _⟩
  | deviceWrite ordinal addr bytes =>
    refine ⟨tagDeviceWrite, _, ?_, (reads_readCount h.1).bind <| (reads_readU32 addr).bind <|
      (reads_readU32 _).bind <| (reads_payload h.2).bind_pure _⟩
    simp only [writeEvent, writeU8, List.append_assoc, List.cons_append, List.nil_append]
  | classificationTransition ordinal table =>
    exact ⟨tagClassificationTransition, _, rfl,
      (reads_readCount h).bind <| (reads_readTable table).bind_pure _⟩
  | checkpoint ordinal regs =>
    exact ⟨tagCheckpoint, _, rfl, (reads_readCount h).bind <| (reads_readRegs regs).bind_pure _⟩
  | finish ordinal totalInstructions regs chipRamDigest fastRamDigest =>
    refine ⟨tagEnd, _, ?_, (reads_readCount h.1).bind <| (reads_readCount h.2).bind <|
      (reads_readRegs regs).bind <| (reads_readU64 chipRamDigest).bind <|
        (reads_readU64 fastRamDigest).bind_pure _⟩
    simp only [writeEvent, writeU8, List.append_assoc, List.cons_append, List.nil_append]

/-- One record, and nothing of it that is not the whole of it. -/
theorem readsRecord {ev : Event} (h : ev.Fits) : ReadsRecord readEvent (writeEvent ev) ev := by
  obtain ⟨tag, body, hword, hbody⟩ := reads_body h
  rw [hword]
  refine ⟨Nat.succ_pos _, fun rest => ?_, fun n hpos hn => ?_⟩
  · show some <$> (readBody tag).run (body ++ rest) = _
    rw [hbody.whole]
    rfl
  -- The cut leaves the tag, so it is the body that is cut short.
  · obtain ⟨m, rfl⟩ := Nat.exists_eq_succ_of_ne_zero (Nat.ne_of_gt hpos)
    obtain ⟨e, he⟩ := hbody.cut m (Nat.lt_of_succ_lt_succ hn)
    refine ⟨e, ?_⟩
    show some <$> (readBody tag).run (body.take m) = _
    rw [he]
    rfl

/-! ## Logs -/

/-- **The log format round-trips.** What `write_event` appended is read back, and then the end is
clean. Of a log cut short exactly the whole events are read, and the end is clean exactly where the
cut lies between two. -/
theorem log_round_trips {events : List Event} (hfits : ∀ ev ∈ events, ev.Fits) :
    readLog (writeLog events) = (events, .clean) ∧
      ∀ n < (writeLog events).length, ∃ k < events.length,
        (writeLog (events.take k)).length ≤ n ∧ n < (writeLog (events.take (k + 1))).length ∧
        (readLog ((writeLog events).take n)).1 = events.take k ∧
        ((readLog ((writeLog events).take n)).2 = .clean ↔
          n = (writeLog (events.take k)).length) :=
  have hrecord : ∀ ev ∈ events, ReadsRecord readEvent (writeEvent ev) ev :=
    fun ev hev => readsRecord (hfits ev hev)
  ⟨readAll_flatMap rfl hrecord, fun _ hn => readAll_take rfl hrecord hn⟩

/-- A change of the interrupt level and the end of a payload. -/
theorem log_round_trips_two :
    readLog (writeLog [.iplChange 3 6, .deviceWrite 4 0x100 [1, 2]]) =
      ([.iplChange 3 6, .deviceWrite 4 0x100 [1, 2]], .clean) :=
  (log_round_trips (by
    intro ev hev
    rcases List.mem_pair.mp hev with rfl | rfl
    · show 3 < 2 ^ 64
      decide
    · exact ⟨by decide, by decide⟩)).1

end ReplayLog

end M68kMachine
