import Repiu.Exe.ExecutableHeaders

/-!
# The grammar of fixup records

What `AnalyzeLeFixups` and `DecodeLeFixupRecords` accept: the page table cuts the record
table into slices, and every slice is a row of whole records.  The decoded records spell the
record table again.
-/

namespace Repiu.Exe

/-! ## Bytes of the file -/

/-- The bytes at 32-bit file offsets from an offset on. -/
def fileBytes (data : List Byte) (offset : Word) (count : ℕ) : List Byte :=
  (List.range count).map fun k => readU8 data (offset + BitVec.ofNat 32 k)

@[simp] theorem fileBytes_length (data : List Byte) (offset : Word) (count : ℕ) :
    (fileBytes data offset count).length = count := by
  rw [fileBytes, List.length_map, List.length_range]

theorem fileBytes_add (data : List Byte) (offset : Word) (m n : ℕ) :
    fileBytes data offset (m + n) = fileBytes data offset m ++ fileBytes data (offset + BitVec.ofNat 32 m) n := by
  unfold fileBytes
  rw [List.range_add, List.map_append, List.map_map]
  congr 1
  apply List.map_congr_left
  intro k _
  show readU8 data (offset + BitVec.ofNat 32 (m + k)) = _
  rw [BitVec.ofNat_add, BitVec.add_assoc]

theorem fileBytes_getElem? (data : List Byte) (offset : Word) {count k : ℕ} (hk : k < count) :
    (fileBytes data offset count)[k]? = some (readU8 data (offset + BitVec.ofNat 32 k)) := by
  rw [fileBytes, List.getElem?_map, List.getElem?_range hk, Option.map_some]

/-- A part of the bytes of a table. -/
theorem fileBytes_slice (data : List Byte) (offset : Word) {first last count : ℕ} (hfirst : first ≤ last)
    (hlast : last ≤ count) :
    ((fileBytes data offset count).take last).drop first =
      fileBytes data (offset + BitVec.ofNat 32 first) (last - first) := by
  have hcount : count = first + (last - first) + (count - last) := by omega
  rw [hcount, fileBytes_add, fileBytes_add]
  have hlength : (fileBytes data offset first ++
      fileBytes data (offset + BitVec.ofNat 32 first) (last - first)).length = last := by
    rw [List.length_append, fileBytes_length, fileBytes_length]
    omega
  rw [List.take_left' hlength, List.drop_left' (fileBytes_length _ _ _)]

/-! ## The grammar -/

/-- A whole record: its flags say whether the target offset has two bytes or four.  The source type
is not looked at. -/
def WellFormedRecord (bytes : List Byte) : Prop :=
  (bytes[1]? = some 0x00 ∧ bytes.length = 7) ∨ (bytes[1]? = some 0x10 ∧ bytes.length = 9)

/-- A row of whole records. -/
def WellFormedSlice (bytes : List Byte) : Prop :=
  ∃ records : List (List Byte), (∀ record ∈ records, WellFormedRecord record) ∧ bytes = records.flatten

/-- The bytes of a record. -/
def encodeRecord (record : LeFixupRecord) : List Byte :=
  [record.sourceType, record.targetFlags] ++ le16 record.sourceOffset ++ [record.targetObject.setWidth 8] ++
    if record.targetFlags &&& 0x10 ≠ 0 then le32 record.targetOffset else le16 (record.targetOffset.setWidth 16)

section
variable (data : List Byte) (header : LeHeader)

/-- Where the record table begins in the file. -/
def recordTableOffset : Word := header.fileOffset + header.fixupRecordTableOffset

/-- The size of the record table. -/
def recordTableSize : Word := header.importModuleNameTableOffset - header.fixupRecordTableOffset

/-- The record table. -/
def recordTable : List Byte := fileBytes data (recordTableOffset header) (recordTableSize header).toNat

/-- The page table. -/
def pageTable : List Word :=
  (List.range (header.pageCount.toNat + 1)).map fun index =>
    readLe32 data (pageOffsetAt (header.fileOffset + header.fixupPageTableOffset) index)

/-- The part of the record table that belongs to a page. -/
def pageSlice (page : ℕ) : List Byte :=
  ((recordTable data header).take ((pageTable data header).getD (page + 1) 0).toNat).drop
    ((pageTable data header).getD page 0).toNat

/-- Both tables come in order and lie inside the file. -/
structure TablesInFile : Prop where
  records_after_pages : header.fixupPageTableOffset ≤ header.fixupRecordTableOffset
  imports_after_records : header.fixupRecordTableOffset ≤ header.importModuleNameTableOffset
  pages_addressed : (header.pageCount.toNat + 1) * 4 ≤ 0xFFFFFFFF
  pages_inside :
    (header.fileOffset + header.fixupPageTableOffset).toNat + (header.pageCount.toNat + 1) * 4 ≤ data.length
  records_inside : (recordTableOffset header).toNat + (recordTableSize header).toNat ≤ data.length

/-- The page table rises through the whole record table, and every slice is a row of records. -/
structure FixupGrammar : Prop where
  monotone : (pageTable data header).Pairwise (· ≤ ·)
  within : ∀ offset ∈ pageTable data header, offset ≤ recordTableSize header
  first : (pageTable data header).head? = some 0
  last : (pageTable data header).getLast? = some (recordTableSize header)
  slices : ∀ page < header.pageCount.toNat, WellFormedSlice (pageSlice data header page)

/-- Analysis and decoding, as the loader runs them. -/
def decodeFixups : Except ParseError LeFixupRecordInfo :=
  match analyzeLeFixups data header with
  | .error e => .error e
  | .ok info => decodeLeFixupRecords data header info

end

/-! ## One record -/

theorem supportedFlags_iff : ∀ flags : Byte,
    ¬(¬flags &&& 0x03 = 0 ∨ flags &&& ~~~0x10 ≠ 0) ↔ flags = 0x00 ∨ flags = 0x10 := by decide +kernel

section
variable {data : List Byte} {recordTable pageIndex cursor remaining : Word}

/-- The bytes of a record that has been read, in front of its target offset. -/
theorem recordPrefix_eq (data : List Byte) (offset : Word) :
    [readU8 data offset, readU8 data (offset + 1)] ++ le16 (readLe16 data (offset + 2)) ++
        [((readU8 data (offset + 4)).setWidth 32 : Word).setWidth 8] = fileBytes data offset 5 := by
  rw [readLe16, le16_append, BitVec.setWidth_setWidth_of_le _ (by decide), BitVec.setWidth_eq, BitVec.add_assoc]
  simp [fileBytes, List.range_succ]

theorem targetOffset32_eq (data : List Byte) (offset : Word) :
    le32 (readLe32 data offset) = fileBytes data offset 4 := by
  rw [readLe32, le32_word32]
  simp [fileBytes, List.range_succ]

theorem targetOffset16_eq (data : List Byte) (offset : Word) :
    le16 (((readLe16 data offset).setWidth 32 : Word).setWidth 16) = fileBytes data offset 2 := by
  rw [BitVec.setWidth_setWidth_of_le _ (by decide), BitVec.setWidth_eq, readLe16, le16_append]
  simp [fileBytes, List.range_succ]

/-- A decoded record spells the bytes that it was read from. -/
theorem encode_decodeRecord {record : LeFixupRecord}
    (h : decodeRecord data recordTable pageIndex cursor remaining = .ok record) :
    record.pageIndex = pageIndex ∧ WellFormedRecord (encodeRecord record) ∧
      encodeRecord record = fileBytes data (recordTable + cursor) record.recordSize.toNat := by
  obtain ⟨offset, hoffset⟩ : ∃ offset, offset = recordTable + cursor := ⟨_, rfl⟩
  unfold decodeRecord at h
  dsimp only at h
  rw [← hoffset] at h ⊢
  have hprefix := recordPrefix_eq data offset
  split_ifs at h with hshort hflags hwide hsize hsize
  · rw [supportedFlags_iff] at hflags
    have hten : readU8 data (offset + 1) = 0x10 := by
      rcases hflags with hzero | hten
      · rw [hzero] at hwide
        exact absurd rfl hwide
      · exact hten
    rw [Except.ok.injEq] at h
    have hspell : encodeRecord record = fileBytes data offset 9 := by
      rw [fileBytes_add data offset 5 4, ← hprefix, ← targetOffset32_eq, ← h]
      exact congrArg _ (if_pos hwide)
    rw [hspell, ← h]
    refine ⟨rfl, Or.inr ⟨?_, fileBytes_length _ _ _⟩, rfl⟩
    exact (fileBytes_getElem? data offset (by decide)).trans (congrArg some hten)
  · rw [supportedFlags_iff] at hflags
    have hzero : readU8 data (offset + 1) = 0x00 := by
      rcases hflags with hzero | hten
      · exact hzero
      · rw [hten] at hwide
        exact absurd (by decide) hwide
    rw [Except.ok.injEq] at h
    have hspell : encodeRecord record = fileBytes data offset 7 := by
      rw [fileBytes_add data offset 5 2, ← hprefix, ← targetOffset16_eq, ← h]
      exact congrArg _ (if_neg hwide)
    rw [hspell, ← h]
    refine ⟨rfl, Or.inl ⟨?_, fileBytes_length _ _ _⟩, rfl⟩
    exact (fileBytes_getElem? data offset (by decide)).trans (congrArg some hzero)

/-- Where the bytes begin with a whole record, one of its size is decoded. -/
theorem decodeRecord_of_wellFormed {bytes rest : List Byte} (hbytes : WellFormedRecord bytes)
    (h : fileBytes data (recordTable + cursor) remaining.toNat = bytes ++ rest) :
    ∃ record, decodeRecord data recordTable pageIndex cursor remaining = .ok record ∧
      record.recordSize.toNat = bytes.length := by
  have hlength := congrArg List.length h
  rw [fileBytes_length, List.length_append] at hlength
  have hseven : 7 ≤ remaining.toNat := by
    rcases hbytes with ⟨-, hsize⟩ | ⟨-, hsize⟩ <;> omega
  have hflag := fileBytes_getElem? data (recordTable + cursor) (show 1 < remaining.toNat by omega)
  rw [h, List.getElem?_append_left (by rcases hbytes with ⟨-, hsize⟩ | ⟨-, hsize⟩ <;> omega)] at hflag
  unfold decodeRecord
  dsimp only
  have hshort : ¬remaining < 4 := by
    rw [BitVec.lt_def, not_lt]
    show 4 ≤ remaining.toNat
    omega
  rw [if_neg hshort]
  rcases hbytes with ⟨hzero, hsize⟩ | ⟨hten, hsize⟩
  · rw [hzero, Option.some.injEq] at hflag
    have hflags : readU8 data (recordTable + cursor + 1) = 0x00 := hflag.symm
    have hfits : ¬remaining < 4 + 1 + 2 := by
      rw [BitVec.lt_def, not_lt]
      exact hseven
    have hwide : ¬readU8 data (recordTable + cursor + 1) &&& 0x10 ≠ 0 := by
      rw [hflags]
      decide
    rw [if_neg ((supportedFlags_iff _).mpr (Or.inl hflags)), if_neg hwide, if_neg hfits]
    exact ⟨_, rfl, hsize.symm⟩
  · rw [hten, Option.some.injEq] at hflag
    have hflags : readU8 data (recordTable + cursor + 1) = 0x10 := hflag.symm
    have hfits : ¬remaining < 4 + 1 + 4 := by
      rw [BitVec.lt_def, not_lt]
      show 9 ≤ remaining.toNat
      omega
    have hwide : readU8 data (recordTable + cursor + 1) &&& 0x10 ≠ 0 := by
      rw [hflags]
      decide
    rw [if_neg ((supportedFlags_iff _).mpr (Or.inr hflags)), if_pos hwide, if_neg hfits]
    exact ⟨_, rfl, hsize.symm⟩

end

/-! ## One span -/

section
variable {data : List Byte} {recordTable pageIndex spanEnd cursor : Word} {info info' : LeFixupRecordInfo}

/-- What decoding a row of bytes adds: the records of one page that spell the bytes. -/
structure Adds (pageIndex : Word) (bytes : List Byte) (size : Word) (info info' : LeFixupRecordInfo)
    (added : List LeFixupRecord) : Prop where
  records : info'.records = info.records ++ added
  page : ∀ record ∈ added, record.pageIndex = pageIndex
  wellFormed : ∀ record ∈ added, WellFormedRecord (encodeRecord record)
  spelled : (added.map encodeRecord).flatten = bytes
  consumed : info'.consumedRecordBytes = info.consumedRecordBytes + size

/-- The cursor moves over a whole record without a wrap. -/
theorem cursor_add_le {record : LeFixupRecord} (hle : cursor ≤ spanEnd)
    (hsize : record.recordSize.toNat ≤ (spanEnd - cursor).toNat) :
    (cursor + record.recordSize).toNat = cursor.toNat + record.recordSize.toNat ∧
      cursor + record.recordSize ≤ spanEnd := by
  have hspan := spanEnd.isLt
  rw [BitVec.toNat_sub_of_le hle] at hsize
  rw [BitVec.le_def] at hle ⊢
  rw [BitVec.toNat_add, Nat.mod_eq_of_lt (by omega)]
  omega

theorem adds_of_decodeSpan (hle : cursor ≤ spanEnd)
    (h : decodeSpan data recordTable pageIndex spanEnd cursor info = .ok info') :
    ∃ added, Adds pageIndex (fileBytes data (recordTable + cursor) (spanEnd - cursor).toNat) (spanEnd - cursor)
      info info' added := by
  fun_induction decodeSpan data recordTable pageIndex spanEnd cursor info with
  | case1 cursor info hlt e herror => cases h
  | case2 cursor info hlt record hrecord ih =>
    obtain ⟨hpage, hformed, hspell⟩ := encode_decodeRecord hrecord
    obtain ⟨hnext, hle'⟩ := cursor_add_le hle (recordSize_of_decodeRecord hrecord).2
    obtain ⟨added, hadded⟩ := ih hle' h
    refine ⟨record :: added, ?_, ?_, ?_, ?_, ?_⟩
    · rw [hadded.records]
      exact List.append_assoc _ [record] added
    · intro r hr
      rcases List.mem_cons.mp hr with rfl | hr
      · exact hpage
      · exact hadded.page r hr
    · intro r hr
      rcases List.mem_cons.mp hr with rfl | hr
      · exact hformed
      · exact hadded.wellFormed r hr
    · rw [List.map_cons, List.flatten_cons, hadded.spelled, hspell]
      have hsplit : (spanEnd - cursor).toNat =
          record.recordSize.toNat + (spanEnd - (cursor + record.recordSize)).toNat := by
        rw [BitVec.toNat_sub_of_le hle, BitVec.toNat_sub_of_le hle', hnext]
        rw [BitVec.le_def, hnext] at hle'
        omega
      rw [hsplit, fileBytes_add, BitVec.ofNat_toNat, BitVec.setWidth_eq, BitVec.add_assoc]
    · rw [hadded.consumed]
      show info.consumedRecordBytes + record.recordSize + _ = _
      ring
  | case3 cursor info hnot =>
    have hend : spanEnd = cursor := by
      rw [BitVec.lt_def] at hnot
      rw [BitVec.le_def] at hle
      exact BitVec.eq_of_toNat_eq (by omega)
    rw [Except.ok.injEq] at h
    rw [hend, h]
    refine ⟨[], ?_, by simp, by simp, ?_, ?_⟩
    · exact (List.append_nil _).symm
    · rw [sub_self]
      rfl
    · rw [sub_self, add_zero]

theorem decodeSpan_of_wellFormed {records : List (List Byte)} (hle : cursor ≤ spanEnd)
    (hformed : ∀ bytes ∈ records, WellFormedRecord bytes)
    (h : fileBytes data (recordTable + cursor) (spanEnd - cursor).toNat = records.flatten) :
    ∃ info', decodeSpan data recordTable pageIndex spanEnd cursor info = .ok info' := by
  induction records generalizing cursor info with
  | nil =>
    have hlength := congrArg List.length h
    rw [fileBytes_length, BitVec.toNat_sub_of_le hle] at hlength
    have hnot : ¬cursor < spanEnd := by
      rw [BitVec.lt_def]
      have hzero : spanEnd.toNat - cursor.toNat = 0 := hlength
      omega
    rw [decodeSpan, if_neg hnot]
    exact ⟨info, rfl⟩
  | cons bytes records ih =>
    rw [List.flatten_cons] at h
    obtain ⟨record, hrecord, hsize⟩ :=
      @decodeRecord_of_wellFormed data recordTable pageIndex _ _ _ _ (hformed bytes List.mem_cons_self) h
    obtain ⟨hnext, hle'⟩ := cursor_add_le hle (recordSize_of_decodeRecord hrecord).2
    have hsplit : (spanEnd - cursor).toNat = bytes.length + (spanEnd - (cursor + record.recordSize)).toNat := by
      rw [BitVec.toNat_sub_of_le hle, BitVec.toNat_sub_of_le hle', hnext, hsize]
      rw [BitVec.le_def, hnext, hsize] at hle'
      omega
    rw [hsplit, fileBytes_add] at h
    obtain ⟨-, hrest⟩ := List.append_inj h (fileBytes_length _ _ _)
    rw [← hsize, BitVec.ofNat_toNat, BitVec.setWidth_eq, BitVec.add_assoc] at hrest
    have hpos : 7 ≤ bytes.length := by
      rcases hformed bytes List.mem_cons_self with ⟨-, hseven⟩ | ⟨-, hnine⟩ <;> omega
    have hlt : cursor < spanEnd := by
      rw [BitVec.lt_def]
      rw [BitVec.le_def, hnext, hsize] at hle'
      omega
    rw [decodeSpan, if_pos hlt]
    split
    case h_1 e herror =>
      rw [hrecord] at herror
      cases herror
    case h_2 record' hrecord' =>
      rw [hrecord, Except.ok.injEq] at hrecord'
      subst hrecord'
      exact ih hle' (fun b hb => hformed b (List.mem_cons_of_mem _ hb)) hrest

/-- A span decodes exactly when it is a row of records. -/
theorem decodeSpan_ok_iff (hle : cursor ≤ spanEnd) :
    (∃ info', decodeSpan data recordTable pageIndex spanEnd cursor info = .ok info') ↔
      WellFormedSlice (fileBytes data (recordTable + cursor) (spanEnd - cursor).toNat) := by
  constructor
  · rintro ⟨info', h⟩
    obtain ⟨added, hadded⟩ := adds_of_decodeSpan hle h
    refine ⟨added.map encodeRecord, ?_, hadded.spelled.symm⟩
    intro bytes hbytes
    obtain ⟨record, hrecord, rfl⟩ := List.mem_map.mp hbytes
    exact hadded.wellFormed record hrecord
  · rintro ⟨records, hformed, hbytes⟩
    exact decodeSpan_of_wellFormed hle hformed hbytes

end

/-! ## All spans -/

/-- A span that ends where a 32-bit offset can. -/
def LeFixupPageSpan.Ordered (span : LeFixupPageSpan) : Prop :=
  span.recordOffset ≤ span.recordOffset + span.recordSize

/-- The bytes of a span. -/
def LeFixupPageSpan.bytes (data : List Byte) (recordTable : Word) (span : LeFixupPageSpan) : List Byte :=
  fileBytes data (recordTable + span.recordOffset) span.recordSize.toNat

section
variable {data : List Byte} {recordTable : Word} {info info' : LeFixupRecordInfo}

theorem decodeSpans_ok_iff {spans : List LeFixupPageSpan} (hordered : ∀ span ∈ spans, span.Ordered) :
    (∃ info', decodeSpans data recordTable spans info = .ok info') ↔
      ∀ span ∈ spans, WellFormedSlice (span.bytes data recordTable) := by
  induction spans generalizing info with
  | nil => simp [decodeSpans]
  | cons span spans ih =>
    have hone := @decodeSpan_ok_iff data recordTable span.pageIndex _ _ info (hordered span List.mem_cons_self)
    rw [add_sub_cancel_left] at hone
    have hrest := fun info => @ih info fun s hs => hordered s (List.mem_cons_of_mem _ hs)
    rw [decodeSpans]
    constructor
    · rintro ⟨info', h⟩
      cases hspan : decodeSpan data recordTable span.pageIndex (span.recordOffset + span.recordSize)
          span.recordOffset info with
      | error e =>
        rw [hspan] at h
        cases h
      | ok next =>
        rw [hspan] at h
        intro s hs
        rcases List.mem_cons.mp hs with rfl | hs
        · exact hone.mp ⟨next, hspan⟩
        · exact (hrest next).mp ⟨info', h⟩ s hs
    · intro h
      obtain ⟨next, hnext⟩ := hone.mpr (h span List.mem_cons_self)
      rw [hnext]
      exact (hrest next).mpr fun s hs => h s (List.mem_cons_of_mem _ hs)

/-- Decoding all spans: each adds the records that spell it. -/
theorem adds_of_decodeSpans {spans : List LeFixupPageSpan} (hordered : ∀ span ∈ spans, span.Ordered)
    (h : decodeSpans data recordTable spans info = .ok info') :
    ∃ groups : List (List LeFixupRecord), info'.records = info.records ++ groups.flatten ∧
      List.Forall₂ (fun span group => (∀ record ∈ group, record.pageIndex = span.pageIndex) ∧
        (group.map encodeRecord).flatten = span.bytes data recordTable) spans groups ∧
      info'.consumedRecordBytes = info.consumedRecordBytes + (spans.map (·.recordSize)).sum := by
  induction spans generalizing info with
  | nil =>
    rw [decodeSpans, Except.ok.injEq] at h
    rw [← h]
    exact ⟨[], (List.append_nil _).symm, .nil, (add_zero _).symm⟩
  | cons span spans ih =>
    rw [decodeSpans] at h
    cases hspan : decodeSpan data recordTable span.pageIndex (span.recordOffset + span.recordSize)
        span.recordOffset info with
    | error e =>
      rw [hspan] at h
      cases h
    | ok next =>
      rw [hspan] at h
      obtain ⟨added, hadded⟩ := adds_of_decodeSpan (hordered span List.mem_cons_self) hspan
      obtain ⟨groups, hrecords, hgroups, hconsumed⟩ := ih (fun s hs => hordered s (List.mem_cons_of_mem _ hs)) h
      have hspelled := hadded.spelled
      have hsize := hadded.consumed
      rw [add_sub_cancel_left] at hspelled hsize
      refine ⟨added :: groups, ?_, .cons ⟨hadded.page, hspelled⟩ hgroups, ?_⟩
      · rw [hrecords, hadded.records, List.flatten_cons, List.append_assoc]
      · rw [hconsumed, hsize, List.map_cons, List.sum_cons, add_assoc]

/-- The records of a page spell its span, where no two spans have the same page. -/
theorem page_spelled {spans : List LeFixupPageSpan} {groups : List (List LeFixupRecord)}
    (h : List.Forall₂ (fun span group => (∀ record ∈ group, record.pageIndex = span.pageIndex) ∧
      (group.map encodeRecord).flatten = span.bytes data recordTable) spans groups)
    (hpages : (spans.map (·.pageIndex)).Nodup) {span : LeFixupPageSpan} (hspan : span ∈ spans) :
    ((groups.flatten.filter fun record => record.pageIndex = span.pageIndex).map encodeRecord).flatten =
      span.bytes data recordTable := by
  -- no record of other spans has the page
  have hnone : ∀ {spans : List LeFixupPageSpan} {groups : List (List LeFixupRecord)} {page : Word},
      List.Forall₂ (fun span group => (∀ record ∈ group, record.pageIndex = span.pageIndex) ∧
        (group.map encodeRecord).flatten = span.bytes data recordTable) spans groups →
      page ∉ spans.map (·.pageIndex) → (groups.flatten.filter fun record => record.pageIndex = page) = [] := by
    intro spans groups page h
    induction h with
    | nil => exact fun _ => rfl
    | cons hone hrest ih =>
      intro hpage
      rw [List.map_cons, List.mem_cons, not_or] at hpage
      rw [List.flatten_cons, List.filter_append, ih hpage.2, List.append_nil, List.filter_eq_nil_iff]
      intro record hrecord heq
      exact hpage.1 ((of_decide_eq_true heq).symm.trans (hone.1 record hrecord))
  induction h with
  | nil => cases hspan
  | cons hone hrest ih =>
    rw [List.map_cons, List.nodup_cons] at hpages
    rw [List.flatten_cons, List.filter_append, List.map_append, List.flatten_append]
    rcases List.mem_cons.mp hspan with rfl | hmem
    · rw [hnone hrest hpages.1, List.filter_eq_self.mpr fun record hrecord => decide_eq_true (hone.1 record hrecord),
        hone.2]
      exact List.append_nil _
    · rw [ih hpages.2 hmem, List.filter_eq_nil_iff.mpr]
      · rfl
      · intro record hrecord heq
        apply hpages.1
        rw [← hone.1 record hrecord, of_decide_eq_true heq]
        exact List.mem_map_of_mem hmem

end

/-! ## The page table -/

/-- The spans between the offsets of a page table, from a page on. -/
def spansBetween : ℕ → List Word → List LeFixupPageSpan
  | page, first :: last :: rest =>
    ⟨BitVec.ofNat 32 page, first, last - first⟩ :: spansBetween (page + 1) (last :: rest)
  | _, _ => []

theorem readPageOffsets_ok_iff {data : List Byte} {pageTable recordTableSize : Word} {count index : ℕ}
    {offsets : List Word} :
    readPageOffsets data pageTable recordTableSize count index = .ok offsets ↔
      offsets = ((List.range count).map fun k => readLe32 data (pageOffsetAt pageTable (index + k))) ∧
        ∀ offset ∈ offsets, offset ≤ recordTableSize := by
  induction count generalizing index offsets with
  | zero =>
    rw [readPageOffsets, Except.ok.injEq, List.range_zero, List.map_nil]
    constructor
    · rintro rfl
      exact ⟨rfl, by simp⟩
    · exact fun h => h.1.symm
  | succ count ih =>
    have hmap : ((List.range (count + 1)).map fun k => readLe32 data (pageOffsetAt pageTable (index + k))) =
        readLe32 data (pageOffsetAt pageTable index) ::
          (List.range count).map fun k => readLe32 data (pageOffsetAt pageTable (index + 1 + k)) := by
      rw [List.range_succ_eq_map, List.map_cons, List.map_map, Nat.add_zero, List.cons.injEq]
      refine ⟨rfl, List.map_congr_left fun k _ => ?_⟩
      show readLe32 data (pageOffsetAt pageTable (index + (k + 1))) = _
      rw [Nat.add_right_comm, Nat.add_assoc]
    rw [readPageOffsets, hmap]
    by_cases hlt : recordTableSize < readLe32 data (pageOffsetAt pageTable index)
    · rw [if_pos hlt]
      constructor
      · intro h
        cases h
      · rintro ⟨rfl, hall⟩
        exact absurd (hall _ List.mem_cons_self) (BitVec.not_le.mpr hlt)
    · rw [if_neg hlt]
      have hle : readLe32 data (pageOffsetAt pageTable index) ≤ recordTableSize := BitVec.not_lt.mp hlt
      cases hrest : readPageOffsets data pageTable recordTableSize count (index + 1) with
      | error e =>
        constructor
        · intro h
          cases h
        · rintro ⟨rfl, hall⟩
          have hok := ih.mpr ⟨rfl, fun offset hoffset => hall offset (List.mem_cons_of_mem _ hoffset)⟩
          rw [hrest] at hok
          cases hok
      | ok rest =>
        obtain ⟨rfl, hall⟩ := ih.mp hrest
        show Except.ok _ = Except.ok _ ↔ _
        rw [Except.ok.injEq]
        constructor
        · rintro rfl
          refine ⟨rfl, ?_⟩
          intro offset hoffset
          rcases List.mem_cons.mp hoffset with rfl | hoffset
          · exact hle
          · exact hall offset hoffset
        · exact fun h => h.1.symm

theorem makePageSpans_ok_iff {pageTable : Word} {page : ℕ} {offsets : List Word} {spans : List LeFixupPageSpan} :
    makePageSpans pageTable page offsets = .ok spans ↔
      offsets.Pairwise (· ≤ ·) ∧ spans = spansBetween page offsets := by
  induction offsets generalizing page spans with
  | nil =>
    rw [makePageSpans, spansBetween, Except.ok.injEq]
    · exact ⟨fun h => ⟨.nil, h.symm⟩, fun h => h.2.symm⟩
    · simp
    · simp
  | cons first rest ih =>
    cases rest with
    | nil =>
      rw [makePageSpans, spansBetween, Except.ok.injEq]
      · exact ⟨fun h => ⟨List.pairwise_singleton _ _, h.symm⟩, fun h => h.2.symm⟩
      · simp
      · simp
    | cons last rest =>
      have hpairwise : (first :: last :: rest).Pairwise (· ≤ ·) ↔ first ≤ last ∧ (last :: rest).Pairwise (· ≤ ·) := by
        constructor
        · intro h
          obtain ⟨hfirst, hrest⟩ := List.pairwise_cons.mp h
          exact ⟨hfirst last List.mem_cons_self, hrest⟩
        · rintro ⟨hle, hrest⟩
          refine List.pairwise_cons.mpr ⟨?_, hrest⟩
          intro offset hoffset
          rcases List.mem_cons.mp hoffset with rfl | hoffset
          · exact hle
          · exact BitVec.le_trans hle ((List.pairwise_cons.mp hrest).1 offset hoffset)
      rw [makePageSpans, spansBetween, hpairwise]
      by_cases hlt : last < first
      · rw [if_pos hlt]
        constructor
        · intro h
          cases h
        · rintro ⟨⟨hle, -⟩, -⟩
          exact absurd hle (BitVec.not_le.mpr hlt)
      · rw [if_neg hlt]
        have hle : first ≤ last := BitVec.not_lt.mp hlt
        cases hrest : makePageSpans pageTable (page + 1) (last :: rest) with
        | error e =>
          constructor
          · intro h
            cases h
          · rintro ⟨⟨-, hall⟩, -⟩
            have hok := (@ih (page + 1) _).mpr ⟨hall, rfl⟩
            rw [hrest] at hok
            cases hok
        | ok spans' =>
          obtain ⟨hall, rfl⟩ := ih.mp hrest
          show Except.ok _ = Except.ok _ ↔ _
          rw [Except.ok.injEq]
          exact ⟨fun h => ⟨⟨hle, hall⟩, h.symm⟩, fun h => h.2.symm⟩

section
variable {page : ℕ} {offsets : List Word}

theorem pageIndex_spansBetween (page : ℕ) (offsets : List Word) :
    (spansBetween page offsets).map (·.pageIndex) =
      (List.range (offsets.length - 1)).map fun k => BitVec.ofNat 32 (page + k) := by
  induction offsets generalizing page with
  | nil => rfl
  | cons first rest ih =>
    cases rest with
    | nil => rfl
    | cons last rest =>
      rw [spansBetween, List.map_cons, ih]
      show _ = (List.range (rest.length + 1)).map _
      rw [List.range_succ_eq_map, List.map_cons, List.map_map, List.cons.injEq]
      refine ⟨rfl, List.map_congr_left fun k _ => ?_⟩
      show BitVec.ofNat 32 (page + 1 + k) = BitVec.ofNat 32 (page + (k + 1))
      rw [Nat.add_right_comm, Nat.add_assoc]

theorem spansBetween_getElem? (page : ℕ) (offsets : List Word) {k : ℕ} (hk : k + 1 < offsets.length) :
    (spansBetween page offsets)[k]? =
      some ⟨BitVec.ofNat 32 (page + k), offsets.getD k 0, offsets.getD (k + 1) 0 - offsets.getD k 0⟩ := by
  induction offsets generalizing page k with
  | nil => simp at hk
  | cons first rest ih =>
    cases rest with
    | nil => simp at hk
    | cons last rest =>
      cases k with
      | zero => rfl
      | succ k =>
        rw [spansBetween, List.getElem?_cons_succ, ih (page + 1) (by simpa using hk), Nat.add_right_comm, Nat.add_assoc]
        rfl

theorem spansBetween_ordered (h : offsets.Pairwise (· ≤ ·)) : ∀ span ∈ spansBetween page offsets, span.Ordered := by
  induction offsets generalizing page with
  | nil => simp [spansBetween]
  | cons first rest ih =>
    cases rest with
    | nil => simp [spansBetween]
    | cons last rest =>
      obtain ⟨hfirst, hrest⟩ := List.pairwise_cons.mp h
      intro span hspan
      rcases List.mem_cons.mp hspan with rfl | hspan
      · show first ≤ first + (last - first)
        rw [add_sub_cancel]
        exact hfirst last List.mem_cons_self
      · exact ih hrest span hspan

theorem sum_spansBetween (page : ℕ) {first : Word} {rest : List Word} {last : Word}
    (hlast : (first :: rest).getLast? = some last) :
    ((spansBetween page (first :: rest)).map (·.recordSize)).sum = last - first := by
  induction rest generalizing page first with
  | nil =>
    rw [List.getLast?_singleton, Option.some.injEq] at hlast
    rw [hlast, sub_self]
    rfl
  | cons next rest ih =>
    rw [List.getLast?_cons_cons] at hlast
    rw [spansBetween, List.map_cons, List.sum_cons, ih (page + 1) hlast]
    ring

/-- The spans of a rising page table follow each other without a gap. -/
theorem flatten_spansBetween (data : List Byte) (recordTable : Word) (page : ℕ) {first : Word} {rest : List Word}
    {last : Word} (h : (first :: rest).Pairwise (· ≤ ·)) (hlast : (first :: rest).getLast? = some last) :
    ((spansBetween page (first :: rest)).map fun span => span.bytes data recordTable).flatten =
      fileBytes data (recordTable + first) (last - first).toNat := by
  induction rest generalizing page first with
  | nil =>
    rw [List.getLast?_singleton, Option.some.injEq] at hlast
    rw [hlast, sub_self]
    rfl
  | cons next rest ih =>
    rw [List.getLast?_cons_cons] at hlast
    obtain ⟨hfirst, hrest⟩ := List.pairwise_cons.mp h
    have hnext : first ≤ next := hfirst next List.mem_cons_self
    have hmem : last ∈ next :: rest := List.mem_of_getLast? hlast
    have hle : next ≤ last := by
      rcases List.mem_cons.mp hmem with heq | hmem
      · rw [heq]
        exact BitVec.le_refl _
      · exact (List.pairwise_cons.mp hrest).1 last hmem
    have hsplit : (last - first).toNat = (next - first).toNat + (last - next).toNat := by
      rw [BitVec.toNat_sub_of_le hnext, BitVec.toNat_sub_of_le hle,
        BitVec.toNat_sub_of_le (BitVec.le_trans hnext hle)]
      rw [BitVec.le_def] at hnext hle
      omega
    rw [spansBetween, List.map_cons, List.flatten_cons, ih (page + 1) hrest hlast, hsplit, fileBytes_add,
      BitVec.ofNat_toNat, BitVec.setWidth_eq, add_assoc, add_sub_cancel]
    rfl

end

/-! ## Analysis and decoding -/

section
variable {data : List Byte} {header : LeHeader}

theorem hasBytes_iff {offset size : Word} :
    hasBytes data offset size = true ↔ offset.toNat + size.toNat ≤ data.length := by
  unfold hasBytes
  rw [decide_eq_true_iff]
  omega

/-- The refusals of the analysis that come before the page table is read. -/
theorem tablesInFile_iff :
    TablesInFile data header ↔
      ¬header.fixupRecordTableOffset < header.fixupPageTableOffset ∧
      ¬header.importModuleNameTableOffset < header.fixupRecordTableOffset ∧
      ¬(0xFFFFFFFF < header.pageCount.toNat + 1 ∨ 0xFFFFFFFF < (header.pageCount.toNat + 1) * 4) ∧
      hasBytes data (header.fileOffset + header.fixupPageTableOffset)
        (BitVec.ofNat 32 ((header.pageCount.toNat + 1) * 4)) = true ∧
      hasBytes data (recordTableOffset header) (recordTableSize header) = true := by
  rw [hasBytes_iff, hasBytes_iff, BitVec.not_lt, BitVec.not_lt]
  have hsize (h : (header.pageCount.toNat + 1) * 4 ≤ 0xFFFFFFFF) :
      (BitVec.ofNat 32 ((header.pageCount.toNat + 1) * 4)).toNat = (header.pageCount.toNat + 1) * 4 := by
    rw [BitVec.toNat_ofNat, Nat.mod_eq_of_lt (by omega)]
  constructor
  · intro h
    have hpages := h.pages_addressed
    rw [hsize hpages]
    exact ⟨h.records_after_pages, h.imports_after_records, by omega, h.pages_inside, h.records_inside⟩
  · rintro ⟨hrecords, himports, hpages, hinside, hinside'⟩
    have hle : (header.pageCount.toNat + 1) * 4 ≤ 0xFFFFFFFF := by omega
    rw [hsize hle] at hinside
    exact ⟨hrecords, himports, hle, hinside, hinside'⟩

theorem pageTable_eq : pageTable data header =
    (List.range (header.pageCount.toNat + 1)).map fun k =>
      readLe32 data (pageOffsetAt (header.fileOffset + header.fixupPageTableOffset) (0 + k)) := by
  simp only [Nat.zero_add]
  rfl

theorem length_pageTable : (pageTable data header).length = header.pageCount.toNat + 1 := by
  rw [pageTable, List.length_map, List.length_range]

/-- What the analysis hands to the decoder. -/
theorem analyzeLeFixups_ok {info : LeFixupInfo} (h : analyzeLeFixups data header = .ok info) :
    (TablesInFile data header ∧ (pageTable data header).Pairwise (· ≤ ·) ∧
      ∀ offset ∈ pageTable data header, offset ≤ recordTableSize header) ∧
    info.valid = true ∧ info.recordTableFileOffset = recordTableOffset header ∧
      info.recordTableSize = recordTableSize header ∧ info.pageSpans = spansBetween 0 (pageTable data header) := by
  have htables := @tablesInFile_iff data header
  unfold recordTableOffset recordTableSize at *
  unfold analyzeLeFixups at h
  dsimp only at h
  split_ifs at h with hrecords himports hlarge hpages hinside
  cases hoffsets : readPageOffsets data (header.fileOffset + header.fixupPageTableOffset)
      (header.importModuleNameTableOffset - header.fixupRecordTableOffset) (header.pageCount.toNat + 1) 0 with
  | error e =>
    rw [hoffsets] at h
    cases h
  | ok offsets =>
    obtain ⟨heq, hwithin⟩ := readPageOffsets_ok_iff.mp hoffsets
    rw [← pageTable_eq] at heq
    rw [hoffsets] at h
    dsimp only at h
    cases hspans : makePageSpans (header.fileOffset + header.fixupPageTableOffset) 0 offsets with
    | error e =>
      rw [hspans] at h
      cases h
    | ok spans =>
      obtain ⟨hmonotone, hspansEq⟩ := makePageSpans_ok_iff.mp hspans
      rw [hspans] at h
      cases h
      rw [heq] at hwithin hmonotone hspansEq
      exact ⟨⟨htables.mpr ⟨hrecords, himports, hlarge, hpages, hinside⟩, hmonotone, hwithin⟩, rfl, rfl, rfl, hspansEq⟩

theorem analyzeLeFixups_isOk (htables : TablesInFile data header)
    (hmonotone : (pageTable data header).Pairwise (· ≤ ·))
    (hwithin : ∀ offset ∈ pageTable data header, offset ≤ recordTableSize header) :
    ∃ info, analyzeLeFixups data header = .ok info := by
  obtain ⟨hrecords, himports, hlarge, hpages, hinside⟩ := tablesInFile_iff.mp htables
  have hoffsets := readPageOffsets_ok_iff.mpr ⟨@pageTable_eq data header, hwithin⟩
  have hspans := (@makePageSpans_ok_iff (header.fileOffset + header.fixupPageTableOffset) 0 _ _).mpr
    ⟨hmonotone, rfl⟩
  unfold recordTableOffset recordTableSize at *
  unfold analyzeLeFixups
  dsimp only
  rw [if_neg hrecords, if_neg himports, if_neg hlarge, if_neg (not_not.mpr hpages), if_neg (not_not.mpr hinside),
    hoffsets]
  dsimp only
  rw [hspans]
  exact ⟨_, rfl⟩

/-- A span of the page table has the bytes of its page. -/
theorem span_bytes_eq (hmonotone : (pageTable data header).Pairwise (· ≤ ·))
    (hwithin : ∀ offset ∈ pageTable data header, offset ≤ recordTableSize header) {page : ℕ}
    (hpage : page < header.pageCount.toNat) :
    ∃ span, (spansBetween 0 (pageTable data header))[page]? = some span ∧ span.pageIndex = BitVec.ofNat 32 page ∧
      span.bytes data (recordTableOffset header) = pageSlice data header page := by
  have hlength := @length_pageTable data header
  have hspan := spansBetween_getElem? 0 (pageTable data header) (k := page) (by omega)
  rw [Nat.zero_add] at hspan
  refine ⟨_, hspan, rfl, ?_⟩
  have hfirst : (pageTable data header).getD page 0 = (pageTable data header)[page] :=
    List.getD_eq_getElem _ _ (by omega)
  have hlast : (pageTable data header).getD (page + 1) 0 = (pageTable data header)[page + 1] :=
    List.getD_eq_getElem _ _ (by omega)
  have hle : (pageTable data header).getD page 0 ≤ (pageTable data header).getD (page + 1) 0 := by
    rw [hfirst, hlast]
    exact List.pairwise_iff_getElem.mp hmonotone page (page + 1) (by omega) (by omega) (Nat.lt_succ_self page)
  have hin : (pageTable data header).getD (page + 1) 0 ≤ recordTableSize header := by
    rw [hlast]
    exact hwithin _ (List.getElem_mem _)
  rw [pageSlice, recordTable, fileBytes_slice _ _ (BitVec.le_def.mp hle) (BitVec.le_def.mp hin), BitVec.ofNat_toNat,
    BitVec.setWidth_eq, ← BitVec.toNat_sub_of_le hle]
  rfl

/-- The decoder takes a row of spans that begins at the first byte and ends at the last. -/
theorem decodeFixups_ok {info : LeFixupRecordInfo} (h : decodeFixups data header = .ok info) :
    TablesInFile data header ∧ FixupGrammar data header ∧
      ∃ groups : List (List LeFixupRecord), info.records = groups.flatten ∧
        List.Forall₂ (fun span group => (∀ record ∈ group, record.pageIndex = span.pageIndex) ∧
          (group.map encodeRecord).flatten = span.bytes data (recordTableOffset header))
          (spansBetween 0 (pageTable data header)) groups := by
  unfold decodeFixups at h
  cases hanalyze : analyzeLeFixups data header with
  | error e =>
    rw [hanalyze] at h
    cases h
  | ok fixupInfo =>
    rw [hanalyze] at h
    obtain ⟨⟨htables, hmonotone, hwithin⟩, hvalid, hoffset, hsize, hspans⟩ := analyzeLeFixups_ok hanalyze
    dsimp only at h
    rw [decodeLeFixupRecords, if_neg (not_not.mpr hvalid), hoffset, hsize, hspans] at h
    have hordered := @spansBetween_ordered 0 _ hmonotone
    cases hdecode : decodeSpans data (recordTableOffset header) (spansBetween 0 (pageTable data header)) {} with
    | error e =>
      rw [hdecode] at h
      cases h
    | ok decoded =>
      rw [hdecode] at h
      dsimp only at h
      split_ifs at h with hconsumed
      rw [Except.ok.injEq] at h
      obtain ⟨groups, hrecords, hgroups, hsum⟩ := adds_of_decodeSpans hordered hdecode
      -- the page table is not empty
      cases htable : pageTable data header with
      | nil =>
        have hlength := congrArg List.length htable
        rw [length_pageTable] at hlength
        cases hlength
      | cons first rest =>
        obtain ⟨last, hlast⟩ : ∃ last, (first :: rest).getLast? = some last :=
          ⟨_, List.getLast?_eq_getLast_of_ne_nil (List.cons_ne_nil first rest)⟩
        rw [not_not] at hconsumed
        rw [htable, sum_spansBetween 0 hlast, hconsumed] at hsum
        have hlastIn : last ≤ recordTableSize header := hwithin last (by rw [htable]; exact List.mem_of_getLast? hlast)
        have hfirstLast : first ≤ last := by
          rw [htable] at hmonotone
          rcases List.mem_cons.mp (List.mem_of_getLast? hlast) with heq | hmem
          · rw [heq]
            exact BitVec.le_refl _
          · exact (List.pairwise_cons.mp hmonotone).1 last hmem
        -- the spans are as long together as the table
        have hall : (recordTableSize header).toNat = last.toNat - first.toNat := by
          rw [hsum, ← BitVec.toNat_sub_of_le hfirstLast]
          exact congrArg BitVec.toNat (zero_add (last - first))
        rw [BitVec.le_def] at hlastIn hfirstLast
        have hfirst : first = 0 := by
          apply BitVec.eq_of_toNat_eq
          show first.toNat = 0
          omega
        have hend : last = recordTableSize header := by
          apply BitVec.eq_of_toNat_eq
          omega
        refine ⟨htables, ⟨hmonotone, hwithin, ?_, ?_, ?_⟩, groups, ?_, htable ▸ hgroups⟩
        · rw [htable, List.head?_cons, hfirst]
        · rw [htable, hlast, hend]
        · intro page hpage
          obtain ⟨span, hspan, -, hbytes⟩ := span_bytes_eq hmonotone hwithin hpage
          rw [← hbytes]
          exact (decodeSpans_ok_iff hordered).mp ⟨decoded, hdecode⟩ span (List.mem_of_getElem? hspan)
        · rw [← h, hrecords]
          rfl

theorem decodeFixups_isOk (htables : TablesInFile data header) (hgrammar : FixupGrammar data header) :
    ∃ info, decodeFixups data header = .ok info := by
  obtain ⟨fixupInfo, hanalyze⟩ := analyzeLeFixups_isOk htables hgrammar.monotone hgrammar.within
  obtain ⟨-, hvalid, hoffset, hsize, hspans⟩ := analyzeLeFixups_ok hanalyze
  have hordered := @spansBetween_ordered 0 _ hgrammar.monotone
  have hslices : ∀ span ∈ spansBetween 0 (pageTable data header),
      WellFormedSlice (span.bytes data (recordTableOffset header)) := by
    intro span hspan
    obtain ⟨page, hget⟩ := List.mem_iff_getElem?.mp hspan
    have hcount : (spansBetween 0 (pageTable data header)).length = header.pageCount.toNat := by
      have hmap := congrArg List.length (pageIndex_spansBetween 0 (pageTable data header))
      rwa [List.length_map, List.length_map, List.length_range, length_pageTable, Nat.add_sub_cancel] at hmap
    have hpage : page < header.pageCount.toNat := by
      rw [← hcount]
      exact (List.getElem?_eq_some_iff.mp hget).1
    obtain ⟨span', hget', -, hbytes⟩ := span_bytes_eq hgrammar.monotone hgrammar.within hpage
    rw [hget, Option.some.injEq] at hget'
    rw [hget', hbytes]
    exact hgrammar.slices page hpage
  obtain ⟨decoded, hdecode⟩ := (@decodeSpans_ok_iff data (recordTableOffset header) {} _ hordered).mpr hslices
  obtain ⟨groups, -, -, hsum⟩ := adds_of_decodeSpans hordered hdecode
  have hconsumed : decoded.consumedRecordBytes = recordTableSize header := by
    have hfirst := hgrammar.first
    have hlast := hgrammar.last
    cases htable : pageTable data header with
    | nil =>
      rw [htable] at hfirst
      cases hfirst
    | cons first rest =>
      rw [htable] at hfirst hlast hsum
      rw [List.head?_cons, Option.some.injEq] at hfirst
      rw [hsum, sum_spansBetween 0 hlast, hfirst]
      show 0 + (recordTableSize header - 0) = recordTableSize header
      rw [sub_zero, zero_add]
  unfold decodeFixups
  rw [hanalyze]
  dsimp only
  rw [decodeLeFixupRecords, if_neg (not_not.mpr hvalid), hoffset, hsize, hspans, hdecode]
  dsimp only
  rw [if_neg (not_not.mpr hconsumed)]
  exact ⟨_, rfl⟩

/-- Analysis and decoding succeed exactly on the grammar, and the decoded records spell the record
table: page by page, and as a whole. -/
theorem decodeFixups_grammar (data : List Byte) (header : LeHeader) :
    ((∃ info, decodeFixups data header = .ok info) ↔ TablesInFile data header ∧ FixupGrammar data header) ∧
    ∀ info, decodeFixups data header = .ok info →
      (∀ page < header.pageCount.toNat,
        ((info.records.filter fun record => record.pageIndex = BitVec.ofNat 32 page).map encodeRecord).flatten =
          pageSlice data header page) ∧
      (info.records.map encodeRecord).flatten = recordTable data header := by
  constructor
  · constructor
    · rintro ⟨info, h⟩
      obtain ⟨htables, hgrammar, -⟩ := decodeFixups_ok h
      exact ⟨htables, hgrammar⟩
    · rintro ⟨htables, hgrammar⟩
      exact decodeFixups_isOk htables hgrammar
  · intro info h
    obtain ⟨-, hgrammar, groups, hrecords, hgroups⟩ := decodeFixups_ok h
    rw [hrecords]
    constructor
    · intro page hpage
      obtain ⟨span, hspan, hindex, hbytes⟩ := span_bytes_eq hgrammar.monotone hgrammar.within hpage
      have hnodup : ((spansBetween 0 (pageTable data header)).map (·.pageIndex)).Nodup := by
        rw [pageIndex_spansBetween, length_pageTable]
        refine List.Nodup.map_on ?_ List.nodup_range
        intro i hi j hj hsame
        rw [List.mem_range] at hi hj
        have hcount := header.pageCount.isLt
        have hnat := congrArg BitVec.toNat hsame
        rw [BitVec.toNat_ofNat, BitVec.toNat_ofNat] at hnat
        omega
      rw [← hindex, page_spelled hgroups hnodup (List.mem_of_getElem? hspan), hbytes]
    · have hflat : ∀ {spans : List LeFixupPageSpan} {groups : List (List LeFixupRecord)},
          List.Forall₂ (fun span group => (∀ record ∈ group, record.pageIndex = span.pageIndex) ∧
            (group.map encodeRecord).flatten = span.bytes data (recordTableOffset header)) spans groups →
          (groups.flatten.map encodeRecord).flatten =
            (spans.map fun span => span.bytes data (recordTableOffset header)).flatten := by
        intro spans groups h
        induction h with
        | nil => rfl
        | cons hone _ ih =>
          rw [List.flatten_cons, List.map_append, List.flatten_append, hone.2, ih, List.map_cons, List.flatten_cons]
      rw [hflat hgroups]
      have hfirst := hgrammar.first
      have hlast := hgrammar.last
      have hmonotone := hgrammar.monotone
      cases htable : pageTable data header with
      | nil =>
        rw [htable] at hfirst
        cases hfirst
      | cons first rest =>
        rw [htable] at hfirst hlast hmonotone
        rw [List.head?_cons, Option.some.injEq] at hfirst
        rw [flatten_spansBetween data _ 0 hmonotone hlast, hfirst, add_zero, sub_zero]
        rfl

/-- A file of one byte: the record table is that byte, and the page table, of no page, ends before it. -/
def trailingByteHeader : LeHeader :=
  { fixupPageTableOffset := 1, fixupRecordTableOffset := 5, importModuleNameTableOffset := 6 }

/-- A page table may end before the record table does, with every slice in order, but then decoding fails. -/
theorem decodeFixups_refuses_trailing_bytes :
    TablesInFile (List.replicate 6 0) trailingByteHeader ∧
      (pageTable (List.replicate 6 0) trailingByteHeader).Pairwise (· ≤ ·) ∧
      (∀ offset ∈ pageTable (List.replicate 6 0) trailingByteHeader, offset ≤ recordTableSize trailingByteHeader) ∧
      (∀ page < trailingByteHeader.pageCount.toNat,
        WellFormedSlice (pageSlice (List.replicate 6 0) trailingByteHeader page)) ∧
      decodeFixups (List.replicate 6 0) trailingByteHeader =
        .error ⟨5, "decoded LE fixup bytes do not match record table size"⟩ := by
  have htable : pageTable (List.replicate 6 0) trailingByteHeader = [0] := by decide +kernel
  rw [htable]
  refine ⟨⟨by decide, by decide, by decide, by decide, by decide⟩, List.pairwise_singleton _ _, ?_, ?_,
    by decide +kernel⟩
  · intro offset hoffset
    rw [List.mem_singleton.mp hoffset]
    decide
  · intro page hpage
    exact absurd hpage (Nat.not_lt_zero page)

end

end Repiu.Exe
