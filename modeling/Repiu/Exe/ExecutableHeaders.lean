import Repiu.ByteMemory
import Mathlib.Tactic

/-!
# Fixups of a linear executable

The fixup page table and the fixup record table of an LE image
(`executable_headers.cpp`): `AnalyzeLeFixups` reads the first and cuts the second into
one span a page, and `DecodeLeFixupRecords` decodes the records of each span.

File offsets are 32-bit sums, as in the source.
-/

namespace Repiu.Exe

/-- `ParseError`. -/
structure ParseError where
  fileOffset : Word
  message : String
  deriving DecidableEq, Repr

/-- `LeHeader`, as far as the image and its fixups are read with it. -/
structure LeHeader where
  fileOffset : Word := 0
  pageCount : Word := 0
  entryObject : Word := 0
  entryOffset : Word := 0
  stackObject : Word := 0
  stackOffset : Word := 0
  pageSize : Word := 0
  fixupPageTableOffset : Word := 0
  fixupRecordTableOffset : Word := 0
  importModuleNameTableOffset : Word := 0
  deriving DecidableEq, Repr

/-- `LeFixupPageSpan`. -/
structure LeFixupPageSpan where
  pageIndex : Word
  recordOffset : Word
  recordSize : Word
  deriving DecidableEq, Repr

/-- `LeFixupInfo`. -/
structure LeFixupInfo where
  valid : Bool
  pageTableFileOffset : Word
  recordTableFileOffset : Word
  recordTableSize : Word
  trailingRecordBytes : Word
  pageTableMonotonic : Bool
  pageOffsets : List Word
  pageSpans : List LeFixupPageSpan
  pagesWithFixups : ℕ
  largestPageSpan : Word
  deriving DecidableEq, Repr

/-- `LeFixupRecord`. -/
structure LeFixupRecord where
  pageIndex : Word
  recordTableOffset : Word
  recordSize : Word
  sourceType : Byte
  targetFlags : Byte
  sourceOffset : BitVec 16
  targetObject : Word
  targetOffset : Word
  supported : Bool
  deriving DecidableEq, Repr

/-- `LeFixupRecordInfo`, as it is returned. -/
structure LeFixupRecordInfo where
  valid : Bool := false
  records : List LeFixupRecord := []
  decodedRecordCount : ℕ := 0
  internalTargetCount : ℕ := 0
  offset16Count : ℕ := 0
  offset32Count : ℕ := 0
  consumedRecordBytes : Word := 0
  deriving DecidableEq, Repr

/-! ## Reading the file -/

/-- `HasBytes`. -/
def hasBytes (data : List Byte) (offset size : Word) : Bool :=
  offset.toNat ≤ data.length ∧ size.toNat ≤ data.length - offset.toNat

/-- `ReadU8`. -/
def readU8 (data : List Byte) (offset : Word) : Byte := data.getD offset.toNat 0

/-- `ReadLe16`. -/
def readLe16 (data : List Byte) (offset : Word) : BitVec 16 := readU8 data (offset + 1) ++ readU8 data offset

/-- `ReadLe32`. -/
def readLe32 (data : List Byte) (offset : Word) : Word :=
  word32 (readU8 data offset) (readU8 data (offset + 1)) (readU8 data (offset + 2)) (readU8 data (offset + 3))

/-! ## `AnalyzeLeFixups` -/

/-- Where a page offset is stored. -/
def pageOffsetAt (pageTable : Word) (index : ℕ) : Word := pageTable + BitVec.ofNat 32 (4 * index)

/-- The loop that reads the page offsets, from an index on. -/
def readPageOffsets (data : List Byte) (pageTable recordTableSize : Word) : ℕ → ℕ → Except ParseError (List Word)
  | 0, _ => .ok []
  | count + 1, index =>
    let offset := readLe32 data (pageOffsetAt pageTable index)
    if recordTableSize < offset then
      .error ⟨pageOffsetAt pageTable index, "LE fixup page table offset exceeds record table size"⟩
    else
      match readPageOffsets data pageTable recordTableSize count (index + 1) with
      | .error e => .error e
      | .ok offsets => .ok (offset :: offsets)

/-- No offset is below the one before it. -/
def offsetsMonotonic : List Word → Bool
  | first :: second :: rest => first ≤ second && offsetsMonotonic (second :: rest)
  | _ => true

/-- The loop that makes the page spans, from a page on. -/
def makePageSpans (pageTable : Word) : ℕ → List Word → Except ParseError (List LeFixupPageSpan)
  | pageIndex, first :: last :: rest =>
    if last < first then .error ⟨pageOffsetAt pageTable pageIndex, "LE fixup page span is negative"⟩
    else
      match makePageSpans pageTable (pageIndex + 1) (last :: rest) with
      | .error e => .error e
      | .ok spans => .ok (⟨BitVec.ofNat 32 pageIndex, first, last - first⟩ :: spans)
  | _, _ => .ok []

/-- `AnalyzeLeFixups`. -/
def analyzeLeFixups (data : List Byte) (header : LeHeader) : Except ParseError LeFixupInfo :=
  if header.fixupRecordTableOffset < header.fixupPageTableOffset then
    .error ⟨header.fileOffset + header.fixupRecordTableOffset,
      "LE fixup record table appears before fixup page table"⟩
  else if header.importModuleNameTableOffset < header.fixupRecordTableOffset then
    .error ⟨header.fileOffset + header.importModuleNameTableOffset,
      "LE import module table appears before fixup record table"⟩
  else
    let pageEntryCount := header.pageCount.toNat + 1
    let pageTable := header.fileOffset + header.fixupPageTableOffset
    let recordTable := header.fileOffset + header.fixupRecordTableOffset
    let recordTableSize := header.importModuleNameTableOffset - header.fixupRecordTableOffset
    if 0xFFFFFFFF < pageEntryCount ∨ 0xFFFFFFFF < pageEntryCount * 4 then
      .error ⟨pageTable, "LE fixup page table is too large"⟩
    else if ¬hasBytes data pageTable (BitVec.ofNat 32 (pageEntryCount * 4)) then
      .error ⟨pageTable, "LE fixup page table points outside the file"⟩
    else if ¬hasBytes data recordTable recordTableSize then
      .error ⟨recordTable, "LE fixup record table points outside the file"⟩
    else
      match readPageOffsets data pageTable recordTableSize pageEntryCount 0 with
      | .error e => .error e
      | .ok pageOffsets =>
        match makePageSpans pageTable 0 pageOffsets with
        | .error e => .error e
        | .ok pageSpans =>
          .ok
            { valid := true
              pageTableFileOffset := pageTable
              recordTableFileOffset := recordTable
              recordTableSize := recordTableSize
              trailingRecordBytes := recordTableSize - pageOffsets.getLastD 0
              pageTableMonotonic := offsetsMonotonic pageOffsets
              pageOffsets := pageOffsets
              pageSpans := pageSpans
              pagesWithFixups := pageSpans.countP fun span => 0 < span.recordSize
              largestPageSpan := pageSpans.foldl
                (fun largest span => if largest < span.recordSize then span.recordSize else largest) 0 }

/-! ## `DecodeLeFixupRecords` -/

/-- The record at a cursor, with so many bytes of its span left. -/
def decodeRecord (data : List Byte) (recordTable pageIndex cursor remaining : Word) :
    Except ParseError LeFixupRecord :=
  let recordFileOffset := recordTable + cursor
  if remaining < 4 then .error ⟨recordFileOffset, "LE fixup record is too small for its prefix"⟩
  else
    let targetFlags := readU8 data (recordFileOffset + 1)
    let internalTarget := targetFlags &&& 0x03 = 0
    let has32BitTargetOffset := targetFlags &&& 0x10 ≠ 0
    let hasUnsupportedFlags := targetFlags &&& ~~~0x10 ≠ 0
    if ¬internalTarget ∨ hasUnsupportedFlags then
      .error ⟨recordFileOffset, "unsupported LE fixup target flags encountered"⟩
    else
      let requiredSize : Word := 4 + 1 + (if has32BitTargetOffset then 4 else 2)
      if remaining < requiredSize then
        .error ⟨recordFileOffset, "LE fixup record target extends past page span"⟩
      else
        .ok
          { pageIndex := pageIndex
            recordTableOffset := cursor
            recordSize := requiredSize
            sourceType := readU8 data recordFileOffset
            targetFlags := targetFlags
            sourceOffset := readLe16 data (recordFileOffset + 2)
            targetObject := (readU8 data (recordFileOffset + 4)).setWidth 32
            targetOffset :=
              if has32BitTargetOffset then readLe32 data (recordFileOffset + 5)
              else (readLe16 data (recordFileOffset + 5)).setWidth 32
            supported := true }

/-- A decoded record is counted and kept. -/
def LeFixupRecordInfo.push (info : LeFixupRecordInfo) (record : LeFixupRecord) : LeFixupRecordInfo :=
  { info with
    records := info.records ++ [record]
    decodedRecordCount := info.decodedRecordCount + 1
    internalTargetCount := info.internalTargetCount + 1
    offset16Count := info.offset16Count + (if record.targetFlags &&& 0x10 = 0 then 1 else 0)
    offset32Count := info.offset32Count + (if record.targetFlags &&& 0x10 = 0 then 0 else 1)
    consumedRecordBytes := info.consumedRecordBytes + record.recordSize }

/-- A record has the size its flags ask for, and that many bytes are left. -/
theorem recordSize_of_decodeRecord {data : List Byte} {recordTable pageIndex cursor remaining : Word}
    {record : LeFixupRecord} (h : decodeRecord data recordTable pageIndex cursor remaining = .ok record) :
    record.recordSize = (if record.targetFlags &&& 0x10 ≠ 0 then 9 else 7) ∧
      record.recordSize.toNat ≤ remaining.toNat := by
  unfold decodeRecord at h
  dsimp only at h
  split_ifs at h with hprefix hflags hwide hsize hsize
  · rw [Except.ok.injEq] at h
    rw [BitVec.lt_def, not_lt] at hsize
    subst h
    exact ⟨(if_pos hwide).symm, hsize⟩
  · rw [Except.ok.injEq] at h
    rw [BitVec.lt_def, not_lt] at hsize
    subst h
    exact ⟨(if_neg hwide).symm, hsize⟩

/-- The record loop of one span. -/
def decodeSpan (data : List Byte) (recordTable pageIndex spanEnd cursor : Word) (info : LeFixupRecordInfo) :
    Except ParseError LeFixupRecordInfo :=
  if cursor < spanEnd then
    match h : decodeRecord data recordTable pageIndex cursor (spanEnd - cursor) with
    | .error e => .error e
    | .ok record => decodeSpan data recordTable pageIndex spanEnd (cursor + record.recordSize) (info.push record)
  else .ok info
termination_by spanEnd.toNat - cursor.toNat
decreasing_by
  obtain ⟨hsize, hle⟩ := recordSize_of_decodeRecord h
  have hlt : cursor.toNat < spanEnd.toNat := by assumption
  have hpos : 0 < record.recordSize.toNat := by
    rw [hsize]
    split_ifs <;> decide
  rw [BitVec.toNat_sub_of_le (BitVec.le_def.mpr hlt.le)] at hle
  rw [BitVec.toNat_add, Nat.mod_eq_of_lt (by omega)]
  omega

/-- The span loop. -/
def decodeSpans (data : List Byte) (recordTable : Word) :
    List LeFixupPageSpan → LeFixupRecordInfo → Except ParseError LeFixupRecordInfo
  | [], info => .ok info
  | span :: spans, info =>
    match decodeSpan data recordTable span.pageIndex (span.recordOffset + span.recordSize) span.recordOffset info with
    | .error e => .error e
    | .ok info => decodeSpans data recordTable spans info

/-- `DecodeLeFixupRecords`. -/
def decodeLeFixupRecords (data : List Byte) (header : LeHeader) (fixupInfo : LeFixupInfo) :
    Except ParseError LeFixupRecordInfo :=
  if ¬fixupInfo.valid then
    .error ⟨header.fileOffset + header.fixupPageTableOffset, "LE fixup info is not valid"⟩
  else
    match decodeSpans data fixupInfo.recordTableFileOffset fixupInfo.pageSpans {} with
    | .error e => .error e
    | .ok info =>
      if info.consumedRecordBytes ≠ fixupInfo.recordTableSize then
        .error ⟨fixupInfo.recordTableFileOffset + info.consumedRecordBytes,
          "decoded LE fixup bytes do not match record table size"⟩
      else .ok { info with valid := true }

end Repiu.Exe
