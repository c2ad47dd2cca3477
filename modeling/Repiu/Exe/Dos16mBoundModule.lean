import Mathlib.Order.Interval.Set.Disjoint
import Repiu.Exe.ExecutableHeaders

/-!
# Bound DOS/16M modules

The chain of BW modules behind an MZ image (`dos16m_bound_module.cpp`).  A loop of the source that
need not end takes fuel, and gives nothing when it runs out.
-/

namespace Repiu.Exe

/-! ## Modules -/

/-- `Dos16mBoundSegment`. -/
structure Dos16mBoundSegment where
  selector : BitVec 16
  limit : BitVec 16
  access : Byte
  memoryParagraphs : BitVec 16
  image : List Byte
  selectorRelocationOffsets : List (BitVec 16) := []
  deriving DecidableEq, Repr

/-- `Dos16mBoundModule`. -/
structure Dos16mBoundModule where
  name : List Byte
  headerFileOffset : Word
  nextHeaderFileOffset : Word
  initialCs : BitVec 16
  initialIp : BitVec 16
  relocationCount : Word
  segments : List Dos16mBoundSegment
  deriving DecidableEq, Repr

/-! ## Reading -/

/-- `kBwHeaderSize`. -/
def kBwHeaderSize : Word := 176

/-- `kGdtEntrySize`. -/
def kGdtEntrySize : Word := 8

/-- `kReservedGdtBytes`. -/
def kReservedGdtBytes : Word := 16 * kGdtEntrySize

/-- `kBssMarker`. -/
def kBssMarker : BitVec 16 := 0x2000

/-- `RangeValid`. -/
def rangeValid (data : List Byte) (offset size : Word) : Bool := hasBytes data offset size

/-- `Read16`. -/
def read16 (data : List Byte) (offset : Word) : BitVec 16 := readLe16 data offset

/-- `Read32`. -/
def read32 (data : List Byte) (offset : Word) : Word :=
  (read16 data offset).setWidth 32 ||| ((read16 data (offset + 2)).setWidth 32 <<< 16)

/-- `Align16`. -/
def align16 (value : Word) : Word := (value + 15) &&& ~~~15

/-- `FindSegment`. -/
def findSegment (segments : List Dos16mBoundSegment) (selector : BitVec 16) : Option Dos16mBoundSegment :=
  segments.find? fun segment => segment.selector = selector

/-! ## `ParseModule` -/

/-- What a BW header says. -/
structure BwHeader where
  nextHeader : Word
  initialIp : BitVec 16
  initialCs : BitVec 16
  firstRelocationSelector : BitVec 16
  gdtImageSize : Word
  firstSelector : BitVec 16
  deriving DecidableEq, Repr

def readBwHeader (data : List Byte) (headerOffset : Word) : BwHeader where
  nextHeader := read32 data (headerOffset + 28)
  initialIp := read16 data (headerOffset + 20)
  initialCs := read16 data (headerOffset + 22)
  firstRelocationSelector := read16 data (headerOffset + 18)
  gdtImageSize := (read16 data (headerOffset + 56)).setWidth 32 + 1
  firstSelector :=
    let encodedFirstSelector := read16 data (headerOffset + 58)
    if encodedFirstSelector ≠ 0 then encodedFirstSelector else 0x0080

/-- The selectors below the relocation descriptor's. -/
def BwHeader.selectorSpan (header : BwHeader) : ℕ :=
  header.firstRelocationSelector.toNat - header.firstSelector.toNat

/-- The layout check of a header. -/
def BwHeader.Invalid (header : BwHeader) (data : List Byte) (headerOffset : Word) : Prop :=
  header.nextHeader ≤ headerOffset ∨ data.length < header.nextHeader.toNat ∨ header.gdtImageSize < kReservedGdtBytes ∨
    (header.gdtImageSize - kReservedGdtBytes) % kGdtEntrySize ≠ 0 ∨
    header.firstRelocationSelector < header.firstSelector ∨ header.selectorSpan % kGdtEntrySize.toNat ≠ 0

instance (header : BwHeader) (data : List Byte) (headerOffset : Word) : Decidable (header.Invalid data headerOffset) :=
  inferInstanceAs (Decidable (_ ∨ _))

/-- `gdt_count`. -/
def BwHeader.gdtCount (header : BwHeader) : Word := (header.gdtImageSize - kReservedGdtBytes) / kGdtEntrySize

/-- `group_count`. -/
def BwHeader.groupCount (header : BwHeader) : ℕ := header.selectorSpan / kGdtEntrySize.toNat

/-- Where a GDT entry lies. -/
def gdtEntryAt (gdtOffset : Word) (index : ℕ) : Word := gdtOffset + BitVec.ofNat 32 index * kGdtEntrySize

/-- The segment of a GDT entry, with an empty image. -/
def gdtSegment (data : List Byte) (firstSelector : BitVec 16) (gdtOffset : Word) (index : ℕ) : Dos16mBoundSegment :=
  let entry := gdtEntryAt gdtOffset index
  let limit := read16 data entry
  let memoryParagraphs := read16 data (entry + 6) &&& ~~~kBssMarker
  let memorySize := max (max (limit.toNat + 1) (memoryParagraphs.toNat * 16)) 1
  { selector := firstSelector + BitVec.ofNat 16 (index * kGdtEntrySize.toNat)
    limit := limit
    access := readU8 data (entry + 5)
    memoryParagraphs := memoryParagraphs
    image := List.replicate memorySize 0 }

/-- `std::memcpy` from the file to the start of an image. -/
def copyImage (data : List Byte) (cursor : Word) (size : ℕ) (image : List Byte) : List Byte :=
  (data.drop cursor.toNat).take size ++ image.drop size

/-- The segment loop, for so many entries from an index on. -/
def parseSegments (data : List Byte) (headerOffset gdtOffset nextHeader : Word) (firstSelector : BitVec 16) :
    ℕ → ℕ → Word → Except ParseError (List Dos16mBoundSegment × Word)
  | 0, _, copyCursor => .ok ([], copyCursor)
  | count + 1, index, copyCursor =>
    let segment := gdtSegment data firstSelector gdtOffset index
    let reserved := read16 data (gdtEntryAt gdtOffset index + 6)
    if reserved &&& kBssMarker = 0 then
      let fileSize := segment.limit.setWidth 32 + 1
      if ¬rangeValid data copyCursor fileSize ∨ nextHeader < copyCursor + fileSize then
        .error ⟨copyCursor, "DOS/16M segment copy exceeds module"⟩
      else
        match parseSegments data headerOffset gdtOffset nextHeader firstSelector count (index + 1)
            (headerOffset + align16 (copyCursor + fileSize - headerOffset)) with
        | .error e => .error e
        | .ok (segments, copyCursor') =>
          .ok ({ segment with image := copyImage data copyCursor fileSize.toNat segment.image } :: segments,
            copyCursor')
    else
      match parseSegments data headerOffset gdtOffset nextHeader firstSelector count (index + 1) copyCursor with
      | .error e => .error e
      | .ok (segments, copyCursor') => .ok (segment :: segments, copyCursor')

/-- The offset loop of a relocation block, for so many offsets from an index on. -/
def relocateOffsets (data : List Byte) (copyCursor : Word) :
    ℕ → ℕ → Dos16mBoundSegment → Except ParseError Dos16mBoundSegment
  | 0, _, segment => .ok segment
  | count + 1, index, segment =>
    let offset := read16 data (copyCursor + BitVec.ofNat 32 (index * 2))
    if segment.image.length < offset.toNat + 2 then
      .error ⟨copyCursor + BitVec.ofNat 32 (index * 2), "RSI-2 offset exceeds segment"⟩
    else
      relocateOffsets data copyCursor count (index + 1)
        { segment with selectorRelocationOffsets := segment.selectorRelocationOffsets ++ [offset] }

/-- The segment that `findSegment` finds is replaced. -/
def replaceSegment (segment : Dos16mBoundSegment) : List Dos16mBoundSegment → List Dos16mBoundSegment
  | [] => []
  | first :: rest =>
    if first.selector = segment.selector then segment :: rest else first :: replaceSegment segment rest

/-- What the relocation stream works on. -/
structure RelocationState where
  copyCursor : Word
  segments : List Dos16mBoundSegment
  relocationCount : Word

/-- One block of the relocation stream, whose first four bytes are read. -/
def relocationBlock (data : List Byte) (relocationEnd : Word) (s : RelocationState) (rawSelector count : BitVec 16) :
    Except ParseError RelocationState :=
  let copyCursor := s.copyCursor + 4
  -- this sum is taken in 64 bits
  if relocationEnd.toNat < copyCursor.toNat + count.toNat * 2 then
    .error ⟨copyCursor, "truncated DOS/16M RSI-2 block"⟩
  else
    match findSegment s.segments (rawSelector &&& ~~~0x0002) with
    | none => .error ⟨copyCursor, "RSI-2 targets unknown selector"⟩
    | some segment =>
      match relocateOffsets data copyCursor count.toNat 0 segment with
      | .error e => .error e
      | .ok segment =>
        .ok
          { copyCursor := copyCursor + BitVec.ofNat 32 (count.toNat * 2)
            segments := replaceSegment segment s.segments
            relocationCount := s.relocationCount + BitVec.ofNat 32 count.toNat }

/-- What the loop of the relocation stream does next. -/
inductive StreamStep where
  | stops (terminal : Bool) (s : RelocationState)
  | fails (error : ParseError)
  | goesOn (s : RelocationState)

/-- One turn of the loop of the relocation stream. -/
def streamStep (data : List Byte) (relocationEnd : Word) (s : RelocationState) : StreamStep :=
  let rawSelector := read16 data s.copyCursor
  let count := read16 data (s.copyCursor + 2)
  if ¬s.copyCursor + 4 ≤ relocationEnd ∨ (rawSelector = 0 ∧ count = 0) then .stops false s
  else
    match relocationBlock data relocationEnd s rawSelector count with
    | .error e => .fails e
    | .ok s' => if rawSelector &&& 0x0002 ≠ 0 then .stops true s' else .goesOn s'

/-- The relocation stream: whether it came to its terminal block, and where it stopped. -/
def relocationStream (data : List Byte) (relocationEnd : Word) :
    ℕ → RelocationState → Option (Except ParseError (Bool × RelocationState))
  | 0, _ => none
  | fuel + 1, s =>
    match streamStep data relocationEnd s with
    | .stops terminal s' => some (.ok (terminal, s'))
    | .fails e => some (.error e)
    | .goesOn s' => relocationStream data relocationEnd fuel s'

/-- The loop over what follows the terminal block, for so many bytes. -/
def checkTail (data : List Byte) : ℕ → Word → Except ParseError Unit
  | 0, _ => .ok ()
  | count + 1, copyCursor =>
    if readU8 data copyCursor ≠ 0 then .error ⟨copyCursor, "nonzero data after RSI-2 terminator"⟩
    else checkTail data count (copyCursor + 1)

/-- The name of a module: its bytes up to the first zero. -/
def moduleName (data : List Byte) (nameOffset : Word) : List Byte :=
  ((data.drop nameOffset.toNat).take 64).takeWhile (· ≠ 0)

/-- The checks and the segments that stand before the relocation stream of a module: where the stream
begins, and the segments. -/
def parseModuleSegments (data : List Byte) (headerOffset : Word) :
    Except ParseError (List Dos16mBoundSegment × Word) :=
  let header := readBwHeader data headerOffset
  let gdtOffset := headerOffset + kBwHeaderSize
  if ¬rangeValid data headerOffset kBwHeaderSize ∨ readU8 data headerOffset ≠ 0x42 ∨
      readU8 data (headerOffset + 1) ≠ 0x57 then
    .error ⟨headerOffset, "invalid DOS/16M BW header"⟩
  else if header.Invalid data headerOffset then .error ⟨headerOffset, "invalid DOS/16M BW layout"⟩
  else if ¬rangeValid data (headerOffset + 112) 64 then .error ⟨headerOffset + 112, "truncated DOS/16M module name"⟩
  else if header.gdtCount.toNat ≤ header.groupCount then
    .error ⟨headerOffset + 18, "DOS/16M relocation descriptor is missing"⟩
  else if ¬rangeValid data gdtOffset (header.gdtCount * kGdtEntrySize) then
    .error ⟨gdtOffset, "truncated DOS/16M GDT image"⟩
  else
    parseSegments data headerOffset gdtOffset header.nextHeader header.firstSelector header.groupCount 0
      (gdtOffset + header.gdtCount * kGdtEntrySize)

/-- `ParseModule`. -/
def parseModule (fuel : ℕ) (data : List Byte) (headerOffset : Word) : Option (Except ParseError Dos16mBoundModule) :=
  match parseModuleSegments data headerOffset with
  | .error e => some (.error e)
  | .ok (segments, copyCursor) =>
    let header := readBwHeader data headerOffset
    let relocationEntry := gdtEntryAt (headerOffset + kBwHeaderSize) header.groupCount
    let relocationSize := (read16 data relocationEntry).setWidth 32 + 1
    let relocationEnd := copyCursor + relocationSize
    if relocationEnd ≠ header.nextHeader then
      some (.error ⟨copyCursor, "DOS/16M RSI-2 range does not end at next header"⟩)
    else
      match relocationStream data relocationEnd fuel ⟨copyCursor, segments, 0⟩ with
      | none => none
      | some (.error e) => some (.error e)
      | some (.ok (terminal, s)) =>
        if ¬terminal then some (.error ⟨s.copyCursor, "RSI-2 stream has no terminator"⟩)
        else
          match checkTail data (relocationEnd.toNat - s.copyCursor.toNat) s.copyCursor with
          | .error e => some (.error e)
          | .ok () =>
            some (.ok
              { name := moduleName data (headerOffset + 112)
                headerFileOffset := headerOffset
                nextHeaderFileOffset := header.nextHeader
                initialCs := header.initialCs
                initialIp := header.initialIp
                relocationCount := s.relocationCount
                segments := s.segments })

/-! ## `ParseDos16mBoundModules` -/

/-- What `ParseDos16mBoundModules` returns, with the module list it leaves. -/
structure Dos16mParse where
  succeeds : Bool
  modules : List Dos16mBoundModule
  error : Option ParseError
  deriving DecidableEq, Repr

/-- A failure, with the list that it leaves. -/
def Dos16mParse.fails (modules : List Dos16mBoundModule) (error : ParseError) : Dos16mParse :=
  ⟨false, modules, some error⟩

/-- The walk along the chain of modules. -/
def walkModules (data : List Byte) : ℕ → Word → List Dos16mBoundModule → Option Dos16mParse
  | 0, _, _ => none
  | fuel + 1, cursor, modules =>
    if cursor.toNat < data.length then
      match parseModule fuel data cursor with
      | none => none
      | some (.error e) => some (.fails [] e)
      | some (.ok module) => walkModules data fuel module.nextHeaderFileOffset (modules ++ [module])
    else if modules.isEmpty then some (.fails modules ⟨cursor, "DOS/16M container has no BW modules"⟩)
    else some ⟨true, modules, none⟩

/-- The end of the MZ image, by its header. -/
def mzImageEnd (data : List Byte) : Word :=
  let lastPageBytes := (read16 data 2).setWidth 32
  let pageCount := (read16 data 4).setWidth 32
  (pageCount - 1) * 512 + (if lastPageBytes ≠ 0 then lastPageBytes else 512)

/-- `ParseDos16mBoundModules`. -/
def parseDos16mBoundModules (fuel : ℕ) (data : List Byte) : Option Dos16mParse :=
  if ¬rangeValid data 0 0x1A ∨ readU8 data 0 ≠ 0x4D ∨ readU8 data 1 ≠ 0x5A then
    some (.fails [] ⟨0, "DOS/16M container has no MZ header"⟩)
  else if read16 data 4 = 0 then some (.fails [] ⟨4, "invalid MZ page count"⟩)
  else if data.length < (mzImageEnd data).toNat then
    some (.fails [] ⟨mzImageEnd data, "MZ declared size exceeds file"⟩)
  else walkModules data fuel (mzImageEnd data) []

end Repiu.Exe
