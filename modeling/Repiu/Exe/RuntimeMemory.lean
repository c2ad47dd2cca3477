import Repiu.Engine.DpmiAllocation
import Repiu.Exe.ExecutableHeaders

/-!
# Runtime memory of an LE image

The plans that place the objects of an LE image and the relocated image built from one
(`runtime_memory.cpp`).  The fixup records are walked twice: once as a dry run by the plan, and
once when the image is built.

Sums that the source takes in 64 bits, and counts of records, are natural numbers.
-/

namespace Repiu.Exe

open Repiu.Engine

/-! ## The loaded image -/

/-- `LeObjectRecord`. -/
structure LeObjectRecord where
  virtualSize : Word
  relocationBaseAddress : Word
  flags : Word := 0
  pageTableIndex : Word := 1
  pageCount : Word := 0
  deriving DecidableEq, Repr

/-- `LeMappedObject`. -/
structure LeMappedObject where
  record : LeObjectRecord
  memory : List Byte := []
  copiedBytes : Word := 0
  deriving DecidableEq, Repr

/-- `LeImage`, as far as the plans read it. -/
structure LeImage where
  valid : Bool
  mappedObjects : List LeMappedObject
  deriving DecidableEq, Repr

/-- `Dos4gwLoadResult`, as far as the plans read it. -/
structure Dos4gwLoadResult where
  leHeader : LeHeader
  image : LeImage
  fixupRecordInfo : LeFixupRecordInfo := {}
  deriving DecidableEq, Repr

/-! ## `BuildRuntimeMemoryPlan` -/

/-- `RuntimeObjectRegion`. -/
structure RuntimeObjectRegion where
  objectIndex : Word
  baseAddress : Word
  virtualSize : Word
  copiedBytes : Word
  flags : Word
  deriving DecidableEq, Repr

/-- `RuntimeMemoryPlan`. -/
structure RuntimeMemoryPlan where
  valid : Bool
  objectRegions : List RuntimeObjectRegion
  entryLinearAddress : Word
  stackTopLinearAddress : Word
  hleReserveBase : Word
  totalObjectVirtualBytes : ℕ
  entryValid : Bool
  stackValid : Bool
  deriving DecidableEq, Repr

/-- `kRuntimePageSize`. -/
def kRuntimePageSize : Word := 4096

/-- `AlignUp`. -/
def alignUp (value alignment : Word) : Word :=
  let remainder := value % alignment
  if remainder = 0 then value else value + (alignment - remainder)

/-- `SetError`, at no place in the file. -/
def planError (message : String) : ParseError := ⟨0, message⟩

/-- The end of an object, in 64 bits. -/
def LeMappedObject.regionEnd (object : LeMappedObject) : ℕ :=
  object.record.relocationBaseAddress.toNat + object.record.virtualSize.toNat

/-- The region planned for an object. -/
def runtimeObjectRegion (index : ℕ) (object : LeMappedObject) : RuntimeObjectRegion where
  objectIndex := BitVec.ofNat 32 (index + 1)
  baseAddress := object.record.relocationBaseAddress
  virtualSize := object.record.virtualSize
  copiedBytes := object.copiedBytes
  flags := object.record.flags

/-- `object_regions[object - 1]`, where there is one. -/
def regionOfObject {α : Type} (regions : List α) (object : Word) : Option α :=
  if 0 < object ∧ object.toNat ≤ regions.length then regions[object.toNat - 1]? else none

/-- `BuildRuntimeMemoryPlan`. -/
def buildRuntimeMemoryPlan (load : Dos4gwLoadResult) : Except ParseError RuntimeMemoryPlan :=
  if ¬load.image.valid then .error (planError "LE image is not valid")
  else
    let regions := load.image.mappedObjects.mapIdx runtimeObjectRegion
    let maxRegionEnd := load.image.mappedObjects.foldl (fun last object => max last object.regionEnd) 0
    if 0xFFFFFFFF < maxRegionEnd then .error (planError "runtime object range exceeds 32-bit address space")
    else
      let header := load.leHeader
      let entry := (regionOfObject regions header.entryObject).filter fun r => header.entryOffset < r.virtualSize
      let stack := (regionOfObject regions header.stackObject).filter fun r => header.stackOffset ≤ r.virtualSize
      let hleReserveBase := alignUp (BitVec.ofNat 32 maxRegionEnd) kRuntimePageSize
      -- without a stack object the stack lies below the reserve
      let bareStack := stack.isNone ∧ header.stackObject = 0
      .ok
        { valid := entry.isSome ∧ (stack.isSome ∨ bareStack)
          objectRegions := regions
          entryLinearAddress := entry.elim 0 fun r => r.baseAddress + header.entryOffset
          stackTopLinearAddress :=
            if bareStack then hleReserveBase else stack.elim 0 fun r => r.baseAddress + header.stackOffset
          hleReserveBase := hleReserveBase
          totalObjectVirtualBytes := (load.image.mappedObjects.map fun object => object.record.virtualSize.toNat).sum
          entryValid := entry.isSome
          stackValid := stack.isSome ∨ bareStack }

/-! ## `BuildRelocatableRuntimeImagePlan` -/

/-- `RelocatableRuntimeObjectRegion`. -/
structure RelocatableRuntimeObjectRegion where
  objectIndex : Word
  originalBaseAddress : Word
  relocatedBaseAddress : Word
  virtualSize : Word
  copiedBytes : Word
  flags : Word
  deriving DecidableEq, Repr

/-- `RelocatableRuntimeRelocationDryRun`. -/
structure RelocatableRuntimeRelocationDryRun where
  valid : Bool := false
  appliedCount : ℕ := 0
  skippedCount : ℕ := 0
  unsupportedSourceTypeCount : ℕ := 0
  sourceOutOfRangeCount : ℕ := 0
  failedCount : ℕ := 0
  firstRelocatedValue : Word := 0
  firstOriginalValue : Word := 0
  firstSourceObject : Word := 0
  firstSourceObjectOffset : Word := 0
  firstTargetObject : Word := 0
  firstTargetOffset : Word := 0
  hasFirstApplied : Bool := false
  deriving DecidableEq, Repr

/-- `RelocatableRuntimeImagePlan`. -/
structure RelocatableRuntimeImagePlan where
  valid : Bool
  originalImageBase : Word
  relocatedImageBase : Word
  relocationDelta : Word
  relocatedHleReserveBase : Word
  relocatedEntryLinearAddress : Word
  relocatedStackTopLinearAddress : Word
  totalObjectVirtualBytes : ℕ
  entryValid : Bool
  stackValid : Bool
  objectRegions : List RelocatableRuntimeObjectRegion
  relocationDryRun : RelocatableRuntimeRelocationDryRun
  deriving DecidableEq, Repr

/-- The region planned for an object that is moved. -/
def relocatableObjectRegion (delta : Word) (index : ℕ) (object : LeMappedObject) : RelocatableRuntimeObjectRegion where
  objectIndex := BitVec.ofNat 32 (index + 1)
  originalBaseAddress := object.record.relocationBaseAddress
  relocatedBaseAddress := BitVec.ofNat 32 (object.record.relocationBaseAddress.toNat + delta.toNat)
  virtualSize := object.record.virtualSize
  copiedBytes := object.copiedBytes
  flags := object.record.flags

/-- The end of an object that is moved, in 64 bits. -/
def LeMappedObject.relocatedEnd (delta : Word) (object : LeMappedObject) : ℕ :=
  object.record.relocationBaseAddress.toNat + delta.toNat + object.record.virtualSize.toNat

/-- The object loop, from an index on. -/
def planRegions (delta : Word) : ℕ → List LeMappedObject → Except ParseError (List RelocatableRuntimeObjectRegion)
  | _, [] => .ok []
  | index, object :: objects =>
    if 0xFFFFFFFF < object.relocatedEnd delta then
      .error (planError "relocated runtime object exceeds 32-bit address space")
    else
      match planRegions delta (index + 1) objects with
      | .error e => .error e
      | .ok regions => .ok (relocatableObjectRegion delta index object :: regions)

/-- `FindRelocatedObject`. -/
def findRelocatedObject (regions : List RelocatableRuntimeObjectRegion) (objectIndex : Word) :
    Option RelocatableRuntimeObjectRegion :=
  regions.find? fun region => region.objectIndex = objectIndex

/-- `FindSourceObjectForPage`, from an object on: the object with the page, its index and the offset
in it.  Source offsets are signed. -/
def findSourceObjectForPage (record : LeFixupRecord) (pageSize : Word) :
    ℕ → List LeMappedObject → Option (LeMappedObject × Word × Word)
  | _, [] => none
  | index, candidate :: rest =>
    let firstPage := candidate.record.pageTableIndex - 1
    if firstPage ≤ record.pageIndex ∧ record.pageIndex < firstPage + candidate.record.pageCount then
      let offset : ℤ := (record.pageIndex - firstPage).toNat * pageSize.toNat + record.sourceOffset.toInt
      if offset < 0 ∨ 0xFFFFFFFF < offset then none
      else some (candidate, BitVec.ofNat 32 (index + 1), BitVec.ofInt 32 offset)
    else findSourceObjectForPage record pageSize (index + 1) rest

/-- The low bits of a source type. -/
def sourceKind (record : LeFixupRecord) : Byte := record.sourceType &&& 0x0F

/-- No four bytes of an object begin at an offset. -/
def outOfRange (memory : List Byte) (offset : Word) : Prop :=
  memory.length < offset.toNat ∨ memory.length - offset.toNat < 4

instance (memory : List Byte) (offset : Word) : Decidable (outOfRange memory offset) :=
  inferInstanceAs (Decidable (_ ∨ _))

/-- The first record that is applied is remembered. -/
def RelocatableRuntimeRelocationDryRun.noteApplied (run : RelocatableRuntimeRelocationDryRun)
    (relocatedValue originalValue sourceObject sourceObjectOffset : Word) (record : LeFixupRecord) :
    RelocatableRuntimeRelocationDryRun :=
  if run.hasFirstApplied then { run with appliedCount := run.appliedCount + 1 }
  else
    { run with
      appliedCount := run.appliedCount + 1
      firstRelocatedValue := relocatedValue
      firstOriginalValue := originalValue
      firstSourceObject := sourceObject
      firstSourceObjectOffset := sourceObjectOffset
      firstTargetObject := record.targetObject
      firstTargetOffset := record.targetOffset
      hasFirstApplied := true }

/-- A record of a kind that is not supported is skipped. -/
def RelocatableRuntimeRelocationDryRun.skipUnsupported (run : RelocatableRuntimeRelocationDryRun) :
    RelocatableRuntimeRelocationDryRun :=
  { run with
    unsupportedSourceTypeCount := run.unsupportedSourceTypeCount + 1
    skippedCount := run.skippedCount + 1 }

/-- A record whose source lies outside its object is skipped. -/
def RelocatableRuntimeRelocationDryRun.skipOutOfRange (run : RelocatableRuntimeRelocationDryRun) :
    RelocatableRuntimeRelocationDryRun :=
  { run with
    sourceOutOfRangeCount := run.sourceOutOfRangeCount + 1
    skippedCount := run.skippedCount + 1 }

/-- The record walk of the plan. -/
def dryRunRecords (load : Dos4gwLoadResult) (regions : List RelocatableRuntimeObjectRegion) :
    List LeFixupRecord → RelocatableRuntimeRelocationDryRun → Except ParseError RelocatableRuntimeRelocationDryRun
  | [], run => .ok run
  | record :: records, run =>
    if sourceKind record ≠ 0x07 then dryRunRecords load regions records run.skipUnsupported
    else
      match findRelocatedObject regions record.targetObject with
      | none => .error (planError "relocatable relocation target object is invalid")
      | some target =>
        match findSourceObjectForPage record load.leHeader.pageSize 0 load.image.mappedObjects with
        | none => .error (planError "relocatable relocation source page is invalid")
        | some (source, sourceIndex, sourceOffset) =>
          if outOfRange source.memory sourceOffset then dryRunRecords load regions records run.skipOutOfRange
          else
            dryRunRecords load regions records
              (run.noteApplied (target.relocatedBaseAddress + record.targetOffset)
                (target.originalBaseAddress + record.targetOffset) sourceIndex sourceOffset record)

/-- `BuildRelocatableRuntimeImagePlan`. -/
def buildRelocatableRuntimeImagePlan (load : Dos4gwLoadResult) (relocatedImageBase : Word) :
    Except ParseError RelocatableRuntimeImagePlan :=
  if ¬load.image.valid ∨ ¬load.fixupRecordInfo.valid then
    .error (planError "LE image or fixup records are invalid")
  else
    match load.image.mappedObjects with
    | [] => .error (planError "LE image has no mapped objects")
    | front :: _ =>
      let originalImageBase := load.image.mappedObjects.foldl
        (fun base object => if object.record.relocationBaseAddress < base then object.record.relocationBaseAddress
          else base) front.record.relocationBaseAddress
      if relocatedImageBase < originalImageBase then
        .error (planError "relocated image base is below original image base")
      else
        let delta := relocatedImageBase - originalImageBase
        match planRegions delta 0 load.image.mappedObjects with
        | .error e => .error e
        | .ok regions =>
          let maxRegionEnd :=
            load.image.mappedObjects.foldl (fun last object => max last (object.relocatedEnd delta)) 0
          let header := load.leHeader
          let entry := (regionOfObject regions header.entryObject).filter fun r => header.entryOffset < r.virtualSize
          let stack := (regionOfObject regions header.stackObject).filter fun r => header.stackOffset ≤ r.virtualSize
          let hleReserveBase := alignUp (BitVec.ofNat 32 maxRegionEnd) kRuntimePageSize
          let bareStack := stack.isNone ∧ header.stackObject = 0
          match dryRunRecords load regions load.fixupRecordInfo.records {} with
          | .error e => .error e
          | .ok run =>
            .ok
              { valid := entry.isSome ∧ (stack.isSome ∨ bareStack)
                originalImageBase := originalImageBase
                relocatedImageBase := relocatedImageBase
                relocationDelta := delta
                relocatedHleReserveBase := hleReserveBase
                relocatedEntryLinearAddress := entry.elim 0 fun r => r.relocatedBaseAddress + header.entryOffset
                relocatedStackTopLinearAddress :=
                  if bareStack then hleReserveBase
                  else stack.elim 0 fun r => r.relocatedBaseAddress + header.stackOffset
                totalObjectVirtualBytes :=
                  (load.image.mappedObjects.map fun object => object.record.virtualSize.toNat).sum
                entryValid := entry.isSome
                stackValid := stack.isSome ∨ bareStack
                objectRegions := regions
                relocationDryRun := { run with valid := true } }

/-! ## `BuildRelocatedRuntimeImage` -/

/-- `RelocatedRuntimeObject`. -/
structure RelocatedRuntimeObject where
  objectIndex : Word
  relocatedBaseAddress : Word
  virtualSize : Word
  flags : Word
  memory : List Byte
  deriving DecidableEq, Repr

/-- `RuntimeCodeModeRange`. -/
structure RuntimeCodeModeRange where
  relocatedBaseAddress : Word
  virtualSize : Word
  objectFlags : Word
  deriving DecidableEq, Repr

/-- `RelocatedSelectorBinding`. -/
structure RelocatedSelectorBinding where
  selector : BitVec 16
  targetObject : Word
  relocatedBaseAddress : Word
  limit : Word
  objectFlags : Word
  deriving DecidableEq, Repr

/-- `RelocatedRuntimeImage`. -/
structure RelocatedRuntimeImage where
  valid : Bool := false
  relocatedImageBase : Word
  relocatedHleReserveBase : Word
  relocatedEntryLinearAddress : Word
  relocatedStackTopLinearAddress : Word
  objects : List RelocatedRuntimeObject := []
  codeModeRanges : List RuntimeCodeModeRange := []
  selectorBindings : List RelocatedSelectorBinding := []
  selectorBindingRecordCount : ℕ := 0
  selectorBindingConflictCount : ℕ := 0
  relocationResult : RelocatableRuntimeRelocationDryRun := {}
  deriving DecidableEq, Repr

/-- `kPiuDos4gwFirstObjectSelector`. -/
def kPiuDos4gwFirstObjectSelector : BitVec 16 := 0x1C

/-- `kLeObjectExecutable`. -/
def kLeObjectExecutable : Word := 0x4

/-- An object joins the image; an executable one is a code-mode range too. -/
def RelocatedRuntimeImage.place (image : RelocatedRuntimeImage) (region : RelocatableRuntimeObjectRegion)
    (memory : List Byte) : RelocatedRuntimeImage :=
  let object : RelocatedRuntimeObject :=
    ⟨region.objectIndex, region.relocatedBaseAddress, region.virtualSize, region.flags, memory⟩
  let range : RuntimeCodeModeRange := ⟨region.relocatedBaseAddress, region.virtualSize, region.flags⟩
  { image with
    objects := image.objects ++ [object]
    codeModeRanges :=
      if region.flags &&& kLeObjectExecutable ≠ 0 then image.codeModeRanges ++ [range] else image.codeModeRanges }

/-- A region is bound to a selector. -/
def RelocatedRuntimeImage.bind (image : RelocatedRuntimeImage) (region : RelocatableRuntimeObjectRegion)
    (selector : BitVec 16) : RelocatedRuntimeImage :=
  let binding : RelocatedSelectorBinding :=
    ⟨selector, region.objectIndex, region.relocatedBaseAddress, region.virtualSize - 1, region.flags⟩
  { image with selectorBindings := image.selectorBindings ++ [binding] }

/-- The object loop: every region gets its memory and a selector. -/
def bindObjects (objects : List LeMappedObject) :
    List RelocatableRuntimeObjectRegion → SelectorAllocator → RelocatedRuntimeImage →
      Except ParseError RelocatedRuntimeImage
  | [], _, image => .ok image
  | region :: regions, allocator, image =>
    if region.objectIndex = 0 ∨ objects.length < region.objectIndex.toNat then
      .error (planError "relocated runtime object index is invalid")
    else
      let memory := (objects[region.objectIndex.toNat - 1]?).elim [] LeMappedObject.memory
      match if region.virtualSize = 0 then none else allocateSelector allocator with
      | none => .error (planError "LE object selector binding is invalid")
      | some (selector, allocator) =>
        bindObjects objects regions allocator ((image.place region memory).bind region selector)

/-- `ReadLe32`, from the memory of an object. -/
def readMemoryLe32 (memory : List Byte) (offset : Word) : Word := readLe32 memory offset

/-- Bytes put at an offset, one after the other. -/
def writeMemory (memory : List Byte) (offset : Word) : List Byte → List Byte
  | [] => memory
  | b :: bs => writeMemory (memory.set offset.toNat b) (offset + 1) bs

/-- `FindRelocatedImageObject`. -/
def findRelocatedImageObject (objects : List RelocatedRuntimeObject) (objectIndex : Word) :
    Option RelocatedRuntimeObject :=
  objects.find? fun object => object.objectIndex = objectIndex

/-- The memory of the first object with an index is written. -/
def writeObject (objectIndex offset : Word) (bytes : List Byte) :
    List RelocatedRuntimeObject → List RelocatedRuntimeObject
  | [] => []
  | object :: objects =>
    if object.objectIndex = objectIndex then
      { object with memory := writeMemory object.memory offset bytes } :: objects
    else object :: writeObject objectIndex offset bytes objects

/-- A 16:16 record: the offset and the selector of its target object. -/
def applySelectorRecord (record : LeFixupRecord) (sourceIndex sourceOffset : Word) (image : RelocatedRuntimeImage)
    (run : RelocatableRuntimeRelocationDryRun) : RelocatedRuntimeImage × RelocatableRuntimeRelocationDryRun :=
  let counted := { image with selectorBindingRecordCount := image.selectorBindingRecordCount + 1 }
  match image.selectorBindings.find? fun candidate => candidate.targetObject = record.targetObject with
  | none =>
    ({ counted with selectorBindingConflictCount := counted.selectorBindingConflictCount + 1 },
      { run with failedCount := run.failedCount + 1 })
  | some existing =>
    ({ counted with
        objects := writeObject sourceIndex (sourceOffset + 2) (le16 existing.selector)
          (writeObject sourceIndex sourceOffset (le16 (record.targetOffset.setWidth 16)) counted.objects) },
      { run with appliedCount := run.appliedCount + 1 })

/-- The record walk of the build. -/
def applyRecords (load : Dos4gwLoadResult) (plan : RelocatableRuntimeImagePlan) :
    List LeFixupRecord → RelocatedRuntimeImage → RelocatableRuntimeRelocationDryRun →
      Except ParseError (RelocatedRuntimeImage × RelocatableRuntimeRelocationDryRun)
  | [], image, run => .ok (image, run)
  | record :: records, image, run =>
    if sourceKind record ≠ 0x07 ∧ sourceKind record ≠ 0x03 then
      applyRecords load plan records image run.skipUnsupported
    else
      match findRelocatedObject plan.objectRegions record.targetObject with
      | none => .error (planError "relocated image target object is invalid")
      | some target =>
        match findSourceObjectForPage record load.leHeader.pageSize 0 load.image.mappedObjects with
        | none => .error (planError "relocated image source page is invalid")
        | some (_, sourceIndex, sourceOffset) =>
          match findRelocatedImageObject image.objects sourceIndex with
          | none => .error (planError "relocated image source object is invalid")
          | some source =>
            if outOfRange source.memory sourceOffset then applyRecords load plan records image run.skipOutOfRange
            else if sourceKind record = 0x03 then
              let applied := applySelectorRecord record sourceIndex sourceOffset image run
              applyRecords load plan records applied.1 applied.2
            else
              let relocatedValue := target.relocatedBaseAddress + record.targetOffset
              applyRecords load plan records
                { image with objects := writeObject sourceIndex sourceOffset (le32 relocatedValue) image.objects }
                (run.noteApplied relocatedValue (readMemoryLe32 source.memory sourceOffset) sourceIndex sourceOffset
                  record)

/-- `BuildRelocatedRuntimeImage`. -/
def buildRelocatedRuntimeImage (load : Dos4gwLoadResult) (plan : RelocatableRuntimeImagePlan) :
    Except ParseError RelocatedRuntimeImage :=
  if ¬load.image.valid ∨ ¬load.fixupRecordInfo.valid ∨ ¬plan.valid then
    .error (planError "relocated runtime image input is invalid")
  else
    match initializeSelectorAllocator kPiuDos4gwFirstObjectSelector with
    | none => .error (planError "DOS4GW object selector allocator is invalid")
    | some allocator =>
      match bindObjects load.image.mappedObjects plan.objectRegions allocator
          { relocatedImageBase := plan.relocatedImageBase
            relocatedHleReserveBase := plan.relocatedHleReserveBase
            relocatedEntryLinearAddress := plan.relocatedEntryLinearAddress
            relocatedStackTopLinearAddress := plan.relocatedStackTopLinearAddress } with
      | .error e => .error e
      | .ok image =>
        match applyRecords load plan load.fixupRecordInfo.records image {} with
        | .error e => .error e
        | .ok (image, run) => .ok { image with valid := true, relocationResult := { run with valid := true } }

end Repiu.Exe
