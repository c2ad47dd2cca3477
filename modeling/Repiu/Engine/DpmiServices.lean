import Repiu.Engine.SegmentTable
import Repiu.RingIndex

/-!
# DPMI descriptor and memory services

The selector allocator and the descriptors that it hands out (`selector_table.cpp`),
the INT 31h services that allocate, change and free descriptors and blocks of DOS
memory (`HandleDpmiInterrupt31`), and the load of a segment register by the HLE
(`RecordGuestSegmentLoad`).
-/

namespace Repiu.Engine

/-- `SelectorAllocator`. -/
structure SelectorAllocator where
  valid : Bool
  nextSelector : BitVec 16
  allocatedCount : Word
deriving DecidableEq

/-- `InitializeSelectorAllocator`. -/
def initializeSelectorAllocator (firstSelector : BitVec 16) : Option SelectorAllocator :=
  if firstSelector = 0 ∨ firstSelector &&& 0x07 ≠ 0x04 then none
  else some { valid := true, nextSelector := firstSelector, allocatedCount := 0 }

/-- `AllocateSelector`. -/
def allocateSelector (allocator : SelectorAllocator) : Option (BitVec 16 × SelectorAllocator) :=
  if !allocator.valid ∨ allocator.nextSelector = 0 ∨ allocator.nextSelector > 0xFFF4 then none
  else
    some (allocator.nextSelector,
      { allocator with
        nextSelector := allocator.nextSelector + 8
        allocatedCount := allocator.allocatedCount + 1 })

/-- The descriptor takes the place of the first one with its selector, or comes last. -/
def placeDescriptor (descriptor : GuestDescriptor) : List GuestDescriptor → List GuestDescriptor
  | [] => [descriptor]
  | existing :: rest =>
    if existing.selector = descriptor.selector then descriptor :: rest
    else existing :: placeDescriptor descriptor rest

theorem selectors_placeDescriptor (descriptor : GuestDescriptor) (l : List GuestDescriptor) :
    (placeDescriptor descriptor l).map GuestDescriptor.selector =
      if descriptor.selector ∈ l.map GuestDescriptor.selector then l.map GuestDescriptor.selector
      else l.map GuestDescriptor.selector ++ [descriptor.selector] := by
  induction l with
  | nil => rfl
  | cons existing rest ih =>
    unfold placeDescriptor
    split
    case isTrue hsame => simp [hsame]
    case isFalse hother =>
      rw [List.map_cons, List.map_cons, ih]
      by_cases hmem : descriptor.selector ∈ rest.map GuestDescriptor.selector
      · rw [if_pos hmem, if_pos (List.mem_cons_of_mem _ hmem)]
      · rw [if_neg hmem, if_neg, List.cons_append]
        rw [List.mem_cons]
        rintro (hsame | hrest)
        · exact hother hsame.symm
        · exact hmem hrest

theorem nodup_placeDescriptor {descriptor : GuestDescriptor} {l : List GuestDescriptor}
    (h : (l.map GuestDescriptor.selector).Nodup) :
    ((placeDescriptor descriptor l).map GuestDescriptor.selector).Nodup := by
  rw [selectors_placeDescriptor]
  split_ifs with hmem
  · exact h
  · exact h.append (List.nodup_singleton _) (by simpa using hmem)

/-- `RegisterDescriptor`. -/
def registerDescriptor (table : SelectorTable) (descriptor : GuestDescriptor) : Option SelectorTable :=
  if !table.valid ∨ descriptor.selector = 0 then none
  else some { table with descriptors := placeDescriptor descriptor table.descriptors }

/-- `RealModeBlock`. -/
structure RealModeBlock where
  selector : BitVec 16 := 0
  offset : Word := 0
  size : Word := 0
  active : Bool := false
deriving DecidableEq

def kRealModeBlockCapacity : ℕ := 32

/-- The part of the thread context that these services read and write. `acceptedPair` stands in the shadow block. -/
structure DpmiState where
  segments : SegmentState
  acceptedPair : Fin 6 → BitVec 16 × BitVec 16
  allocator : SelectorAllocator
  blocks : List RealModeBlock
  bumpOffset : Word

/-- The registers of the interrupted guest. -/
structure DpmiRegisters where
  eax : Word
  ebx : Word
  ecx : Word
  edx : Word
  eflags : Word
  eip : Word

namespace DpmiRegisters

variable (r : DpmiRegisters)

def ax : BitVec 16 := r.eax.setWidth 16
def bx : BitVec 16 := r.ebx.setWidth 16
def cx : BitVec 16 := r.ecx.setWidth 16
def dx : BitVec 16 := r.edx.setWidth 16

/-- `CX:DX`. -/
def cxDx : Word := (r.ecx &&& 0xFFFF) <<< 16 ||| (r.edx &&& 0xFFFF)

/-- The low half of a register is replaced. -/
def withLow (x : Word) (low : BitVec 16) : Word := (x &&& 0xFFFF0000) ||| low.setWidth 32

/-- The interrupt returns behind its two bytes without carry. -/
def succeeds : DpmiRegisters := { r with eflags := r.eflags &&& ~~~1, eip := r.eip + 2 }

/-- The interrupt returns with an error in AX and carry. -/
def failsWith (error : BitVec 16) : DpmiRegisters :=
  { r with eax := withLow r.eax error, eflags := r.eflags ||| 1, eip := r.eip + 2 }

def carry : Bool := r.eflags.getLsbD 0

end DpmiRegisters

namespace DpmiState

def table (s : DpmiState) : SelectorTable := s.segments.selectorTable

def setTable (s : DpmiState) (table : SelectorTable) : DpmiState :=
  { s with segments := { s.segments with selectorTable := table } }

/-- The loop of service 0000: `count` more descriptors, until one cannot be had. -/
def allocateDescriptors : ℕ → DpmiState → DpmiState × Bool
  | 0, s => (s, true)
  | count + 1, s =>
    match allocateSelector s.allocator with
    | none => (s, false)
    | some (selector, allocator) =>
      let s := { s with allocator := allocator }
      match registerDescriptor s.table { selector := selector, base := 0, limit := 0, flags := 0x0092 } with
      | none => (s, false)
      | some table => allocateDescriptors count (s.setTable table)

/-- Service 0000. -/
def allocateLdtDescriptors (s : DpmiState) (r : DpmiRegisters) : DpmiState × DpmiRegisters :=
  let result := if r.cx = 0 then (s, false) else allocateDescriptors r.cx.toNat s
  if result.2 then
    let firstSelector := (allocateSelector s.allocator).elim 0 Prod.fst
    (result.1, { r with eax := DpmiRegisters.withLow r.eax firstSelector }.succeeds)
  else (result.1, r.failsWith 0x8011)

/-- Services 0007, 0008 and 0009: the descriptor in BX is changed. -/
def updateDescriptor (s : DpmiState) (r : DpmiRegisters) (update : GuestDescriptor → GuestDescriptor)
    (withdraw : DpmiState → DpmiState) : Option (DpmiState × DpmiRegisters) :=
  match findDescriptor s.table r.bx with
  | none => some (s, r.failsWith 0x8022)
  | some existing =>
    match registerDescriptor s.table (update existing) with
    | none => none
    | some table => some (withdraw (s.setTable table), r.succeeds)

/-- A selector whose base has moved leaves the alternates of the accepted pairs. -/
def withdrawAlternates (selector : BitVec 16) (s : DpmiState) : DpmiState :=
  match s.segments.shadowSelectors with
  | none => s
  | some _ =>
    { s with acceptedPair := fun seg =>
        if (s.acceptedPair seg).2 = selector then ((s.acceptedPair seg).1, 0) else s.acceptedPair seg }

def setSegmentBase (s : DpmiState) (r : DpmiRegisters) : Option (DpmiState × DpmiRegisters) :=
  s.updateDescriptor r (fun existing => { existing with base := r.cxDx }) (withdrawAlternates r.bx)

def setSegmentLimit (s : DpmiState) (r : DpmiRegisters) : Option (DpmiState × DpmiRegisters) :=
  s.updateDescriptor r (fun existing => { existing with limit := r.cxDx }) id

def setAccessRights (s : DpmiState) (r : DpmiRegisters) : Option (DpmiState × DpmiRegisters) :=
  s.updateDescriptor r (fun existing => { existing with flags := r.ecx &&& 0xFFFF }) id

/-- Service 0100: what an allocation of DOS memory leaves, with its segment and selector. -/
def allocateBlock (s : DpmiState) (size : Word) : DpmiState × Option (BitVec 16 × BitVec 16) :=
  if size > 0 ∧ (s.bumpOffset + size).toNat ≤ kDosLowMemorySize then
    match s.blocks.findIdx? (fun block => !block.active) with
    | none => (s, none)
    | some index =>
      match allocateSelector s.allocator with
      | none => (s, none)
      | some (selector, allocator) =>
        let s := { s with allocator := allocator }
        let offset := s.bumpOffset
        match registerDescriptor s.table { selector := selector, base := offset, limit := size - 1, flags := 0x0092 } with
        | none => (s, none)
        | some table =>
          let s := s.setTable table
          ({ s with
              blocks := s.blocks.set index { selector := selector, offset := offset, size := size, active := true }
              bumpOffset := (offset + size + 15) &&& ~~~15 },
            some ((offset / 16).setWidth 16, selector))
  else (s, none)

def allocateDosMemory (s : DpmiState) (r : DpmiRegisters) : DpmiState × DpmiRegisters :=
  let result := s.allocateBlock (r.bx.setWidth 32 * 16)
  match result.2 with
  | none => (result.1, r.failsWith 0x8011)
  | some (segment, selector) =>
    (result.1,
      { r with eax := DpmiRegisters.withLow r.eax segment, edx := DpmiRegisters.withLow r.edx selector }.succeeds)

/-- Service 0101. The result of `RegisterDescriptor` is not looked at. -/
def freeDosMemory (s : DpmiState) (r : DpmiRegisters) : DpmiState × DpmiRegisters :=
  match s.blocks.findIdx? (fun block => block.active && block.selector = r.dx) with
  | none => (s, r.failsWith 0x8022)
  | some index =>
    let block := s.blocks.getD index {}
    let table := registerDescriptor s.table
      { selector := r.dx, base := block.offset, limit := block.size - 1, flags := 0x0092, present := false }
    let s := s.setTable (table.getD s.table)
    ({ s with blocks := s.blocks.set index { block with active := false } }, r.succeeds)

/-- The guest's selectors as the shadow block has them. -/
def synced (s : DpmiState) : DpmiState := { s with segments := syncGuestSegmentsFromShadow s.segments }

/-- `HandleDpmiInterrupt31`, as far as these services go. -/
def handleDpmiInterrupt31 (s : DpmiState) (r : DpmiRegisters) : Option (DpmiState × DpmiRegisters) :=
  let s := s.synced
  if r.ax = 0x0000 then some (s.allocateLdtDescriptors r)
  else if r.ax = 0x0007 then s.setSegmentBase r
  else if r.ax = 0x0008 then s.setSegmentLimit r
  else if r.ax = 0x0009 then s.setAccessRights r
  else if r.ax = 0x0100 then some (s.allocateDosMemory r)
  else if r.ax = 0x0101 then some (s.freeDosMemory r)
  else none

/-- Which service a call is. -/
theorem handleDpmiInterrupt31_cases {s s' : DpmiState} {r r' : DpmiRegisters}
    (h : s.handleDpmiInterrupt31 r = some (s', r')) :
    (r.ax = 0x0000 ∧ s.synced.allocateLdtDescriptors r = (s', r')) ∨
    (r.ax = 0x0007 ∧ s.synced.setSegmentBase r = some (s', r')) ∨
    (r.ax = 0x0008 ∧ s.synced.setSegmentLimit r = some (s', r')) ∨
    (r.ax = 0x0009 ∧ s.synced.setAccessRights r = some (s', r')) ∨
    (r.ax = 0x0100 ∧ s.synced.allocateDosMemory r = (s', r')) ∨
    (r.ax = 0x0101 ∧ s.synced.freeDosMemory r = (s', r')) := by
  unfold handleDpmiInterrupt31 at h
  dsimp only at h
  split at h
  case isTrue hax => exact .inl ⟨hax, Option.some.inj h⟩
  right
  split at h
  case isTrue hax => exact .inl ⟨hax, h⟩
  right
  split at h
  case isTrue hax => exact .inl ⟨hax, h⟩
  right
  split at h
  case isTrue hax => exact .inl ⟨hax, h⟩
  right
  split at h
  case isTrue hax => exact .inl ⟨hax, Option.some.inj h⟩
  right
  split at h
  case isTrue hax => exact ⟨hax, Option.some.inj h⟩
  cases h

/-- The flat members of the accepted pairs; CS has none. -/
def seedAotShadowAcceptedPairs (s : DpmiState) (flatDataSelector flatStackSelector : BitVec 16) : DpmiState :=
  { s with acceptedPair := fun seg =>
      if seg = 1 then s.acceptedPair seg
      else (if seg = 2 then flatStackSelector else flatDataSelector, (s.acceptedPair seg).2) }

/-- A selector without a present descriptor gets one for low memory. -/
def describeSelector (s : DpmiState) (selector : BitVec 16) : DpmiState :=
  if selector ≠ 0 ∧ findDescriptor s.table selector = none then
    s.setTable ((registerDescriptor s.table
      { selector := selector, base := 0, limit := BitVec.ofNat 32 (kDosLowMemorySize - 1) }).getD s.table)
  else s

/-- The registers that have an accepted alternate: ES, DS, FS and GS. -/
def hasAlternate (seg : Fin 6) : Bool := seg = 0 ∨ seg = 3 ∨ seg = 4 ∨ seg = 5

/-- A selector of base zero becomes the accepted alternate of the register. -/
def acceptAlternate (s : DpmiState) (seg : Fin 6) (selector : BitVec 16) : DpmiState :=
  if hasAlternate seg ∧ selector ≠ 0 ∧ selector ≠ (s.acceptedPair seg).1 then
    match findDescriptor s.table selector with
    | none => s
    | some descriptor =>
      if descriptor.present ∧ descriptor.base = 0 then
        { s with acceptedPair := fun other =>
            if other = seg then ((s.acceptedPair seg).1, selector) else s.acceptedPair other }
      else s
  else s

/-- `RecordGuestSegmentLoad`. -/
def recordGuestSegmentLoad (s : DpmiState) (segmentRegister : Byte) (selector : BitVec 16) : DpmiState :=
  let s := s.describeSelector selector
  if h : segmentRegister.toNat < 6 then
    let seg : Fin 6 := ⟨segmentRegister.toNat, h⟩
    let s := { s with segments := { s.segments with
      guestSelectors := fun other =>
        if other = seg ∧ seg ≠ 1 then selector else s.segments.guestSelectors other } }
    match s.segments.shadowSelectors with
    | none => s
    | some block =>
      let shadow := { block with selectors := fun other => if other = seg then selector else block.selectors other }
      { s with segments := { s.segments with shadowSelectors := some shadow } }.acceptAlternate seg selector
  else s

end DpmiState

end Repiu.Engine
