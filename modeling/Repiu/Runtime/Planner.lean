import Repiu.Runtime.TranslationPlan

/-!
# Planner

`BuildAotTranslationPlanFromEntry` and its helpers (`aot_translation_plan.cpp`):
a depth-first walk over the reachable guest code, one basic block at a time,
followed by sweeps that turn guarded indirect jumps into jump tables.
-/

namespace Repiu.Runtime

open Repiu.X86

/-! ## Reading the guest image -/

/-- `FindBytes`: the guest bytes at an address, when an object holds at least `count` of them. -/
def findBytes (image : RelocatedRuntimeImage) (address : Word) (count : ℕ) : Option (List Byte) :=
  (image.objects.find? fun o =>
    o.relocatedBaseAddress.toNat ≤ address.toNat ∧
      address.toNat - o.relocatedBaseAddress.toNat + count ≤ o.bytes.length).map
    fun o => o.bytes.drop (address.toNat - o.relocatedBaseAddress.toNat)

/-- An address range of the image that contains an address. -/
def rangeContains (base size address : Word) : Bool :=
  size ≠ 0 ∧ base.toNat ≤ address.toNat ∧ address.toNat - base.toNat < size.toNat

/-- The operand size an object's flags select. -/
def operandSizeOfFlags (flags : Word) : GuestCodeDefaultOperandSize :=
  if flags &&& kLeObjectBigDefault ≠ 0 then .k32 else .k16

/-- `GuestCodeDefaultOperandSizeForAddress`. -/
def guestCodeDefaultOperandSizeForAddress (image : RelocatedRuntimeImage) (address : Word) :
    GuestCodeDefaultOperandSize :=
  match image.codeModeRanges.find? fun r =>
      rangeContains r.relocatedBaseAddress r.virtualSize address with
  | some r => operandSizeOfFlags r.objectFlags
  | none =>
    match image.objects.find? fun o =>
        o.flags &&& kLeObjectExecutable ≠ 0 ∧
          rangeContains o.relocatedBaseAddress o.virtualSize address with
    | some o => operandSizeOfFlags o.flags
    | none => .k32

/-- `FindCodeSegmentBase`. -/
def findCodeSegmentBase (ranges : List RuntimeCodeModeRange) (address : Word) : Option Word :=
  (ranges.find? fun r => rangeContains r.relocatedBaseAddress r.virtualSize address).map
    (·.relocatedBaseAddress)

/-- `ReadDirectTarget`. -/
def readDirectTarget (i : Instruction) (address : Word) (codeMode : GuestCodeDefaultOperandSize)
    (codeSegmentBase : Word) : Option Word :=
  match i.visible with
  | [] => none
  | op :: _ =>
    match op.kind with
    | .immediate _ true _ =>
      if i.definition.farBranch then none
      else
        match i.absoluteAddress op address with
        | none => none
        | some absolute =>
          if 2 ^ 32 ≤ absolute then none
          else if codeMode = .k16 then
            if i.addressWidth ≠ 16 then none
            else
              let linear := (codeSegmentBase.toNat : ℤ) + absolute % 2 ^ 16
              if 2 ^ 32 ≤ linear then none else some (BitVec.ofInt 32 linear)
          else some (BitVec.ofInt 32 absolute)
    | _ => none

/-! ## Instruction predicates -/

/-- `IsTranslatableSegmentOverrideMem`: the segment of the first visible memory operand. -/
def isTranslatableSegmentOverrideMem (i : Instruction) : Option ℕ :=
  if ¬i.hasSegment ∨ i.definition.privileged ∨ i.modrm.isNone then none
  else
    (i.visible.findSome? fun op =>
      match op.kind with
      | .memory m =>
        match m.segment with
        | .segment s => some (if s = 1 then none else some s)
        | _ => some none
      | _ => none).join

/-- `ReadGuardedSegmentPopRegister`. -/
def readGuardedSegmentPopRegister (i : Instruction) (bytes : List Byte) : Option ℕ :=
  if i.length = 1 ∧ bytes[0]? = some 0x07 then some 0
  else if i.length = 1 ∧ bytes[0]? = some 0x1F then some 3
  else if i.length = 2 ∧ bytes[0]? = some 0x0F ∧ bytes[1]? = some 0xA1 then some 4
  else if i.length = 2 ∧ bytes[0]? = some 0x0F ∧ bytes[1]? = some 0xA9 then some 5
  else none

/-- `ReadGuardedSegmentPushRegister`. -/
def readGuardedSegmentPushRegister (i : Instruction) (bytes : List Byte) : Option ℕ :=
  if i.operandWidth ≠ 32 then none
  else if i.length = 1 ∧ bytes[0]? = some 0x06 then some 0
  else if i.length = 1 ∧ bytes[0]? = some 0x1E then some 3
  else if i.length = 2 ∧ bytes[0]? = some 0x0F ∧ bytes[1]? = some 0xA0 then some 4
  else if i.length = 2 ∧ bytes[0]? = some 0x0F ∧ bytes[1]? = some 0xA8 then some 5
  else none

/-- `ReadGuardedSegmentLoadRegisters`: segment and source of `mov sreg, r/m16`. -/
def readGuardedSegmentLoadRegisters (i : Instruction) : Option (ℕ × ℕ) :=
  if i.mnemonic ≠ .mov then none
  else
    match i.visible with
    | [dst, src] =>
      match dst.kind with
      | .register (.segment s) =>
        if s ≠ 0 ∧ s ≠ 3 ∧ s ≠ 4 ∧ s ≠ 5 then none
        else
          match src.kind with
          | .memory m =>
            if i.addressWidth ≠ 32 then none
            else if i.prefixes.any fun b => b ≠ 0x66 ∧ b ≠ 0x2E then none
            else if m.segment = .segment 1 ∨ m.segment = .segment 3 ∨ m.segment = .segment 2 then
              some (s, kAotSegmentLoadMemorySource)
            else none
          | .register (.gpr16 g) => if g ≤ 7 ∧ g ≠ 4 then some (s, g) else none
          | _ => none
      | _ => none
    | _ => none

/-- `ReadGuardedSegmentReadRegisters`: segment and destination of `mov r, sreg`. -/
def readGuardedSegmentReadRegisters (i : Instruction) : Option (ℕ × ℕ) :=
  if i.mnemonic ≠ .mov then none
  else
    match i.visible with
    | [dst, src] =>
      match src.kind with
      | .register (.segment s) =>
        match dst.kind with
        | .register (.gpr16 g) | .register (.gpr32 g) =>
          if g ≤ 7 ∧ (s = 0 ∨ s = 2 ∨ s = 3 ∨ s = 4 ∨ s = 5) then some (s, g) else none
        | _ => none
      | _ => none
    | _ => none

/-- `ReadGuardedPortIoInstruction`. -/
def readGuardedPortIoInstruction (i : Instruction) : Bool :=
  (i.mnemonic = .in ∨ i.mnemonic = .out) ∧
    i.visible.any fun op => op.kind = .register (.gpr16 2)

/-- `IsHleBoundary`. -/
def isHleBoundary (i : Instruction) : Bool :=
  if i.mnemonic = .push ∧ i.visible.any Operand.isSegmentRegister then false
  else if i.definition.privileged ∨ i.hasSegment then true
  else if i.visible.any Operand.isSegmentRegister then true
  else
    match i.category with
    | .interrupt | .io | .ioStringOp | .rdwrFsGs | .segOp | .syscall | .sysret | .system
    | .uintr => true
    | _ => false

/-- `IsMode16SegmentPushHle`. -/
def isMode16SegmentPushHle (i : Instruction) (codeMode : GuestCodeDefaultOperandSize) : Bool :=
  codeMode = .k16 ∧ i.mnemonic = .push ∧ i.prefixes = [] ∧ i.visible.any Operand.isSegmentRegister

/-! ## Jump tables -/

/-- `JumpTableGuard`. -/
structure JumpTableGuard where
  indexRegister : ℕ := 0xFF
  entryCount : ℕ := 0
  requiresLowByteNormalization : Bool := false
  zeroedRegister : ℕ := 0xFF
  deriving DecidableEq, Repr

/-- `kMaximumJumpTableEntries`. -/
def kMaximumJumpTableEntries : ℕ := 61

/-- The guards found so far, by guest address. -/
abbrev Guards := List (Word × JumpTableGuard)

/-- The guard at an address. -/
def Guards.find (guards : Guards) (address : Word) : Option JumpTableGuard :=
  (List.find? (fun p => p.1 = address) guards).map Prod.snd

/-- `emplace`: an existing guard stays. -/
def Guards.emplace (guards : Guards) (address : Word) (g : JumpTableGuard) : Bool × Guards :=
  if (guards.find address).isSome then (false, guards) else (true, guards ++ [(address, g)])

/-- `ReadGuardRegisterId`. -/
def readGuardRegisterId (r : Register) : Option ℕ :=
  match r with
  | .gpr32 id => if id ≤ 7 ∧ id ≠ 4 then some id else none
  | _ => none

/-- `ReadLowByteParentRegisterId`. -/
def readLowByteParentRegisterId (r : Register) : Option ℕ :=
  match r with
  | .gpr8 id => if id ≤ 3 then some id else none
  | _ => none

/-- `ReadJumpTableGuard`. -/
def readJumpTableGuard (table : Table) (mode : MachineMode) (compare : AotInstructionRecord) :
    Option JumpTableGuard :=
  if compare.kind ≠ .kCopy ∨ compare.mnemonic ≠ .cmp then none
  else
    match decode table mode compare.bytes with
    | none => none
    | some i =>
      match i.visible with
      | lhs :: rhs :: _ =>
        match lhs.kind, rhs.kind with
        | .register r, .immediate _ _ bound =>
          if bound < 0 ∨ (kMaximumJumpTableEntries : ℤ) < bound + 1 then none
          else
            match readGuardRegisterId r, readLowByteParentRegisterId r with
            | some id, _ => some ⟨id, bound.toNat + 1, false, 0xFF⟩
            | none, some id => some ⟨id, bound.toNat + 1, true, 0xFF⟩
            | none, none => none
        | _, _ => none
      | _ => none

/-- `MatchLowByteJumpTableNormalization`. -/
def matchLowByteJumpTableNormalization (i : Instruction) (expected : ℕ) : Bool :=
  match i.mnemonic, i.visible with
  | .and, [dst, src] =>
    match dst.kind, src.kind with
    | .register r, .immediate _ _ mask => readGuardRegisterId r = some expected ∧ mask = 0xFF
    | _, _ => false
  | _, _ => false

/-- `PropagateLowByteJumpTableGuard`. -/
def propagateLowByteJumpTableGuard (i : Instruction) (next : Word) (guard : JumpTableGuard)
    (guards : Guards) : Bool × Guards :=
  if ¬guard.requiresLowByteNormalization then (false, guards)
  else if matchLowByteJumpTableNormalization i guard.indexRegister then
    guards.emplace next
      { guard with requiresLowByteNormalization := false, zeroedRegister := 0xFF }
  else
    match i.visible with
    | [dst, src] =>
      match dst.kind, src.kind with
      | .register d, .register s =>
        match i.mnemonic with
        | .movzx =>
          match readGuardRegisterId d, readLowByteParentRegisterId s with
          | some destination, some sourceParent =>
            if sourceParent ≠ guard.indexRegister then (false, guards)
            else guards.emplace next
              { guard with
                requiresLowByteNormalization := false, indexRegister := destination,
                zeroedRegister := 0xFF }
          | _, _ => (false, guards)
        | .xor | .sub =>
          match readGuardRegisterId d, readGuardRegisterId s with
          | some destination, some source =>
            if destination ≠ source ∨ destination = guard.indexRegister then (false, guards)
            else guards.emplace next { guard with zeroedRegister := destination }
          | _, _ => (false, guards)
        | .mov =>
          if guard.zeroedRegister = 0xFF then (false, guards)
          else
            match readLowByteParentRegisterId d, readLowByteParentRegisterId s with
            | some destinationParent, some sourceParent =>
              if destinationParent ≠ guard.zeroedRegister ∨
                  sourceParent ≠ guard.indexRegister then (false, guards)
              else guards.emplace next
                { guard with
                  requiresLowByteNormalization := false, indexRegister := guard.zeroedRegister,
                  zeroedRegister := 0xFF }
            | _, _ => (false, guards)
        | _ => (false, guards)
      | _, _ => (false, guards)
    | _ => (false, guards)

/-- `MatchJumpTableBranch`: index register and table address of `jmp [reg*4 + disp32]`. -/
def matchJumpTableBranch (i : Instruction) : Option (ℕ × Word) :=
  if i.mnemonic ≠ .jmp ∨ i.definition.farBranch then none
  else
    match i.visible with
    | op :: _ =>
      match op.kind with
      | .memory m =>
        if m.base ≠ .none ∨ m.scale ≠ 4 ∨ ¬m.hasDisplacement ∨ m.displacement ≤ 0 ∨
            2 ^ 32 ≤ m.displacement then none
        else if m.segment ≠ .segment 1 ∧ m.segment ≠ .segment 3 then none
        else (readGuardRegisterId m.index).map fun id => (id, BitVec.ofInt 32 m.displacement)
      | _ => none
    | [] => none

/-- The entry loop of `ReadJumpTableTargets`; on failure the targets read so far stay. -/
def readJumpTableEntries (image : RelocatedRuntimeImage) (tableAddress : Word) :
    ℕ → ℕ → List Word → Bool × List Word
  | 0, _, targets => (true, targets)
  | n + 1, index, targets =>
    match findBytes image (tableAddress + BitVec.ofNat 32 (index * 4)) 4 with
    | some (b0 :: b1 :: b2 :: b3 :: _) =>
      let target := word32 b0 b1 b2 b3
      match findBytes image target 1 with
      | none => (false, targets)
      | some _ => readJumpTableEntries image tableAddress n (index + 1) (targets ++ [target])
    | _ => (false, targets)

/-- `ReadJumpTableTargets`. -/
def readJumpTableTargets (image : RelocatedRuntimeImage) (tableAddress : Word) (entryCount : ℕ)
    (targets : List Word) : Bool × List Word :=
  if entryCount = 0 ∨ kMaximumJumpTableEntries < entryCount ∨
      2 ^ 32 ≤ tableAddress.toNat + entryCount * 4 then (false, targets)
  else readJumpTableEntries image tableAddress entryCount 0 []

/-- `TryReclassifyJumpTable`. -/
def tryReclassifyJumpTable (table : Table) (image : RelocatedRuntimeImage) (mode : MachineMode)
    (guards : Guards) (record : AotInstructionRecord) : Bool × AotInstructionRecord :=
  if (record.kind ≠ .kHleBoundary ∧ record.kind ≠ .kIndirectExit) ∨ record.bytes = [] then
    (false, record)
  else
    match guards.find record.guestAddress with
    | none => (false, record)
    | some guard =>
      if guard.requiresLowByteNormalization then (false, record)
      else
        match decode table mode record.bytes with
        | none => (false, record)
        | some i =>
          match matchJumpTableBranch i with
          | none => (false, record)
          | some (branchRegister, tableAddress) =>
            if branchRegister ≠ guard.indexRegister then (false, record)
            else
              let (ok, targets) :=
                readJumpTableTargets image tableAddress guard.entryCount record.tableTargets
              if ok then
                (true,
                  { record with tableTargets := targets, tableIndexRegister := branchRegister })
              else (false, { record with tableTargets := targets })

/-- `TryPropagateLowByteJumpTableGuard`. -/
def tryPropagateLowByteJumpTableGuard (table : Table) (mode : MachineMode) (guards : Guards)
    (record : AotInstructionRecord) : Bool × Guards :=
  if record.kind ≠ .kCopy ∨ record.bytes = [] then (false, guards)
  else
    match guards.find record.guestAddress with
    | none => (false, guards)
    | some guard =>
      if ¬guard.requiresLowByteNormalization then (false, guards)
      else
        match decode table mode record.bytes with
        | none => (false, guards)
        | some i => propagateLowByteJumpTableGuard i record.next guard guards

/-! ## The walk -/

/-- `IsExcludedGuestAddress`. -/
def isExcludedGuestAddress (ranges : List AotExcludedGuestRange) (address : Word) : Bool :=
  ranges.any fun r => r.byteCount ≠ 0 ∧ r.guestAddress.toNat ≤ address.toNat ∧
    address.toNat < r.guestAddress.toNat + r.byteCount.toNat

/-- The record of `AppendExcludedBoundary`. -/
def excludedBoundary (address : Word) : AotInstructionRecord :=
  { guestAddress := address, kind := .kHleBoundary, length := 1 }

/-- The counter of a record's kind goes up.  The boundaries are not counted here: seven kinds
share `hle_boundary_count`. -/
def PlanCounters.count (c : PlanCounters) (r : AotInstructionRecord) : PlanCounters :=
  match r.kind with
  | .kCopy => { c with copyInstructionCount := c.copyInstructionCount + 1 }
  | .kDirectCall => { c with directCallCount := c.directCallCount + 1 }
  | .kDirectJump => { c with directJumpCount := c.directJumpCount + 1 }
  | .kConditionalBranch => { c with conditionalBranchCount := c.conditionalBranchCount + 1 }
  | .kReturn => { c with returnCount := c.returnCount + 1 }
  | .kFarReturn => { c with farReturnCount := c.farReturnCount + 1 }
  | .kIndirectExit => { c with indirectExitCount := c.indirectExitCount + 1 }
  | .kJumpTable =>
    { c with
      jumpTableCount := c.jumpTableCount + 1
      jumpTableTargetCount := c.jumpTableTargetCount + r.tableTargets.length }
  | .kHleBoundary | .kPortIo | .kSegmentOverrideMem | .kGuardedSegmentPop | .kGuardedSegmentLoad
  | .kGuardedSegmentPush | .kGuardedSegmentRead => c

/-- A sweep has turned a record into a jump table: an indirect exit no longer counts as one. -/
def PlanCounters.reclassify (c : PlanCounters) (kind : AotInstructionKind) (targets : List Word) :
    PlanCounters :=
  { c with
    indirectExitCount := c.indirectExitCount - (decide (kind ≠ .kHleBoundary)).toNat
    jumpTableCount := c.jumpTableCount + 1
    jumpTableTargetCount := c.jumpTableTargetCount + targets.length }

/-- What the planner works on: everything the outer loops carry. -/
structure PlannerState extends PlanCounters where
  blocks : List AotBasicBlock := []
  blockCount : ℕ := 0
  instructionCount : ℕ := 0
  sourceCodeBytes : ℕ := 0
  hleBoundaryCount : ℕ := 0
  outsideImageTargetCount : ℕ := 0
  decodeFailureCount : ℕ := 0
  /-- `pending`, its back at the head. -/
  pending : List Word := []
  visitedBlocks : List Word := []
  visitedInstructions : List Word := []
  guards : Guards := []
  deriving DecidableEq, Repr

/-- The inputs of a planner run. -/
structure PlannerInput where
  table : Table
  image : RelocatedRuntimeImage
  excludedRanges : List AotExcludedGuestRange
  codeModeRanges : List RuntimeCodeModeRange

/-- What one decoded instruction contributes: its record, the addresses it makes pending (in
push order), the guards after it, and whether the block goes on behind it. -/
structure Classified where
  record : AotInstructionRecord
  pushes : List Word
  guards : Guards
  goesOn : Bool
  deriving DecidableEq, Repr

/-- The branch part of the classification. -/
def classifyBranch (input : PlannerInput) (guards : Guards) (block : List AotInstructionRecord)
    (i : Instruction) (codeMode : GuestCodeDefaultOperandSize) (record : AotInstructionRecord) :
    Classified :=
  let base := if codeMode ≠ .k16 then some 0
    else findCodeSegmentBase input.codeModeRanges record.guestAddress
  match base.bind fun b => readDirectTarget i record.guestAddress codeMode b with
  | none => ⟨{ record with kind := .kIndirectExit }, [], guards, false⟩
  | some target =>
    let record := { record with directTarget := target, fallthroughTarget := record.next }
    match i.category with
    | .call => ⟨{ record with kind := .kDirectCall }, [target, record.next], guards, false⟩
    | .condBr =>
      let guards :=
        if i.mnemonic = .jnbe then
          match block.getLast? with
          | none => guards
          | some compare =>
            match readJumpTableGuard input.table (decoderMode codeMode) compare with
            | none => guards
            | some g => (guards.emplace record.next g).2
        else guards
      ⟨{ record with kind := .kConditionalBranch }, [target, record.next], guards, false⟩
    | _ => ⟨{ record with kind := .kDirectJump }, [target], guards, false⟩

/-- The classification of an instruction that is not a jump table. -/
def classifyPlain (input : PlannerInput) (guards : Guards) (block : List AotInstructionRecord)
    (i : Instruction) (codeMode : GuestCodeDefaultOperandSize) (record : AotInstructionRecord) :
    Classified :=
  let through := { record with fallthroughTarget := record.next }
  match isTranslatableSegmentOverrideMem i with
  | some s =>
    ⟨{ through with kind := .kSegmentOverrideMem, segmentOverrideRegister := s },
      [record.next], guards, false⟩
  | none =>
  match readGuardedSegmentLoadRegisters i with
  | some (s, g) =>
    ⟨{ through with kind := .kGuardedSegmentLoad, segmentRegister := s, gprRegister := g },
      [record.next], guards, false⟩
  | none =>
  match readGuardedSegmentReadRegisters i with
  | some (s, g) =>
    ⟨{ through with kind := .kGuardedSegmentRead, segmentRegister := s, gprRegister := g },
      [record.next], guards, false⟩
  | none =>
  match readGuardedSegmentPopRegister i record.bytes with
  | some s =>
    ⟨{ through with kind := .kGuardedSegmentPop, segmentRegister := s },
      [record.next], guards, false⟩
  | none =>
  match readGuardedSegmentPushRegister i record.bytes with
  | some s =>
    ⟨{ through with kind := .kGuardedSegmentPush, segmentRegister := s },
      [record.next], guards, false⟩
  | none =>
  if readGuardedPortIoInstruction i then
    ⟨{ through with kind := .kPortIo }, [record.next], guards, false⟩
  else if isHleBoundary i || isMode16SegmentPushHle i codeMode then
    ⟨{ record with kind := .kHleBoundary }, [record.next], guards, false⟩
  else if i.category = .ret then
    if i.definition.farBranch then ⟨{ record with kind := .kFarReturn }, [], guards, false⟩
    else ⟨{ record with kind := .kReturn }, [], guards, false⟩
  else if i.category = .call ∨ i.category = .condBr ∨ i.category = .uncondBr then
    classifyBranch input guards block i codeMode record
  else ⟨{ record with kind := .kCopy }, [], guards, true⟩

/-- The classification of one decoded instruction. -/
def classifyInstruction (input : PlannerInput) (guards : Guards)
    (block : List AotInstructionRecord) (i : Instruction)
    (codeMode : GuestCodeDefaultOperandSize) (record : AotInstructionRecord) : Classified :=
  match guards.find record.guestAddress with
  | none => classifyPlain input guards block i codeMode record
  | some guard =>
    if guard.requiresLowByteNormalization then
      classifyPlain input (propagateLowByteJumpTableGuard i record.next guard guards).2
        block i codeMode record
    else
      match matchJumpTableBranch i with
      | none => classifyPlain input guards block i codeMode record
      | some (branchRegister, tableAddress) =>
        if branchRegister ≠ guard.indexRegister then
          classifyPlain input guards block i codeMode record
        else
          let (ok, targets) :=
            readJumpTableTargets input.image tableAddress guard.entryCount record.tableTargets
          if ok then
            ⟨{ record with
                kind := .kJumpTable, tableIndexRegister := branchRegister,
                tableTargets := targets }, targets, guards, false⟩
          else classifyPlain input guards block i codeMode { record with tableTargets := targets }

/-- The record of a decoded instruction, before classification. -/
def decodedRecord (address : Word) (codeMode : GuestCodeDefaultOperandSize) (i : Instruction)
    (bytes : List Byte) : AotInstructionRecord :=
  { guestAddress := address, length := i.length, mnemonic := i.mnemonic,
    guestCodeDefaultOperandSize := codeMode, bytes := bytes.take i.length }

/-- `kMaximumInstructions`. -/
def kMaximumInstructions : ℕ := 2000000

/-- `kMaximumBlockInstructions`. -/
def kMaximumBlockInstructions : ℕ := 65536

/-- The kinds `hle_boundary_count` counts. -/
def countsAsHleBoundary : AotInstructionKind → Bool
  | .kHleBoundary | .kPortIo | .kSegmentOverrideMem | .kGuardedSegmentPop | .kGuardedSegmentLoad
  | .kGuardedSegmentPush | .kGuardedSegmentRead => true
  | _ => false

/-- The instruction loop of one block.  The records of the block are the second component. -/
def walkBlock (input : PlannerInput) :
    ℕ → Word → PlannerState → List AotInstructionRecord → PlannerState × List AotInstructionRecord
  | 0, _, s, block => (s, block)
  | fuel + 1, address, s, block =>
    if isExcludedGuestAddress input.excludedRanges address then
      ({ s with
          instructionCount := s.instructionCount + 1
          sourceCodeBytes := s.sourceCodeBytes + 1
          hleBoundaryCount := s.hleBoundaryCount + 1 }, block ++ [excludedBoundary address])
    else if address ∈ s.visitedInstructions then (s, block)
    else
      let s := { s with visitedInstructions := address :: s.visitedInstructions }
      match findBytes input.image address maxInstructionLength with
      | none => ({ s with outsideImageTargetCount := s.outsideImageTargetCount + 1 }, block)
      | some bytes =>
        let codeMode := guestCodeDefaultOperandSizeForAddress input.image address
        match decode input.table (decoderMode codeMode) (bytes.take maxInstructionLength) with
        | none => ({ s with decodeFailureCount := s.decodeFailureCount + 1 }, block)
        | some i =>
          let c := classifyInstruction input s.guards block i codeMode
            (decodedRecord address codeMode i bytes)
          let s := { s with
            toPlanCounters := s.toPlanCounters.count c.record
            instructionCount := s.instructionCount + 1
            sourceCodeBytes := s.sourceCodeBytes + i.length
            hleBoundaryCount := s.hleBoundaryCount + (countsAsHleBoundary c.record.kind).toNat
            guards := c.guards
            pending := c.pushes.reverse ++ s.pending }
          if c.goesOn then walkBlock input fuel c.record.next s (block ++ [c.record])
          else (s, block ++ [c.record])

/-- One iteration of the pending loop: take the next block entry and walk its block. -/
def visitBlock (input : PlannerInput) (entry : Word) (s : PlannerState) : PlannerState :=
  if entry ∈ s.visitedBlocks then s
  else
    let s := { s with visitedBlocks := entry :: s.visitedBlocks }
    if isExcludedGuestAddress input.excludedRanges entry then
      { s with
        blocks := s.blocks ++ [⟨entry, [excludedBoundary entry]⟩]
        blockCount := s.blockCount + 1
        instructionCount := s.instructionCount + 1
        sourceCodeBytes := s.sourceCodeBytes + 1
        hleBoundaryCount := s.hleBoundaryCount + 1 }
    else if (findBytes input.image entry 1).isNone then
      { s with outsideImageTargetCount := s.outsideImageTargetCount + 1 }
    else
      let (s, records) := walkBlock input kMaximumBlockInstructions entry s []
      { s with blocks := s.blocks ++ [⟨entry, records⟩], blockCount := s.blockCount + 1 }

/-- The pending loop. -/
def drainPending (input : PlannerInput) : ℕ → PlannerState → Option PlannerState
  | fuel, s =>
    match s.pending with
    | [] => some s
    | entry :: rest =>
      if kMaximumInstructions ≤ s.instructionCount then some s
      else
        match fuel with
        | 0 => none
        | fuel + 1 => drainPending input fuel (visitBlock input entry { s with pending := rest })

/-- One record of a sweep. -/
def sweepRecord (input : PlannerInput) (record : AotInstructionRecord) (s : PlannerState) :
    Bool × AotInstructionRecord × PlannerState :=
  let mode := decoderMode record.guestCodeDefaultOperandSize
  let (propagated, guards) :=
    tryPropagateLowByteJumpTableGuard input.table mode s.guards record
  let s := { s with guards := guards }
  let (reclassified, record) := tryReclassifyJumpTable input.table input.image mode s.guards record
  if reclassified then
    (true, { record with kind := .kJumpTable },
      { s with
        toPlanCounters := s.toPlanCounters.reclassify record.kind record.tableTargets
        hleBoundaryCount := s.hleBoundaryCount - (decide (record.kind = .kHleBoundary)).toNat
        pending := record.tableTargets.reverse ++ s.pending })
  else (propagated, record, s)

/-- The records of one block in a sweep. -/
def sweepRecords (input : PlannerInput) :
    List AotInstructionRecord → PlannerState → Bool × List AotInstructionRecord × PlannerState
  | [], s => (false, [], s)
  | r :: rs, s =>
    let (changed, r, s) := sweepRecord input r s
    let (changed', rs, s) := sweepRecords input rs s
    (changed || changed', r :: rs, s)

/-- The blocks of a sweep. -/
def sweepBlocks (input : PlannerInput) :
    List AotBasicBlock → PlannerState → Bool × List AotBasicBlock × PlannerState
  | [], s => (false, [], s)
  | b :: bs, s =>
    let (changed, rs, s) := sweepRecords input b.instructions s
    let (changed', bs, s) := sweepBlocks input bs s
    (changed || changed', { b with instructions := rs } :: bs, s)

/-- The outer loop: drain the pending blocks, sweep, and start over while a sweep changed
something. -/
def planLoop (input : PlannerInput) : ℕ → PlannerState → Option PlannerState
  | 0, _ => none
  | fuel + 1, s =>
    match drainPending input fuel s with
    | none => none
    | some s =>
      if kMaximumInstructions ≤ s.instructionCount then some s
      else
        let (changed, blocks, s') := sweepBlocks input s.blocks s
        let s := { s' with blocks := blocks }
        if changed then planLoop input fuel s else some s

/-- The code-mode ranges of a plan. -/
def planCodeModeRanges (image : RelocatedRuntimeImage) : List RuntimeCodeModeRange :=
  if image.codeModeRanges ≠ [] then image.codeModeRanges
  else (image.objects.filter fun o =>
    o.flags &&& kLeObjectExecutable ≠ 0 ∧ o.virtualSize ≠ 0).map
      fun o => ⟨o.relocatedBaseAddress, o.virtualSize, o.flags⟩

/-- `BuildAotTranslationPlanFromEntry`.  The loops run on `fuel`; `none` is an unfinished run. -/
def buildAotTranslationPlanFromEntry (table : Table) (fuel : ℕ) (image : RelocatedRuntimeImage)
    (entryAddress : Word) (excludedRanges : List AotExcludedGuestRange) :
    Option AotTranslationPlan :=
  if ¬image.valid then some {}
  else
    let ranges := planCodeModeRanges image
    (planLoop ⟨table, image, excludedRanges, ranges⟩ fuel { pending := [entryAddress] }).map
      fun s =>
        { toPlanCounters := s.toPlanCounters,
          valid := s.instructionCount ≠ 0, entryAddress := entryAddress,
          blockCount := s.blockCount, instructionCount := s.instructionCount,
          sourceCodeBytes := s.sourceCodeBytes, hleBoundaryCount := s.hleBoundaryCount,
          outsideImageTargetCount := s.outsideImageTargetCount,
          decodeFailureCount := s.decodeFailureCount,
          analysisLimitCount := if s.pending = [] then 0 else 1,
          codeModeRanges := ranges, blocks := s.blocks }

end Repiu.Runtime
