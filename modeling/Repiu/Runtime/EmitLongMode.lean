import Repiu.Runtime.Emit

/-!
# Long-mode slot emitters

The slots of the 64-bit back end (`aot_code_cache.cpp`).  Each comes with the
number of host instructions it means to be, which verification counts again.
-/

namespace Repiu.Runtime

open Repiu.X86

/-- The eight little-endian bytes of a host address. -/
def le64 (w : BitVec 64) : List Byte :=
  le32 (w.extractLsb' 0 32) ++ le32 (w.extractLsb' 32 32)

@[simp] theorem le64_length (w : BitVec 64) : (le64 w).length = 8 := rfl

/-- A slot and its host instruction count. -/
structure LongModeSlot where
  code : Fragment
  instructionCount : ℕ

/-- `kLongModeIndirectProducerBit`. -/
def kLongModeIndirectProducerBit : Word := 0x80000000

/-! ## Copies and branches -/

/-- `IsLongModeCsDataBoundary`. -/
def isLongModeCsDataBoundary (table : Table) (record : AotInstructionRecord) : Bool :=
  if record.kind ≠ .kHleBoundary ∨ record.bytes = [] ∨
      record.guestCodeDefaultOperandSize ≠ .k32 then false
  else
    match decode table .legacy32 record.bytes with
    | none => false
    | some i =>
      if i.length ≠ record.bytes.length ∨ ¬i.hasSegment ∨ i.definition.privileged then false
      else
        match i.category with
        | .interrupt | .io | .ioStringOp | .rdwrFsGs | .segOp | .syscall | .call | .ret | .uncondBr
        | .condBr => false
        | _ =>
          !(i.operands.any Operand.isSegmentRegister) &&
          (i.operands.all fun op =>
            match op.kind with
            | .memory m => m.segment = .segment 1
            | _ => true) &&
          i.operands.any Operand.isMemory

/-- `EmitLongModeCopy`. -/
def emitLongModeCopy (table : Table) (record : AotInstructionRecord) : Option LongModeSlot :=
  if record.bytes = [] then none
  else
    let verdict := classifyLongModeBytes table record.bytes record.guestCodeDefaultOperandSize
    if verdict.compatibility = .kIdenticalBytes then some ⟨Fragment.ofBytes record.bytes, 1⟩
    else if verdict.lowering = .kNone then none
    else
      match lowerLongModeBytes table record.bytes record.guestCodeDefaultOperandSize with
      | none => none
      | some lowered =>
        if lowered.flatten.length = 0 ∨ lowered.length = 0 then none
        else some ⟨Fragment.ofBytes lowered.flatten, lowered.length⟩

/-- `LongModeReturnStackAdjustment`. -/
def longModeReturnStackAdjustment : List Byte → Option ℕ
  | [0xC3] => some 4
  | [0xC2, lo, hi] => some (4 + (lo.toNat + 256 * hi.toNat))
  | _ => none

/-- `EmitLongModeReturnStackAdjustment`. -/
def emitLongModeReturnStackAdjustment (adjustment : ℕ) : List Byte :=
  if adjustment ≤ 0x7F then [0x45, 0x8D, 0x7F, BitVec.ofNat 8 adjustment]
  else [0x45, 0x8D, 0xBF] ++ le32 (BitVec.ofNat 32 adjustment)

/-- `EmitLongMode16BitLoopNz`: the taken path restores the flags and jumps, the other one
restores them and falls through. -/
def emitLongMode16BitLoopNz (table : Table) (record : AotInstructionRecord) : Option LongModeSlot :=
  if record.kind ≠ .kConditionalBranch ∨ record.guestCodeDefaultOperandSize ≠ .k16 ∨
      record.bytes = [] then none
  else if (classifyLongModeBytes table record.bytes .k16).lowering ≠ .k16BitLoopNzToGuestCx then none
  else
    let count := [0x9C, 0x66, 0xFF, 0xC9, 0x66, 0x85, 0xC9]
    let savedZf := [0x4C, 0x8B, 0x34, 0x24, 0x49, 0x0F, 0xBA, 0xE6, 0x06]
    let taken := 0x9D :: appendRel32 0xE9
    let head := count ++ [0x74, BitVec.ofNat 8 (savedZf.length + 2 + taken.length)] ++
      savedZf ++ [0x72, BitVec.ofNat 8 taken.length]
    some
      ⟨{ bytes := head ++ taken ++ [0x9D]
         fixups := [edgeFixup .kConditionalBranch record record.directTarget (head.length + 2)] }, 10⟩

/-- The synthesised `push imm32` in its long-mode lowering. -/
def lowerPushImmediate (table : Table) (value : Word) : Option Sequence :=
  match lowerLongModeBytes table (0x68 :: le32 value) with
  | none => none
  | some lowered => if lowered.flatten.length = 0 ∨ lowered.length = 0 then none else some lowered

/-! ## Observers -/

/-- `EmitLinuxX64GuestEspTrace`. -/
def emitLinuxX64GuestEspTrace (host : Host) (record : AotInstructionRecord) : LongModeSlot :=
  if ¬host.linuxX64 ∨ ¬host.guestEspTraceEnabled ∨ host.guestEspTraceSiteAddress = 0 ∨
      host.guestEspTraceValueAddress = 0 then ⟨{}, 0⟩
  else
    ⟨Fragment.ofBytes ([0x49, 0xBA] ++ le64 host.guestEspTraceSiteAddress ++
      [0x41, 0xBB] ++ le32 record.guestAddress ++ [0x45, 0x89, 0x1A] ++
      [0x49, 0xBA] ++ le64 host.guestEspTraceValueAddress ++ [0x45, 0x89, 0x3A]), 5⟩

/-- `REPIU_LINUX_X64_FRAME_STACK_TRACE_SEQUENCE`. -/
def frameStackTraceSequence : Byte := 104

/-- `REPIU_LINUX_X64_FRAME_STACK_TRACE_RECORDS`. -/
def frameStackTraceRecords : Byte := 108

/-- `REPIU_LINUX_X64_FRAME_STACK_TRACE_CAPACITY` less one, as the two bytes of the mask. -/
def frameStackTraceMask : List Byte := le16 (16384 - 1)

/-- `EmitLinuxX64StackWriteTrace`. -/
def emitLinuxX64StackWriteTrace (host : Host) (record : AotInstructionRecord) (returnAddress : Word) :
    LongModeSlot :=
  if ¬host.linuxX64 ∨ ¬host.stackTraceEnabled ∨ host.dispatchFramePointerAddress = 0 then ⟨{}, 0⟩
  else
    let head := [0x9C, 0x49, 0xBB] ++ le64 host.dispatchFramePointerAddress ++
      [0x4D, 0x8B, 0x1B, 0x4D, 0x85, 0xDB]
    let body := [0x45, 0x8B, 0x93, frameStackTraceSequence, 0, 0, 0] ++
      [0x45, 0x8D, 0x42, 0x01] ++
      [0x45, 0x89, 0x83, frameStackTraceSequence, 0, 0, 0] ++
      ([0x41, 0x81, 0xE2] ++ frameStackTraceMask ++ [0, 0]) ++
      [0x49, 0xC1, 0xE2, 0x04] ++
      [0x4D, 0x8D, 0x9B, frameStackTraceRecords, 0, 0, 0] ++
      [0x4D, 0x01, 0xD3] ++
      ([0x41, 0xB8] ++ le32 record.guestAddress) ++ [0x45, 0x89, 0x03] ++
      ([0x41, 0xB8] ++ le32 returnAddress) ++ [0x45, 0x89, 0x43, 0x04] ++
      [0x45, 0x89, 0x7B, 0x08] ++ [0x45, 0x8B, 0x07] ++ [0x45, 0x89, 0x43, 0x0C]
    ⟨Fragment.ofBytes (head ++ [0x74, BitVec.ofNat 8 body.length] ++ body ++ [0x9D]), 20⟩

/-- `HasExplicitMemoryWrite`. -/
def hasExplicitMemoryWrite (table : Table) (record : AotInstructionRecord) : Bool :=
  match decode table .legacy32 record.bytes with
  | none => false
  | some i => i.visible.any fun op =>
    match op.kind with
    | .memory _ => op.write
    | _ => false

/-- The observer call of `EmitLinuxX64NativeMemoryWriteTrace`. -/
def nativeMemoryWriteObserver (host : Host) (record : AotInstructionRecord) : List Byte :=
  let head := [0x9C, 0x50, 0x51, 0x52, 0x56, 0x57] ++
    [0x49, 0xBB] ++ le64 host.dispatchFramePointerAddress ++ [0x4D, 0x8B, 0x1B, 0x4D, 0x85, 0xDB]
  let body := [0x41, 0x89, 0x7B, 0x00] ++ [0x41, 0x89, 0x73, 0x04] ++ [0x41, 0x89, 0x5B, 0x08] ++
    [0x41, 0x89, 0x53, 0x0C] ++ [0x41, 0x89, 0x4B, 0x10] ++ [0x41, 0x89, 0x43, 0x14] ++
    [0x41, 0x89, 0x6B, 0x18] ++ [0x45, 0x89, 0x7B, 0x20] ++
    ([0x41, 0xBA] ++ le32 record.guestAddress) ++ [0x45, 0x89, 0x53, 0x1C] ++
    [0x4C, 0x89, 0xDF] ++ ([0x49, 0xBA] ++ le64 host.nativeMemoryWriteTraceAddress) ++
    [0x49, 0x89, 0xE4] ++ [0x48, 0x83, 0xE4, 0xF0] ++ [0x48, 0x81, 0xEC, 0x00, 0x02, 0x00, 0x00] ++
    [0x48, 0x0F, 0xAE, 0x04, 0x24] ++ [0x41, 0xFF, 0xD2] ++ [0x48, 0x0F, 0xAE, 0x0C, 0x24] ++
    [0x4C, 0x89, 0xE4]
  head ++ [0x74, BitVec.ofNat 8 body.length] ++ body ++ [0x5F, 0x5E, 0x5A, 0x59, 0x58, 0x9D]

/-- `EmitLinuxX64NativeMemoryWriteTrace`. -/
def emitLinuxX64NativeMemoryWriteTrace (table : Table) (host : Host) (record : AotInstructionRecord) :
    LongModeSlot :=
  if ¬host.linuxX64 ∨ ¬(host.memoryWriteTraceEnabled ∨ host.lfbNativeStoreCensusEnabled) ∨
      ¬hasExplicitMemoryWrite table record ∨ host.dispatchFramePointerAddress = 0 ∨
      host.nativeMemoryWriteTraceAddress = 0 then ⟨{}, 0⟩
  else
    let observer := nativeMemoryWriteObserver host record
    let useLfbRangeGate := host.lfbNativeStoreCensusEnabled ∧ ¬host.memoryWriteTraceEnabled
    if useLfbRangeGate then
      if host.lfbNativeStoreCensusActiveFlagAddress = 0 then ⟨{}, 0⟩
      else
        ⟨Fragment.ofBytes ([0x9C, 0x49, 0xBB] ++ le64 host.lfbNativeStoreCensusActiveFlagAddress ++
          [0x41, 0x80, 0x3B, 0x00, 0x75, 0x06, 0x9D, 0xE9] ++
          le32 (BitVec.ofNat 32 (1 + observer.length)) ++ [0x9D] ++ observer), 42⟩
    else ⟨Fragment.ofBytes observer, 35⟩

/-- `EmitLongModeDirectBranch`. -/
def emitLongModeDirectBranch (table : Table) (host : Host) (record : AotInstructionRecord) :
    Option LongModeSlot :=
  match record.kind with
  | .kDirectJump => some ⟨emitJump record, 1⟩
  | .kReturn =>
    if host.longModeReturnThunk = 0 then none
    else
      match longModeReturnStackAdjustment record.bytes with
      | none => none
      | some adjustment =>
        some ⟨Fragment.ofBytes ([0x45, 0x8B, 0x37] ++ emitLongModeReturnStackAdjustment adjustment ++
          [0x49, 0xBC] ++ le64 host.longModeReturnThunk ++ [0x41, 0xBA] ++ le32 record.guestAddress ++
          [0x41, 0xFF, 0xE4]), 5⟩
  | .kDirectCall =>
    match lowerPushImmediate table record.fallthroughTarget with
    | none => none
    | some push =>
      let trace := emitLinuxX64StackWriteTrace host record record.fallthroughTarget
      let head := push.flatten ++ trace.code.bytes
      some
        ⟨{ bytes := head ++ appendRel32 0xE9
           fixups := [edgeFixup .kDirectCall record record.directTarget (head.length + 1)] },
         push.length + trace.instructionCount + 1⟩
  | .kConditionalBranch =>
    match readConditionOpcode record.mnemonic with
    | none => none
    | some opcode =>
      some
        ⟨{ bytes := 0x0F :: appendRel32 opcode
           fixups := [edgeFixup .kConditionalBranch record record.directTarget 2] }, 1⟩
  | _ => none

/-! ## Segment slots -/

/-- `LongModeGuardedSegmentLoadEmittableImpl`. -/
def longModeGuardedSegmentLoadEmittable (record : AotInstructionRecord) : Bool :=
  record.kind = .kGuardedSegmentLoad ∧ record.gprRegister ≤ 7 ∧ record.gprRegister ≠ 4 ∧
    isGuardedSegment record.segmentRegister

/-- `LongModeGuardedSegmentReadEmittableImpl`. -/
def longModeGuardedSegmentReadEmittable (record : AotInstructionRecord) : Bool :=
  record.kind = .kGuardedSegmentRead ∧ record.gprRegister ≤ 7 ∧ record.gprRegister ≠ 4 ∧
    (isGuardedSegment record.segmentRegister ∨ record.segmentRegister = 2)

/-- `LongModeGuardedSegmentPushEmittableImpl`. -/
def longModeGuardedSegmentPushEmittable (record : AotInstructionRecord) : Bool :=
  record.kind = .kGuardedSegmentPush ∧ isGuardedSegment record.segmentRegister

/-- `LongModeGuardedSegmentPopEmittableImpl`. -/
def longModeGuardedSegmentPopEmittable (record : AotInstructionRecord) : Bool :=
  record.kind = .kGuardedSegmentPop ∧ isGuardedSegment record.segmentRegister

/-- The segment prefix the long-mode slot drops; FS is the host's. -/
def longModeSegmentPrefixByte : ℕ → Option Byte
  | 0 => some 0x26
  | 2 => some 0x36
  | 3 => some 0x3E
  | 5 => some 0x65
  | _ => none

/-- `LongModeSegmentOverrideEmittable`: the prefix and the decoded instruction. -/
def longModeSegmentOverrideEmittable (table : Table) (record : AotInstructionRecord) :
    Option (Byte × Instruction) := do
  let segmentPrefix ← longModeSegmentPrefixByte record.segmentOverrideRegister
  let i ← decode table .legacy32 record.bytes
  if i.length ≠ record.bytes.length then none
  let absoluteDisp32 := i.modrmMod = 0 ∧ i.modrmRm = 5 ∧ i.disp.length = 4
  let baseNoDisplacement := i.modrmMod = 0 ∧ i.modrmRm ≠ 4 ∧ i.modrmRm ≠ 5 ∧ i.disp.length = 0
  let baseDisp8 := i.modrmMod = 1 ∧ i.modrmRm ≠ 4 ∧ i.disp.length = 1
  if i.modrm = none ∨ ¬(absoluteDisp32 ∨ baseNoDisplacement ∨ baseDisp8) ∨ i.map ≠ .default ∨
      i.length < i.dispOffset + i.disp.length then none
  if i.operands.any fun op =>
      match op.kind with
      | .register r => isStackPointerRegister r
      | .memory m => isStackPointerRegister m.base || isStackPointerRegister m.index
      | _ => false then none
  if i.modrmOffset < i.prefixCount ∨ i.length ≤ i.modrmOffset then none
  return (segmentPrefix, i)

/-- The access of a long-mode segment-override slot, and the offset of its displacement. -/
def longModeOverrideAccess (bytes : List Byte) (segmentPrefix : Byte) (i : Instruction) :
    List Byte × ℕ :=
  let modrm := bytes.getD i.modrmOffset 0
  let head := (bytes.take i.prefixCount).filter (· ≠ segmentPrefix) ++ [0x67] ++
    (bytes.take i.modrmOffset).drop i.prefixCount ++
    (if i.modrmMod = 0 ∧ i.modrmRm = 5 then [modrm &&& 0x38 ||| 0x04, 0x25]
      else [modrm &&& 0x3F ||| 0x80])
  let suffixOffset := if i.disp.length = 0 then i.modrmOffset + 1 else i.dispOffset + i.disp.length
  (head ++ le32 0 ++ bytes.drop suffixOffset, head.length)

/-- The bytes of the flags sequences the guarded slots save and restore the flags with. -/
structure FlagsSequences where
  save : Sequence
  restore : Sequence

/-- The lowerings of `pushfd` and `popfd`. -/
def flagsSequences (table : Table) : Option FlagsSequences := do
  let save ← lowerLongModeBytes table [0x9C]
  let restore ← lowerLongModeBytes table [0x9D]
  return ⟨save, restore⟩

/-- The long-mode segment-override slot around an access. -/
def longModeOverrideSlot (record : AotInstructionRecord) (flags : FlagsSequences) (i : Instruction)
    (access : List Byte) (displacementInAccess : ℕ) : LongModeSlot :=
  let restore := flags.restore.flatten
  let address := flags.save.flatten ++ [0x67, 0x66, 0x81, 0x3C, 0x25]
  let fallback := address ++ le32 0 ++ [0x00, 0x00] ++ [0x74, BitVec.ofNat 8 (restore.length + 1)] ++
    restore
  let body := fallback ++ [0xCC] ++ restore
  let slot := body ++ access ++ appendRel32 0xE9
  ⟨{ bytes := slot
     fixups := [edgeFixup .kHleBoundary record 0 fallback.length,
       edgeFixup .kBlockFallthrough record record.next (body.length + access.length + 1)]
     segmentOverrideSites :=
       [{ guestSource := record.guestAddress
          cacheOffset := 0
          displacementOffset := body.length + displacementInAccess
          guardAddressOffset := address.length
          guardSelectorOffset := address.length + 4
          originalDisplacement := displacementValue i
          segmentRegister := record.segmentOverrideRegister
          guardPrologue := recordGuardPrologue slot }] },
   flags.save.length + 1 + 1 + flags.restore.length + 1 + flags.restore.length + 1 + 1⟩

/-- `EmitLongModeSegmentOverride`. -/
def emitLongModeSegmentOverride (table : Table) (record : AotInstructionRecord) :
    Option LongModeSlot := do
  let (segmentPrefix, i) ← longModeSegmentOverrideEmittable table record
  let flags ← flagsSequences table
  let (access, displacementInAccess) := longModeOverrideAccess record.bytes segmentPrefix i
  return longModeOverrideSlot record flags i access displacementInAccess

/-- A long-mode slot that compares a selector with its shadow. -/
structure ShadowSlot where
  bytes : List Byte
  shadowAddressOffset : ℕ
  fallbackOffset : ℕ
  patchOffset : ℕ

/-- The shared body of the long-mode guarded load and pop slots.  `compare` ends in front of the
shadow address and `advance` is what a match does before it goes on. -/
def shadowSlot (flags : FlagsSequences) (compare advance : List Byte) : ShadowSlot :=
  let restore := flags.restore.flatten
  let address := flags.save.flatten ++ compare
  let fallback := address ++ le32 0 ++ [0x74, BitVec.ofNat 8 (restore.length + 1)] ++ restore
  let body := fallback ++ [0xCC] ++ restore ++ advance
  { bytes := body ++ appendRel32 0xE9
    shadowAddressOffset := address.length
    fallbackOffset := fallback.length
    patchOffset := body.length + 1 }

/-- `EmitLongModeGuardedSegmentLoad`. -/
def emitLongModeGuardedSegmentLoad (table : Table) (record : AotInstructionRecord) :
    Option LongModeSlot :=
  if ¬longModeGuardedSegmentLoadEmittable record then none
  else
    (flagsSequences table).map fun flags =>
      let compare : List Byte :=
        [0x67, 0x66, 0x39, 0x04 ||| BitVec.ofNat 8 (record.gprRegister <<< 3), 0x25]
      let slot := shadowSlot flags compare []
      ⟨{ bytes := slot.bytes
         fixups := [edgeFixup .kHleBoundary record 0 slot.fallbackOffset,
           edgeFixup .kBlockFallthrough record record.next slot.patchOffset]
         guardedSegmentLoadSites :=
           [{ guestSource := record.guestAddress
              cacheOffset := 0
              shadowAddressOffset := slot.shadowAddressOffset
              fallbackOffset := slot.fallbackOffset
              segmentRegister := record.segmentRegister
              gprRegister := record.gprRegister
              guardPrologue := recordGuardPrologue slot.bytes }] },
       flags.save.length + 1 + 1 + flags.restore.length + 1 + flags.restore.length + 1⟩

/-- The read and push slots end alike: a jump on and an unreached trap. -/
def longModeSegmentReadSlot (record : AotInstructionRecord) (head pad : List Byte) (gpr : ℕ) :
    Fragment :=
  let body := head ++ le32 0 ++ pad
  let slot := body ++ appendRel32 0xE9 ++ [0xCC]
  { bytes := slot
    fixups := [edgeFixup .kBlockFallthrough record record.fallthroughTarget (body.length + 1),
      edgeFixup .kHleBoundary record 0 (body.length + 5)]
    guardedSegmentReadSites :=
      [{ guestSource := record.guestAddress
         cacheOffset := 0
         shadowAddressOffset := head.length
         loadShadowAddressOffset := head.length
         fallbackOffset := body.length + 5
         segmentRegister := record.segmentRegister
         gprRegister := gpr
         guardPrologue := recordGuardPrologue slot }] }

/-- `EmitLongModeGuardedSegmentRead`. -/
def emitLongModeGuardedSegmentRead (record : AotInstructionRecord) : Option LongModeSlot :=
  if ¬longModeGuardedSegmentReadEmittable record then none
  else
    let sixteenBit := record.bytes.contains 0x66
    let opcode : List Byte := if sixteenBit then [0x66, 0x8B] else [0x0F, 0xB7]
    let head : List Byte :=
      0x67 :: opcode ++ [0x04 ||| BitVec.ofNat 8 (record.gprRegister <<< 3), 0x25]
    some ⟨longModeSegmentReadSlot record head (if sixteenBit then [0x90] else []) record.gprRegister,
      if sixteenBit then 4 else 3⟩

/-- `EmitLongModeGuardedSegmentPush`. -/
def emitLongModeGuardedSegmentPush (record : AotInstructionRecord) : Option LongModeSlot :=
  if ¬longModeGuardedSegmentPushEmittable record then none
  else
    some ⟨longModeSegmentReadSlot record
      [0x45, 0x8D, 0x7F, 0xFC, 0x67, 0x44, 0x0F, 0xB7, 0x34, 0x25] [0x45, 0x89, 0x37] 0xFF, 5⟩

/-- `EmitLongModeGuardedSegmentPop`: the saved flags are on the guest stack, so the popped word is
one slot further up, and only a match advances guest ESP. -/
def emitLongModeGuardedSegmentPop (table : Table) (record : AotInstructionRecord) :
    Option LongModeSlot :=
  if ¬longModeGuardedSegmentPopEmittable record then none
  else
    (flagsSequences table).map fun flags =>
      let slot := shadowSlot flags
        [0x45, 0x8B, 0x77, 0x04, 0x67, 0x66, 0x44, 0x3B, 0x34, 0x25] [0x45, 0x8D, 0x7F, 0x04]
      ⟨{ bytes := slot.bytes
         fixups := [edgeFixup .kHleBoundary record 0 slot.fallbackOffset,
           edgeFixup .kBlockFallthrough record record.fallthroughTarget slot.patchOffset]
         guardedSegmentPopSites :=
           [{ guestSource := record.guestAddress
              cacheOffset := 0
              shadowAddressOffset := slot.shadowAddressOffset
              fallbackOffset := slot.fallbackOffset
              segmentRegister := record.segmentRegister
              guardPrologue := recordGuardPrologue slot.bytes }] },
       flags.save.length + 1 + 1 + 1 + flags.restore.length + 1 + flags.restore.length + 1 + 1⟩

/-! ## Loaded targets -/

/-- `LowerLongModeTargetLoad`: the lowering of the `mov esi, r/m32` that reads the operand of an
indirect branch. -/
def lowerLongModeTargetLoad (table : Table) (bytes : List Byte) (expectedReg : ℕ) :
    Option (List Byte) :=
  match bytes with
  | 0xFF :: modrm :: rest =>
    if regField modrm ≠ expectedReg ∨ modField modrm = 3 then none
    else
      let synthesised := 0x8B :: (modrm &&& 0xC7 ||| 0x30) :: rest
      let verdict := classifyLongModeBytes table synthesised
      if verdict.lowering ≠ .kAddressSizePrefix ∧ verdict.lowering ≠ .kAbsoluteToSib then none
      else
        match lowerLongModeBytes table synthesised with
        | none => none
        | some seq =>
          let lowered := seq.flatten
          if lowered.length < 2 ∨ kMaxLoweredBytes < lowered.length + 1 ∨
              lowered.getD 0 0 ≠ 0x67 ∨ lowered.getD 1 0 ≠ 0x8B then none
          else some lowered
  | _ => none

/-- The target load with the REX that makes its destination `r14d`. -/
def targetLoadToR14 (lowered : List Byte) : List Byte :=
  lowered.take 1 ++ [0x44] ++ lowered.drop 1

/-- `mov r10d, tag; movabs r12, thunk; jmp r12`. -/
def thunkTransfer (host : Host) (record : AotInstructionRecord) : List Byte :=
  [0x41, 0xBA] ++ le32 (record.guestAddress ||| kLongModeIndirectProducerBit) ++
    [0x49, 0xBC] ++ le64 host.longModeReturnThunk ++ [0x41, 0xFF, 0xE4]

/-- `EmitLongModeIndirectCall`. -/
def emitLongModeIndirectCall (table : Table) (host : Host) (record : AotInstructionRecord) :
    Option LongModeSlot :=
  if host.longModeReturnThunk = 0 ∨ record.kind ≠ .kIndirectExit then none
  else do
    let load ← lowerLongModeTargetLoad table record.bytes 2
    let push ← lowerPushImmediate table record.next
    return ⟨Fragment.ofBytes (targetLoadToR14 load ++ push.flatten ++ thunkTransfer host record),
      1 + push.length + 3⟩

/-- `LowerLongModeJumpTableTargetLoad`. -/
def lowerLongModeJumpTableTargetLoad (table : Table) (record : AotInstructionRecord) :
    Option (List Byte) :=
  if record.kind ≠ .kJumpTable ∨ 7 < record.tableIndexRegister ∨ record.tableIndexRegister = 4 ∨
      record.tableTargets = [] then none
  else
    let bytes := if record.bytes.head? = some 0x2E then record.bytes.tail else record.bytes
    if bytes.length ≠ 7 ∨ bytes.getD 0 0 ≠ 0xFF ∨ bytes.getD 1 0 ≠ 0x24 then none
    else
      let sib := bytes.getD 2 0
      if modField sib ≠ 2 ∨ regField sib ≠ record.tableIndexRegister ∨ rmField sib ≠ 5 then none
      else lowerLongModeTargetLoad table bytes 4

/-- `EmitLongModeJumpTable`. -/
def emitLongModeJumpTable (table : Table) (host : Host) (record : AotInstructionRecord) :
    Option LongModeSlot :=
  if host.longModeReturnThunk = 0 then none
  else
    (lowerLongModeJumpTableTargetLoad table record).map fun load =>
      ⟨Fragment.ofBytes (targetLoadToR14 load ++ thunkTransfer host record), 4⟩

/-! ## The 64-bit back end -/

/-- The slots of the kinds that have one of their own; 16-bit code only has its branches. -/
def emitLongModeControl (table : Table) (host : Host) (options : AotCodeCacheBuildOptions)
    (record : AotInstructionRecord) : Option LongModeSlot :=
  if record.guestCodeDefaultOperandSize = .k16 ∧ record.kind ≠ .kConditionalBranch then none
  else
    (emitLongModeDirectBranch table host record).or
      (match record.kind with
      | .kGuardedSegmentLoad => emitLongModeGuardedSegmentLoad table record
      | .kGuardedSegmentPop => emitLongModeGuardedSegmentPop table record
      | .kGuardedSegmentRead =>
        if options.enableGuardedSegmentRead then emitLongModeGuardedSegmentRead record else none
      | .kGuardedSegmentPush =>
        if options.enableGuardedSegmentRead then emitLongModeGuardedSegmentPush record else none
      | .kIndirectExit => emitLongModeIndirectCall table host record
      | .kJumpTable => emitLongModeJumpTable table host record
      | .kSegmentOverrideMem =>
        if options.enableLongModeSegmentOverride then emitLongModeSegmentOverride table record
        else none
      | _ => none)

/-- A copied instruction with the observers behind it.  A CS-override data access ends its
block, so it carries the jump on. -/
def emitLongModeCopySlot (table : Table) (host : Host) (record : AotInstructionRecord) :
    Option LongModeSlot :=
  let csDataBoundary := isLongModeCsDataBoundary table record
  if record.kind = .kCopy ∨ csDataBoundary then
    match emitLongModeCopy table record with
    | none => none
    | some copy =>
      let jump : LongModeSlot :=
        if csDataBoundary then
          ⟨{ bytes := appendRel32 0xE9
             fixups := [edgeFixup .kBlockFallthrough record record.next 1] }, 1⟩
        else ⟨{}, 0⟩
      let stack : LongModeSlot :=
        if record.mnemonic = .push then emitLinuxX64StackWriteTrace host record 0 else ⟨{}, 0⟩
      let memory := emitLinuxX64NativeMemoryWriteTrace table host record
      let esp := emitLinuxX64GuestEspTrace host record
      some ⟨(((copy.code.append jump.code).append stack.code).append memory.code).append esp.code,
        copy.instructionCount + jump.instructionCount + stack.instructionCount +
          memory.instructionCount + esp.instructionCount⟩
  else none

/-- Whether the long-mode back end plants a safe point in front of the record's slot. -/
def plantLongModeSafePoint (options : AotCodeCacheBuildOptions) (record : AotInstructionRecord) : Bool :=
  options.enableTimerSafePoints && isBackwardEdge record &&
    (record.kind = .kDirectJump ||
      (record.kind = .kConditionalBranch && (readConditionOpcode record.mnemonic).isSome))

/-- Both control emitters are called; the second appends behind the first and overwrites its
instruction count. -/
def LongModeSlot.then : Option LongModeSlot → Option LongModeSlot → Option LongModeSlot
  | some a, some b => some ⟨a.code.append b.code, b.instructionCount⟩
  | none, b => b
  | a, none => a

/-- What the 64-bit back end emits for a record. -/
def emitLongMode (table : Table) (host : Host) (options : AotCodeCacheBuildOptions)
    (record : AotInstructionRecord) : LongModeSlot :=
  match LongModeSlot.then (emitLongMode16BitLoopNz table record)
    (emitLongModeControl table host options record) with
  | some slot =>
    if plantLongModeSafePoint options record then
      ⟨(emitTimerSafePoint record true).append slot.code,
        slot.instructionCount + kTimerSafePointInstructionCount⟩
    else slot
  | none => (emitLongModeCopySlot table host record).getD ⟨boundarySlot .kHleBoundary record, 1⟩

end Repiu.Runtime
