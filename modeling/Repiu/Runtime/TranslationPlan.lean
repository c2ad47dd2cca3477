import Repiu.X86.Operands

/-!
# Translation plan

The data model of a translation plan and the guest image it is made from
(`aot_translation_plan.h`, `runtime_memory.h`).
-/

namespace Repiu.Runtime

open Repiu.X86

/-- `GuestCodeDefaultOperandSize`. -/
inductive GuestCodeDefaultOperandSize
  | kUnknown | k16 | k32
  deriving DecidableEq, Repr

/-- The decoder mode for code of the given operand size. -/
def decoderMode (size : GuestCodeDefaultOperandSize) : MachineMode :=
  if size = .k16 then .legacy16 else .legacy32

/-- `AotInstructionKind`. -/
inductive AotInstructionKind
  | kCopy | kDirectCall | kDirectJump | kConditionalBranch | kReturn | kFarReturn | kHleBoundary
  | kIndirectExit | kJumpTable | kSegmentOverrideMem | kGuardedSegmentRead | kGuardedSegmentLoad
  | kGuardedSegmentPop | kGuardedSegmentPush | kPortIo
  deriving DecidableEq, Repr

/-- `kAotSegmentLoadMemorySource`. -/
def kAotSegmentLoadMemorySource : ℕ := 0x80

/-- `AotInstructionRecord`. -/
structure AotInstructionRecord where
  guestAddress : Word := 0
  directTarget : Word := 0
  fallthroughTarget : Word := 0
  kind : AotInstructionKind := .kCopy
  length : ℕ := 0
  tableIndexRegister : ℕ := 0xFF
  segmentOverrideRegister : ℕ := 0xFF
  segmentRegister : ℕ := 0xFF
  gprRegister : ℕ := 0xFF
  mnemonic : Mnemonic := .other 0
  guestCodeDefaultOperandSize : GuestCodeDefaultOperandSize := .k32
  bytes : List Byte := []
  tableTargets : List Word := []
  deriving DecidableEq, Repr

namespace AotInstructionRecord

/-- The guest address of the following instruction. -/
def next (r : AotInstructionRecord) : Word := r.guestAddress + BitVec.ofNat 32 r.length

end AotInstructionRecord

/-- `AotBasicBlock`. -/
structure AotBasicBlock where
  guestAddress : Word := 0
  instructions : List AotInstructionRecord := []
  deriving DecidableEq, Repr

/-- `AotExcludedGuestRange`. -/
structure AotExcludedGuestRange where
  guestAddress : Word
  byteCount : Word
  deriving DecidableEq, Repr

/-- `RuntimeCodeModeRange`. -/
structure RuntimeCodeModeRange where
  relocatedBaseAddress : Word
  virtualSize : Word
  objectFlags : Word
  deriving DecidableEq, Repr

/-- `RelocatedRuntimeObject`: the bytes are its own memory or the external view. -/
structure RelocatedRuntimeObject where
  relocatedBaseAddress : Word
  virtualSize : Word
  flags : Word
  bytes : List Byte
  deriving DecidableEq, Repr

/-- `RelocatedRuntimeImage`, as far as the planner reads it. -/
structure RelocatedRuntimeImage where
  valid : Bool
  objects : List RelocatedRuntimeObject
  codeModeRanges : List RuntimeCodeModeRange
  deriving DecidableEq, Repr

/-- The counters of `AotTranslationPlan` that belong to one kind of record. -/
structure PlanCounters where
  copyInstructionCount : ℕ := 0
  directCallCount : ℕ := 0
  directJumpCount : ℕ := 0
  conditionalBranchCount : ℕ := 0
  returnCount : ℕ := 0
  farReturnCount : ℕ := 0
  indirectExitCount : ℕ := 0
  jumpTableCount : ℕ := 0
  jumpTableTargetCount : ℕ := 0
  deriving DecidableEq, Repr

/-- `AotTranslationPlan`, without the size estimate and the elapsed time. -/
structure AotTranslationPlan extends PlanCounters where
  valid : Bool := false
  entryAddress : Word := 0
  blockCount : ℕ := 0
  instructionCount : ℕ := 0
  sourceCodeBytes : ℕ := 0
  hleBoundaryCount : ℕ := 0
  outsideImageTargetCount : ℕ := 0
  decodeFailureCount : ℕ := 0
  analysisLimitCount : ℕ := 0
  codeModeRanges : List RuntimeCodeModeRange := []
  blocks : List AotBasicBlock := []
  deriving DecidableEq, Repr

namespace AotTranslationPlan

/-- Every record of the plan, in emission order. -/
def records (plan : AotTranslationPlan) : List AotInstructionRecord :=
  (plan.blocks.map AotBasicBlock.instructions).flatten

end AotTranslationPlan

/-- `kLeObjectExecutable`. -/
def kLeObjectExecutable : Word := 0x00000004

/-- `kLeObjectBigDefault`. -/
def kLeObjectBigDefault : Word := 0x00002000

end Repiu.Runtime
