import Repiu.Runtime.TranslationPlan

/-!
# Long-mode compatibility

`ClassifyLongModeBytes` (`aot_long_mode_compatibility.cpp`): whether the bytes of
a guest instruction mean the same in 64-bit mode, and if not, which rewrite makes
them do so.
-/

namespace Repiu.Runtime

open Repiu.X86

/-- `LongModeByteCompatibility`. -/
inductive LongModeByteCompatibility
  | kUnsupported | kNeedsReencode | kIdenticalBytes
  deriving DecidableEq, Repr

/-- `LongModeDivergence`. -/
inductive LongModeDivergence
  | kNone | kSilentlyDifferent | kInvalidInLongMode | kOperandWidth | kAddressSize
  | kRipRelativeDisplacement | kSegmentRegister | kStackPointerRegister
  deriving DecidableEq, Repr

/-- `LongModeLowering`. -/
inductive LongModeLowering
  | kNone | kAddressSizePrefix | kAbsoluteToSib | kIncDecToModRm | kStackSequence
  | kStackPointerToR15 | kStackPointerImmediateToR15 | kStackPointerHighByteDestinationToR15
  | kStackPointerHighByteToR15 | kMoffsToSib | k16BitStackPointerImmediateToR15
  | k16BitLea32ToGuestGprs | k16BitLea16ToGuestGprs | k16BitLoopNzToGuestCx
  | k16BitTest32ToGuestGprs | k16BitMovImmediateToGuestGprs | k16BitMovRegisterToGuestGprs
  | k16BitShift32ToGuestGprs | k16BitAndAccumulatorImmediate | kGroup1ImmediateAlias
  deriving DecidableEq, Repr

/-- `LongModeCompatibilityResult`. -/
structure LongModeCompatibilityResult where
  compatibility : LongModeByteCompatibility
  divergence : LongModeDivergence
  lowering : LongModeLowering
  deriving DecidableEq, Repr

/-- `Refuse`. -/
def refuse (divergence : LongModeDivergence) : LongModeCompatibilityResult :=
  ⟨.kUnsupported, divergence, .kNone⟩

/-- `Reencode`. -/
def reencode (divergence : LongModeDivergence) (lowering : LongModeLowering := .kNone) :
    LongModeCompatibilityResult :=
  ⟨.kNeedsReencode, divergence, lowering⟩

/-- `kMaxLoweredBytes`. -/
def kMaxLoweredBytes : ℕ := 48

/-- `CanonicalizeGroup1ImmediateAlias`: the `80` spelling of an `82` instruction. -/
def canonicalizeGroup1ImmediateAlias (i : Instruction) (bytes : List Byte) : Option (List Byte) :=
  if i.map ≠ .default ∨ i.opcode ≠ 0x82 then none
  else if i.length ≤ i.prefixCount ∨ kMaxLoweredBytes < i.length ∨
      bytes[i.prefixCount]? ≠ some 0x82 then none
  else some ((bytes.take i.length).set i.prefixCount 0x80)

/-! ## Opcode lists -/

/-- `IsSilentlyDifferentOpcode`. -/
def isSilentlyDifferentOpcode (opcode : Byte) : Bool :=
  opcode = 0x62 ∨ opcode = 0x63 ∨ opcode = 0xC4 ∨ opcode = 0xC5

/-- `IsIncDecRegisterOpcode`. -/
def isIncDecRegisterOpcode (opcode : Byte) : Bool := 0x40 ≤ opcode ∧ opcode ≤ 0x4F

/-- `IsMoffsOpcode`. -/
def isMoffsOpcode (opcode : Byte) : Bool := 0xA0 ≤ opcode ∧ opcode ≤ 0xA3

/-- `MoffsModRmOpcode`. -/
def moffsModRmOpcode (opcode : Byte) : Byte :=
  if opcode = 0xA0 then 0x8A else if opcode = 0xA1 then 0x8B
  else if opcode = 0xA2 then 0x88 else if opcode = 0xA3 then 0x89 else 0

/-- `IsInvalidInLongMode`. -/
def isInvalidInLongMode (opcode : Byte) : Bool :=
  opcode ∈ [0x06, 0x0E, 0x16, 0x1E, 0x07, 0x17, 0x1F, 0x27, 0x2F, 0x37, 0x3F, 0x60, 0x61, 0x9A,
    0xCE, 0xD4, 0xD5, 0xD6, 0xEA]

/-- `NeedsWidthReencode`. -/
def needsWidthReencode (opcode : Byte) (i : Instruction) : Bool :=
  if 0x50 ≤ opcode ∧ opcode ≤ 0x5F then true
  else if opcode ∈ [0x68, 0x6A, 0x8F, 0x9C, 0x9D, 0xC2, 0xC3, 0xC9, 0xE8] then true
  else if opcode = 0xFF then i.modrmReg = 2 ∨ i.modrmReg = 3 ∨ i.modrmReg = 6
  else false

/-- `NeedsWidthReencodeTwoByte`. -/
def needsWidthReencodeTwoByte (opcode : Byte) : Bool :=
  opcode = 0xA0 ∨ opcode = 0xA8 ∨ opcode = 0xA1 ∨ opcode = 0xA9

/-- `PopMemoryFormLowerable`. -/
def popMemoryFormLowerable (i : Instruction) : Bool :=
  if i.prefixCount ≠ 0 ∨ i.modrmMod = 3 then false
  else if i.modrmRm = 4 then i.sibBase ≠ 4
  else true

/-- `HasStackSequenceLowering`. -/
def hasStackSequenceLowering (opcode : Byte) (i : Instruction) : Bool :=
  if 0x50 ≤ opcode ∧ opcode ≤ 0x5F then
    i.length = 1 ∨ (i.length = 2 ∧ i.operandWidth = 16 ∧ i.prefixes = [0x66])
  else if opcode = 0x60 ∨ opcode = 0x61 then i.length = 1
  else if opcode = 0x68 then i.length = 5
  else if opcode = 0x6A then i.length = 2
  else if opcode = 0x8F then (i.length = 2 ∧ i.modrmMod = 3) ∨ popMemoryFormLowerable i
  else if opcode = 0xFF then
    2 ≤ i.length ∧ i.operandWidth = 32 ∧ i.prefixCount = 0 ∧ i.modrmReg = 6
  else if opcode = 0x9C ∨ opcode = 0x9D ∨ opcode = 0xC9 then i.length = 1
  else false

/-! ## Operand predicates -/

/-- `IsStackPointerRegister`. -/
def isStackPointerRegister (r : Register) : Bool :=
  r = .gpr64 4 ∨ r = .gpr32 4 ∨ r = .gpr16 4 ∨ r = .gpr8 8

/-- `IsHighByteRegister`. -/
def isHighByteRegister (r : Register) : Bool :=
  r = .gpr8 4 ∨ r = .gpr8 5 ∨ r = .gpr8 6 ∨ r = .gpr8 7

/-- `HighByteSourceGpr`. -/
def highByteSourceGpr (r : Register) : ℕ :=
  if r = .gpr8 4 then 0 else if r = .gpr8 5 then 1 else if r = .gpr8 6 then 2
  else if r = .gpr8 7 then 3 else 0xFF

/-- `TouchesSegmentRegister`. -/
def touchesSegmentRegister (i : Instruction) : Bool :=
  i.operands.any fun op =>
    match op.kind with
    | .register (.segment s) => s ≤ 5
    | _ => false

/-- `TouchesStackPointer`. -/
def touchesStackPointer (i : Instruction) : Bool :=
  i.operands.any fun op =>
    match op.kind with
    | .register r => isStackPointerRegister r
    | .memory m => isStackPointerRegister m.base || isStackPointerRegister m.index
    | _ => false

/-- `HasStackPointerMemoryBase`. -/
def hasStackPointerMemoryBase (i : Instruction) : Bool :=
  i.operands.any fun op =>
    match op.kind with
    | .memory m => isStackPointerRegister m.base
    | _ => false

/-- `HasMemoryOperand`. -/
def hasMemoryOperand (i : Instruction) : Bool :=
  i.operands.any fun op =>
    match op.kind with
    | .memory _ => true
    | _ => false

/-- `HasOnlyCsSegmentMemory`. -/
def hasOnlyCsSegmentMemory (i : Instruction) : Bool :=
  hasMemoryOperand i && i.operands.all fun op =>
    match op.kind with
    | .memory m => m.segment = .segment 1
    | _ => true

/-- `IsAbsoluteDisplacementForm`. -/
def isAbsoluteDisplacementForm (i : Instruction) : Bool :=
  i.modrm.isSome ∧ i.modrmMod = 0 ∧ i.modrmRm = 5

/-- `HighByteFields`. -/
structure HighByteFields where
  present : Bool := false
  sourceOnly : Bool := false
  sourceGpr : ℕ := 0xFF
  deriving DecidableEq, Repr

/-- The operand loop of `ClassifyHighByteFields`. -/
def highByteFieldsFrom : HighByteFields → List Operand → HighByteFields
  | fields, [] => fields
  | fields, op :: ops =>
    match op.kind with
    | .register r =>
      if ¬isHighByteRegister r then highByteFieldsFrom fields ops
      else if fields.present then { fields with sourceOnly := false, sourceGpr := 0xFF }
      else
        let fields := { fields with present := true, sourceGpr := highByteSourceGpr r }
        if ¬op.read ∨ op.write ∨ op.encoding ≠ .modrmReg ∨ highByteSourceGpr r = 0xFF then fields
        else highByteFieldsFrom { fields with sourceOnly := true } ops
    | _ => highByteFieldsFrom fields ops

/-- `ClassifyHighByteFields`. -/
def classifyHighByteFields (i : Instruction) : HighByteFields := highByteFieldsFrom {} i.operands

/-- `StackPointerFields`. -/
structure StackPointerFields where
  rexR : Bool := false
  rexB : Bool := false
  supported : Bool := false
  deriving DecidableEq, Repr

/-- The operand loop of `ClassifyStackPointerFields`; `none` is its early return. -/
def stackPointerFieldsFrom (i : Instruction) :
    StackPointerFields → List Operand → Option StackPointerFields
  | fields, [] => some fields
  | fields, op :: ops =>
    match op.kind with
    | .register r =>
      if ¬isStackPointerRegister r then stackPointerFieldsFrom i fields ops
      else if op.encoding = .modrmReg then stackPointerFieldsFrom i { fields with rexR := true } ops
      else if op.encoding = .modrmRm ∧ i.modrmMod = 3 then
        stackPointerFieldsFrom i { fields with rexB := true } ops
      else none
    | .memory m =>
      if isStackPointerRegister m.index then none
      else if ¬isStackPointerRegister m.base then stackPointerFieldsFrom i fields ops
      else if i.sib.isNone ∨ i.modrmRm ≠ 4 then none
      else stackPointerFieldsFrom i { fields with rexB := true } ops
    | _ => stackPointerFieldsFrom i fields ops

/-- `ClassifyStackPointerFields`. -/
def classifyStackPointerFields (i : Instruction) : StackPointerFields :=
  if i.modrm.isNone then {}
  else
    match stackPointerFieldsFrom i {} i.operands with
    | none => {}
    | some fields => { fields with supported := fields.rexR || fields.rexB }

/-- `CanReencodeStackPointer`. -/
def canReencodeStackPointer (i : Instruction) : Bool := (classifyStackPointerFields i).supported

/-- `IsHighByteMemoryDestination`. -/
def isHighByteMemoryDestination (i : Instruction) (high : HighByteFields)
    (stack : StackPointerFields) : Bool :=
  i.map = .default ∧ i.opcode = 0x8A ∧ i.prefixCount = 0 ∧ i.modrmMod ≠ 3 ∧ ¬i.hasSegment ∧
    high.present ∧ ¬high.sourceOnly ∧ high.sourceGpr < 4 ∧ stack.rexB ∧ ¬stack.rexR ∧
    hasStackPointerMemoryBase i

/-! ## 32-bit and 16-bit shapes -/

/-- `IsMovStackPointerImmediate`. -/
def isMovStackPointerImmediate (i : Instruction) : Bool :=
  i.map = .default ∧ i.opcode = 0xBC ∧ i.length = 5 ∧ i.operandWidth = 32 ∧ i.prefixCount = 0

/-- `IsMovStackPointerImmediate16`. -/
def isMovStackPointerImmediate16 (i : Instruction) : Bool :=
  i.map = .default ∧ i.opcode = 0xBC ∧ i.length = 3 ∧ i.operandWidth = 16 ∧ i.prefixCount = 0

/-- `IsMode16MovImmediate`. -/
def isMode16MovImmediate (i : Instruction) : Bool :=
  i.map = .default ∧ 0xB8 ≤ i.opcode ∧ i.opcode ≤ 0xBF ∧ i.mnemonic = .mov ∧ i.length = 3 ∧
    i.operandWidth = 16 ∧ i.addressWidth = 16 ∧ i.prefixCount = 0 ∧ i.opcode ≠ 0xBC

/-- `IsMode16MovRegister`. -/
def isMode16MovRegister (i : Instruction) : Bool :=
  i.map = .default ∧ (i.opcode = 0x89 ∨ i.opcode = 0x8B) ∧ i.mnemonic = .mov ∧ i.length = 2 ∧
    i.operandWidth = 16 ∧ i.addressWidth = 16 ∧ i.prefixCount = 0 ∧ i.modrm.isSome ∧
    i.modrmOffset = 1 ∧ i.modrmMod = 3 ∧ i.modrmReg ≠ 4 ∧ i.modrmRm ≠ 4

/-- `IsMode16Shift32`. -/
def isMode16Shift32 (i : Instruction) : Bool :=
  i.map = .default ∧ i.opcode = 0xC1 ∧ i.length = 4 ∧ i.operandWidth = 32 ∧ i.addressWidth = 16 ∧
    i.prefixes = [0x66] ∧ i.modrm.isSome ∧ i.modrmOffset = 2 ∧ i.modrmMod = 3 ∧ i.modrmRm ≠ 4 ∧
    ¬i.hasSegment

/-- `IsMode16AndAccumulatorImmediate`. -/
def isMode16AndAccumulatorImmediate (i : Instruction) : Bool :=
  i.map = .default ∧ i.opcode = 0x25 ∧ i.mnemonic = .and ∧ i.length = 3 ∧ i.operandWidth = 16 ∧
    i.addressWidth = 16 ∧ i.prefixCount = 0

/-- `IsMode16Test32`. -/
def isMode16Test32 (i : Instruction) : Bool :=
  i.map = .default ∧ i.opcode = 0x85 ∧ i.mnemonic = .test ∧ i.operandWidth = 32 ∧
    i.addressWidth = 16 ∧ i.length = 3 ∧ i.prefixes = [0x66] ∧ i.modrm.isSome ∧
    i.modrmOffset = 2 ∧ i.modrmMod = 3 ∧ ¬i.hasSegment ∧ ¬touchesStackPointer i

/-- `IsMode16Lea32`. -/
def isMode16Lea32 (i : Instruction) : Bool :=
  i.map = .default ∧ i.opcode = 0x8D ∧ i.mnemonic = .lea ∧ i.operandWidth = 32 ∧
    i.addressWidth = 32 ∧ i.prefixCount ≠ 0 ∧ hasMemoryOperand i ∧ ¬i.hasSegment ∧
    i.modrmMod ≠ 3 ∧ (i.prefixes.all fun b => b = 0x66 ∨ b = 0x67) ∧ 0x66 ∈ i.prefixes ∧
    0x67 ∈ i.prefixes ∧ (¬touchesStackPointer i ∨ (classifyStackPointerFields i).supported)

/-- `Mode16Lea16AddressFields`. -/
structure Mode16Lea16AddressFields where
  firstRegister : ℕ := 0xFF
  secondRegister : ℕ := 0xFF
  displacement : ℤ := 0
  deriving DecidableEq, Repr

/-- The registers of a 16-bit ModRM address; the BP forms are left to the boundary. -/
def mode16AddressRegisters (md rm : ℕ) : Option (ℕ × ℕ) :=
  match rm with
  | 0 => some (3, 6)
  | 1 => some (3, 7)
  | 4 => some (6, 0xFF)
  | 5 => some (7, 0xFF)
  | 6 => if md = 0 then some (0xFF, 0xFF) else none
  | 7 => some (3, 0xFF)
  | _ => none

/-- `IsMode16Lea16`. -/
def isMode16Lea16 (i : Instruction) : Option Mode16Lea16AddressFields :=
  if i.map ≠ .default ∨ i.opcode ≠ 0x8D ∨ i.mnemonic ≠ .lea ∨ i.operandWidth ≠ 16 ∨
      i.addressWidth ≠ 16 ∨ i.prefixCount ≠ 0 ∨ ¬hasMemoryOperand i ∨ i.hasSegment ∨
      i.modrm.isNone ∨ i.modrmMod = 3 ∨ i.modrmOffset ≠ 1 then none
  else
    match mode16AddressRegisters i.modrmMod i.modrmRm with
    | none => none
    | some (first, second) =>
      let dispBytes :=
        if i.modrmMod = 1 then 1
        else if i.modrmMod = 2 ∨ (i.modrmMod = 0 ∧ i.modrmRm = 6) then 2 else 0
      let displacement : ℤ :=
        if dispBytes = 1 then leInt i.disp else if dispBytes = 2 then leNat i.disp else 0
      if i.dispOffset + dispBytes ≠ i.length ∨ i.disp.length ≠ dispBytes then none
      else if touchesStackPointer i ∧ ¬(classifyStackPointerFields i).supported then none
      else some ⟨first, second, displacement⟩

/-- `IsMode16LoopNz`. -/
def isMode16LoopNz (i : Instruction) : Bool :=
  i.map = .default ∧ i.opcode = 0xE0 ∧ i.mnemonic = .loopne ∧ i.category = .condBr ∧
    i.length = 2 ∧ i.addressWidth = 16 ∧ i.prefixCount = 0

/-! ## Classification -/

/-- The 16-bit part of the classification. -/
def classifyMode16 (i : Instruction) : LongModeCompatibilityResult :=
  if isMovStackPointerImmediate16 i then
    reencode .kStackPointerRegister .k16BitStackPointerImmediateToR15
  else if isMode16MovImmediate i then reencode .kOperandWidth .k16BitMovImmediateToGuestGprs
  else if isMode16MovRegister i then reencode .kOperandWidth .k16BitMovRegisterToGuestGprs
  else if isMode16Shift32 i then reencode .kOperandWidth .k16BitShift32ToGuestGprs
  else if isMode16AndAccumulatorImmediate i then
    reencode .kOperandWidth .k16BitAndAccumulatorImmediate
  else if isMode16Test32 i then reencode .kOperandWidth .k16BitTest32ToGuestGprs
  else if isMode16Lea32 i then reencode .kAddressSize .k16BitLea32ToGuestGprs
  else if (isMode16Lea16 i).isSome then reencode .kAddressSize .k16BitLea16ToGuestGprs
  else if isMode16LoopNz i then reencode .kAddressSize .k16BitLoopNzToGuestCx
  else refuse .kOperandWidth

/-- The verdict the opcode alone gives, if any. -/
def classifyOpcode (i : Instruction) : Option LongModeCompatibilityResult :=
  let opcode := i.opcode
  match i.map with
  | .default =>
    if isIncDecRegisterOpcode opcode then
      if touchesStackPointer i then some (refuse .kStackPointerRegister)
      else if i.length ≠ 1 then some (refuse .kSilentlyDifferent)
      else some (reencode .kSilentlyDifferent .kIncDecToModRm)
    else if isMoffsOpcode opcode then
      if i.length = 5 ∨ (i.length = 6 ∧ i.prefixes[0]? = some 0x66) then
        some (reencode .kSilentlyDifferent .kMoffsToSib)
      else some (refuse .kSilentlyDifferent)
    else if isMovStackPointerImmediate i then
      some (reencode .kStackPointerRegister .kStackPointerImmediateToR15)
    else if isSilentlyDifferentOpcode opcode then some (refuse .kSilentlyDifferent)
    else if isInvalidInLongMode opcode then
      if hasStackSequenceLowering opcode i then
        some (reencode .kInvalidInLongMode .kStackSequence)
      else some (refuse .kInvalidInLongMode)
    else if needsWidthReencode opcode i then
      some (reencode .kOperandWidth
        (if hasStackSequenceLowering opcode i then .kStackSequence else .kNone))
    else none
  | .m0F => if needsWidthReencodeTwoByte opcode then some (reencode .kOperandWidth) else none
  | _ => some (refuse .kSilentlyDifferent)

/-- Categories that transfer control. -/
def isControlCategory (c : Category) : Bool :=
  c = .call ∨ c = .ret ∨ c = .uncondBr ∨ c = .condBr ∨ c = .interrupt ∨ c = .syscall ∨ c = .sysret

/-- The verdict on an instruction that names the stack pointer. -/
def classifyStackPointer (i : Instruction) : LongModeCompatibilityResult :=
  let stack := classifyStackPointerFields i
  let high := classifyHighByteFields i
  if ¬stack.supported then refuse .kStackPointerRegister
  else if high.present then
    if high.sourceOnly ∧ ¬stack.rexR ∧ stack.rexB ∧ hasStackPointerMemoryBase i then
      reencode .kStackPointerRegister .kStackPointerHighByteToR15
    else if isHighByteMemoryDestination i high stack then
      reencode .kStackPointerRegister .kStackPointerHighByteDestinationToR15
    else refuse .kStackPointerRegister
  else if canReencodeStackPointer i then reencode .kStackPointerRegister .kStackPointerToR15
  else refuse .kStackPointerRegister

/-- The verdict on an instruction with a memory operand. -/
def classifyMemory (i : Instruction) : LongModeCompatibilityResult :=
  if i.hasSegment then
    if ¬hasOnlyCsSegmentMemory i ∨ isAbsoluteDisplacementForm i then refuse .kSegmentRegister
    else reencode .kAddressSize .kAddressSizePrefix
  else if isAbsoluteDisplacementForm i then reencode .kRipRelativeDisplacement .kAbsoluteToSib
  else reencode .kAddressSize .kAddressSizePrefix

/-- The 32-bit part of the classification. -/
def classifyMode32 (i : Instruction) : LongModeCompatibilityResult :=
  match classifyOpcode i with
  | some verdict => verdict
  | none =>
    if isControlCategory i.category then reencode .kOperandWidth
    else if touchesSegmentRegister i then refuse .kSegmentRegister
    else if touchesStackPointer i then classifyStackPointer i
    else if hasMemoryOperand i then classifyMemory i
    else if isAbsoluteDisplacementForm i then refuse .kRipRelativeDisplacement
    else if i.definition.privileged then refuse .kNone
    else if i.operandWidth ≠ 8 ∧ i.operandWidth ≠ 16 ∧ i.operandWidth ≠ 32 then
      refuse .kOperandWidth
    else ⟨.kIdenticalBytes, .kNone, .kNone⟩

/-- The verdict on a decoded instruction that is not a Group 1 alias. -/
def classifyDecoded (size : GuestCodeDefaultOperandSize) (i : Instruction) :
    LongModeCompatibilityResult :=
  if size = .k16 then classifyMode16 i else classifyMode32 i

/-- `ClassifyLongModeBytes`.  The recursion on the canonical spelling is one level deep: its
opcode is `80`. -/
def classifyLongModeBytes (table : Table) (bytes : List Byte)
    (size : GuestCodeDefaultOperandSize := .k32) : LongModeCompatibilityResult :=
  if bytes = [] then refuse .kNone
  else
    match decode table (decoderMode size) bytes with
    | none => refuse .kNone
    | some i =>
      match canonicalizeGroup1ImmediateAlias i bytes with
      | none => classifyDecoded size i
      | some canonical =>
        match decode table (decoderMode size) canonical with
        | none => refuse .kNone
        | some i' =>
          let verdict := classifyDecoded size i'
          if verdict.compatibility = .kIdenticalBytes then
            reencode .kInvalidInLongMode .kGroup1ImmediateAlias
          else verdict

end Repiu.Runtime
