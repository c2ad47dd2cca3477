import Repiu.Runtime.LongMode

/-!
# Long-mode lowering

`LowerLongModeBytes` and the stack sequences (`aot_long_mode_compatibility.cpp`).
A lowering is the list of emitted host instructions; the bytes of the lowering are
their concatenation and its instruction count is their number.
-/

namespace Repiu.Runtime

open Repiu.X86

/-- The bytes of the host instructions a lowering writes, one list per instruction. -/
abbrev Sequence := List (List Byte)

/-! ## `SequenceWriter` -/

namespace SequenceWriter

/-- `AdjustGuestEsp`: `lea r15d, [r15+disp8]`. -/
def adjustGuestEsp (displacement : Byte) : List Byte := [0x45, 0x8D, 0x7F, displacement]

/-- `StoreGuestRegister`: `mov [r15], reg`. -/
def storeGuestRegister (reg : Byte) : List Byte := [0x41, 0x89, 0x07 ||| reg <<< 3]

/-- `LoadGuestRegister`: `mov reg, [r15]`. -/
def loadGuestRegister (reg : Byte) : List Byte := [0x41, 0x8B, 0x07 ||| reg <<< 3]

/-- `StoreGuestRegisterAt`: `mov [r15+disp8], reg`. -/
def storeGuestRegisterAt (reg displacement : Byte) : List Byte :=
  [0x41, 0x89, 0x47 ||| reg <<< 3, displacement]

/-- `LoadGuestRegisterAt`: `mov reg, [r15+disp8]`. -/
def loadGuestRegisterAt (reg displacement : Byte) : List Byte :=
  [0x41, 0x8B, 0x47 ||| reg <<< 3, displacement]

/-- `LoadScratchFromMemory`: the guest's memory operand into `r14d`.  `tail` are the bytes
behind the ModRM byte. -/
def loadScratchFromMemory (modrm : Byte) (tail : List Byte) (guestEspBase : Bool) : List Byte :=
  let absoluteDisp32 := modrm &&& 0xC7 = 0x05
  [0x67, if guestEspBase then 0x45 else 0x44, 0x8B] ++
    (if absoluteDisp32 then [modrm &&& 0xF8 ||| 0x04, 0x25] else [modrm &&& 0xC7 ||| 0x30]) ++
    (if ¬absoluteDisp32 ∧ modrm &&& 0x07 = 4 ∧ guestEspBase then
      match tail with
      | sib :: rest => (sib &&& 0xF8 ||| 0x07) :: rest
      | [] => []
    else tail)

/-- `StoreScratchAt`: `mov [r15+disp8], r14d`. -/
def storeScratchAt (displacement : Byte) : List Byte := [0x45, 0x89, 0x77, displacement]

/-- `StoreImmediate`: `mov dword ptr [r15], imm32`. -/
def storeImmediate (value : Word) : List Byte := [0x41, 0xC7, 0x07] ++ le32 value

/-- `ExtendedMove`. -/
def extendedMove (rex opcode modrm : Byte) : List Byte := [rex, opcode, modrm]

end SequenceWriter

open SequenceWriter

/-- The one-byte PUSH and POP forms of `WriteStackSequence`. -/
def writePushPop (opcode : Byte) (operandWidth : ℕ) : Sequence :=
  let reg := opcode &&& 0x07
  let isPop := opcode &&& 0x08 ≠ 0
  if operandWidth = 16 then
    if reg = 4 then
      if isPop then
        [0x66 :: extendedMove 0x45 0x8B 0x37, adjustGuestEsp 2, 0x66 :: extendedMove 0x45 0x89 0xF7]
      else
        [extendedMove 0x45 0x89 0xFE, adjustGuestEsp (-2), 0x66 :: extendedMove 0x45 0x89 0x37]
    else if isPop then [0x66 :: loadGuestRegister reg, adjustGuestEsp 2]
    else [adjustGuestEsp (-2), 0x66 :: storeGuestRegister reg]
  else if reg = 4 then
    if isPop then [extendedMove 0x45 0x8B 0x3F]
    else [extendedMove 0x45 0x89 0xFE, adjustGuestEsp (-4), extendedMove 0x45 0x89 0x37]
  else if isPop then [loadGuestRegister reg, adjustGuestEsp 4]
  else [adjustGuestEsp (-4), storeGuestRegister reg]

/-- The `FF /6` form of `WriteStackSequence`. -/
def writePushMemory (bytes : List Byte) (i : Instruction) : Option Sequence :=
  if i.operandWidth ≠ 32 ∨ i.prefixCount ≠ 0 ∨ i.modrmReg ≠ 6 then none
  else if i.modrmMod = 3 then
    if i.modrmRm = 4 then
      some [extendedMove 0x45 0x89 0xFE, adjustGuestEsp (-4), extendedMove 0x45 0x89 0x37]
    else some [adjustGuestEsp (-4), storeGuestRegister (BitVec.ofNat 8 i.modrmRm)]
  else
    let modrm := bytes.getD i.modrmOffset 0
    let tail := (bytes.take i.length).drop (i.modrmOffset + 1)
    let guestEspBase := modrm &&& 0x07 = 4 ∧ tail.headD 0 &&& 0x07 = 4
    some [loadScratchFromMemory modrm tail guestEspBase, adjustGuestEsp (-4),
      extendedMove 0x45 0x89 0x37]

/-- The `8F /0` form of `WriteStackSequence`. -/
def writePopMemory (bytes : List Byte) (i : Instruction) : Sequence :=
  if i.modrmMod ≠ 3 then
    [extendedMove 0x45 0x8B 0x37, adjustGuestEsp 4,
      [0x67, 0x44, 0x89, bytes.getD 1 0 &&& 0xC7 ||| 0x30] ++ (bytes.take i.length).drop 2]
  else if i.modrmRm = 4 then [extendedMove 0x45 0x8B 0x3F]
  else [loadGuestRegister (BitVec.ofNat 8 i.modrmRm), adjustGuestEsp 4]

/-- `WriteStackSequence`. -/
def writeStackSequence (bytes : List Byte) (i : Instruction) : Option Sequence :=
  let opcode := i.opcode
  if 0x50 ≤ opcode ∧ opcode ≤ 0x5F then some (writePushPop opcode i.operandWidth)
  else if opcode = 0xFF then writePushMemory bytes i
  else if opcode = 0x60 then
    some [extendedMove 0x45 0x89 0xFE, adjustGuestEsp (-32), storeGuestRegisterAt 7 0,
      storeGuestRegisterAt 6 4, storeGuestRegisterAt 5 8, storeScratchAt 12,
      storeGuestRegisterAt 3 16, storeGuestRegisterAt 2 20, storeGuestRegisterAt 1 24,
      storeGuestRegisterAt 0 28]
  else if opcode = 0x61 then
    some [loadGuestRegisterAt 7 0, loadGuestRegisterAt 6 4, loadGuestRegisterAt 5 8,
      loadGuestRegisterAt 3 16, loadGuestRegisterAt 2 20, loadGuestRegisterAt 1 24,
      loadGuestRegisterAt 0 28, adjustGuestEsp 32]
  else if opcode = 0x68 then
    some [adjustGuestEsp (-4), storeImmediate
      (word32 (bytes.getD 1 0) (bytes.getD 2 0) (bytes.getD 3 0) (bytes.getD 4 0))]
  else if opcode = 0x6A then
    some [adjustGuestEsp (-4), storeImmediate ((bytes.getD 1 0).signExtend 32)]
  else if opcode = 0x8F then some (writePopMemory bytes i)
  else if opcode = 0x9C then
    some [[0x9C], [0x41, 0x5E], adjustGuestEsp (-4), extendedMove 0x45 0x89 0x37]
  else if opcode = 0x9D then
    some [extendedMove 0x45 0x8B 0x37, adjustGuestEsp 4, [0x41, 0x56], [0x9D]]
  else if opcode = 0xC9 then
    some [extendedMove 0x41 0x89 0xEF, extendedMove 0x41 0x8B 0x2F, adjustGuestEsp 4]
  else none

/-! ## Single rewrites -/

/-- The REX byte the stack-pointer rewrite adds. -/
def stackPointerRex (fields : StackPointerFields) : Byte :=
  0x40 ||| (if fields.rexR then 0x04 else 0x00) ||| (if fields.rexB then 0x01 else 0x00)

/-- Replace the byte at an index. -/
def modifyByte (bs : List Byte) (index : ℕ) (f : Byte → Byte) : List Byte := bs.modify index f

/-- The `k16BitLea32ToGuestGprs` rewrite. -/
def lowerLea32 (bytes : List Byte) (i : Instruction) : Option Sequence :=
  if ¬isMode16Lea32 i ∨ i.modrmOffset ≠ i.prefixCount + 1 then none
  else
    let fields := classifyStackPointerFields i
    let needsRex := fields.rexR || fields.rexB
    if needsRex ∧ kMaxLoweredBytes < i.length + 1 then none
    else
      let head := (i.prefixes.filter (· ≠ 0x66)) ++ (if needsRex then [stackPointerRex fields] else [])
      let out := head ++ (bytes.take i.length).drop i.prefixCount
      let modrmOut := head.length + 1
      if out.length ≤ modrmOut then none
      else
        let out := if fields.rexR then modifyByte out modrmOut (fun b => b &&& 0xC7 ||| 0x38) else out
        if fields.rexB then
          if i.sib.isNone ∨ i.modrmRm ≠ 4 ∨ out.length ≤ modrmOut + 1 then none
          else some [modifyByte out (modrmOut + 1) (fun b => b &&& 0xF8 ||| 0x07)]
        else some [out]

/-- The `k16BitLea16ToGuestGprs` rewrite. -/
def lowerLea16 (i : Instruction) : Option Sequence :=
  match isMode16Lea16 i with
  | none => none
  | some address =>
    let destination := i.modrmReg
    let destinationIsStackPointer := (classifyStackPointerFields i).rexR
    if 7 < destination ∨ (¬destinationIsStackPointer ∧ destination = 4) then none
    else
      let first : Sequence :=
        if address.firstRegister ≠ 0xFF then
          [[0x44, 0x0F, 0xB7, 0xF0 ||| BitVec.ofNat 8 address.firstRegister]]
        else [[0x41, 0xBE, 0, 0, 0, 0]]
      let second : Sequence :=
        if address.secondRegister ≠ 0xFF then
          [[0x44, 0x0F, 0xB7, 0xD0 ||| BitVec.ofNat 8 address.secondRegister],
            [0x67, 0x47, 0x8D, 0x34, 0x16]]
        else []
      let modrm : Byte :=
        0x80 ||| BitVec.ofNat 8 (if destinationIsStackPointer then 7 else destination) <<< 3 ||| 6
      let last : List Byte :=
        [0x67, 0x66, if destinationIsStackPointer then 0x45 else 0x41, 0x8D, modrm] ++
          le32 (BitVec.ofInt 32 address.displacement)
      some (first ++ second ++ [last])

/-- The `kMoffsToSib` rewrite. -/
def lowerMoffs (bytes : List Byte) (i : Instruction) : Option Sequence :=
  let modrmOpcode := moffsModRmOpcode i.opcode
  if modrmOpcode = 0 ∨ (i.length ≠ 5 ∧ i.length ≠ 6) then none
  else if i.length = 6 ∧ bytes[0]? ≠ some 0x66 then none
  else
    some [(if i.length = 6 then [0x66] else []) ++ [0x67, modrmOpcode, 0x04, 0x25] ++
      (bytes.take i.length).drop (i.length - 4)]

/-- The ModRM offset the rewrites of the default and `0F` maps expect. -/
def expectedModrmOffset (i : Instruction) : ℕ :=
  if i.map = .default then i.prefixCount + 1 else i.prefixCount + 2

/-- The `kStackPointerHighByteToR15` rewrite. -/
def lowerHighByteSource (bytes : List Byte) (i : Instruction) : Option Sequence :=
  let stack := classifyStackPointerFields i
  let high := classifyHighByteFields i
  if ¬stack.supported ∨ ¬stack.rexB ∨ stack.rexR ∨ ¬high.present ∨ ¬high.sourceOnly ∨
      3 < high.sourceGpr ∨ ¬hasStackPointerMemoryBase i ∨ i.modrmOffset = 0 ∨
      i.length ≤ i.prefixCount ∨ i.modrmOffset ≤ i.prefixCount ∨
      (i.map ≠ .default ∧ i.map ≠ .m0F) ∨ i.modrmOffset ≠ expectedModrmOffset i ∨
      i.modrmMod = 3 ∨ kMaxLoweredBytes < i.length + 8 then none
  else
    let source := BitVec.ofNat 8 high.sourceGpr
    let exchange : List Byte := [0x86, 0xC4 + source * 9]
    let moved := i.prefixes ++ [0x45] ++ (bytes.take i.length).drop i.prefixCount
    let modrmOut := i.modrmOffset + 1
    let moved := modifyByte moved modrmOut (fun b => b &&& 0xC7 ||| 0x30)
    if moved.length ≤ modrmOut + 1 then none
    else
      some [exchange, [0x41, 0x88, 0xC6 ||| source <<< 3], exchange,
        modifyByte moved (modrmOut + 1) (fun b => b &&& 0xF8 ||| 0x07)]

/-- The `kStackPointerToR15` rewrite. -/
def lowerStackPointer (bytes : List Byte) (i : Instruction) : Option Sequence :=
  let fields := classifyStackPointerFields i
  if ¬fields.supported ∨ kMaxLoweredBytes < i.length + 1 ∨ i.modrmOffset = 0 ∨
      i.length ≤ i.prefixCount ∨ i.modrmOffset ≤ i.prefixCount then none
  else if (i.map ≠ .default ∧ i.map ≠ .m0F) ∨ i.modrmOffset ≠ expectedModrmOffset i then none
  else
    let out := i.prefixes ++ [stackPointerRex fields] ++ (bytes.take i.length).drop i.prefixCount
    let modrmOut := i.modrmOffset + 1
    let out := if fields.rexR then modifyByte out modrmOut (fun b => b &&& 0xC7 ||| 0x38) else out
    if fields.rexB then
      if i.modrmMod = 3 then some [modifyByte out modrmOut (fun b => b &&& 0xF8 ||| 0x07)]
      else if out.length ≤ modrmOut + 1 then none
      else some [modifyByte out (modrmOut + 1) (fun b => b &&& 0xF8 ||| 0x07)]
    else some [out]

/-- The `kStackPointerHighByteDestinationToR15` rewrite. -/
def lowerHighByteDestination (bytes : List Byte) (i : Instruction) : Option Sequence :=
  let stack := classifyStackPointerFields i
  let high := classifyHighByteFields i
  if ¬isHighByteMemoryDestination i high stack ∨ i.modrmOffset ≠ i.prefixCount + 1 ∨
      i.length ≤ i.modrmOffset + 1 ∨ bytes.getD i.modrmOffset 0 &&& 0x07 ≠ 4 ∨
      bytes.getD (i.modrmOffset + 1) 0 &&& 0x07 ≠ 4 ∨ kMaxLoweredBytes < i.length + 7 then none
  else
    let load := (0x41 : Byte) :: (bytes.take i.length).drop i.prefixCount
    -- the opcode is at 1, so ModRM and SIB are at 2 and 3
    let load := modifyByte load 2 (fun b => b &&& 0xC7 ||| 0x10)
    let load := modifyByte load 3 (fun b => b &&& 0xF8 ||| 0x07)
    some [[0x41, 0x88, 0xD6], load, [0x8A, 0xE2 ||| BitVec.ofNat 8 high.sourceGpr <<< 3],
      [0x44, 0x88, 0xF2]]

/-- The `kAbsoluteToSib` rewrite, the tail of `LowerLongModeBytes`. -/
def lowerAbsolute (bytes : List Byte) (i : Instruction) : Option Sequence :=
  if i.length ≤ i.modrmOffset ∨ kMaxLoweredBytes < i.length + 2 then none
  else if i.disp.length ≠ 4 ∨ i.dispOffset ≠ i.modrmOffset + 1 then none
  else if i.length < i.dispOffset + 4 then none
  else if i.imms.any fun p => p.2.length ≠ 0 ∧ p.1.relative then none
  else if i.dispOffset + 4 + i.immLength ≠ i.length then none
  else
    some [[0x67] ++ bytes.take i.modrmOffset ++
      [bytes.getD i.modrmOffset 0 &&& 0xF8 ||| 0x04, 0x25] ++
      (bytes.take i.length).drop (i.modrmOffset + 1)]

/-- The rewrite a lowering names, on a decoded instruction that is not a Group 1 alias. -/
def lowerDecoded (lowering : LongModeLowering) (size : GuestCodeDefaultOperandSize)
    (bytes : List Byte) (i : Instruction) : Option Sequence :=
  let is16 := size = .k16
  match lowering with
  | .kNone | .k16BitLoopNzToGuestCx => none
  | .k16BitStackPointerImmediateToR15 =>
    if ¬is16 ∨ ¬isMovStackPointerImmediate16 i ∨ i.length ≠ 3 then none
    else some [[0x66, 0x41, 0xBF, bytes.getD 1 0, bytes.getD 2 0]]
  | .k16BitMovImmediateToGuestGprs =>
    if ¬is16 ∨ ¬isMode16MovImmediate i ∨ i.length ≠ 3 then none
    else some [[0x66, bytes.getD 0 0, bytes.getD 1 0, bytes.getD 2 0]]
  | .k16BitMovRegisterToGuestGprs =>
    if ¬is16 ∨ ¬isMode16MovRegister i ∨ i.length ≠ 2 then none
    else some [[0x66, bytes.getD 0 0, bytes.getD 1 0]]
  | .k16BitShift32ToGuestGprs =>
    if ¬is16 ∨ ¬isMode16Shift32 i ∨ i.length ≠ 4 then none
    else some [[bytes.getD 1 0, bytes.getD 2 0, bytes.getD 3 0]]
  | .k16BitAndAccumulatorImmediate =>
    if ¬is16 ∨ ¬isMode16AndAccumulatorImmediate i ∨ i.length ≠ 3 then none
    else some [[0x66, bytes.getD 0 0, bytes.getD 1 0, bytes.getD 2 0]]
  | .k16BitTest32ToGuestGprs =>
    if ¬is16 ∨ ¬isMode16Test32 i ∨ i.length ≠ 3 then none
    else some [[bytes.getD 1 0, bytes.getD 2 0]]
  | .k16BitLea32ToGuestGprs => if ¬is16 then none else lowerLea32 bytes i
  | .k16BitLea16ToGuestGprs => if ¬is16 ∨ i.modrmOffset ≠ 1 then none else lowerLea16 i
  | .kAddressSizePrefix =>
    if kMaxLoweredBytes < i.length + 1 then none else some [0x67 :: bytes.take i.length]
  | .kMoffsToSib => lowerMoffs bytes i
  | .kStackPointerHighByteToR15 => lowerHighByteSource bytes i
  | .kStackPointerToR15 => lowerStackPointer bytes i
  | .kStackPointerImmediateToR15 =>
    if ¬isMovStackPointerImmediate i then none
    else some [[0x41, 0xBF] ++ (bytes.take 5).drop 1]
  | .kStackPointerHighByteDestinationToR15 => lowerHighByteDestination bytes i
  | .kStackSequence =>
    match writeStackSequence bytes i with
    | none => none
    | some seq => if kMaxLoweredBytes < seq.flatten.length then none else some seq
  | .kIncDecToModRm =>
    if i.length ≠ 1 then none
    else
      let opcode := bytes.getD 0 0
      some [[0xFF, 0xC0 ||| (if opcode &&& 0x08 ≠ 0 then 0x08 else 0x00) ||| (opcode &&& 0x07)]]
  | .kAbsoluteToSib | .kGroup1ImmediateAlias => lowerAbsolute bytes i

/-- `LowerLongModeBytes`. -/
def lowerLongModeBytes (table : Table) (bytes : List Byte)
    (size : GuestCodeDefaultOperandSize := .k32) : Option Sequence :=
  let verdict := classifyLongModeBytes table bytes size
  if verdict.lowering = .kNone then none
  else
    match decode table (decoderMode size) bytes with
    | none => none
    | some i =>
      match canonicalizeGroup1ImmediateAlias i bytes with
      | none => lowerDecoded verdict.lowering size bytes i
      | some canonical =>
        if verdict.lowering = .kGroup1ImmediateAlias then some [canonical]
        else
          -- the call on the canonical bytes classifies them again and gives the same lowering
          let verdict' := classifyLongModeBytes table canonical size
          if verdict'.lowering = .kNone then none
          else
            match decode table (decoderMode size) canonical with
            | none => none
            | some i' => lowerDecoded verdict'.lowering size canonical i'

end Repiu.Runtime
