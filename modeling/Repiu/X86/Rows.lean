import Repiu.X86.Operands

/-!
# Rows of the definition table

The rows of a few opcodes, enough to evaluate the model on small guests: the
opcodes of those guests and the ones the emitted slots consist of.
-/

namespace Repiu.X86

/-- A row with everything but its operands at the common values. -/
def row (mnemonic : Mnemonic) (operands : List OperandTemplate := []) (imms : List ImmSpec := [])
    (category : Category := .other) : Definition :=
  { mnemonic := mnemonic
    category := category
    farBranch := false
    privileged := false
    acceptsSegment := true
    mandatory66 := false
    operandSizeMap := 0
    addressSizeMap := 0
    forceRegForm := false
    moffs := false
    imms := imms
    operands := operands
    visibleOperands := operands.length }

/-- A `z` immediate: a word or a double word. -/
def immZ : ImmSpec := ⟨2, 4, 4, true, false⟩

/-- A relative `z` immediate. -/
def relZ : ImmSpec := ⟨2, 4, 4, true, true⟩

/-- A byte immediate. -/
def immB : ImmSpec := ⟨1, 1, 1, true, false⟩

/-- A relative byte immediate. -/
def relB : ImmSpec := ⟨1, 1, 1, true, true⟩

/-- An operand that is written. -/
def dst (source : OperandSource) : OperandTemplate := ⟨source, false, true⟩

/-- An operand that is read. -/
def src (source : OperandSource) : OperandTemplate := ⟨source, true, false⟩

/-- The rows of the one-byte map. -/
def defaultRow (opcode : Byte) (modrm : Byte) : Option Definition :=
  if opcode = 0x8B then some (row .mov [dst (.modrmReg .gprOsz), src (.modrmRm .gprOsz)])
  else if opcode = 0x8C then some (row .mov [dst (.modrmRm .gprOsz), src (.modrmReg .segment)])
  else if opcode = 0x81 ∧ regField modrm = 7 then
    some (row .cmp [src (.modrmRm .gprOsz), src (.imm 0)] [immZ])
  else if opcode = 0xFF ∧ regField modrm = 4 then
    some (row .jmp [src (.modrmRm .gprOsz)] [] .uncondBr)
  else if opcode = 0xB8 then some (row .mov [dst (.opcodeReg .gprOsz), src (.imm 0)] [immZ])
  else if opcode = 0xE9 then some (row .jmp [src (.imm 0)] [relZ] .uncondBr)
  else if opcode = 0xCC then some (row (.other 0xCC) [] [] .interrupt)
  else if opcode = 0x90 ∨ opcode = 0x9C ∨ opcode = 0x9D then some (row (.other opcode.toNat))
  else none

/-- The opcodes of the one-byte map that have a ModRM byte. -/
def modrmOpcodes : List Byte := [0x81, 0x8B, 0x8C, 0xFF]

/-- The table of these rows. -/
def sampleTable : Table where
  hasModrm := fun _ encoding map opcode =>
    encoding = .legacy ∧ map = .default ∧ opcode ∈ modrmOpcodes
  lookup := fun _ key =>
    if key.encoding = .legacy ∧ key.map = .default then defaultRow key.opcode (key.modrm.getD 0) else none

/-- Further rows of the one-byte map: the branches of small guests with more than one path. -/
def controlRow (opcode : Byte) (modrm : Byte) : Option Definition :=
  if opcode = 0x74 then some (row .jz [src (.imm 0)] [relB] .condBr)
  else if opcode = 0x77 then some (row .jnbe [src (.imm 0)] [relB] .condBr)
  else if opcode = 0x83 ∧ regField modrm = 7 then
    some (row .cmp [src (.modrmRm .gprOsz), src (.imm 0)] [immB])
  else if opcode = 0xE8 then some (row (.other 0xE8) [src (.imm 0)] [relZ] .call)
  else if opcode = 0xFF ∧ regField modrm = 2 then
    some (row (.other 0xE8) [src (.modrmRm .gprOsz)] [] .call)
  else defaultRow opcode modrm

/-- The table with these rows. -/
def controlTable : Table where
  hasModrm := fun _ encoding map opcode =>
    encoding = .legacy ∧ map = .default ∧ opcode ∈ 0x83 :: modrmOpcodes
  lookup := fun _ key =>
    if key.encoding = .legacy ∧ key.map = .default then controlRow key.opcode (key.modrm.getD 0) else none

end Repiu.X86
