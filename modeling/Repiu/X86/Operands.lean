import Repiu.X86.Decoder

/-!
# Operands

The operand list of a decoded instruction, computed from the definition's
operand templates and the raw fields.
-/

namespace Repiu.X86

/-- A memory operand. -/
structure MemoryOperand where
  segment : Register
  base : Register
  index : Register
  scale : ℕ
  hasDisplacement : Bool
  displacement : ℤ
  deriving DecidableEq, Repr

/-- An operand by kind. -/
inductive OperandKind
  | register (reg : Register)
  | memory (mem : MemoryOperand)
  | immediate (signed relative : Bool) (value : ℤ)
  | other
  deriving DecidableEq, Repr

/-- The raw field an operand is encoded in. -/
inductive OperandEncoding
  | modrmReg | modrmRm | other
  deriving DecidableEq, Repr

/-- A decoded operand. -/
structure Operand where
  kind : OperandKind
  read : Bool
  write : Bool
  encoding : OperandEncoding
  deriving DecidableEq, Repr

namespace Operand

/-- Whether an operand is a segment register. -/
def isSegmentRegister (op : Operand) : Bool :=
  match op.kind with
  | .register (.segment _) => true
  | _ => false

/-- Whether an operand is in memory. -/
def isMemory (op : Operand) : Bool :=
  match op.kind with
  | .memory _ => true
  | _ => false

end Operand

/-! ## Values of raw fields -/

/-- The unsigned little-endian value of a byte string. -/
def leNat : List Byte → ℕ
  | [] => 0
  | b :: bs => b.toNat + 256 * leNat bs

/-- The sign-extended little-endian value of a byte string. -/
def leInt (bs : List Byte) : ℤ :=
  if bs.length = 0 then 0
  else if 2 ^ (8 * bs.length - 1) ≤ leNat bs then (leNat bs : ℤ) - 2 ^ (8 * bs.length) else leNat bs

/-- A general register of the given width; byte registers 4-7 are the high bytes without REX. -/
def gprOfWidth (rex : Bool) (width id : ℕ) : Register :=
  match width with
  | 8 => if rex ∧ 4 ≤ id then .gpr8 (id + 4) else .gpr8 id
  | 16 => .gpr16 id
  | 32 => .gpr32 id
  | _ => .gpr64 id

/-- The width of the stack pointer in a mode. -/
def stackWidth : MachineMode → ℕ
  | .legacy16 => 16
  | .legacy32 => 32
  | .long64 => 64

namespace Instruction

/-- A register of the given class. -/
def regOfClass (i : Instruction) (cls : RegClass) (id : ℕ) : Register :=
  let rex := (effectiveRex i.mode i.prefixes).isSome
  match cls with
  | .gpr8 => gprOfWidth rex 8 id
  | .gprOsz => gprOfWidth rex i.operandWidth id
  | .gpr16 => .gpr16 id
  | .gpr32 => .gpr32 id
  | .gpr64 => .gpr64 id
  | .gprStack => gprOfWidth rex (stackWidth i.mode) id
  | .segment => .segment id
  | .other c => .other (1000 * c + id)

/-- Extend a three-bit register number by a REX bit. -/
def extend (bit : Bool) (id : ℕ) : ℕ := if bit then id + 8 else id

/-- Base, index, scale and displacement flag of the ModRM memory operand. -/
def memoryFields (i : Instruction) : Register × Register × ℕ × Bool :=
  let md := i.modrmMod
  let rm := i.modrmRm
  let sib := i.sib.getD 0
  if i.addressWidth = 16 then
    let base := match rm with
      | 0 | 1 | 7 => Register.gpr16 3
      | 2 | 3 | 6 => .gpr16 5
      | 4 => .gpr16 6
      | _ => .gpr16 7
    let index := match rm with
      | 0 | 2 => Register.gpr16 6
      | 1 | 3 => .gpr16 7
      | _ => .none
    (if md = 0 ∧ rm = 6 then .none else base, index, if index = .none then 0 else 1,
      md ≠ 0 ∨ rm = 6)
  else
    let gpr := fun id => gprOfWidth false i.addressWidth id
    if rm = 4 then
      let index := gpr (extend i.rexX (regField sib))
      let noIndex := !i.rexX && regField sib = 4
      let base := if md = 0 ∧ rmField sib = 5 then Register.none else gpr (extend i.rexB (rmField sib))
      (base, if noIndex then .none else index, if noIndex then 0 else 2 ^ modField sib,
        md ≠ 0 ∨ rmField sib = 5)
    else if md = 0 ∧ rm = 5 then
      -- RIP-relative in long mode, absolute elsewhere
      (if i.mode = .long64 then .other 0 else .none, .none, 0, true)
    else (gpr (extend i.rexB rm), .none, 0, md ≠ 0)

/-- The segment a memory operand goes through. -/
def memorySegment (i : Instruction) (base : Register) : Register :=
  match if i.definition.acceptsSegment then effectiveSegment i.mode i.prefixes else none with
  | some s => .segment s
  | none =>
    match base with
    | .gpr16 id | .gpr32 id | .gpr64 id => if id = 4 ∨ id = 5 then .segment 2 else .segment 3
    | _ => .segment 3

/-- The ModRM memory operand. -/
def modrmMemory (i : Instruction) : MemoryOperand :=
  let (base, index, scale, hasDisp) := i.memoryFields
  ⟨i.memorySegment base, base, index, scale, hasDisp, if hasDisp then leInt i.disp else 0⟩

/-- The value of an immediate. -/
def immediate (i : Instruction) (k : ℕ) : OperandKind :=
  match i.imms[k]? with
  | some (spec, bs) =>
    .immediate spec.signed spec.relative (if spec.signed then leInt bs else leNat bs)
  | none => .other

/-- The operand a template stands for. -/
def operand (i : Instruction) (t : OperandTemplate) : Operand :=
  match t.source with
  | .modrmReg cls =>
    ⟨.register (i.regOfClass cls (extend i.rexR i.modrmReg)), t.read, t.write, .modrmReg⟩
  | .modrmRm cls =>
    if i.modrmMod = 3 ∨ i.definition.forceRegForm then
      ⟨.register (i.regOfClass cls (extend i.rexB i.modrmRm)), t.read, t.write, .modrmRm⟩
    else ⟨.memory i.modrmMemory, t.read, t.write, .modrmRm⟩
  | .modrmMem => ⟨.memory i.modrmMemory, t.read, t.write, .modrmRm⟩
  | .opcodeReg cls =>
    ⟨.register (i.regOfClass cls (extend i.rexB (i.opcode.toNat % 8))), t.read, t.write, .other⟩
  | .fixed cls id => ⟨.register (i.regOfClass cls id), t.read, t.write, .other⟩
  | .implicitMem base seg ignoreOverride =>
    let width := if base = 4 ∨ base = 5 then stackWidth i.mode else i.addressWidth
    let override :=
      if i.definition.acceptsSegment ∧ ¬ignoreOverride then effectiveSegment i.mode i.prefixes
      else none
    ⟨.memory ⟨.segment (override.getD seg), gprOfWidth false width base, .none, 0, false, 0⟩,
      t.read, t.write, .other⟩
  | .moffs =>
    ⟨.memory ⟨i.memorySegment .none, .none, .none, 0, true, leNat i.disp⟩, t.read, t.write, .other⟩
  | .imm k => ⟨i.immediate k, t.read, t.write, .other⟩
  | .other => ⟨.other, t.read, t.write, .other⟩

/-- The absolute address of a relative immediate operand (`ZydisCalcAbsoluteAddress`). -/
def absoluteAddress (i : Instruction) (op : Operand) (address : Word) : Option ℤ :=
  match op.kind with
  | .immediate true true value =>
    let target : ℤ := (address.toNat : ℤ) + i.length + value
    if i.mode ≠ .long64 ∧ i.operandWidth = 16 then some (target % 2 ^ 16)
    else some (target % 2 ^ 64)
  | _ => none

/-- All operands, visible ones first. -/
def operands (i : Instruction) : List Operand := i.definition.operands.map i.operand

/-- The visible operands. -/
def visible (i : Instruction) : List Operand := i.operands.take i.definition.visibleOperands

end Instruction

end Repiu.X86
