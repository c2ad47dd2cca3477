import Repiu.ByteMemory

/-!
# Instruction decoder

The structural part of an x86 decoder: prefixes, opcode map, ModRM, SIB,
displacement and immediates are read from the bytes here, in all three machine
modes.  What an opcode *means* (mnemonic, category, operand templates, the
operand- and address-size rows) comes from a definition table, which is a
parameter: it stands for the generated tables of the vendored decoder.
-/

namespace Repiu.X86

/-- The three machine modes the translator decodes in. -/
inductive MachineMode
  | legacy16
  | legacy32
  | long64
  deriving DecidableEq, Repr

/-- Registers, by class and id.  `gpr8` ids 4-7 are AH, CH, DH and BH; 8 is SPL. -/
inductive Register
  | none
  | gpr8 (id : ℕ)
  | gpr16 (id : ℕ)
  | gpr32 (id : ℕ)
  | gpr64 (id : ℕ)
  | segment (id : ℕ)
  | other (id : ℕ)
  deriving DecidableEq, Repr

/-- The instruction categories the translator tells apart. -/
inductive Category
  | call | ret | condBr | uncondBr | interrupt | io | ioStringOp | rdwrFsGs | segOp | syscall
  | sysret | system | uintr | other
  deriving DecidableEq, Repr

/-- The mnemonics the translator tells apart. -/
inductive Mnemonic
  | jo | jno | jb | jnb | jz | jnz | jbe | jnbe | js | jns | jp | jnp | jl | jnl | jle | jnle
  | push | mov | cmp | and | movzx | xor | sub | jmp | lea | test | loopne | in | out
  | other (id : ℕ)
  deriving DecidableEq, Repr

/-- Instruction encodings. -/
inductive Encoding
  | legacy | vex | evex | xop | threeDNow
  deriving DecidableEq, Repr

/-- Opcode maps. -/
inductive OpcodeMap
  | default | m0F | m0F38 | m0F3A | m0F0F | other (id : ℕ)
  deriving DecidableEq, Repr

/-- Register classes an operand template can name. -/
inductive RegClass
  | gpr8 | gprOsz | gpr16 | gpr32 | gpr64 | gprStack | segment | other (id : ℕ)
  deriving DecidableEq, Repr

/-- Where an operand comes from. -/
inductive OperandSource
  | modrmReg (cls : RegClass)
  | modrmRm (cls : RegClass)
  | modrmMem
  | opcodeReg (cls : RegClass)
  | fixed (cls : RegClass) (id : ℕ)
  | implicitMem (base segment : ℕ) (ignoreOverride : Bool)
  | moffs
  | imm (index : ℕ)
  | other
  deriving DecidableEq, Repr

/-- An operand as the definition table lists it. -/
structure OperandTemplate where
  source : OperandSource
  read : Bool
  write : Bool
  deriving DecidableEq, Repr

/-- An immediate field: its size in bytes for operand sizes 16, 32 and 64. -/
structure ImmSpec where
  size16 : ℕ
  size32 : ℕ
  size64 : ℕ
  signed : Bool
  relative : Bool
  deriving DecidableEq, Repr

/-- One row of the definition table. -/
structure Definition where
  mnemonic : Mnemonic
  category : Category
  farBranch : Bool
  privileged : Bool
  acceptsSegment : Bool
  /-- The operand-size prefix is part of the opcode. -/
  mandatory66 : Bool
  operandSizeMap : Fin 8
  addressSizeMap : Fin 3
  forceRegForm : Bool
  moffs : Bool
  imms : List ImmSpec
  operands : List OperandTemplate
  visibleOperands : ℕ
  deriving DecidableEq, Repr

/-- What the definition table is indexed by. -/
structure Key where
  encoding : Encoding
  payload : List Byte
  map : OpcodeMap
  opcode : Byte
  modrm : Option Byte
  operandSize : Bool
  addressSize : Bool
  lock : Bool
  repeatPrefix : Option Byte
  rex : Option Byte
  deriving DecidableEq, Repr

/-- The generated tables of the decoder. -/
structure Table where
  hasModrm : MachineMode → Encoding → OpcodeMap → Byte → Bool
  lookup : MachineMode → Key → Option Definition

/-! ## Prefixes -/

/-- Bytes that are a prefix in every mode. -/
def isLegacyPrefix (b : Byte) : Bool :=
  b = 0xF0 ∨ b = 0xF2 ∨ b = 0xF3 ∨ b = 0x2E ∨ b = 0x36 ∨ b = 0x3E ∨ b = 0x26 ∨ b = 0x64 ∨
    b = 0x65 ∨ b = 0x66 ∨ b = 0x67

/-- A REX byte. -/
def isRex (b : Byte) : Bool := b &&& 0xF0 = 0x40

/-- A prefix of the given mode. -/
def isPrefix (mode : MachineMode) (b : Byte) : Bool :=
  isLegacyPrefix b || (mode = .long64 && isRex b)

/-- The segment a prefix byte overrides to, as an index in ES, CS, SS, DS, FS, GS order. -/
def segmentOfPrefix (b : Byte) : Option ℕ :=
  if b = 0x26 then some 0 else if b = 0x2E then some 1 else if b = 0x36 then some 2
  else if b = 0x3E then some 3 else if b = 0x64 then some 4 else if b = 0x65 then some 5 else none

/-- Long mode honours the FS and GS overrides only. -/
def segmentPrefixHonoured (mode : MachineMode) (b : Byte) : Bool :=
  match mode with
  | .long64 => b = 0x64 || b = 0x65
  | _ => (segmentOfPrefix b).isSome

/-- The segment override in effect: the last one the mode honours. -/
def effectiveSegment (mode : MachineMode) (prefixes : List Byte) : Option ℕ :=
  ((prefixes.filter (segmentPrefixHonoured mode)).getLast?).bind segmentOfPrefix

/-- A REX prefix counts only as the last prefix. -/
def effectiveRex (mode : MachineMode) (prefixes : List Byte) : Option Byte :=
  if mode = .long64 then prefixes.getLast?.filter isRex else none

/-- The last repeat prefix. -/
def effectiveRepeat (prefixes : List Byte) : Option Byte :=
  (prefixes.filter fun b => b = 0xF2 ∨ b = 0xF3).getLast?

/-! ## Opcode -/

/-- The opcode bytes: encoding, escape payload, map and opcode. -/
structure OpcodeBytes where
  encoding : Encoding
  payload : List Byte
  map : OpcodeMap
  opcode : Byte
  deriving DecidableEq, Repr

/-- The opcode map a VEX or EVEX map field selects. -/
def mapOfField (n : ℕ) : OpcodeMap :=
  match n with
  | 0 => .default
  | 1 => .m0F
  | 2 => .m0F38
  | 3 => .m0F3A
  | n => .other n

/-- The vector escapes: `C4`, `C5`, `62` when the mode or the next byte selects them, and the
XOP form of `8F`. -/
def vectorEscape (mode : MachineMode) (b next : Byte) : Option Encoding :=
  if b = 0xC4 ∨ b = 0xC5 then
    if mode = .long64 ∨ 0xC0 ≤ (next &&& 0xF0).toNat then some .vex else none
  else if b = 0x62 then
    if mode = .long64 ∨ 0xC0 ≤ (next &&& 0xF0).toNat then some .evex else none
  else if b = 0x8F then
    if 8 ≤ (next &&& 0x1F).toNat then some .xop else none
  else none

/-- The length of the escape payload a vector encoding reads before its opcode. -/
def payloadLength (b : Byte) : ℕ :=
  if b = 0xC5 then 2 else if b = 0x62 then 4 else 3

/-- Map field of a vector payload. -/
def payloadMap (payload : List Byte) : OpcodeMap :=
  match payload with
  | [_, _] => .m0F
  | [0x8F, p1, _] => .other (p1 &&& 0x1F).toNat
  | [_, p1, _] => mapOfField (p1 &&& 0x1F).toNat
  | _ :: p1 :: _ => mapOfField (p1 &&& 0x07).toNat
  | _ => .other 0

/-- Read the opcode bytes; the rest of the input follows. -/
def readOpcode (mode : MachineMode) (plain : Bool) : List Byte → Option (OpcodeBytes × List Byte)
  | [] => none
  | b :: rest =>
    match vectorEscape mode b (rest.headD 0) with
    | some enc =>
      -- a vector escape is illegal behind REX, LOCK, 66, F2 or F3
      if plain ∧ payloadLength b ≤ rest.length then
        let payload := b :: rest.take (payloadLength b - 1)
        match rest.drop (payloadLength b - 1) with
        | op :: rest' => some (⟨enc, payload, payloadMap payload, op⟩, rest')
        | [] => none
      else none
    | none =>
      if b = 0x0F then
        match rest with
        | [] => none
        | b1 :: rest1 =>
          if b1 = 0x38 then
            match rest1 with
            | [] => none
            | op :: rest2 => some (⟨.legacy, [b, b1], .m0F38, op⟩, rest2)
          else if b1 = 0x3A then
            match rest1 with
            | [] => none
            | op :: rest2 => some (⟨.legacy, [b, b1], .m0F3A, op⟩, rest2)
          else if b1 = 0x0F then some (⟨.threeDNow, [b], .m0F0F, b1⟩, rest1)
          else some (⟨.legacy, [b], .m0F, b1⟩, rest1)
      else some (⟨.legacy, [], .default, b⟩, rest)

/-! ## Widths -/

/-- Effective operand size (before the byte forms of row 1). -/
def operandSizeRow (row : Fin 8) (mode : MachineMode) (p66 rexW : Bool) : ℕ :=
  match mode with
  | .legacy16 =>
    match row with
    | 2 => 16
    | 6 | 7 => 32
    | _ => if p66 then 32 else 16
  | .legacy32 =>
    match row with
    | 2 | 6 | 7 => 32
    | _ => if p66 then 16 else 32
  | .long64 =>
    match row with
    | 0 | 1 => if rexW then 64 else if p66 then 16 else 32
    | 2 | 6 => if rexW then 64 else 32
    | 3 => if rexW then 32 else if p66 then 16 else 32
    | 4 => if rexW then 64 else if p66 then 16 else 64
    | _ => 64

/-- Effective address size. -/
def addressSizeRow (row : Fin 3) (mode : MachineMode) (p67 : Bool) : ℕ :=
  match mode with
  | .legacy16 =>
    match row with
    | 0 => if p67 then 32 else 16
    | 1 => 16
    | _ => 32
  | .legacy32 =>
    match row with
    | 0 => if p67 then 16 else 32
    | _ => 32
  | .long64 =>
    match row with
    | 0 => if p67 then 32 else 64
    | _ => 64

/-! ## ModRM, SIB and displacement -/

/-- The `mod` field. -/
def modField (modrm : Byte) : ℕ := modrm.toNat / 64

/-- The `reg` field. -/
def regField (modrm : Byte) : ℕ := modrm.toNat / 8 % 8

/-- The `rm` field. -/
def rmField (modrm : Byte) : ℕ := modrm.toNat % 8

/-- Whether a SIB byte follows. -/
def hasSib (addressWidth : ℕ) (modrm : Byte) : Bool :=
  addressWidth ≠ 16 ∧ modField modrm ≠ 3 ∧ rmField modrm = 4

/-- The number of displacement bytes. -/
def dispSize (addressWidth : ℕ) (modrm sib : Byte) : ℕ :=
  if addressWidth = 16 then
    match modField modrm with
    | 0 => if rmField modrm = 6 then 2 else 0
    | 1 => 1
    | 2 => 2
    | _ => 0
  else if hasSib addressWidth modrm ∧ rmField sib = 5 then
    if modField modrm = 1 then 1 else 4
  else
    match modField modrm with
    | 0 => if rmField modrm = 5 then 4 else 0
    | 1 => 1
    | 2 => 4
    | _ => 0

/-! ## Decoded instructions -/

/-- A decoded instruction.  The bytes of each field are kept apart. -/
structure Instruction where
  mode : MachineMode
  prefixes : List Byte
  code : OpcodeBytes
  modrm : Option Byte
  sib : Option Byte
  disp : List Byte
  imms : List (ImmSpec × List Byte)
  definition : Definition
  addressWidth : ℕ
  deriving DecidableEq, Repr

namespace Instruction

/-- The bytes the opcode occupies, escapes included. -/
def codeLength (i : Instruction) : ℕ := i.code.payload.length + 1

/-- The number of immediate bytes. -/
def immLength (i : Instruction) : ℕ := (i.imms.map fun p => p.2.length).sum

/-- The length of the instruction. -/
def length (i : Instruction) : ℕ :=
  i.prefixes.length + i.codeLength + i.modrm.toList.length + i.sib.toList.length +
    i.disp.length + i.immLength

/-- `raw.prefix_count`. -/
def prefixCount (i : Instruction) : ℕ := i.prefixes.length

/-- `raw.modrm.offset`, zero without a ModRM byte. -/
def modrmOffset (i : Instruction) : ℕ :=
  if i.modrm.isSome then i.prefixes.length + i.codeLength else 0

/-- `raw.modrm.mod`, zero without a ModRM byte. -/
def modrmMod (i : Instruction) : ℕ := (i.modrm.map modField).getD 0

/-- `raw.modrm.reg`, zero without a ModRM byte. -/
def modrmReg (i : Instruction) : ℕ := (i.modrm.map regField).getD 0

/-- `raw.modrm.rm`, zero without a ModRM byte. -/
def modrmRm (i : Instruction) : ℕ := (i.modrm.map rmField).getD 0

/-- `raw.sib.base`, zero without a SIB byte. -/
def sibBase (i : Instruction) : ℕ := (i.sib.map rmField).getD 0

/-- `raw.disp.offset`, zero without a displacement. -/
def dispOffset (i : Instruction) : ℕ :=
  if i.disp = [] then 0
  else i.prefixes.length + i.codeLength + i.modrm.toList.length + i.sib.toList.length

/-- The opcode byte. -/
def opcode (i : Instruction) : Byte := i.code.opcode

/-- The opcode map. -/
def map (i : Instruction) : OpcodeMap := i.code.map

/-- The mnemonic. -/
def mnemonic (i : Instruction) : Mnemonic := i.definition.mnemonic

/-- The category. -/
def category (i : Instruction) : Category := i.definition.category

/-- An operand-size prefix that is not part of the opcode. -/
def hasOperandSize (i : Instruction) : Bool :=
  i.prefixes.contains 0x66 && !i.definition.mandatory66

/-- REX.W. -/
def rexW (i : Instruction) : Bool :=
  match effectiveRex i.mode i.prefixes with
  | some r => r.getLsbD 3
  | none => false

/-- REX.R. -/
def rexR (i : Instruction) : Bool :=
  match effectiveRex i.mode i.prefixes with
  | some r => r.getLsbD 2
  | none => false

/-- REX.X. -/
def rexX (i : Instruction) : Bool :=
  match effectiveRex i.mode i.prefixes with
  | some r => r.getLsbD 1
  | none => false

/-- REX.B. -/
def rexB (i : Instruction) : Bool :=
  match effectiveRex i.mode i.prefixes with
  | some r => r.getLsbD 0
  | none => false

/-- `operand_width`. -/
def operandWidth (i : Instruction) : ℕ :=
  if i.definition.operandSizeMap = 1 then 8
  else operandSizeRow i.definition.operandSizeMap i.mode i.hasOperandSize i.rexW

/-- `ZYDIS_ATTRIB_HAS_SEGMENT`: an override in effect on an operand that takes one. -/
def hasSegment (i : Instruction) : Bool :=
  (effectiveSegment i.mode i.prefixes).isSome && i.definition.acceptsSegment

/-- The raw bytes of the instruction. -/
def bytes (i : Instruction) : List Byte :=
  i.prefixes ++ i.code.payload ++ [i.code.opcode] ++ i.modrm.toList ++ i.sib.toList ++ i.disp ++
    (i.imms.map Prod.snd).flatten

end Instruction

/-! ## Decoding -/

/-- Read `n` bytes. -/
def readBytes (n : ℕ) (bs : List Byte) : Option (List Byte × List Byte) :=
  if n ≤ bs.length then some (bs.take n, bs.drop n) else none

/-- The size of an immediate at the given operand width. -/
def ImmSpec.size (s : ImmSpec) (width : ℕ) : ℕ :=
  if width = 16 then s.size16 else if width = 64 then s.size64 else s.size32

/-- Read the immediates of a definition. -/
def readImms (width : ℕ) : List ImmSpec → List Byte → Option (List (ImmSpec × List Byte) × List Byte)
  | [], bs => some ([], bs)
  | s :: ss, bs => do
    let (v, bs) ← readBytes (s.size width) bs
    let (vs, bs) ← readImms width ss bs
    return ((s, v) :: vs, bs)

/-- Read ModRM, SIB and displacement. -/
def readModrm (addressWidth : ℕ) (forceReg : Bool) (modrm : Byte) (bs : List Byte) :
    Option (Option Byte × List Byte × List Byte) := do
  if forceReg then return (none, [], bs)
  if hasSib addressWidth modrm then
    match bs with
    | [] => none
    | sib :: bs =>
      let (d, bs) ← readBytes (dispSize addressWidth modrm sib) bs
      return (some sib, d, bs)
  else
    let (d, bs) ← readBytes (dispSize addressWidth modrm 0) bs
    return (none, d, bs)

/-- Read the ModRM byte of an opcode that has one. -/
def readModrmByte (present : Bool) (bs : List Byte) : Option (Option Byte × List Byte) :=
  if present then
    match bs with
    | [] => none
    | m :: bs => some (some m, bs)
  else some (none, bs)

/-- Read what follows the ModRM byte, or the offset of a form without one. -/
def readAddressing (d : Definition) (addressWidth : ℕ) (modrm : Option Byte) (bs : List Byte) :
    Option (Option Byte × List Byte × List Byte) :=
  match modrm with
  | some m => readModrm addressWidth d.forceRegForm m bs
  | none =>
    if d.moffs then (readBytes (addressWidth / 8) bs).map fun p => (none, p.1, p.2)
    else some (none, [], bs)

/-- The table key of an opcode behind its prefixes. -/
def lookupKey (mode : MachineMode) (prefixes : List Byte) (code : OpcodeBytes) (modrm : Option Byte) : Key :=
  { encoding := code.encoding
    payload := code.payload
    map := code.map
    opcode := code.opcode
    modrm := modrm
    operandSize := prefixes.contains 0x66
    addressSize := prefixes.contains 0x67
    lock := prefixes.contains 0xF0
    repeatPrefix := effectiveRepeat prefixes
    rex := effectiveRex mode prefixes }

/-- No prefix that a vector escape must not follow. -/
def plainPrefixes (mode : MachineMode) (prefixes : List Byte) : Bool :=
  !((effectiveRex mode prefixes).isSome || prefixes.contains 0x66 || prefixes.contains 0xF0 ||
    (effectiveRepeat prefixes).isSome)

/-- The longest instruction. -/
def maxInstructionLength : ℕ := 15

/-- Decode one instruction from the front of the input. -/
def decode (table : Table) (mode : MachineMode) (input : List Byte) : Option Instruction := do
  let prefixes := input.takeWhile (isPrefix mode)
  let (code, rest) ← readOpcode mode (plainPrefixes mode prefixes) (input.dropWhile (isPrefix mode))
  let (modrm, rest) ← readModrmByte (table.hasModrm mode code.encoding code.map code.opcode) rest
  let definition ← table.lookup mode (lookupKey mode prefixes code modrm)
  let addressWidth := addressSizeRow definition.addressSizeMap mode (prefixes.contains 0x67)
  let (sib, disp, rest) ← readAddressing definition addressWidth modrm rest
  let bare : Instruction := ⟨mode, prefixes, code, modrm, sib, disp, [], definition, addressWidth⟩
  let width := operandSizeRow definition.operandSizeMap mode bare.hasOperandSize bare.rexW
  let (imms, _) ← readImms width definition.imms rest
  let insn := { bare with imms := imms }
  if insn.length ≤ maxInstructionLength then some insn else none

end Repiu.X86
