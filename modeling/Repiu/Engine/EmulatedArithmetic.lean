import Repiu.Engine.LowMemoryStrings

/-!
# Emulated arithmetic

The handlers that do comparisons, tests and sums on memory for the guest
(`instruction_emulation.cpp`), the operations their instructions stand for, and when the status
flags they leave are those of the operations.
-/

namespace Repiu.Engine

open X86

/-! ## What the handlers call -/

/-- The guest's memory as the handlers see it at an instruction: code bytes, and the accessors, which
give nothing where they fail.  A segment is named by its register. -/
structure GuestAccess where
  code : Word → Byte
  readable : Word → ℕ → Bool
  readSegmentByte : ℕ → Word → Option Byte
  readSegmentWord : ℕ → Word → Option (BitVec 16)
  readSegmentDword : ℕ → Word → Option Word
  readSegmentOverrideByte : Word → Option Byte
  readGuestUInt8 : Word → Option Byte
  readGuestUInt32 : Word → Option Word
  readShadowUInt8 : Word → Option Byte
  readShadowUInt32 : Word → Option Word
  writeGuestUInt32 : Word → Word → Bool
  resolveSegmentByte : ℕ → Word → Option Byte

/-- A store of a handler, to guest memory or to its shadow. -/
structure GuestStore where
  address : Word
  value : Word
  shadow : Bool

variable (g : GuestAccess) (c : GuestCpuContext)

/-- The bytes at EIP. -/
def instructionBytes (k : ℕ) : Byte := g.code (c.eip + BitVec.ofNat 32 k)

/-- The four bytes of a displacement or an immediate. -/
def instructionWord (instruction : ℕ → Byte) (k : ℕ) : Word :=
  word32 (instruction k) (instruction (k + 1)) (instruction (k + 2)) (instruction (k + 3))

/-- `DecodeModRmMemoryAddress`: the address, and the size of the instruction up to the operand. -/
def decodeModRmMemoryAddress (instruction : ℕ → Byte) : Option (Word × ℕ) :=
  let modrm := instruction 1
  let mod := modField modrm
  let rm := rmField modrm
  if mod = 3 then none
  else
    let sib := instruction 2
    let index := if rm = 4 ∧ regField sib ≠ 4 then c.registers (fieldRegister (regField sib)) <<< modField sib else 0
    let base :=
      if rm = 4 then if mod = 0 ∧ rmField sib = 5 then 0 else c.registers (fieldRegister (rmField sib))
      else if mod = 0 ∧ rm = 5 then 0
      else c.registers (fieldRegister rm)
    let displacementOffset := if rm = 4 then 3 else 2
    let absoluteDisplacement := mod = 0 ∧ (rm = 5 ∨ rm = 4 ∧ rmField sib = 5)
    if absoluteDisplacement ∨ mod = 2 then
      some (base + index + instructionWord instruction displacementOffset, displacementOffset + 4)
    else if mod = 1 then
      some (base + index + (instruction displacementOffset).signExtend 32, displacementOffset + 1)
    else some (base + index, displacementOffset)

/-! ## The stack -/

/-- The `sub esp` of `HandleConsecutiveLegacyStackInstructions`. -/
def handleStackReservation : Option GuestCpuContext :=
  let instruction := instructionBytes g c
  let left := c.esp
  if instruction 0 = 0x83 ∧ instruction 1 = 0xEC ∧ g.readable c.eip 3 then
    let right := (instruction 2).signExtend 32
    some (((setCompareFlags c left right 4).writeRegister32 4 (left - right)).skip 3)
  else if instruction 0 = 0x81 ∧ instruction 1 = 0xEC ∧ g.readable c.eip 6 then
    let right := instructionWord instruction 2
    some (((setCompareFlags c left right 4).writeRegister32 4 (left - right)).skip 6)
  else none

/-! ## Segment overrides -/

/-- `HandleSegmentOverrideByteLoadInstruction`. -/
def handleSegmentOverrideByteLoadInstruction : Option GuestCpuContext :=
  let instruction := instructionBytes g c
  let modrm := instruction 2
  if (instruction 0 = 0x64 ∨ instruction 0 = 0x65) ∧ instruction 1 = 0x8A then
    match decodeModRmMemoryAddress c fun k => instruction (k + 1) with
    | none => none
    | some (offset, unprefixedSize) =>
      (g.readSegmentByte (if instruction 0 = 0x64 then 4 else 5) offset).map fun value =>
        (c.writeRegister8 (regField modrm) value).skip (1 + unprefixedSize)
  else if instruction 0 = 0x26 ∧ (instruction 1 = 0x8A ∨ instruction 1 = 0x3A) ∧ modField modrm = 0 ∧
      rmField modrm = 0 then
    (g.readSegmentByte 0 c.eax).map fun value =>
      (if instruction 1 = 0x8A then c.writeRegister8 (regField modrm) value
      else setCompareFlags8 c (c.readRegister8 (regField modrm)) value).skip 3
  else if instruction 0 = 0x26 ∧ instruction 1 = 0x80 ∧ instruction 2 = 0x38 then
    (g.readSegmentByte 0 c.eax).map fun value => (setCompareFlags8 c value (instruction 3)).skip 4
  else if instruction 0 ≠ 0x26 ∨ instruction 1 ≠ 0x8A ∨ instruction 2 ≠ 0x4F then none
  else
    (g.readSegmentOverrideByte (c.edi + (instruction 3).signExtend 32)).map fun value =>
      (c.writeRegister32 1 (c.ecx &&& 0xFFFFFF00 ||| value.setWidth 32)).skip 4

/-- What the prefixes of `HandleSegmentOverrideMemoryLoadInstruction` say. -/
structure OverridePrefixes where
  length : ℕ
  segment : Option ℕ
  operandWord : Bool

/-- The prefix loop of `HandleSegmentOverrideMemoryLoadInstruction`, for at most as many bytes as
given. -/
def scanOverridePrefixes (instruction : ℕ → Byte) : ℕ → OverridePrefixes → Option OverridePrefixes
  | 0, _ => none
  | n + 1, p =>
    let byte := instruction p.length
    let next (p : OverridePrefixes) := scanOverridePrefixes instruction n { p with length := p.length + 1 }
    if byte = 0x66 then next { p with operandWord := true }
    else if byte = 0x26 then next { p with segment := some 0 }
    else if byte = 0x36 then next { p with segment := some 2 }
    else if byte = 0x3E then next { p with segment := some 3 }
    else if byte = 0x64 then next { p with segment := some 4 }
    else if byte = 0x65 then next { p with segment := some 5 }
    else if byte = 0x2E ∨ byte = 0x67 then none
    else some p

/-- `HandleSegmentOverrideMemoryLoadInstruction` before it goes on with the next instruction. -/
def loadWithOverride (limit : ℕ) : Option GuestCpuContext :=
  let instruction := instructionBytes g c
  match scanOverridePrefixes instruction limit ⟨0, none, false⟩ with
  | none => none
  | some prefixes =>
    let opcode := instruction prefixes.length
    let modrm := instruction (prefixes.length + 1)
    match prefixes.segment with
    | none => none
    | some segment =>
      if opcode ≠ 0x8A ∧ opcode ≠ 0x8B ∧ opcode ≠ 0x3A then none
      else
        match decodeModRmMemoryAddress c fun k => instruction (prefixes.length + k) with
        | none => none
        | some (offset, unprefixedSize) =>
          let register := regField modrm
          let loaded :=
            if opcode = 0x8A ∨ opcode = 0x3A then
              (g.readSegmentByte segment offset).map fun byte =>
                if opcode = 0x3A then
                  updateSubtract8Flags c (c.readRegister8 register) byte (c.readRegister8 register - byte)
                else c.writeRegister8 register byte
            else if prefixes.operandWord then
              (g.readSegmentWord segment offset).map fun word => c.writeRegister16 register word
            else
              (g.readSegmentDword segment offset).map fun value =>
                c.writeRegister32 (fieldRegister register) value
          loaded.map fun c' => c'.skip (prefixes.length + unprefixedSize)

/-- `HandleSegmentOverrideMemoryLoadInstruction`, which goes on with the instructions behind it as
long as it handles them; at most as many instructions, of at most as many prefixes, as given. -/
def handleSegmentOverrideMemoryLoadInstruction (limit : ℕ) : ℕ → GuestCpuContext → Option GuestCpuContext
  | 0, _ => none
  | n + 1, c =>
    (loadWithOverride g c limit).map fun c' =>
      (handleSegmentOverrideMemoryLoadInstruction limit n c').getD c'

/-- `HandleSegmentMemoryCompareInstruction`: `cmp byte [esi], imm8`. -/
def handleSegmentMemoryCompareInstruction : Option GuestCpuContext :=
  let instruction := instructionBytes g c
  if instruction 0 ≠ 0x80 ∨ instruction 1 ≠ 0x3E then none
  else
    (g.readSegmentByte 3 c.esi).map fun value =>
      let flags := if value = instruction 2 then c.eflags ||| 0x40 else c.eflags &&& ~~~0x40
      GuestCpuContext.skip { c with eflags := flags &&& ~~~0x1 } 3

/-! ## Memory that traps -/

/-- `HandleTracedMemoryAddInstruction`: `add r32, m32`. -/
def handleTracedMemoryAddInstruction : Option GuestCpuContext :=
  let instruction := instructionBytes g c
  if instruction 0 ≠ 0x03 then none
  else
    match decodeModRmMemoryAddress c instruction with
    | none => none
    | some (source, instructionSize) =>
      (g.readShadowUInt32 source).map fun sourceValue =>
        let register := fieldRegister (regField (instruction 1))
        let destinationValue := c.registers register
        let result := destinationValue + sourceValue
        (updateAdd32Flags (c.writeRegister32 register result) destinationValue sourceValue result).skip
          instructionSize

/-- `HandleTracedMemoryOrInstruction`: `or m32, imm8`, with the store it does. -/
def handleTracedMemoryOrInstruction : Option (GuestCpuContext × GuestStore) :=
  let instruction := instructionBytes g c
  if instruction 0 ≠ 0x83 ∨ regField (instruction 1) ≠ 1 then none
  else
    match decodeModRmMemoryAddress c instruction with
    | none => none
    | some (destination, instructionSize) =>
      let immediate := (instruction instructionSize).signExtend 32
      match g.readGuestUInt32 destination with
      | some destinationValue =>
        let result := destinationValue ||| immediate
        if g.writeGuestUInt32 destination result then
          some ((updateLogical32Flags c result).skip (instructionSize + 1), ⟨destination, result, false⟩)
        else none
      | none =>
        (g.readShadowUInt32 destination).map fun destinationValue =>
          let result := destinationValue ||| immediate
          ((updateLogical32Flags c result).skip (instructionSize + 1), ⟨destination, result, true⟩)

/-- `HandleTracedMemoryCompareByteInstruction`: `cmp m8, r8` and `cmp m8, imm8`. -/
def handleTracedMemoryCompareByteInstruction : Option GuestCpuContext :=
  let instruction := instructionBytes g c
  let registerCompare := instruction 0 = 0x38
  let immediateCompare := instruction 0 = 0x80 ∧ regField (instruction 1) = 7
  if ¬registerCompare ∧ ¬immediateCompare then none
  else
    match decodeModRmMemoryAddress c instruction with
    | none => none
    | some (source, instructionSize) =>
      let sourceValue :=
        if immediateCompare then (g.readGuestUInt8 source).or (g.readShadowUInt8 source)
        else g.readShadowUInt8 source
      sourceValue.map fun sourceValue =>
        let rightValue :=
          if registerCompare then c.readRegister8 (regField (instruction 1)) else instruction instructionSize
        (updateSubtract8Flags c sourceValue rightValue (sourceValue - rightValue)).skip
          (instructionSize + if immediateCompare then 1 else 0)

/-- `HandleTracedMemoryTestInstruction`: `test dword [edi], imm32`. -/
def handleTracedMemoryTestInstruction : Option GuestCpuContext :=
  let instruction := instructionBytes g c
  if instruction 0 ≠ 0xF7 ∨ instruction 1 ≠ 0x07 then none
  else
    ((g.readGuestUInt32 c.edi).or (g.readShadowUInt32 c.edi)).map fun sourceValue =>
      let result := sourceValue &&& instructionWord instruction 2
      let flags := c.eflags &&& ~~~0x1
      let flags := flags &&& ~~~0x800
      let flags := if result = 0 then flags ||| 0x40 else flags &&& ~~~0x40
      let flags := if result &&& 0x80000000 ≠ 0 then flags ||| 0x80 else flags &&& ~~~0x80
      GuestCpuContext.skip { c with eflags := flags } 6

/-! ## Repeated comparisons -/

/-- The bytes that an iteration of `cmpsb` compares: at DS:ESI and at ES:EDI. -/
def comparedBytes (esi edi : Word) : Option (Byte × Byte) :=
  match g.resolveSegmentByte 3 esi with
  | none => none
  | some left => (g.resolveSegmentByte 0 edi).map fun right => (left, right)

/-- The loop of `HandleRepCmpsbInstruction`, with ECX as the count. -/
def repCmpsbLoop (opcode : Byte) (step : Word) : ℕ → GuestCpuContext → Bool × GuestCpuContext
  | 0, c => (true, c)
  | n + 1, c =>
    match comparedBytes g c.esi c.edi with
    | none => (false, c)
    | some (left, right) =>
      let result := left - right
      let c := updateSubtract8Flags c left right result
      let c := c.writeRegister32 6 (c.esi + step)
      let c := c.writeRegister32 7 (c.edi + step)
      let c := c.writeRegister32 1 (c.ecx - 1)
      let equal : Bool := result = 0
      if opcode = 0xF3 ∧ !equal ∨ opcode = 0xF2 ∧ equal then (true, c) else repCmpsbLoop opcode step n c

/-- `HandleRepCmpsbInstruction`. -/
def handleRepCmpsbInstruction : Bool × GuestCpuContext :=
  let instruction := instructionBytes g c
  if (instruction 0 ≠ 0xF2 ∧ instruction 0 ≠ 0xF3) ∨ instruction 1 ≠ 0xA6 then (false, c)
  else
    let step : Word := if c.eflags &&& 0x400 ≠ 0 then -1 else 1
    let (handled, c') := repCmpsbLoop g (instruction 0) step c.ecx.toNat c
    (handled, if handled then c'.skip 2 else c')

/-! ## The operations -/

/-- The handlers.  That of string instructions on low memory has its own view of memory; it knows
what instruction was decoded. -/
inductive Handler
  | stackReservation
  | segmentOverrideByteLoad
  | segmentOverrideMemoryLoad (limit instructions : ℕ)
  | segmentMemoryCompare
  | tracedMemoryAdd
  | tracedMemoryOr
  | tracedMemoryCompareByte
  | tracedMemoryTest
  | repCmpsb
  | lowMemoryString (arena : GuestArena) (memory : DataMemory) (decoded : Option DecodedInstruction)

/-- What a handler that returns true leaves. -/
def Handler.run : Handler → Option GuestCpuContext
  | .stackReservation => handleStackReservation g c
  | .segmentOverrideByteLoad => handleSegmentOverrideByteLoadInstruction g c
  | .segmentOverrideMemoryLoad limit instructions =>
    handleSegmentOverrideMemoryLoadInstruction g limit instructions c
  | .segmentMemoryCompare => handleSegmentMemoryCompareInstruction g c
  | .tracedMemoryAdd => handleTracedMemoryAddInstruction g c
  | .tracedMemoryOr => (handleTracedMemoryOrInstruction g c).map (·.1)
  | .tracedMemoryCompareByte => handleTracedMemoryCompareByteInstruction g c
  | .tracedMemoryTest => handleTracedMemoryTestInstruction g c
  | .repCmpsb =>
    let (handled, c') := handleRepCmpsbInstruction g c
    if handled then some c' else none
  | .lowMemoryString arena memory decoded =>
    let (handled, c') := serviceGuestLowMemoryStringInstruction arena memory decoded c
    if handled then some c' else none

/-- The operation of a prefixed instruction at EIP: `cmp r8, m8` sets flags, loads do not. -/
def overrideOperations (limit : ℕ) : List Arithmetic :=
  let instruction := instructionBytes g c
  match scanOverridePrefixes instruction limit ⟨0, none, false⟩ with
  | some ⟨length, some segment, _⟩ =>
    if instruction length = 0x3A then
      match decodeModRmMemoryAddress c fun k => instruction (length + k) with
      | some (offset, _) =>
        ((g.readSegmentByte segment offset).map fun byte =>
          Arithmetic.sub (c.readRegister8 (regField (instruction (length + 1)))) byte).toList
      | none => []
    else []
  | _ => []

/-- The operations of the prefixed instructions from EIP on. -/
def overrideChainOperations (limit : ℕ) : ℕ → GuestCpuContext → List Arithmetic
  | 0, _ => []
  | n + 1, c =>
    match loadWithOverride g c limit with
    | none => []
    | some c' => overrideOperations g c limit ++ overrideChainOperations limit n c'

/-- The comparisons of `rep cmpsb`. -/
def cmpsbOperations (opcode : Byte) (step : Word) : ℕ → Word → Word → List Arithmetic
  | 0, _, _ => []
  | n + 1, esi, edi =>
    match comparedBytes g esi edi with
    | none => []
    | some (left, right) =>
      Arithmetic.sub left right ::
        if opcode = 0xF3 ∧ left ≠ right ∨ opcode = 0xF2 ∧ left = right then []
        else cmpsbOperations opcode step n (esi + step) (edi + step)

/-- The operations that the instruction at EIP stands for. -/
def Handler.operations : Handler → List Arithmetic
  | .stackReservation =>
    let instruction := instructionBytes g c
    [.sub c.esp (if instruction 0 = 0x83 then (instruction 2).signExtend 32 else instructionWord instruction 2)]
  | .segmentOverrideByteLoad =>
    let instruction := instructionBytes g c
    if instruction 0 = 0x26 ∧ instruction 1 = 0x3A ∧ modField (instruction 2) = 0 ∧ rmField (instruction 2) = 0 then
      ((g.readSegmentByte 0 c.eax).map fun value =>
        Arithmetic.sub (c.readRegister8 (regField (instruction 2))) value).toList
    else if instruction 0 = 0x26 ∧ instruction 1 = 0x80 ∧ instruction 2 = 0x38 then
      ((g.readSegmentByte 0 c.eax).map fun value => Arithmetic.sub value (instruction 3)).toList
    else []
  | .segmentOverrideMemoryLoad limit instructions => overrideChainOperations g limit instructions c
  | .segmentMemoryCompare =>
    ((g.readSegmentByte 3 c.esi).map fun value => Arithmetic.sub value (instructionBytes g c 2)).toList
  | .tracedMemoryAdd =>
    match decodeModRmMemoryAddress c (instructionBytes g c) with
    | none => []
    | some (source, _) =>
      ((g.readShadowUInt32 source).map fun value =>
        Arithmetic.add (c.registers (fieldRegister (regField (instructionBytes g c 1)))) value).toList
  | .tracedMemoryOr =>
    match decodeModRmMemoryAddress c (instructionBytes g c) with
    | none => []
    | some (destination, size) =>
      (((g.readGuestUInt32 destination).or (g.readShadowUInt32 destination)).map fun value =>
        Arithmetic.logic (value ||| (instructionBytes g c size).signExtend 32)).toList
  | .tracedMemoryCompareByte =>
    let instruction := instructionBytes g c
    match decodeModRmMemoryAddress c instruction with
    | none => []
    | some (source, size) =>
      if instruction 0 = 0x38 then
        ((g.readShadowUInt8 source).map fun value =>
          Arithmetic.sub value (c.readRegister8 (regField (instruction 1)))).toList
      else
        (((g.readGuestUInt8 source).or (g.readShadowUInt8 source)).map fun value =>
          Arithmetic.sub value (instruction size)).toList
  | .tracedMemoryTest =>
    (((g.readGuestUInt32 c.edi).or (g.readShadowUInt32 c.edi)).map fun value =>
      Arithmetic.logic (value &&& instructionWord (instructionBytes g c) 2)).toList
  | .repCmpsb =>
    cmpsbOperations g (instructionBytes g c 0) (if c.eflags.getLsbD 10 then -1 else 1) c.ecx.toNat c.esi c.edi
  | .lowMemoryString _ _ _ => []

/-- The operations of a handler; the string service does those of one or more iterations. -/
def Handler.Performs (h : Handler) (ops : List Arithmetic) : Prop :=
  match h with
  | .lowMemoryString _ memory decoded =>
    ∃ instruction i k, decoded = some instruction ∧ instruction.Is i ∧ 1 ≤ k ∧
      ops = i.arithmetics .flat (c.withMemory memory) k
  | h => ops = h.operations g c

/-- When a handler leaves the flags of the operations: `cmp byte [esi], imm8` sets ZF alone and clears
CF, and `test dword [edi], imm32` leaves PF as it was. -/
def Handler.SetsFlags (h : Handler) : Prop :=
  match h with
  | .segmentMemoryCompare =>
    ∀ value, g.readSegmentByte 3 c.esi = some value →
      let flags := subtractFlags value (instructionBytes g c 2)
      let old := Flags.ofWord c.eflags
      ¬value < instructionBytes g c 2 ∧ old.pf = flags.pf ∧ old.af = flags.af ∧ old.sf = flags.sf ∧ old.of = flags.of
  | .tracedMemoryTest =>
    ∀ value, (g.readGuestUInt32 c.edi).or (g.readShadowUInt32 c.edi) = some value →
      (Flags.ofWord c.eflags).pf = parity (value &&& instructionWord (instructionBytes g c) 2)
  | _ => True

/-! ## Flags that handlers leave -/

variable {g c} {c' : GuestCpuContext}

theorem leaves_sub {w : ℕ} (a b : BitVec w) (old : Word) :
    Arithmetic.Leaves [.sub a b] old (withStatus old (subtractFlags a b)) :=
  Arithmetic.leaves_singleton.mpr (Arithmetic.sets_withStatus (.sub a b) old)

theorem leaves_compare8 (c : GuestCpuContext) (lhs rhs : Byte) :
    Arithmetic.Leaves [.sub lhs rhs] c.eflags (setCompareFlags8 c lhs rhs).eflags := by
  rw [setCompareFlags8_eq]
  exact leaves_sub lhs rhs c.eflags

theorem leaves_subtract8 (c : GuestCpuContext) (left right : Byte) :
    Arithmetic.Leaves [.sub left right] c.eflags (updateSubtract8Flags c left right (left - right)).eflags := by
  rw [updateSubtract8Flags_eq]
  exact leaves_sub left right c.eflags

theorem leaves_logical32 (c : GuestCpuContext) (result : Word) :
    Arithmetic.Leaves [.logic result] c.eflags (updateLogical32Flags c result).eflags := by
  rw [updateLogical32Flags_eq, Arithmetic.leaves_singleton, Arithmetic.sets_logic_iff]
  rfl

theorem leaves_stackReservation (h : handleStackReservation g c = some c') :
    Arithmetic.Leaves (Handler.operations g c .stackReservation) c.eflags c'.eflags := by
  have hcompare : ∀ right : Word, (setCompareFlags c c.esp right 4).eflags =
      withStatus c.eflags (subtractFlags c.esp right) := by
    intro right
    rw [setCompareFlags_eq c _ _ (Or.inr (Or.inr rfl)) rfl]
    show withStatus _ (subtractFlags (c.esp.setWidth 32) (right.setWidth 32)) = _
    rw [BitVec.setWidth_eq, BitVec.setWidth_eq]
  unfold handleStackReservation at h
  unfold Handler.operations
  dsimp only at h ⊢
  by_cases hshort : instructionBytes g c 0 = 0x83 ∧ instructionBytes g c 1 = 0xEC ∧ g.readable c.eip 3
  · rw [if_pos hshort, Option.some.injEq] at h
    rw [if_pos hshort.1, ← h]
    simp only [GuestCpuContext.skip_eflags, GuestCpuContext.writeRegister32_eflags, hcompare]
    exact leaves_sub _ _ _
  · rw [if_neg hshort] at h
    by_cases hlong : instructionBytes g c 0 = 0x81 ∧ instructionBytes g c 1 = 0xEC ∧ g.readable c.eip 6
    · rw [if_pos hlong, Option.some.injEq] at h
      rw [if_neg (by rw [hlong.1]; decide), ← h]
      simp only [GuestCpuContext.skip_eflags, GuestCpuContext.writeRegister32_eflags, hcompare]
      exact leaves_sub _ _ _
    · rw [if_neg hlong] at h
      cases h

theorem leaves_segmentOverrideByteLoad (h : handleSegmentOverrideByteLoadInstruction g c = some c') :
    Arithmetic.Leaves (Handler.operations g c .segmentOverrideByteLoad) c.eflags c'.eflags := by
  unfold handleSegmentOverrideByteLoadInstruction at h
  unfold Handler.operations
  dsimp only at h ⊢
  generalize instructionBytes g c = instruction at h ⊢
  by_cases hfs : (instruction 0 = 0x64 ∨ instruction 0 = 0x65) ∧ instruction 1 = 0x8A
  · have hes : instruction 0 ≠ 0x26 := by
      obtain heq | heq := hfs.1 <;> rw [heq] <;> decide
    rw [if_neg fun hcmp => hes hcmp.1, if_neg fun hcmp => hes hcmp.1]
    rw [if_pos hfs] at h
    split at h
    · cases h
    · obtain ⟨value, _, rfl⟩ := Option.map_eq_some_iff.mp h
      rfl
  rw [if_neg hfs] at h
  by_cases hes : instruction 0 = 0x26 ∧ (instruction 1 = 0x8A ∨ instruction 1 = 0x3A) ∧ modField (instruction 2) = 0 ∧
      rmField (instruction 2) = 0
  · rw [if_pos hes] at h
    obtain ⟨value, hread, rfl⟩ := Option.map_eq_some_iff.mp h
    by_cases hload : instruction 1 = 0x8A
    · rw [if_neg fun hcmp => absurd (hload.symm.trans hcmp.2.1) (by decide),
        if_neg fun hcmp => absurd (hload.symm.trans hcmp.2.1) (by decide), if_pos hload]
      rfl
    · have hcmp : instruction 1 = 0x3A := hes.2.1.resolve_left hload
      rw [if_pos ⟨hes.1, hcmp, hes.2.2⟩, if_neg hload, hread]
      exact leaves_compare8 c _ _
  rw [if_neg hes] at h
  rw [if_neg fun hcmp => hes ⟨hcmp.1, Or.inr hcmp.2.1, hcmp.2.2⟩]
  by_cases himm : instruction 0 = 0x26 ∧ instruction 1 = 0x80 ∧ instruction 2 = 0x38
  · rw [if_pos himm] at h ⊢
    obtain ⟨value, hread, rfl⟩ := Option.map_eq_some_iff.mp h
    rw [hread]
    exact leaves_compare8 c _ _
  rw [if_neg himm] at h ⊢
  split_ifs at h
  obtain ⟨value, _, rfl⟩ := Option.map_eq_some_iff.mp h
  rfl

theorem leaves_loadWithOverride {limit : ℕ} (h : loadWithOverride g c limit = some c') :
    Arithmetic.Leaves (overrideOperations g c limit) c.eflags c'.eflags := by
  unfold loadWithOverride at h
  unfold overrideOperations
  dsimp only at h ⊢
  generalize instructionBytes g c = instruction at h ⊢
  cases hscan : scanOverridePrefixes instruction limit ⟨0, none, false⟩ with
  | none =>
    rw [hscan] at h
    cases h
  | some prefixes =>
    obtain ⟨length, segment, operandWord⟩ := prefixes
    rw [hscan] at h
    dsimp only at h ⊢
    cases segment with
    | none => cases h
    | some segment =>
      dsimp only at h ⊢
      by_cases hopcode : instruction length ≠ 0x8A ∧ instruction length ≠ 0x8B ∧ instruction length ≠ 0x3A
      · rw [if_pos hopcode] at h
        cases h
      rw [if_neg hopcode] at h
      cases hdecode : decodeModRmMemoryAddress c fun k => instruction (length + k) with
      | none =>
        rw [hdecode] at h
        cases h
      | some operand =>
        obtain ⟨offset, size⟩ := operand
        rw [hdecode] at h
        dsimp only at h ⊢
        obtain ⟨loaded, hloaded, rfl⟩ := Option.map_eq_some_iff.mp h
        rw [GuestCpuContext.skip_eflags]
        by_cases hcmp : instruction length = 0x3A
        · rw [if_pos (Or.inr hcmp)] at hloaded
          obtain ⟨byte, hread, rfl⟩ := Option.map_eq_some_iff.mp hloaded
          rw [if_pos hcmp, if_pos hcmp, hread]
          exact leaves_subtract8 c _ _
        · rw [if_neg hcmp]
          split_ifs at hloaded
          · obtain ⟨byte, _, rfl⟩ := Option.map_eq_some_iff.mp hloaded
            rfl
          · obtain ⟨word, _, rfl⟩ := Option.map_eq_some_iff.mp hloaded
            rfl
          · obtain ⟨value, _, rfl⟩ := Option.map_eq_some_iff.mp hloaded
            rfl

/-- Where the first instruction is not handled, nothing is done. -/
theorem overrideChainOperations_eq_nil {limit n : ℕ}
    (h : handleSegmentOverrideMemoryLoadInstruction g limit n c = none) : overrideChainOperations g limit n c = [] := by
  cases n with
  | zero => rfl
  | succ n =>
    rw [handleSegmentOverrideMemoryLoadInstruction, Option.map_eq_none_iff] at h
    rw [overrideChainOperations, h]

theorem leaves_segmentOverrideMemoryLoad {limit n : ℕ}
    (h : handleSegmentOverrideMemoryLoadInstruction g limit n c = some c') :
    Arithmetic.Leaves (overrideChainOperations g limit n c) c.eflags c'.eflags := by
  induction n generalizing c c' with
  | zero => cases h
  | succ n ih =>
    rw [handleSegmentOverrideMemoryLoadInstruction] at h
    obtain ⟨first, hfirst, rfl⟩ := Option.map_eq_some_iff.mp h
    rw [overrideChainOperations, hfirst]
    apply Arithmetic.leaves_append (leaves_loadWithOverride hfirst)
    cases hnext : handleSegmentOverrideMemoryLoadInstruction g limit n first with
    | none =>
      rw [overrideChainOperations_eq_nil hnext]
      rfl
    | some last => exact ih hnext

theorem leaves_tracedMemoryAdd (h : handleTracedMemoryAddInstruction g c = some c') :
    Arithmetic.Leaves (Handler.operations g c .tracedMemoryAdd) c.eflags c'.eflags := by
  unfold handleTracedMemoryAddInstruction at h
  unfold Handler.operations
  dsimp only at h ⊢
  split_ifs at h
  cases hdecode : decodeModRmMemoryAddress c (instructionBytes g c) with
  | none =>
    rw [hdecode] at h
    cases h
  | some operand =>
    obtain ⟨source, size⟩ := operand
    rw [hdecode] at h
    obtain ⟨value, hread, rfl⟩ := Option.map_eq_some_iff.mp h
    dsimp only
    rw [hread, updateAdd32Flags_eq]
    exact Arithmetic.leaves_singleton.mpr (Arithmetic.sets_withStatus (.add _ _) _)

theorem leaves_tracedMemoryOr {store : GuestStore} (h : handleTracedMemoryOrInstruction g c = some (c', store)) :
    Arithmetic.Leaves (Handler.operations g c .tracedMemoryOr) c.eflags c'.eflags := by
  unfold handleTracedMemoryOrInstruction at h
  unfold Handler.operations
  dsimp only at h ⊢
  split_ifs at h
  cases hdecode : decodeModRmMemoryAddress c (instructionBytes g c) with
  | none =>
    rw [hdecode] at h
    cases h
  | some operand =>
    obtain ⟨destination, size⟩ := operand
    rw [hdecode] at h
    dsimp only at h ⊢
    cases hread : g.readGuestUInt32 destination with
    | none =>
      rw [hread] at h
      obtain ⟨value, hshadow, heq⟩ := Option.map_eq_some_iff.mp h
      rw [Prod.mk.injEq] at heq
      rw [← heq.1, hshadow]
      exact leaves_logical32 c _
    | some value =>
      rw [hread] at h
      dsimp only at h
      split_ifs at h
      rw [Option.some.injEq, Prod.mk.injEq] at h
      rw [← h.1]
      exact leaves_logical32 c _

theorem leaves_tracedMemoryCompareByte (h : handleTracedMemoryCompareByteInstruction g c = some c') :
    Arithmetic.Leaves (Handler.operations g c .tracedMemoryCompareByte) c.eflags c'.eflags := by
  unfold handleTracedMemoryCompareByteInstruction at h
  unfold Handler.operations
  dsimp only at h ⊢
  generalize instructionBytes g c = instruction at h ⊢
  by_cases hneither : ¬instruction 0 = 0x38 ∧ ¬(instruction 0 = 0x80 ∧ regField (instruction 1) = 7)
  · rw [if_pos hneither] at h
    cases h
  rw [if_neg hneither] at h
  cases hdecode : decodeModRmMemoryAddress c instruction with
  | none =>
    rw [hdecode] at h
    cases h
  | some operand =>
    obtain ⟨source, size⟩ := operand
    rw [hdecode] at h
    obtain ⟨value, hread, rfl⟩ := Option.map_eq_some_iff.mp h
    dsimp only
    by_cases hregister : instruction 0 = 0x38
    · rw [if_neg fun himm => absurd (hregister.symm.trans himm.1) (by decide)] at hread
      rw [if_pos hregister, hread, if_pos hregister]
      exact leaves_subtract8 c _ _
    · have himm : instruction 0 = 0x80 ∧ regField (instruction 1) = 7 := by tauto
      rw [if_pos himm] at hread
      rw [if_neg hregister, hread, if_neg hregister]
      exact leaves_subtract8 c _ _

theorem leaves_repCmpsbLoop {opcode : Byte} {step : Word} {n : ℕ} (h : repCmpsbLoop g opcode step n c = (true, c')) :
    Arithmetic.Leaves (cmpsbOperations g opcode step n c.esi c.edi) c.eflags c'.eflags := by
  induction n generalizing c with
  | zero =>
    rw [repCmpsbLoop, Prod.mk.injEq] at h
    rw [← h.2]
    rfl
  | succ n ih =>
    rw [repCmpsbLoop] at h
    rw [cmpsbOperations]
    cases hread : comparedBytes g c.esi c.edi with
    | none =>
      rw [hread] at h
      cases h
    | some bytes =>
      obtain ⟨left, right⟩ := bytes
      rw [hread] at h
      dsimp only at h ⊢
      rw [updateSubtract8Flags_eq] at h
      refine ⟨_, Arithmetic.sets_withStatus (.sub left right) c.eflags, ?_⟩
      have hequal : ((opcode = 0xF3 ∧ (!decide (left - right = 0)) = true) ∨
          opcode = 0xF2 ∧ decide (left - right = 0) = true) ↔
            opcode = 0xF3 ∧ left ≠ right ∨ opcode = 0xF2 ∧ left = right := by
        have hzero : left - right = 0 ↔ left = right := sub_eq_zero
        simp only [Bool.not_eq_true', decide_eq_false_iff_not, decide_eq_true_eq, hzero, ne_eq]
      by_cases hends : opcode = 0xF3 ∧ left ≠ right ∨ opcode = 0xF2 ∧ left = right
      · rw [if_pos (hequal.mpr hends), Prod.mk.injEq] at h
        rw [if_pos hends, ← h.2]
        rfl
      · rw [if_neg fun h' => hends (hequal.mp h')] at h
        rw [if_neg hends]
        exact ih h

theorem leaves_repCmpsb (h : handleRepCmpsbInstruction g c = (true, c')) :
    Arithmetic.Leaves (Handler.operations g c .repCmpsb) c.eflags c'.eflags := by
  have hdirection := and_bit_ne_zero c.eflags (show 10 < 32 by decide) (show (0x400 : Word) = _ by decide)
  unfold handleRepCmpsbInstruction at h
  unfold Handler.operations
  dsimp only at h ⊢
  simp only [hdirection] at h
  by_cases hopcode : (instructionBytes g c 0 ≠ 0xF2 ∧ instructionBytes g c 0 ≠ 0xF3) ∨ instructionBytes g c 1 ≠ 0xA6
  · rw [if_pos hopcode] at h
    cases h
  rw [if_neg hopcode, Prod.mk.injEq] at h
  rw [← h.2, if_pos h.1, GuestCpuContext.skip_eflags]
  exact leaves_repCmpsbLoop (Prod.ext h.1 rfl)

/-- `cmp byte [esi], imm8` changes ZF as the comparison does and clears CF. -/
theorem segmentMemoryCompare_eflags (h : handleSegmentMemoryCompareInstruction g c = some c') {value : Byte}
    (hread : g.readSegmentByte 3 c.esi = some value) :
    c'.eflags = withStatus c.eflags
      { Flags.ofWord c.eflags with zf := decide (value = instructionBytes g c 2), cf := false } := by
  unfold handleSegmentMemoryCompareInstruction at h
  dsimp only at h
  split_ifs at h
  rw [hread, Option.map_some, Option.some.injEq] at h
  rw [← h]
  show (if value = instructionBytes g c 2 then c.eflags ||| 0x40 else c.eflags &&& ~~~0x40) &&& ~~~0x1 = _
  have hzf := ite_zf c.eflags (Flags.ofWord c.eflags) (p := value = instructionBytes g c 2)
  rw [withStatus_ofWord] at hzf
  rw [hzf, withStatus_clear_cf]

/-- `test dword [edi], imm32` changes every flag of the test but PF and AF. -/
theorem tracedMemoryTest_eflags (h : handleTracedMemoryTestInstruction g c = some c') {value : Word}
    (hread : (g.readGuestUInt32 c.edi).or (g.readShadowUInt32 c.edi) = some value) :
    let result := value &&& instructionWord (instructionBytes g c) 2
    c'.eflags = withStatus c.eflags
      { logicFlags result with
        pf := (Flags.ofWord c.eflags).pf
        af := (Flags.ofWord c.eflags).af } := by
  intro result
  unfold handleTracedMemoryTestInstruction at h
  dsimp only at h
  split_ifs at h
  rw [hread, Option.map_some, Option.some.injEq] at h
  rw [← h]
  have hclear : c.eflags &&& ~~~0x1 &&& ~~~0x800 =
      withStatus c.eflags { Flags.ofWord c.eflags with cf := false, of := false } := by
    have hcf := withStatus_clear_cf c.eflags (Flags.ofWord c.eflags)
    rw [withStatus_ofWord] at hcf
    rw [hcf, withStatus_clear_of]
  show (if result &&& 0x80000000 ≠ 0 then
      (if result = 0 then c.eflags &&& ~~~0x1 &&& ~~~0x800 ||| 0x40
        else c.eflags &&& ~~~0x1 &&& ~~~0x800 &&& ~~~0x40) ||| 0x80
    else (if result = 0 then c.eflags &&& ~~~0x1 &&& ~~~0x800 ||| 0x40
        else c.eflags &&& ~~~0x1 &&& ~~~0x800 &&& ~~~0x40) &&& ~~~0x80) = _
  rw [hclear, ite_zf, ite_sf]
  simp only [word_sign, Bool.decide_eq_true]
  rfl

theorem leaves_lowMemoryString {arena : GuestArena} {memory : DataMemory} {decoded : Option DecodedInstruction}
    (h : serviceGuestLowMemoryStringInstruction arena memory decoded c = (true, c')) :
    ∃ ops, (Handler.lowMemoryString arena memory decoded).Performs g c ops ∧
      Arithmetic.Leaves ops c.eflags c'.eflags := by
  obtain hdeclined | ⟨instruction, i, k, served, hdecoded, his, hserved, hservice⟩ :=
    service_cases arena memory decoded c
  · rw [hdeclined, Prod.mk.injEq] at h
    exact (Bool.false_ne_true h.1).elim
  rw [hservice, Prod.mk.injEq] at h
  rw [h.2] at hserved
  refine ⟨_, ⟨instruction, i, k, hdecoded, his, hserved.some_iteration, rfl⟩, ?_⟩
  rw [hserved.eflags]
  exact StringInsn.leaves_iterate _ _

/-- When `cmp byte [esi], imm8` has the flags of the comparison. -/
theorem sets_segmentMemoryCompare_iff {value immediate : Byte} {eflags : Word} :
    (Arithmetic.sub value immediate).Sets eflags
        (withStatus eflags { Flags.ofWord eflags with zf := decide (value = immediate), cf := false }) ↔
      ¬value < immediate ∧ (Flags.ofWord eflags).pf = (subtractFlags value immediate).pf ∧
        (Flags.ofWord eflags).af = (subtractFlags value immediate).af ∧
        (Flags.ofWord eflags).sf = (subtractFlags value immediate).sf ∧
        (Flags.ofWord eflags).of = (subtractFlags value immediate).of := by
  have hzero : value - immediate = 0 ↔ value = immediate := sub_eq_zero
  have hcf : (subtractFlags value immediate).cf = decide (value < immediate) := rfl
  have hzf : (subtractFlags value immediate).zf = decide (value = immediate) := by
    rw [← decide_eq_decide.mpr hzero]
    rfl
  rw [Arithmetic.sets_iff_of_definesAf rfl]
  show _ = subtractFlags value immediate ↔ _
  rw [← decide_eq_false_iff_not, ← hcf, ← hzf]
  cases subtractFlags value immediate
  rw [Flags.mk.injEq]
  simp only [true_and]
  rw [eq_comm]

/-- When `test dword [edi], imm32` has the flags of the test. -/
theorem sets_tracedMemoryTest_iff {result eflags : Word} :
    (Arithmetic.logic result).Sets eflags
        (withStatus eflags
          { logicFlags result with pf := (Flags.ofWord eflags).pf, af := (Flags.ofWord eflags).af }) ↔
      (Flags.ofWord eflags).pf = parity result := by
  rw [Arithmetic.sets_logic_iff]
  unfold logicFlags
  rw [Flags.mk.injEq]
  simp only [true_and, and_true]

/-- Every handler that returns true leaves the status flags of the operations that its instruction
stands for, and every other bit of EFLAGS, exactly when `SetsFlags` holds of the operands and of the
flags before: always, but for `cmp byte [esi], imm8` and `test dword [edi], imm32`. -/
theorem handler_flags_iff (g : GuestAccess) (c c' : GuestCpuContext) (h : Handler) (hrun : h.run g c = some c') :
    (∃ ops, h.Performs g c ops ∧ Arithmetic.Leaves ops c.eflags c'.eflags) ↔ h.SetsFlags g c := by
  have hexact : ∀ {ops : List Arithmetic}, Arithmetic.Leaves ops c.eflags c'.eflags →
      ((∃ ops', ops' = ops ∧ Arithmetic.Leaves ops' c.eflags c'.eflags) ↔ True) := by
    intro ops hleaves
    exact iff_true_intro ⟨ops, rfl, hleaves⟩
  cases h with
  | stackReservation => exact hexact (leaves_stackReservation hrun)
  | segmentOverrideByteLoad => exact hexact (leaves_segmentOverrideByteLoad hrun)
  | segmentOverrideMemoryLoad limit instructions => exact hexact (leaves_segmentOverrideMemoryLoad hrun)
  | segmentMemoryCompare =>
    have hhandled := hrun
    unfold Handler.run handleSegmentMemoryCompareInstruction at hhandled
    dsimp only at hhandled
    split_ifs at hhandled
    obtain ⟨value, hread, -⟩ := Option.map_eq_some_iff.mp hhandled
    have hflags := segmentMemoryCompare_eflags hrun hread
    unfold Handler.Performs Handler.SetsFlags Handler.operations
    rw [hflags]
    simp only [hread, Option.map_some, Option.toList_some, exists_eq_left, Option.some.injEq, forall_eq']
    rw [Arithmetic.leaves_singleton]
    exact sets_segmentMemoryCompare_iff
  | tracedMemoryAdd => exact hexact (leaves_tracedMemoryAdd hrun)
  | tracedMemoryOr =>
    obtain ⟨⟨c'', store⟩, hor, rfl⟩ := Option.map_eq_some_iff.mp hrun
    exact hexact (leaves_tracedMemoryOr hor)
  | tracedMemoryCompareByte => exact hexact (leaves_tracedMemoryCompareByte hrun)
  | tracedMemoryTest =>
    have hhandled := hrun
    unfold Handler.run handleTracedMemoryTestInstruction at hhandled
    dsimp only at hhandled
    split_ifs at hhandled
    obtain ⟨value, hread, -⟩ := Option.map_eq_some_iff.mp hhandled
    have hflags := tracedMemoryTest_eflags hrun hread
    unfold Handler.Performs Handler.SetsFlags Handler.operations
    rw [hflags]
    simp only [hread, Option.map_some, Option.toList_some, exists_eq_left, Option.some.injEq, forall_eq']
    rw [Arithmetic.leaves_singleton]
    exact sets_tracedMemoryTest_iff
  | repCmpsb =>
    unfold Handler.run at hrun
    dsimp only at hrun
    split_ifs at hrun with hhandled
    rw [Option.some.injEq] at hrun
    exact hexact (leaves_repCmpsb (Prod.ext hhandled hrun))
  | lowMemoryString arena memory decoded =>
    unfold Handler.run at hrun
    dsimp only at hrun
    split_ifs at hrun with hhandled
    rw [Option.some.injEq] at hrun
    exact iff_true_intro (leaves_lowMemoryString (Prod.ext hhandled hrun))

/-- Code that begins with given bytes, at address zero, and memory that holds one byte everywhere. -/
def sampleAccess (code : List Byte) (value : Byte) : GuestAccess where
  code address := code.getD address.toNat 0
  readable _ _ := true
  readSegmentByte _ _ := some value
  readSegmentWord _ _ := none
  readSegmentDword _ _ := none
  readSegmentOverrideByte _ := none
  readGuestUInt8 _ := none
  readGuestUInt32 _ := none
  readShadowUInt8 _ := none
  readShadowUInt32 _ := none
  writeGuestUInt32 _ _ := false
  resolveSegmentByte _ _ := none

/-- A guest at address zero. -/
def sampleGuest : GuestCpuContext where
  registers := fun _ => 0x1000
  eip := 0
  eflags := 0x202

/-- `sub esp, 0x10` -/
theorem handler_flags_iff_sub_esp :
    (∃ ops, Handler.stackReservation.Performs (sampleAccess [0x83, 0xEC, 0x10] 0) sampleGuest ops ∧
      Arithmetic.Leaves ops sampleGuest.eflags
        ((Handler.stackReservation.run (sampleAccess [0x83, 0xEC, 0x10] 0) sampleGuest).getD sampleGuest).eflags) ↔
      Handler.stackReservation.SetsFlags (sampleAccess [0x83, 0xEC, 0x10] 0) sampleGuest :=
  handler_flags_iff (sampleAccess [0x83, 0xEC, 0x10] 0) sampleGuest _ .stackReservation rfl

/-- `cmp byte [esi], 2` with 1 in memory leaves no carry. -/
theorem handler_flags_fail_cmp_esi :
    ¬∀ (g : GuestAccess) (c c' : GuestCpuContext) (h : Handler), h.run g c = some c' →
      ∃ ops, h.Performs g c ops ∧ Arithmetic.Leaves ops c.eflags c'.eflags := by
  intro hall
  obtain ⟨ops, hops, hleaves⟩ :=
    hall (sampleAccess [0x80, 0x3E, 2] 1) sampleGuest _ .segmentMemoryCompare rfl
  have hsub : ops = [.sub (1 : Byte) (2 : Byte)] := hops
  rw [hsub, Arithmetic.leaves_singleton] at hleaves
  obtain ⟨af, -, hflags⟩ := hleaves
  have hcf := congrArg (fun w => (Flags.ofWord w).cf) hflags
  rw [ofWord_withStatus] at hcf
  have hborrow : (Arithmetic.sub (1 : Byte) (2 : Byte)).flags.cf = true := by decide
  have hclear : (Flags.ofWord 0x202).cf = false := by decide
  exact Bool.false_ne_true (hclear.symm.trans (hcf.trans hborrow))

end Repiu.Engine
