import Repiu.Engine.RepMovs
import Repiu.X86.SelectorCode

/-!
# The stack of 16-bit code

Where a push and a read of the stack segment go (`guest_stack_access.cpp`), and the handlers of pushes
(`mode16_stack_push.cpp`) and far returns (`mode16_far_return.cpp`) of 16-bit code.
-/

namespace Repiu.Engine

open X86

/-! ## Accesses -/

/-- `GuestStackPushAccess`, `GuestStackReadAccess`. -/
structure GuestStackAccess where
  nextEsp : Word
  linearAddress : Word
deriving DecidableEq

namespace GuestDescriptor

variable (stack : GuestDescriptor)

/-- Present, writable data that expands up. -/
def isGuestStack : Bool := stack.present ∧ stack.flags &&& 0x9E = 0x92

/-- The B bit. -/
def big : Bool := stack.flags &&& 0x4000 ≠ 0

/-- The offset that an ESP stands for. -/
def stackOffset (esp : Word) : Word := if stack.big then esp else esp &&& 0xFFFF

/-- An ESP that has been moved, of which a small stack only takes the low half. -/
def movedEsp (esp moved : Word) : Word := if stack.big then moved else esp &&& 0xFFFF0000 ||| moved &&& 0xFFFF

end GuestDescriptor

/-- `ResolveGuestStackPushAccess`. -/
def resolveGuestStackPushAccess (stack : GuestDescriptor) (esp operandBytes : Word) : Option GuestStackAccess :=
  if !stack.isGuestStack ∨ operandBytes ≠ 2 ∧ operandBytes ≠ 4 then none
  else
    let nextEsp := stack.movedEsp esp (esp - operandBytes)
    let offset := stack.stackOffset nextEsp
    let lastOffset := offset.toNat + operandBytes.toNat - 1
    let linear := stack.base.toNat + offset.toNat
    if stack.limit.toNat < lastOffset ∨ 0xFFFFFFFF < linear + operandBytes.toNat - 1 then none
    else some ⟨nextEsp, BitVec.ofNat 32 linear⟩

/-- `ResolveGuestStackReadAccess`. -/
def resolveGuestStackReadAccess (stack : GuestDescriptor) (esp operandBytes : Word) : Option GuestStackAccess :=
  if !stack.isGuestStack ∨ operandBytes ≠ 2 ∧ operandBytes ≠ 4 then none
  else
    let offset := stack.stackOffset esp
    let lastOffset := offset.toNat + operandBytes.toNat - 1
    let linear := stack.base.toNat + offset.toNat
    if stack.limit.toNat < lastOffset ∨ 0xFFFFFFFF < linear + operandBytes.toNat - 1 then none
    -- A big stack that would wrap is refused here, but not by the push.
    else if stack.big ∧ 0xFFFFFFFF - operandBytes < esp then none
    else some ⟨stack.movedEsp esp (esp + operandBytes), BitVec.ofNat 32 linear⟩

/-! ## Low halves -/

theorem toNat_and_low (x : Word) : (x &&& 0xFFFF).toNat = x.toNat % 0x10000 := by
  rw [BitVec.toNat_and]
  exact Nat.and_two_pow_sub_one_eq_mod x.toNat 16

theorem or_low_eq_add (x y : Word) : x &&& 0xFFFF0000 ||| y &&& 0xFFFF = (x &&& 0xFFFF0000) + (y &&& 0xFFFF) := by
  refine (BitVec.add_eq_or_of_and_eq_zero _ _ ?_).symm
  calc (x &&& 0xFFFF0000) &&& (y &&& 0xFFFF) = (x &&& y) &&& (0xFFFF0000 &&& 0xFFFF) := by ac_rfl
    _ = 0 := BitVec.and_zero

theorem toNat_and_high (x : Word) : (x &&& 0xFFFF0000).toNat = x.toNat - x.toNat % 0x10000 := by
  have hsplit : (x &&& 0xFFFF0000) + (x &&& 0xFFFF) = x := by
    rw [← or_low_eq_add, ← BitVec.and_or_distrib_left]
    exact BitVec.and_allOnes
  have hlow := toNat_and_low x
  bv_omega

theorem toNat_or_low (x y : Word) :
    (x &&& 0xFFFF0000 ||| y &&& 0xFFFF).toNat = x.toNat - x.toNat % 0x10000 + y.toNat % 0x10000 := by
  rw [or_low_eq_add, BitVec.toNat_add, toNat_and_high, toNat_and_low]
  omega

/-! ## Pushes and reads -/

/-- A small stack keeps the high half of its ESP, and takes the low half of what it is moved to. -/
theorem GuestDescriptor.movedEsp_toNat {stack : GuestDescriptor} (hsmall : stack.big = false) (esp moved : Word) :
    (stack.movedEsp esp moved).toNat = esp.toNat - esp.toNat % 0x10000 + moved.toNat % 0x10000 := by
  rw [movedEsp, if_neg (by rw [hsmall]; decide), toNat_or_low]

/-- What is subtracted from an ESP can be added again. -/
theorem GuestDescriptor.movedEsp_add_sub (stack : GuestDescriptor) (esp n : Word) :
    stack.movedEsp (stack.movedEsp esp (esp - n)) (stack.movedEsp esp (esp - n) + n) = esp := by
  cases hbig : stack.big with
  | true => simp [movedEsp, hbig]
  | false =>
    apply BitVec.eq_of_toNat_eq
    have hpushed := movedEsp_toNat hbig esp (esp - n)
    rw [movedEsp_toNat hbig, BitVec.toNat_add, hpushed, BitVec.toNat_sub]
    have := esp.isLt
    have := n.isLt
    omega

/-- The bytes of the operand are within the limit, and their linear addresses do not wrap. -/
def GuestStackAccess.Within (access : GuestStackAccess) (stack : GuestDescriptor) (operandBytes : Word) : Prop :=
  ∀ k < operandBytes.toNat, (stack.stackOffset access.nextEsp).toNat + k ≤ stack.limit.toNat ∧
    access.linearAddress.toNat + k = stack.base.toNat + (stack.stackOffset access.nextEsp).toNat + k ∧
    access.linearAddress.toNat + k < 2 ^ 32

variable {stack : GuestDescriptor} {esp operandBytes : Word} {access : GuestStackAccess}

theorem resolveGuestStackPushAccess_some (h : resolveGuestStackPushAccess stack esp operandBytes = some access) :
    access.nextEsp = stack.movedEsp esp (esp - operandBytes) ∧ access.Within stack operandBytes ∧
      resolveGuestStackReadAccess stack access.nextEsp operandBytes =
        if stack.big ∧ esp = 0 then none else some ⟨esp, access.linearAddress⟩ := by
  unfold resolveGuestStackPushAccess at h
  split_ifs at h with hstack
  dsimp only at h
  split_ifs at h with hrange
  obtain rfl := (Option.some.inj h).symm
  refine ⟨rfl, fun k hk => ?_, ?_⟩
  · dsimp only
    rw [BitVec.toNat_ofNat]
    omega
  unfold resolveGuestStackReadAccess
  dsimp only
  rw [if_neg hstack, if_neg hrange, stack.movedEsp_add_sub]
  by_cases hbig : stack.big = true
  · -- The pushed operand is below the end of the address space, so only an ESP of zero has wrapped.
    have hnext : stack.movedEsp esp (esp - operandBytes) = esp - operandBytes := if_pos hbig
    have hoffset : stack.stackOffset (esp - operandBytes) = esp - operandBytes := if_pos hbig
    have hwidth : operandBytes = 2 ∨ operandBytes = 4 := by
      by_contra hnot
      exact hstack (Or.inr (not_or.mp hnot))
    rw [hnext, hoffset] at hrange
    rw [hnext]
    have hwraps : stack.big = true ∧ 0xFFFFFFFF - operandBytes < esp - operandBytes ↔ stack.big = true ∧ esp = 0 := by
      refine and_congr_right fun _ => ?_
      have hlimit := stack.limit.isLt
      rcases hwidth with rfl | rfl
      · bv_omega
      · bv_omega
    by_cases hzero : stack.big = true ∧ esp = 0
    · rw [if_pos hzero, if_pos (hwraps.mpr hzero)]
    · rw [if_neg hzero, if_neg fun hwrap => hzero (hwraps.mp hwrap)]
  · rw [if_neg fun hboth => hbig hboth.1, if_neg fun hboth => hbig hboth.1]

/-! ## 16-bit code -/

inductive GuestCodeDefaultOperandSize
  | kUnknown | k16 | k32
deriving DecidableEq

/-- `GuestDescriptor` with what it says about code. -/
structure CodeDescriptor extends GuestDescriptor where
  executable : Bool := false
  codeDefaultOperandSize : GuestCodeDefaultOperandSize := .kUnknown

namespace CodeDescriptor

variable (descriptor : CodeDescriptor)

def isMode16 : Bool := descriptor.executable ∧ descriptor.codeDefaultOperandSize = .k16

/-- The linear address is one of the segment's. -/
def covers (linearAddress : Word) : Bool :=
  descriptor.base.toNat ≤ linearAddress.toNat ∧
    linearAddress.toNat ≤ descriptor.base.toNat + descriptor.limit.toNat

end CodeDescriptor

/-- `SelectorTable` of such descriptors. -/
structure CodeSelectorTable where
  valid : Bool := true
  descriptors : List CodeDescriptor

namespace CodeSelectorTable

variable (table : CodeSelectorTable)

/-- `FindDescriptor`. -/
def findDescriptor (selector : BitVec 16) : Option CodeDescriptor :=
  if ¬table.valid ∨ selector = 0 then none
  else table.descriptors.find? fun descriptor => descriptor.selector = selector && descriptor.present

/-- The loop of `FindSelectorForLinearAddress`, which gives up at a second match. -/
def findCovering (linearAddress : Word) : Option CodeDescriptor → List CodeDescriptor → Option CodeDescriptor
  | found, [] => found
  | found, descriptor :: rest =>
    if !descriptor.present ∨ !descriptor.covers linearAddress then findCovering linearAddress found rest
    else if found.isSome then none
    else findCovering linearAddress (some descriptor) rest

/-- `FindSelectorForLinearAddress`. -/
def findSelectorForLinearAddress (linearAddress : Word) : Option (BitVec 16) :=
  if !table.valid then none else (findCovering linearAddress none table.descriptors).map (·.selector)

/-- The table without what it says about code. -/
def selectorTable : SelectorTable := ⟨table.valid, table.descriptors.map (·.toGuestDescriptor)⟩

/-- `ResolveGuestFarReturn16Frame`: the linear address of the target. -/
def resolveGuestFarReturn16Frame (currentSelector targetOffset targetSelector : BitVec 16) : Option Word :=
  match table.findDescriptor currentSelector with
  | none => none
  | some current =>
    if !current.isMode16 then none
    else
      match table.findDescriptor targetSelector with
      | none => none
      | some target =>
        if !target.executable then none
        else translateSelectorOffset table.selectorTable targetSelector (targetOffset.setWidth 32) 1

end CodeSelectorTable

/-- The part of `ThreadContext` that the handlers look at. Segment registers are numbered as in instructions. -/
structure Mode16Thread where
  arena : GuestArena
  selectorTable : CodeSelectorTable
  guestSegments : Fin 6 → BitVec 16
  host : HostOutcomes

/-- The registers with CS. -/
structure Mode16Registers extends GuestCpuContext where
  segCs : Word

/-- `WriteGuestUInt16`, `WriteGuestUInt32`: whether the write is reported as done, and the memory behind it. -/
def writeGuestUInt (arena : GuestArena) (host : HostOutcomes) (memory : DataMemory) (destination value : Word)
    (byteCount : ℕ) : Bool × DataMemory :=
  if !arena.isGuestRangeReadable destination byteCount then (false, memory)
  else if !host.protects then (false, memory)
  else
    let written : DataMemory := fun x =>
      if (x - destination).toNat < byteCount then (value >>> ((x - destination).toNat * 8)).setWidth 8 else memory x
    if !host.restores then (false, written) else (host.notes, written)

variable (thread : Mode16Thread) (memory : DataMemory) (c : Mode16Registers)

/-! ## Pushes of 16-bit code -/

/-- What the handler reads of a decoded instruction; a register operand that is a segment register has
its number. -/
structure Mode16Instruction where
  isPush : Bool
  opcode : Byte
  prefixCount : ℕ
  operandCountVisible : ℕ
  operandIsRegister : Bool
  segmentOperand : Option (Fin 6)
  operandWidth : ℕ
  length : ℕ

/-- The value that is pushed; CS is the selector that was found. -/
def pushedValue (instruction : Mode16Instruction) (cs : BitVec 16) : Option Word :=
  if 0x50 ≤ instruction.opcode.toNat ∧ instruction.opcode.toNat ≤ 0x57 then
    some (c.registers (fieldRegister (instruction.opcode.toNat - 0x50)))
  else
    instruction.segmentOperand.map fun segment =>
      if segment = 1 then cs.setWidth 32 else (thread.guestSegments segment).setWidth 32

/-- The push itself, of the instruction in a code segment. -/
def pushMode16 (instruction : Mode16Instruction) (cs : BitVec 16) : Bool × Mode16Registers × DataMemory :=
  match pushedValue thread c instruction cs with
  | none => (false, c, memory)
  | some value =>
    let operandBytes := instruction.operandWidth / 8
    match thread.selectorTable.findDescriptor (thread.guestSegments 2) with
    | none => (false, c, memory)
    | some stack =>
      match resolveGuestStackPushAccess stack.toGuestDescriptor c.esp (BitVec.ofNat 32 operandBytes) with
      | none => (false, c, memory)
      | some access =>
        if !thread.arena.isGuestRangeReadable access.linearAddress operandBytes then (false, c, memory)
        else
          let (written, memory') :=
            writeGuestUInt thread.arena thread.host memory access.linearAddress value operandBytes
          if !written then (false, c, memory')
          else
            (true, { c with
              toGuestCpuContext := (c.writeRegister32 4 access.nextEsp).skip instruction.length }, memory')

/-- `HandleMode16StackPush`, over the decoder of 16-bit code. -/
def handleMode16StackPush (decode : (ℕ → Byte) → Option Mode16Instruction) :
    Option Bool × Mode16Registers × DataMemory :=
  match thread.selectorTable.findSelectorForLinearAddress c.eip with
  | none => (none, c, memory)
  | some cs =>
    match thread.selectorTable.findDescriptor cs with
    | none => (none, c, memory)
    | some code =>
      let bytes (k : ℕ) : Byte := memory (c.eip + BitVec.ofNat 32 k)
      if !code.isMode16 then (none, c, memory)
      else if !thread.arena.isGuestRangeReadable c.eip 15 then (some false, c, memory)
      else
        match decode bytes with
        | none => (some false, c, memory)
        | some instruction =>
          if !instruction.isPush then (none, c, memory)
          else if 1 < instruction.prefixCount ∨ instruction.prefixCount = 1 ∧ bytes 0 ≠ 0x66 ∨
              instruction.operandCountVisible ≠ 1 ∨ !instruction.operandIsRegister then
            (some false, c, memory)
          else
            let (pushed, c', memory') := pushMode16 thread memory c instruction cs
            (some pushed, c', memory')

/-- A push that is refused leaves the registers. -/
theorem pushMode16_registers (instruction : Mode16Instruction) (cs : BitVec 16) :
    (pushMode16 thread memory c instruction cs).1 = true ∨ (pushMode16 thread memory c instruction cs).2.1 = c := by
  unfold pushMode16
  split
  · exact Or.inr rfl
  dsimp only
  split
  · exact Or.inr rfl
  split
  · exact Or.inr rfl
  split_ifs
  · exact Or.inr rfl
  · exact Or.inr rfl
  · exact Or.inl rfl

theorem handleMode16StackPush_registers (decode : (ℕ → Byte) → Option Mode16Instruction) :
    (handleMode16StackPush thread memory c decode).1 = some true ∨
      (handleMode16StackPush thread memory c decode).2.1 = c := by
  unfold handleMode16StackPush
  split
  · exact Or.inr rfl
  next cs hcs =>
  split
  · exact Or.inr rfl
  dsimp only
  split_ifs
  · exact Or.inr rfl
  · exact Or.inr rfl
  split
  · exact Or.inr rfl
  next instruction hinstruction =>
  split_ifs
  · exact Or.inr rfl
  · exact Or.inr rfl
  exact (pushMode16_registers thread memory c instruction cs).imp (congrArg some) id

/-! ## Far returns of 16-bit code -/

/-- The code segment of a far return: that of CS where it covers EIP, and else the one that does. -/
def currentSelector : Option (BitVec 16) :=
  let selector := c.segCs.setWidth 16
  match thread.selectorTable.findDescriptor selector with
  | none => thread.selectorTable.findSelectorForLinearAddress c.eip
  | some current =>
    if current.covers c.eip then some selector
    else thread.selectorTable.findSelectorForLinearAddress c.eip

/-- `HandleMode16FarReturn`. -/
def handleMode16FarReturn : Option Bool × Mode16Registers :=
  match currentSelector thread c with
  | none => (none, c)
  | some current =>
    match thread.selectorTable.findDescriptor current with
    | none => (none, c)
    | some code =>
      if !code.isMode16 then (none, c)
      else if !thread.arena.isGuestRangeReadable c.eip 1 then (some false, c)
      else if memory c.eip ≠ 0xCB then (none, c)
      else
        match thread.selectorTable.findDescriptor (thread.guestSegments 2) with
        | none => (some false, c)
        | some stack =>
          match resolveGuestStackReadAccess stack.toGuestDescriptor c.esp 4 with
          | none => (some false, c)
          | some access =>
            if !thread.arena.isGuestRangeReadable access.linearAddress 4 then (some false, c)
            else
              let targetOffset := memory.getHalf access.linearAddress
              let targetSelector := memory.getHalf (access.linearAddress + 2)
              match thread.selectorTable.resolveGuestFarReturn16Frame current targetOffset targetSelector with
              | none => (some false, c)
              | some targetLinear =>
                if !thread.arena.isGuestRangeReadable targetLinear 1 then (some false, c)
                else
                  (some true, { c.writeRegister32 4 access.nextEsp with
                    eip := targetLinear, segCs := targetSelector.setWidth 32 })

theorem handleMode16FarReturn_registers :
    (handleMode16FarReturn thread memory c).1 = some true ∨ (handleMode16FarReturn thread memory c).2 = c := by
  unfold handleMode16FarReturn
  split
  · exact Or.inr rfl
  split
  · exact Or.inr rfl
  split_ifs
  · exact Or.inr rfl
  · exact Or.inr rfl
  · exact Or.inr rfl
  split
  · exact Or.inr rfl
  split
  · exact Or.inr rfl
  split_ifs
  · exact Or.inr rfl
  dsimp only
  split
  · exact Or.inr rfl
  split_ifs
  · exact Or.inr rfl
  · exact Or.inl rfl

/-! ## Pushes, reads and refusals -/

/-- A push stays within its segment, wraps at the width of the stack and is undone by a read at its
ESP, unless it is from an ESP of zero on a big stack, where the read is refused.  The handlers leave the
registers of what they refuse. -/
theorem guestStack_push_read :
    (∀ stack esp operandBytes access, resolveGuestStackPushAccess stack esp operandBytes = some access →
      access.nextEsp = stack.movedEsp esp (esp - operandBytes) ∧ access.Within stack operandBytes ∧
        resolveGuestStackReadAccess stack access.nextEsp operandBytes =
          if stack.big ∧ esp = 0 then none else some ⟨esp, access.linearAddress⟩) ∧
    (∀ thread memory c decode, (handleMode16StackPush thread memory c decode).1 ≠ some true →
      (handleMode16StackPush thread memory c decode).2.1 = c) ∧
    ∀ thread memory c, (handleMode16FarReturn thread memory c).1 ≠ some true →
      (handleMode16FarReturn thread memory c).2 = c := by
  refine ⟨fun _ _ _ _ => resolveGuestStackPushAccess_some, fun thread memory c decode h => ?_,
    fun thread memory c h => ?_⟩
  · exact (handleMode16StackPush_registers thread memory c decode).resolve_left h
  · exact (handleMode16FarReturn_registers thread memory c).resolve_left h

/-- A big stack over the whole address space. -/
def sampleFlatStack : GuestDescriptor := { selector := 0xB4, base := 0, limit := 0xFFFFFFFF, flags := 0x4092 }

/-- A push wraps to the end of the address space, where a read is refused. -/
theorem guestStack_read_refused :
    ¬∀ stack esp operandBytes access, resolveGuestStackPushAccess stack esp operandBytes = some access →
      resolveGuestStackReadAccess stack access.nextEsp operandBytes = some ⟨esp, access.linearAddress⟩ := by
  intro hinverse
  have hread := hinverse sampleFlatStack 0 4 ⟨0xFFFFFFFC, 0xFFFFFFFC⟩ (by decide)
  revert hread
  decide

end Repiu.Engine
