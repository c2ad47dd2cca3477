import Repiu.Engine.GuardedSlots
import Repiu.Runtime.IndirectCompare

/-!
# Selector sources of guarded slots

The operand a guarded slot reads its selector from, behind the two pushes of the slot, against the
operand of the guest's instruction.
-/

namespace Repiu.Engine

open Repiu.Runtime Repiu.X86

/-! ## The guest's operand -/

/-- The source operand of `mov sreg, r/m16`: the register of the record, or the operand of the
instruction behind its prefixes. -/
def loadOperand (record : AotInstructionRecord) : Option Place :=
  if record.gprRegister ≠ kAotSegmentLoadMemorySource then some (.register (fieldRegister record.gprRegister))
  else
    match record.bytes.dropWhile (fun b => b = 0x66 ∨ b = 0x2E ∨ b = 0x3E) with
    | 0x8E :: operand => (readPlace operand).bind fun p => if p.rest = [] then some p.place else none
    | _ => none

/-- Where the guest's instruction has its selector; a pop has it on the stack. -/
def GuardedAccess.operand : GuardedAccess → AotInstructionRecord → Option Place
  | .load => loadOperand
  | .pop => fun _ => some (.memory 0x04 0x24 [])

/-- The registers behind the pushes of a slot. -/
def pushedRegisters (registers : Registers) : Registers := Function.update registers 4 (registers 4 - 8)

/-- The memory behind the pushes of a slot: the flags and EAX. -/
def pushedMemory (s : CodeState) : DataMemory :=
  (s.memory.setWord (s.esp - 4) (pushedFlags s)).setWord (s.esp - 8) (s.registers 0)

/-- The pushes leave the selector of the guest's operand as it is. -/
def OperandKept (s : CodeState) : Place → Prop
  | .register _ => True
  | .memory modrm sib disp =>
    let a := effectiveAddress s.registers modrm sib disp
    (pushedMemory s).getHalf a = s.memory.getHalf a

/-! ## Re-encoded operands -/

/-- Code that reads a selector into AX. -/
def ReadsSelector (source : List Byte) (place : Place) : Prop :=
  ∀ (code : DataMemory) (s : CodeState), CodeAt code s.eip source → s.LeadsTo code
    ⟨s.eip + BitVec.ofNat 32 source.length,
      Function.update s.registers 0 (withLow (s.registers 0) (place.readHalf s.registers s.memory)), s.eflags, s.memory⟩

theorem readsSelector_load {operand : List Byte} {place : Place} (hplace : ReadsPlace operand place 0)
    (hshort : operand.length ≤ 13) : ReadsSelector (0x66 :: 0x8B :: operand) place := by
  intro code s hcode
  exact leadsTo_of_codeAt hcode (encodes_load hplace hshort)

/-- A move between registers is padded. -/
theorem readsSelector_padded {source : List Byte} {place : Place} (h : ReadsSelector source place) :
    ReadsSelector (source ++ [0x90]) place := by
  intro code s hcode
  apply (h code s hcode.left).trans
  have hpad : EncodesSelector [0x90] .nop := ⟨by decide, fun _ => rfl⟩
  rw [List.length_append, BitVec.ofNat_add, ← add_assoc]
  generalize Function.update s.registers 0 _ = registers
  exact @leadsTo_of_codeAt code ⟨s.eip + BitVec.ofNat 32 source.length, registers, s.eflags, s.memory⟩ [0x90] .nop
    hcode.right hpad

theorem fields_of_ofNat {md rm : ℕ} (hmd : md < 4) (hrm : rm < 8) :
    modField (BitVec.ofNat 8 (md <<< 6 ||| rm)) = md ∧ regField (BitVec.ofNat 8 (md <<< 6 ||| rm)) = 0 ∧
      rmField (BitVec.ofNat 8 (md <<< 6 ||| rm)) = rm := by
  interval_cases md <;> interval_cases rm <;> decide

/-- The place of a slot's source operand: behind two pushes it is that of the guest's operand. -/
def MovedBy8 : Place → Place → Prop
  | .memory modrm sib disp, .memory modrm' sib' disp' => ∀ registers : Registers,
    effectiveAddress (pushedRegisters registers) modrm' sib' disp' = effectiveAddress registers modrm sib disp
  | _, _ => False

/-- The displacement bytes of the source operand are as many as the decoder reads. -/
theorem sourceDisplacement_eq {modrm : Byte} (hmod : modField modrm ≠ 3) (sib : Byte) :
    (if modField modrm = 0 then
        (if rmField modrm = 5 ∨ (rmField modrm = 4 ∧ sib &&& 0x07 = 5) then 4 else 0)
      else if modField modrm = 1 then 1 else 4) = dispSize 32 modrm sib := by
  have hmodlt := modField_lt modrm
  have hbase := (and_seven sib).1
  unfold dispSize hasSib
  simp only [hbase]
  generalize modField modrm = md at hmod hmodlt ⊢
  interval_cases md <;> grind

theorem truncate_signExtend : ∀ b : Byte, ((b.signExtend 32).truncate 8 : Byte) = b := by
  decide +kernel

/-- No displacement, a byte or a word. -/
theorem disp_cases {disp : List Byte} {modrm sib : Byte} (h : disp.length = dispSize 32 modrm sib) :
    disp = [] ∨ (∃ b, disp = [b]) ∨ ∃ w, disp = le32 w := by
  have hlength : disp.length = 0 ∨ disp.length = 1 ∨ disp.length = 4 := by
    rw [h]
    unfold dispSize
    split_ifs <;> (try split) <;> omega
  match disp, hlength with
  | [], _ => exact Or.inl rfl
  | [b], _ => exact Or.inr (Or.inl ⟨b, rfl⟩)
  | [b0, b1, b2, b3], _ => exact Or.inr (Or.inr ⟨word32 b0 b1 b2 b3, (le32_word32 b0 b1 b2 b3).symm⟩)

section
variable {bytes disp : List Byte} {modrm sib : Byte}

/-- The source of an operand without a SIB byte is the operand. -/
theorem encodeSegmentLoadMemorySource_plain
    (hbytes : bytes.dropWhile (fun b => b = 0x66 ∨ b = 0x2E ∨ b = 0x3E) = 0x8E :: modrm :: disp)
    (hmod : modField modrm ≠ 3) (hrm : rmField modrm ≠ 4) :
    encodeSegmentLoadMemorySource bytes =
      if disp.length ≠ dispSize 32 modrm 0 then none
      else some (0x66 :: 0x8B :: BitVec.ofNat 8 (modField modrm <<< 6 ||| rmField modrm) :: disp) := by
  have hsize := sourceDisplacement_eq hmod 0
  unfold encodeSegmentLoadMemorySource
  rw [hbytes]
  split
  swap
  · rename_i hnone
    exact absurd rfl (hnone modrm disp)
  rename_i m rest heq
  obtain ⟨rfl, rfl⟩ : modrm = m ∧ disp = rest := by simpa using heq
  simp only [hmod, hrm, false_and, or_false, if_false] at hsize ⊢
  rw [hsize]
  by_cases hdisp : disp.length = dispSize 32 modrm 0
  · rw [if_neg (not_not_intro hdisp), if_neg (not_not_intro hdisp), ← hdisp]
    rcases disp_cases hdisp with rfl | ⟨b, rfl⟩ | ⟨w, rfl⟩
    · rfl
    · simp [truncate_signExtend]
    · have hword : readWord (le32 w) 0 = w := word32_le32 w
      simp [hword]
  · rw [if_pos hdisp, if_pos hdisp]

/-- The source of an operand with a SIB byte: an ESP base gets a word that is eight higher. -/
theorem encodeSegmentLoadMemorySource_sib {sib : Byte}
    (hbytes : bytes.dropWhile (fun b => b = 0x66 ∨ b = 0x2E ∨ b = 0x3E) = 0x8E :: modrm :: sib :: disp)
    (hmod : modField modrm ≠ 3) (hrm : rmField modrm = 4) :
    encodeSegmentLoadMemorySource bytes =
      if disp.length ≠ dispSize 32 modrm sib then none
      else if rmField sib = 4 then
        some (0x66 :: 0x8B :: BitVec.ofNat 8 (2 <<< 6 ||| 4) :: sib :: le32 (dispValue disp + 8))
      else some (0x66 :: 0x8B :: BitVec.ofNat 8 (modField modrm <<< 6 ||| rmField modrm) :: sib :: disp) := by
  have hsize := sourceDisplacement_eq hmod sib
  have hbase := (and_seven sib).2
  unfold encodeSegmentLoadMemorySource
  rw [hbytes]
  split
  swap
  · rename_i hnone
    exact absurd rfl (hnone modrm (sib :: disp))
  rename_i m rest heq
  obtain ⟨rfl, rfl⟩ : modrm = m ∧ sib :: disp = rest := by simpa using heq
  simp only [hmod, hrm, hbase, true_and, if_true, false_or, List.headD_cons, List.tail_cons, reduceCtorEq, if_false]
    at hsize ⊢
  rw [hsize]
  by_cases hdisp : disp.length = dispSize 32 modrm sib
  swap
  · rw [if_pos hdisp, if_pos hdisp]
  rw [if_neg (not_not_intro hdisp), if_neg (not_not_intro hdisp), ← hdisp]
  by_cases hesp : rmField sib = 4
  · simp only [hesp, if_true]
    rcases disp_cases hdisp with rfl | ⟨b, rfl⟩ | ⟨w, rfl⟩
    · rfl
    · rfl
    · rfl
  · simp only [hesp, if_false]
    rcases disp_cases hdisp with rfl | ⟨b, rfl⟩ | ⟨w, rfl⟩
    · rfl
    · simp [truncate_signExtend]
    · have hword : readWord (le32 w) 0 = w := word32_le32 w
      simp [hword]

end

/-- A source operand reads the guest's operand where the pushes have moved it. -/
structure ReadsOperand (operand source : List Byte) (place place' : Place) : Prop where
  guest : ∃ reg, ReadsPlace operand place reg
  reads : ReadsSelector source place'
  moved : MovedBy8 place place'

/-- An operand whose address the pushes leave alone. -/
theorem readsOperand_kept {modrm sib : Byte} {disp rest : List Byte}
    (hplace : ∀ m, modField m = modField modrm → rmField m = rmField modrm →
      ReadsPlace (m :: rest) (.memory m sib disp) (regField m))
    (hshort : rest.length ≤ 12) (hbase : rmField modrm = 4 → rmField sib ≠ 4) :
    ReadsOperand (modrm :: rest) (0x66 :: 0x8B :: BitVec.ofNat 8 (modField modrm <<< 6 ||| rmField modrm) :: rest)
      (.memory modrm sib disp) (.memory (BitVec.ofNat 8 (modField modrm <<< 6 ||| rmField modrm)) sib disp) := by
  obtain ⟨hmod', hreg', hrm'⟩ := fields_of_ofNat (modField_lt modrm) (field_lt modrm).2
  have hreads := hplace _ hmod' hrm'
  rw [hreg'] at hreads
  refine ⟨⟨_, hplace modrm rfl rfl⟩, readsSelector_load hreads ?_, fun registers => ?_⟩
  · exact Nat.succ_le_succ hshort
  · rw [effectiveAddress_congr hmod' hrm']
    exact effectiveAddress_lowered registers disp _ hbase

/-- An ESP-based operand: its displacement is a word that is eight higher. -/
theorem readsOperand_esp {modrm sib : Byte} {disp : List Byte} (hmod : modField modrm ≠ 3) (hrm : rmField modrm = 4)
    (hbase : rmField sib = 4) (hdisp : disp.length = dispSize 32 modrm sib) :
    ReadsOperand (modrm :: sib :: disp)
      (0x66 :: 0x8B :: BitVec.ofNat 8 (2 <<< 6 ||| 4) :: sib :: le32 (dispValue disp + 8))
      (.memory modrm sib disp) (.memory (BitVec.ofNat 8 (2 <<< 6 ||| 4)) sib (le32 (dispValue disp + 8))) := by
  obtain ⟨hmod', hreg', hrm'⟩ := @fields_of_ofNat 2 4 (by decide) (by decide)
  have hdisp' : (le32 (dispValue disp + 8)).length = dispSize 32 (BitVec.ofNat 8 (2 <<< 6 ||| 4)) sib := by
    rw [@dispSize_sib _ sib (by omega), hmod']
    rfl
  have hreads := readsPlace_sib (by omega) hrm' hdisp'
  rw [hreg'] at hreads
  refine ⟨⟨_, readsPlace_sib hmod hrm hdisp⟩, readsSelector_load hreads ?_, fun registers => ?_⟩
  · rw [List.length_cons, List.length_cons, le32_length]
    decide
  · exact effectiveAddress_esp registers hrm hrm' hbase (dispValue_le32 _)

/-- The source of a memory operand. -/
theorem encodeSegmentLoadMemorySource_operand {bytes source : List Byte}
    (h : encodeSegmentLoadMemorySource bytes = some source) :
    ∃ operand place place', bytes.dropWhile (fun b => b = 0x66 ∨ b = 0x2E ∨ b = 0x3E) = 0x8E :: operand ∧
      ReadsOperand operand source place place' := by
  have hform : ∃ modrm rest, bytes.dropWhile (fun b => b = 0x66 ∨ b = 0x2E ∨ b = 0x3E) = 0x8E :: modrm :: rest ∧
      modField modrm ≠ 3 ∧ (rmField modrm = 4 → rest ≠ []) := by
    unfold encodeSegmentLoadMemorySource at h
    split at h
    · rename_i modrm rest heq
      refine ⟨modrm, rest, heq, ?_⟩
      by_contra hneg
      rw [if_pos (by tauto)] at h
      cases h
    · cases h
  obtain ⟨modrm, rest, hbytes, hmod, hrest⟩ := hform
  refine ⟨modrm :: rest, ?_⟩
  by_cases hrm : rmField modrm = 4
  · cases rest with
    | nil => exact absurd rfl (hrest hrm)
    | cons sib disp =>
      rw [encodeSegmentLoadMemorySource_sib hbytes hmod hrm] at h
      split_ifs at h with hdisp hbase
      · rw [← Option.some.inj h]
        exact ⟨_, _, hbytes, readsOperand_esp hmod hrm hbase (not_not.mp hdisp)⟩
      · rw [← Option.some.inj h]
        have hsize := dispSize_le 32 modrm sib
        refine ⟨_, _, hbytes, @readsOperand_kept modrm sib disp _ (fun m hm hr => ?_) ?_ fun _ => hbase⟩
        swap
        · rw [List.length_cons]
          omega
        exact readsPlace_sib (hm.trans_ne hmod) (hr.trans hrm)
          ((not_not.mp hdisp).trans (dispSize_congr hm hr 32 sib).symm)
  · rw [encodeSegmentLoadMemorySource_plain hbytes hmod hrm] at h
    split_ifs at h with hdisp
    rw [← Option.some.inj h]
    have hsize := dispSize_le 32 modrm 0
    refine ⟨_, _, hbytes, @readsOperand_kept modrm 0 rest _ (fun m hm hr => ?_) (by omega) fun h => absurd h hrm⟩
    exact readsPlace_memory (hm.trans_ne hmod) (hr.trans_ne hrm)
      ((not_not.mp hdisp).trans (dispSize_congr hm hr 32 0).symm)


/-- The guest's selector, read behind the pushes. -/
def ReadsGuest (access : GuardedAccess) (record : AotInstructionRecord) (source : List Byte) : Prop :=
  ∃ place place', access.operand record = some place ∧ ReadsSelector source place' ∧
    ∀ s : CodeState, OperandKept s place →
      place'.readHalf (pushedRegisters s.registers) (pushedMemory s) = place.readHalf s.registers s.memory

theorem readHalf_moved {place place' : Place} (h : MovedBy8 place place') {s : CodeState}
    (hkept : OperandKept s place) :
    place'.readHalf (pushedRegisters s.registers) (pushedMemory s) = place.readHalf s.registers s.memory := by
  match place, place', h with
  | .memory modrm sib disp, .memory modrm' sib' disp', h =>
    show (pushedMemory s).getHalf (effectiveAddress (pushedRegisters s.registers) modrm' sib' disp') = _
    rw [h s.registers]
    exact hkept

/-- EAX is read from the stack. -/
theorem readHalf_pushedMemory (s : CodeState) :
    Place.readHalf (pushedRegisters s.registers) (pushedMemory s) (.memory 0x04 0x24 []) =
      (s.registers 0).setWidth 16 := by
  have htop : effectiveAddress (pushedRegisters s.registers) 0x04 0x24 [] = s.esp - 8 := by
    rw [effectiveAddress_stack _ rfl, pushedRegisters, Function.update_self]
    exact add_zero _
  show (pushedMemory s).getHalf _ = _
  rw [htop]
  exact DataMemory.getHalf_setWord _ _ _

theorem padded_fields {g : ℕ} (hg : g ≤ 7) :
    modField (0xC0 ||| BitVec.ofNat 8 g) = 3 ∧ regField (0xC0 ||| BitVec.ofNat 8 g) = 0 ∧
      rmField (0xC0 ||| BitVec.ofNat 8 g) = g := by
  interval_cases g <;> decide

/-- The source of a register operand. -/
theorem registerSource_reads {record : AotInstructionRecord} {source : List Byte}
    (hregister : record.gprRegister ≠ kAotSegmentLoadMemorySource)
    (h : encodeGuardedSegmentLoadSource record = some source) : ReadsGuest .load record source := by
  have hoperand : GuardedAccess.load.operand record = some (.register (fieldRegister record.gprRegister)) :=
    if_pos hregister
  unfold encodeGuardedSegmentLoadSource at h
  rw [if_pos hregister] at h
  split_ifs at h with hbad heax
  · rw [← Option.some.inj h]
    have hplace : ReadsPlace [0x04, 0x24] (.memory 0x04 0x24 []) 0 :=
      readsPlace_sib (by decide) (by decide) (by decide)
    refine ⟨_, _, hoperand, readsSelector_load hplace (by decide), fun s _ => ?_⟩
    rw [readHalf_pushedMemory, heax]
    rfl
  · rw [← Option.some.inj h]
    obtain ⟨hmod, hreg, hrm⟩ := @padded_fields record.gprRegister (by omega)
    have hplace := readsPlace_register hmod
    rw [hreg, hrm] at hplace
    refine ⟨_, _, hoperand, readsSelector_padded (readsSelector_load hplace (show 1 ≤ 13 by decide)), fun s _ => ?_⟩
    have hesp : fieldRegister record.gprRegister ≠ 4 := fieldRegister_ne_esp (by omega) (by omega)
    show (pushedRegisters s.registers _).setWidth 16 = _
    rw [pushedRegisters, Function.update_of_ne hesp]
    rfl

/-- The source of a slot reads the guest's selector. -/
theorem source_reads {access : GuardedAccess} {record : AotInstructionRecord} {source : List Byte}
    (h : access.source record = some source) : ReadsGuest access record source := by
  cases access with
  | load =>
    replace h : encodeGuardedSegmentLoadSource record = some source := h
    by_cases hregister : record.gprRegister ≠ kAotSegmentLoadMemorySource
    · exact registerSource_reads hregister h
    unfold encodeGuardedSegmentLoadSource at h
    rw [if_neg hregister] at h
    obtain ⟨operand, place, place', hbytes, hreads⟩ := encodeSegmentLoadMemorySource_operand h
    obtain ⟨reg, hplace⟩ := hreads.guest
    refine ⟨place, place', ?_, hreads.reads, fun s hkept => readHalf_moved hreads.moved hkept⟩
    have hread := hplace []
    rw [List.append_nil] at hread
    show loadOperand record = _
    rw [loadOperand, if_neg hregister, hbytes]
    show (readPlace operand).bind _ = _
    rw [hread]
    rfl
  | pop =>
    rw [← Option.some.inj h]
    have hplace : ReadsPlace [0x44, 0x24, 0x08] (.memory 0x44 0x24 [0x08]) 0 :=
      readsPlace_sib (by decide) (by decide) (by decide)
    have hmoved : MovedBy8 (.memory 0x04 0x24 []) (.memory 0x44 0x24 [0x08]) := fun registers =>
      effectiveAddress_esp registers rfl rfl rfl rfl
    exact ⟨_, _, rfl, readsSelector_load hplace (by decide), fun s hkept => readHalf_moved hmoved hkept⟩

end Repiu.Engine
