import Repiu.Runtime.SlotSpecs
import Repiu.X86.Reencoding

/-!
# The access of a segment-override slot

What the emitter of the slot has checked of the instruction, and the bytes it re-encodes the
access to.
-/

namespace Repiu.Runtime

open Repiu.X86

/-- What `EmitSegmentOverrideSlot` has checked of the decoded instruction: it fills the record, has
a memory operand with no, one or four displacement bytes, and the override prefix. -/
structure OverrideForm (bytes : List Byte) (e : Instruction) (modrm p : Byte) : Prop where
  bytes_eq : bytes = e.bytes
  modrm_eq : e.modrm = some modrm
  memory : modField modrm ≠ 3
  disp : e.disp.length = 0 ∨ e.disp.length = 1 ∨ e.disp.length = 4
  mem : p ∈ e.prefixes
  segment : (segmentOfPrefix p).isSome

theorem segmentPrefixByte_isSome {segment : ℕ} {p : Byte} (h : segmentPrefixByte segment = some p) :
    (segmentOfPrefix p).isSome := by
  unfold segmentPrefixByte at h
  split at h <;> cases h <;> rfl

/-- The bytes of an instruction with a ModRM byte, field by field. -/
theorem bytes_modrm {e : Instruction} {modrm : Byte} (h : e.modrm = some modrm) :
    e.bytes = e.prefixes ++ (e.code.payload ++ [e.code.opcode] ++
      modrm :: (e.sib.toList ++ (e.disp ++ e.immBytes))) := by
  unfold Instruction.bytes Instruction.immBytes
  rw [h]
  simp

theorem bytes_eq_of_length {table : Table} {mode : MachineMode} {bytes : List Byte} {e : Instruction}
    (h : decode table mode bytes = some e) (hlength : e.length = bytes.length) : bytes = e.bytes := by
  obtain ⟨rest₁, rest₂, rest₃, rest₄, hd⟩ := decode_iff.mp h
  have heq := hd.input_eq
  have hnil : rest₄ = [] := by
    have hlengths := congrArg List.length heq
    rw [List.length_append, e.bytes_length] at hlengths
    exact List.length_eq_zero_iff.mp (by omega)
  rwa [hnil, List.append_nil] at heq

theorem overrideForm_of_emitted {table : Table} {record : AotInstructionRecord} {f : Fragment}
    (h : emitSegmentOverrideSlot table record = some f) :
    ∃ e modrm p access offset, decode table .legacy32 record.bytes = some e ∧
      OverrideForm record.bytes e modrm p ∧ segmentPrefixByte record.segmentOverrideRegister = some p ∧
      segmentOverrideAccess record.bytes e (e.prefixes.idxOf p) = some (access, offset) ∧
      f = segmentOverrideSlot record e access offset := by
  obtain ⟨p, e, access, offset, hp, he, ⟨hform, hdisp, hindex⟩, haccess, rfl⟩ := emitSegmentOverrideSlot_eq_some h
  have hbytes := bytes_eq_of_length he (by tauto)
  obtain ⟨modrm, hmodrm⟩ : ∃ m, e.modrm = some m := Option.ne_none_iff_exists'.mp (by tauto)
  have htake : record.bytes.take e.prefixCount = e.prefixes := by
    rw [hbytes, bytes_modrm hmodrm]
    exact List.take_left
  rw [htake] at hindex haccess
  have hfind : e.prefixes.findIdx (· = p) = e.prefixes.idxOf p := rfl
  rw [hfind] at hindex haccess
  refine ⟨e, modrm, p, access, offset, he, ⟨hbytes, hmodrm, ?_, hdisp, ?_, segmentPrefixByte_isSome hp⟩, hp, haccess,
    rfl⟩
  · intro hmod
    apply hform
    right
    right
    rw [Instruction.modrmMod, hmodrm]
    exact hmod
  · exact List.idxOf_lt_length_iff.mp hindex

theorem immBytes_length (e : Instruction) : e.immBytes.length = e.immLength := by
  rw [Instruction.immBytes, Instruction.immLength, List.length_flatten, List.map_map]
  rfl

section
variable {bytes access : List Byte} {e : Instruction} {modrm p : Byte} {offset : ℕ}

/-- The parts of the record's bytes that the emitter copies. -/
theorem OverrideForm.parts (h : OverrideForm bytes e modrm p) :
    e.modrmOffset = (e.prefixes ++ (e.code.payload ++ [e.code.opcode])).length ∧
      bytes.take e.prefixCount = e.prefixes ∧
      (bytes.take e.modrmOffset).drop e.prefixCount = e.code.payload ++ [e.code.opcode] ∧
      bytes.getD e.modrmOffset 0 = modrm ∧
      bytes.drop (e.modrmOffset + 1) = e.sib.toList ++ (e.disp ++ e.immBytes) := by
  have hbytes := h.bytes_eq.trans (bytes_modrm h.modrm_eq)
  have hoffset : e.modrmOffset = (e.prefixes ++ (e.code.payload ++ [e.code.opcode])).length := by
    rw [Instruction.modrmOffset, h.modrm_eq, Instruction.codeLength]
    simp
  have hsplit : bytes = (e.prefixes ++ (e.code.payload ++ [e.code.opcode])) ++
      modrm :: (e.sib.toList ++ (e.disp ++ e.immBytes)) := by
    rw [hbytes]
    simp only [List.append_assoc]
  refine ⟨hoffset, ?_, ?_, ?_, ?_⟩
  · rw [hbytes]
    exact List.take_left
  · rw [hsplit, List.take_left' hoffset.symm]
    exact List.drop_left
  · rw [hsplit, hoffset, List.getD_append_right _ _ _ _ le_rfl, Nat.sub_self]
    rfl
  · rw [hsplit, hoffset, ← List.drop_drop, List.drop_left]
    rfl

/-- The access: the head without the override prefix, the wide ModRM byte, the byte behind it where
`rm` is 4, the displacement and what is left behind it. -/
theorem segmentOverrideAccess_eq (hform : OverrideForm bytes e modrm p)
    (h : segmentOverrideAccess bytes e (e.prefixes.idxOf p) = some (access, offset)) :
    ∃ sib rest, access = e.reencodedHead p ++ wideModrm modrm e.disp ::
        (sib ++ le32 (displacementValue e) ++ rest) ∧
      offset = (e.reencodedHead p).length + 1 + sib.length ∧ e.immLength ≤ sib.length + rest.length ∧
      (e.sib.isSome = decide (rmField modrm = 4) → sib = e.sib.toList ∧ rest = e.immBytes) := by
  obtain ⟨hoffset, hprefixes, hcode, hmodrm, hdrop⟩ := hform.parts
  have hrm : e.modrmRm = rmField modrm := by
    rw [Instruction.modrmRm, hform.modrm_eq]
    rfl
  have hnext (a : Byte) (as : List Byte) (hbytes : bytes.drop (e.modrmOffset + 1) = a :: as) :
      bytes.getD (e.modrmOffset + 1) 0 = a := by
    have hhead := congrArg (fun l => l.getD 0 0) hbytes
    simpa [List.getD_eq_getElem?_getD] using hhead
  -- what is copied behind the displacement
  set immediateOffset := if e.disp.length ≠ 0 then e.dispOffset + e.disp.length
    else e.modrmOffset + 1 + (if e.modrmRm = 4 then 1 else 0) with himmediate
  have hrest : bytes.drop immediateOffset = if e.disp.length ≠ 0 then e.immBytes else
      (e.sib.toList ++ e.immBytes).drop (if rmField modrm = 4 then 1 else 0) := by
    rw [himmediate, hrm]
    by_cases hdisp : e.disp.length ≠ 0
    · have hne : e.disp ≠ [] := List.ne_nil_of_length_pos (by omega)
      have hdispOffset : e.dispOffset = e.modrmOffset + 1 + e.sib.toList.length := by
        rw [Instruction.dispOffset, if_neg hne, Instruction.modrmOffset, hform.modrm_eq]
        simp
      rw [if_pos hdisp, if_pos hdisp, hdispOffset, Nat.add_assoc, ← List.drop_drop, hdrop, ← List.drop_drop,
        List.drop_left, List.drop_left]
    · have hnil : e.disp = [] := List.length_eq_zero_iff.mp (by omega)
      rw [if_neg hdisp, if_neg hdisp, ← List.drop_drop, hdrop, hnil, List.nil_append]
  unfold segmentOverrideAccess at h
  simp only [hrm, hprefixes, hcode, hmodrm, List.eraseIdx_idxOf_eq_erase] at h
  rw [hrm] at himmediate
  rw [← himmediate] at h
  by_cases hlong : immediateOffset > e.length
  · rw [if_pos hlong] at h
    cases h
  rw [if_neg hlong] at h
  simp only [Option.some.injEq, Prod.mk.injEq] at h
  refine ⟨if rmField modrm = 4 then [bytes.getD (e.modrmOffset + 1) 0] else [], bytes.drop immediateOffset,
    ?_, ?_, ?_, ?_⟩
  · rw [← h.1, Instruction.reencodedHead, wideModrm]
    simp only [List.append_assoc, List.cons_append, List.nil_append]
  · rw [← h.2, Instruction.reencodedHead]
    simp only [List.length_append, List.length_singleton]
  · rw [hrest, ← immBytes_length]
    split_ifs
    all_goals simp
    omega
  · intro hpresent
    by_cases hfour : rmField modrm = 4
    · rw [decide_eq_true hfour] at hpresent
      obtain ⟨s, hs⟩ := Option.isSome_iff_exists.mp hpresent
      rw [hs] at hdrop hrest ⊢
      rw [if_pos hfour, hnext s _ hdrop, hrest, if_pos hfour]
      refine ⟨rfl, ?_⟩
      split_ifs <;> rfl
    · rw [decide_eq_false hfour, Option.isSome_eq_false_iff, Option.isNone_iff_eq_none] at hpresent
      rw [hrest, hpresent, if_neg hfour, if_neg hfour]
      refine ⟨rfl, ?_⟩
      split_ifs <;> rfl

/-- The decoder reads an access to its end exactly with 32-bit addressing and a memory form, and where
the longer instruction still is one; it then reads the folded instruction. -/
theorem decode_access_iff {table : Table} (hrows : MemoryRows table) (he : decode table .legacy32 bytes = some e)
    (hform : OverrideForm bytes e modrm p)
    (h : segmentOverrideAccess bytes e (e.prefixes.idxOf p) = some (access, offset)) :
    ∃ pre post, access = pre ++ le32 (displacementValue e) ++ post ∧ offset = pre.length ∧
      ∀ (v : Word) (tail : List Byte) (j : Instruction),
        decode table .legacy32 (pre ++ le32 v ++ post ++ tail) = some j ∧ j.length = access.length ↔
          e.addressWidth = 32 ∧ e.definition.forceRegForm = false ∧
            e.length + 3 ≤ maxInstructionLength + e.disp.length ∧ j = e.folded p modrm v := by
  obtain ⟨sib, rest, haccess, hoffset, himms, hexact⟩ := segmentOverrideAccess_eq hform h
  have hmod := sameForm_wideModrm hform.memory e.disp
  have hlength (v : Word) : (e.folded p modrm v).length + e.disp.length = e.length + 3 := by
    have herase := List.length_erase_of_mem hform.mem
    have hpos := List.length_pos_of_mem hform.mem
    simp only [Instruction.folded, Instruction.reencode, Instruction.length, Instruction.codeLength,
      Instruction.immLength, hform.modrm_eq, Option.toList_some, List.length_singleton, le32_length, herase]
    omega
  refine ⟨e.reencodedHead p ++ wideModrm modrm e.disp :: sib, rest, ?_, ?_, ?_⟩
  · rw [haccess]
    simp only [List.append_assoc, List.cons_append]
  · rw [hoffset, List.length_append, List.length_cons]
    omega
  · intro v tail j
    have hsplit : e.reencodedHead p ++ wideModrm modrm e.disp :: sib ++ le32 v ++ rest ++ tail =
        e.reencodedHead p ++ wideModrm modrm e.disp :: (sib ++ le32 v ++ (rest ++ tail)) := by
      simp only [List.append_assoc, List.cons_append]
    have hsize : access.length = (e.reencodedHead p).length + 5 + (sib.length + rest.length) := by
      rw [haccess]
      simp only [List.length_append, List.length_cons, le32_length]
      omega
    rw [hsplit, hsize]
    -- with 32-bit addressing the SIB byte and the immediates are where the emitter takes them from
    have hfolded (hwidth : e.addressWidth = 32) (hforce : e.definition.forceRegForm = false) :
        decode table .legacy32 (e.reencodedHead p ++ wideModrm modrm e.disp ::
            (sib ++ le32 v ++ (rest ++ tail))) =
          (if (e.folded p modrm v).length ≤ maxInstructionLength then some (e.folded p modrm v) else none) ∧
        (e.folded p modrm v).length = (e.reencodedHead p).length + 5 + (sib.length + rest.length) := by
      obtain ⟨rest₁, rest₂, rest₃, rest₄, hd⟩ := decode_iff.mp he
      have haddressing := hd.addressing
      rw [hform.modrm_eq, readAddressing, hwidth, hforce] at haddressing
      have hpresent : e.sib.isSome = decide (rmField modrm = 4) := by
        rw [(readModrm_shape haddressing).1]
        simp [hasSib, hform.memory]
      obtain ⟨rfl, rfl⟩ := hexact hpresent
      refine ⟨decode_folded hrows he hform.modrm_eq hform.segment hform.memory hwidth hforce v tail, ?_⟩
      rw [immBytes_length]
      simp only [Instruction.folded, Instruction.reencode, Instruction.length, Instruction.codeLength,
        Instruction.immLength, Option.toList_some, List.length_singleton, le32_length, Instruction.reencodedHead,
        List.length_append]
      omega
    have hlong := hlength v
    constructor
    · rintro ⟨hj, hjlength⟩
      rcases (decode_reencode_length hrows he hform.modrm_eq hform.segment hmod hj).2 with
        ⟨hwidth, hforce⟩ | hshort
      · obtain ⟨hdecode, -⟩ := hfolded hwidth hforce
        rw [hdecode] at hj
        split_ifs at hj with hmax
        exact ⟨hwidth, hforce, by omega, (Option.some.inj hj).symm⟩
      · omega
    · rintro ⟨hwidth, hforce, hmax, rfl⟩
      obtain ⟨hdecode, hfull⟩ := hfolded hwidth hforce
      rw [hdecode, if_pos (by omega)]
      exact ⟨rfl, hfull⟩

end

/-! ## What an access does -/

/-- The segment bases of the process that the cache runs in: ES, CS, SS and DS are flat. -/
structure HostSegments where
  base : ℕ → Word
  flat : ∀ s < 4, base s = 0

/-- The linear address of the memory operand of an instruction of the cache. -/
def HostSegments.linearAddress (host : HostSegments) (scale : Instruction → Word) (registers : Registers)
    (j : Instruction) : Word :=
  host.base j.operandSegment + j.operandAddress scale registers

/-- The instruction `j` of the cache stands for the guest's instruction `i` on a segment at `base`. -/
structure SameAccess (scale : Instruction → Word) (base : Word) (i j : Instruction) : Prop where
  code : j.code = i.code
  mnemonic : j.mnemonic = i.mnemonic
  register : j.modrmReg = i.modrmReg
  imms : j.imms = i.imms
  operandWidth : j.operandWidth = i.operandWidth
  address : ∀ (registers : Registers) (host : HostSegments),
    host.linearAddress scale registers j = base + i.operandAddress scale registers

/-- The guest's instruction `i`, which 32-bit code reads as `e`, can be re-encoded: both read the same
operands with 32-bit addressing, a displacement byte is not scaled, the prefixes but the removed one
leave no override to FS or GS, and the wider displacement leaves room for the instruction. -/
structure Refoldable (scale : Instruction → Word) (i e : Instruction) (p : Byte) : Prop where
  mnemonic : e.mnemonic = i.mnemonic
  imms : e.imms = i.imms
  operandWidth : e.operandWidth = i.operandWidth
  guestAddressing : i.addressWidth = 32
  addressing : e.addressWidth = 32
  memoryForm : e.definition.forceRegForm = false
  unscaled : i.operandDisplacement scale = dispValue i.disp
  override : e.definition.acceptsSegment →
    ∀ s, effectiveSegment .legacy32 (e.prefixes.erase p) = some s → s < 4
  short : e.length + 3 ≤ maxInstructionLength + e.disp.length

theorem displacementValue_eq {e : Instruction}
    (h : e.disp.length = 0 ∨ e.disp.length = 1 ∨ e.disp.length = 4) : displacementValue e = dispValue e.disp := by
  unfold displacementValue
  match e.disp, h with
  | [], _ => rfl
  | [_], _ => rfl
  | [_, _, _, _], _ => rfl

section
variable {table : Table} {bytes : List Byte} {i e : Instruction} {modrm p : Byte}

/-- The folded instruction adds the displacement to the registers of the guest's operand. -/
theorem operandAddress_folded (he : decode table .legacy32 bytes = some e)
    (hform : OverrideForm bytes e modrm p) (hwidth : e.addressWidth = 32)
    (hforce : e.definition.forceRegForm = false) (scale : Instruction → Word) (v : Word)
    (registers : Registers) :
    (e.folded p modrm v).operandAddress scale registers =
      baseIndex registers modrm (e.sib.getD 0) + v := by
  obtain ⟨rest₁, rest₂, rest₃, rest₄, hd⟩ := decode_iff.mp he
  have haddressing := hd.addressing
  rw [hform.modrm_eq, readAddressing, hwidth, hforce] at haddressing
  have hwide : (e.folded p modrm v).addressWidth ≠ 16 := by
    show e.addressWidth ≠ 16
    omega
  rw [Instruction.operandAddress, if_neg hwide]
  show baseIndex registers (wideModrm modrm e.disp) (e.sib.getD 0) + dispValue (le32 v) = _
  rw [baseIndex_wideModrm hform.memory (readModrm_shape haddressing).2, dispValue_le32]

/-- The folded instruction stands for the guest's exactly under the condition. -/
theorem sameAccess_folded_iff (hrows : MemoryRows table) {mode : MachineMode} (hmode : mode ≠ .long64)
    (hi : decode table mode bytes = some i) (hlength : bytes.length = i.length)
    (he : decode table .legacy32 bytes = some e) (hform : OverrideForm bytes e modrm p)
    (hwidth : e.addressWidth = 32) (hforce : e.definition.forceRegForm = false)
    (hshort : e.length + 3 ≤ maxInstructionLength + e.disp.length) (scale : Instruction → Word) (base : Word) :
    SameAccess scale base i (e.folded p modrm (displacementValue e + base)) ↔ Refoldable scale i e p := by
  obtain ⟨-, hcode, hmodrm, hwidths, hoperand⟩ := decode_legacy_parts hrows hmode hi he
  obtain ⟨rest₁, rest₂, rest₃, rest₄, hd⟩ := decode_iff.mp he
  have hlengths : i.length = e.length := by
    rw [← hlength, hform.bytes_eq, e.bytes_length]
  have himodrm := hmodrm.trans hform.modrm_eq
  have hfolded := operandAddress_folded he hform hwidth hforce scale (displacementValue e + base)
  have hguest (h32 : i.addressWidth = 32) (registers : Registers) : i.operandAddress scale registers =
      baseIndex registers modrm (i.sib.getD 0) + i.operandDisplacement scale := by
    rw [Instruction.operandAddress, if_neg (by omega), himodrm]
    rfl
  have hsegment := operandSegment_lt_iff (e.folded p modrm (displacementValue e + base))
  have hmodeEq : (e.folded p modrm (displacementValue e + base)).mode = .legacy32 := hd.mode_eq
  rw [hmodeEq] at hsegment
  have hwidthEq : (e.folded p modrm (displacementValue e + base)).operandWidth = e.operandWidth := by
    obtain ⟨h66, -⟩ := segmentPrefix_ne hform.segment
    show (if e.definition.operandSizeMap = 1 then 8 else operandSizeRow e.definition.operandSizeMap e.mode
      ((e.prefixes.erase p).contains 0x66 && !e.definition.mandatory66) _) = _
    rw [contains_erase _ h66.symm, Instruction.operandWidth, Instruction.hasOperandSize, Instruction.rexW,
      Instruction.rexW, hmodeEq, hd.mode_eq, effectiveRex_legacy (by decide), effectiveRex_legacy (by decide)]
  constructor
  · intro h
    -- the flat host: only the operands count
    let flat : HostSegments := ⟨fun _ => 0, fun _ _ => rfl⟩
    have haddress (registers : Registers) : baseIndex registers modrm (e.sib.getD 0) +
        (displacementValue e + base) = base + i.operandAddress scale registers := by
      have hflat := h.address registers flat
      rw [HostSegments.linearAddress, hfolded] at hflat
      rw [← hflat]
      exact (zero_add _).symm
    have hguestWidth : i.addressWidth = 32 := by
      refine hwidths.resolve_left fun h16 => ?_
      refine operandAddress16_ne modrm (e.sib.getD 0) base (displacementValue e + base)
        ((i.operandDisplacement scale).setWidth 16) fun registers => ?_
      rw [haddress, Instruction.operandAddress, if_pos h16, himodrm]
      rfl
    have himms : i.imms = e.imms := h.imms.symm
    obtain ⟨hsib, hdisp⟩ := hoperand modrm himodrm hguestWidth hwidth hforce himms hlengths
    have hunscaled : i.operandDisplacement scale = displacementValue e := by
      have hzero := haddress fun _ => 0
      rw [hguest hguestWidth, hsib, ← add_assoc, add_comm base] at hzero
      exact (add_left_cancel (add_right_cancel hzero)).symm
    have hoverride : (e.folded p modrm (displacementValue e + base)).operandSegment < 4 := by
      -- a process whose other segments start at 1
      by_contra hnot
      let other : HostSegments := ⟨fun s => if s < 4 then 0 else 1, fun _ hs => if_pos hs⟩
      have hother := h.address (fun _ => 0) other
      have hbase : other.base (e.folded p modrm (displacementValue e + base)).operandSegment = 1 := if_neg hnot
      rw [HostSegments.linearAddress, hfolded, haddress, hbase] at hother
      exact absurd hother (by bv_omega)
    refine ⟨h.mnemonic, h.imms, hwidthEq.symm.trans h.operandWidth, hguestWidth, hwidth, hforce, ?_,
      hsegment.mp hoverride, hshort⟩
    rw [hunscaled, displacementValue_eq hform.disp, hdisp]
  · intro h
    obtain ⟨hsib, hdisp⟩ := hoperand modrm himodrm h.guestAddressing hwidth hforce h.imms.symm hlengths
    refine ⟨hcode.symm, h.mnemonic, ?_, h.imms, hwidthEq.trans h.operandWidth, fun registers host => ?_⟩
    · rw [Instruction.modrmReg, Instruction.modrmReg, himodrm]
      exact (sameForm_wideModrm hform.memory e.disp).reg
    · rw [HostSegments.linearAddress, host.flat _ (hsegment.mpr h.override), hfolded, hguest h.guestAddressing,
        h.unscaled, hsib, hdisp, displacementValue_eq hform.disp]
      ring

end

end Repiu.Runtime
