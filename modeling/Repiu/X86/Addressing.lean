import Repiu.X86.Decoder
import Repiu.X86.Execution

/-!
# 32-bit addressing

The memory operand of a ModRM byte with 32-bit addressing: its parts as bytes, and the
address they stand for.
-/

namespace Repiu.X86

/-- The registers, by number. -/
abbrev Registers := Fin 8 → Word

/-- The register of a three-bit field. -/
def fieldRegister (n : ℕ) : Fin 8 := Fin.ofNat 8 n

/-- The value of displacement bytes: a byte is sign-extended, and none is zero. -/
def dispValue (disp : List Byte) : Word :=
  match disp with
  | [b] => b.signExtend 32
  | [b0, b1, b2, b3] => word32 b0 b1 b2 b3
  | _ => 0

@[simp] theorem dispValue_le32 (a : Word) : dispValue (le32 a) = a := word32_le32 a

/-- What the SIB byte adds up: the base, unless it is absent, and the scaled index. -/
def sibBaseIndex (registers : Registers) (md : ℕ) (sib : Byte) : Word :=
  (if md = 0 ∧ rmField sib = 5 then 0 else registers (fieldRegister (rmField sib))) +
    (if regField sib = 4 then 0 else registers (fieldRegister (regField sib)) <<< modField sib)

/-- What the registers of a memory operand add up to, before the displacement. -/
def baseIndex (registers : Registers) (modrm sib : Byte) : Word :=
  if rmField modrm = 4 then sibBaseIndex registers (modField modrm) sib
  else if modField modrm = 0 ∧ rmField modrm = 5 then 0
  else registers (fieldRegister (rmField modrm))

/-- The effective address of a memory operand. -/
def effectiveAddress (registers : Registers) (modrm sib : Byte) (disp : List Byte) : Word :=
  baseIndex registers modrm sib + dispValue disp

/-- The address of an absolute operand. -/
theorem effectiveAddress_disp32 (registers : Registers) {modrm : Byte} (hmod : modField modrm = 0)
    (hrm : rmField modrm = 5) (a : Word) : effectiveAddress registers modrm 0 (le32 a) = a := by
  have hnone : baseIndex registers modrm 0 = 0 := by
    rw [baseIndex, hrm, if_neg (by decide), if_pos ⟨hmod, rfl⟩]
  rw [effectiveAddress, hnone, dispValue_le32, zero_add]

/-- The address of an operand on the stack. -/
theorem effectiveAddress_stack (registers : Registers) {modrm : Byte} (hrm : rmField modrm = 4) (disp : List Byte) :
    effectiveAddress registers modrm 0x24 disp = registers 4 + dispValue disp := by
  have hnone : ¬(modField modrm = 0 ∧ rmField (0x24 : Byte) = 5) := fun h => absurd h.2 (by decide)
  have hindex : regField (0x24 : Byte) = 4 := rfl
  rw [effectiveAddress, baseIndex, if_pos hrm, sibBaseIndex, if_neg hnone, if_pos hindex, add_zero]
  rfl

/-! ## 16-bit addressing -/

/-- What the registers of a memory operand with 16-bit addressing add up to. -/
def baseIndex16 (registers : Registers) (modrm : Byte) : BitVec 16 :=
  let half (r : Fin 8) : BitVec 16 := (registers r).setWidth 16
  match rmField modrm with
  | 0 => half 3 + half 6
  | 1 => half 3 + half 7
  | 2 => half 5 + half 6
  | 3 => half 5 + half 7
  | 4 => half 6
  | 5 => half 7
  | 6 => if modField modrm = 0 then 0 else half 5
  | _ => half 3

/-- The value of the displacement bytes of 16-bit addressing. -/
def dispValue16 (disp : List Byte) : BitVec 16 :=
  match disp with
  | [b] => b.signExtend 16
  | [b0, b1] => b1 ++ b0
  | _ => 0

/-- The effective address of a memory operand with 16-bit addressing. -/
def effectiveAddress16 (registers : Registers) (modrm : Byte) (disp : List Byte) : BitVec 16 :=
  baseIndex16 registers modrm + dispValue16 disp

/-- Whether the operand is in the stack segment: its base is BP. -/
def stackBased16 (modrm : Byte) : Bool :=
  rmField modrm = 2 ∨ rmField modrm = 3 ∨ (rmField modrm = 6 ∧ modField modrm ≠ 0)

/-! ## Places -/

/-- Where a ModRM operand is. -/
inductive Place
  | register (r : Fin 8)
  | memory (modrm sib : Byte) (disp : List Byte)
deriving DecidableEq

/-- Read a place. -/
def Place.read (registers : Registers) (memory : DataMemory) : Place → Word
  | .register r => registers r
  | .memory modrm sib disp => memory.getWord (effectiveAddress registers modrm sib disp)

/-- A ModRM operand as it is read: its place, the `reg` field, the number of its bytes and what
follows it. -/
structure ModrmOperand where
  place : Place
  reg : ℕ
  length : ℕ
  rest : List Byte

/-- The ModRM operand at the head of bytes. -/
def readPlace (bytes : List Byte) : Option ModrmOperand :=
  match bytes with
  | [] => none
  | modrm :: rest =>
    if modField modrm = 3 then
      some ⟨.register (fieldRegister (rmField modrm)), regField modrm, 1, rest⟩
    else
      (readModrm 32 false modrm rest).map fun p =>
        ⟨.memory modrm (p.1.getD 0) p.2.1, regField modrm, 1 + p.1.toList.length + p.2.1.length, p.2.2⟩

theorem readPlace_register {modrm : Byte} (h : modField modrm = 3) (rest : List Byte) :
    readPlace (modrm :: rest) =
      some ⟨.register (fieldRegister (rmField modrm)), regField modrm, 1, rest⟩ := by
  simp only [readPlace, if_pos h]

/-- A memory operand without a SIB byte. -/
theorem readPlace_memory {modrm : Byte} {disp rest : List Byte} (hmod : modField modrm ≠ 3)
    (hrm : rmField modrm ≠ 4) (hdisp : disp.length = dispSize 32 modrm 0) :
    readPlace (modrm :: (disp ++ rest)) =
      some ⟨.memory modrm 0 disp, regField modrm, 1 + disp.length, rest⟩ := by
  have hsib : hasSib 32 modrm = false := by simp [hasSib, hrm]
  simp only [readPlace, if_neg hmod, readModrm, hsib, Bool.false_eq_true, if_false, ← hdisp, readBytes,
    List.length_append, Nat.le_add_right, if_true, List.take_left, List.drop_left, Option.bind_eq_bind,
    Option.bind_some, Option.pure_def, Option.map_some, Option.getD_none, Option.toList_none,
    List.length_nil, Nat.add_zero]

/-- A memory operand with a SIB byte. -/
theorem readPlace_sib {modrm sib : Byte} {disp rest : List Byte} (hmod : modField modrm ≠ 3)
    (hrm : rmField modrm = 4) (hdisp : disp.length = dispSize 32 modrm sib) :
    readPlace (modrm :: sib :: (disp ++ rest)) =
      some ⟨.memory modrm sib disp, regField modrm, 2 + disp.length, rest⟩ := by
  have hsib : hasSib 32 modrm = true := by simp [hasSib, hrm, hmod]
  simp only [readPlace, if_neg hmod, readModrm, hsib, Bool.false_eq_true, if_false, ← hdisp, readBytes,
    List.length_append, Nat.le_add_right, if_true, List.take_left, List.drop_left, Option.bind_eq_bind,
    Option.bind_some, Option.pure_def, Option.map_some, Option.getD_some, Option.toList_some,
    List.length_singleton]

end Repiu.X86
