import Repiu.X86.Addressing

/-!
# Operands in their segments

The linear address of a memory operand in 32-bit code: the bytes that say where it is, the segment it is in, and the
prefixes that change them.
-/

namespace Repiu.X86

/-! ## The bytes of an operand -/

section
variable (addressWidth : ℕ) (bytes : ℕ → Byte)

/-- The SIB byte behind a ModRM byte. -/
def operandSib : Byte := if hasSib addressWidth (bytes 0) then bytes 1 else 0

/-- Where the displacement starts. -/
def dispStart : ℕ := if hasSib addressWidth (bytes 0) then 2 else 1

/-- The displacement. -/
def operandDisp : List Byte :=
  (List.range (dispSize addressWidth (bytes 0) (operandSib addressWidth bytes))).map fun k =>
    bytes (dispStart addressWidth bytes + k)

/-- The number of bytes, from the ModRM byte on. -/
def operandLength : ℕ :=
  dispStart addressWidth bytes + dispSize addressWidth (bytes 0) (operandSib addressWidth bytes)

/-- The offset in the segment. -/
def operandOffset (registers : Registers) : Word :=
  if addressWidth = 16 then (effectiveAddress16 registers (bytes 0) (operandDisp 16 bytes)).setWidth 32
  else effectiveAddress registers (bytes 0) (operandSib 32 bytes) (operandDisp 32 bytes)

/-- Whether the base of the operand is ESP or EBP. -/
def stackBased (modrm sib : Byte) : Bool :=
  if rmField modrm = 4 then rmField sib = 4 ∨ (rmField sib = 5 ∧ modField modrm ≠ 0)
  else rmField modrm = 5 ∧ modField modrm ≠ 0

/-- The segment without an override, in ES, CS, SS, DS, FS, GS order. -/
def defaultSegment : Fin 6 :=
  let onStack := if addressWidth = 16 then stackBased16 (bytes 0) else stackBased (bytes 0) (operandSib 32 bytes)
  if onStack then 2 else 3

end

/-! ## Prefixes -/

/-- The prefixes of an instruction, of at most as many bytes as given. -/
def prefixesAt (instruction : ℕ → Byte) (limit : ℕ) : List Byte :=
  ((List.range limit).map instruction).takeWhile (isPrefix .legacy32)

/-- The prefixes are the bytes before the first one that is none. -/
theorem prefixesAt_eq {instruction : ℕ → Byte} {limit n : ℕ} (hn : n < limit)
    (hbefore : ∀ k < n, isPrefix .legacy32 (instruction k) = true)
    (hopcode : isPrefix .legacy32 (instruction n) = false) :
    prefixesAt instruction limit = (List.range n).map instruction := by
  obtain ⟨rest, rfl⟩ : ∃ rest, limit = n + (rest + 1) := ⟨limit - n - 1, by omega⟩
  have hall : ∀ b ∈ (List.range n).map instruction, isPrefix .legacy32 b = true := by
    intro b hb
    obtain ⟨k, hk, rfl⟩ := List.mem_map.mp hb
    exact hbefore k (List.mem_range.mp hk)
  unfold prefixesAt
  rw [List.range_add, List.map_append, List.takeWhile_append_of_pos hall, List.range_succ_eq_map, List.map_cons,
    List.map_cons, add_zero, List.takeWhile_cons_of_neg (by rw [hopcode]; decide), List.append_nil]

/-- The width of addresses. -/
def addressWidthOf (prefixes : List Byte) : ℕ := if 0x67 ∈ prefixes then 16 else 32

section
variable (prefixes : List Byte) (bytes : ℕ → Byte)

/-- The segment of an operand. -/
def operandSegment : Fin 6 :=
  match effectiveSegment .legacy32 prefixes with
  | some segment => Fin.ofNat 6 segment
  | none => defaultSegment (addressWidthOf prefixes) bytes

/-- The linear address of an operand, over the bases of the segments. -/
def linearAddress (base : Fin 6 → Word) (registers : Registers) : Word :=
  base (operandSegment prefixes bytes) + operandOffset (addressWidthOf prefixes) bytes registers

/-- The linear address is the offset that the bytes have with 32-bit addressing. -/
def FlatOperand (base : Fin 6 → Word) (registers : Registers) : Prop :=
  if 0x67 ∈ prefixes then
    base (operandSegment prefixes bytes) + operandOffset 16 bytes registers = operandOffset 32 bytes registers
  else base (operandSegment prefixes bytes) = 0

theorem eq_linearAddress_iff (base : Fin 6 → Word) (registers : Registers) :
    operandOffset 32 bytes registers = linearAddress prefixes bytes base registers ↔
      FlatOperand prefixes bytes base registers := by
  unfold linearAddress FlatOperand addressWidthOf
  split_ifs
  · exact eq_comm
  · exact right_eq_add

end

end Repiu.X86
