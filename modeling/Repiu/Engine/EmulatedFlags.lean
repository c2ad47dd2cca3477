import Repiu.X86.StatusFlags

/-!
# Status flags of emulated arithmetic

The functions with which the instruction emulation writes the status flags behind the arithmetic it
does for the guest, each with the operation whose flags it leaves.
-/

namespace Repiu.Engine

open X86

/-! ## The guest's processor -/

/-- The registers of the guest at a fault. -/
structure GuestCpuContext where
  registers : Registers
  eip : Word
  eflags : Word

namespace GuestCpuContext

/-- EAX. -/
def eax (c : GuestCpuContext) : Word := c.registers 0

/-- ECX. -/
def ecx (c : GuestCpuContext) : Word := c.registers 1

/-- ESP. -/
def esp (c : GuestCpuContext) : Word := c.registers 4

/-- ESI. -/
def esi (c : GuestCpuContext) : Word := c.registers 6

/-- EDI. -/
def edi (c : GuestCpuContext) : Word := c.registers 7

/-- `ReadGeneralRegister8`, `ReadRegister8`. -/
def readRegister8 (c : GuestCpuContext) (index : ℕ) : Byte :=
  if index < 4 then (c.registers (fieldRegister index)).setWidth 8
  else (c.registers (fieldRegister (index - 4)) >>> 8).setWidth 8

/-- `WriteGeneralRegister32`. -/
def writeRegister32 (c : GuestCpuContext) (index : Fin 8) (value : Word) : GuestCpuContext :=
  { c with registers := Function.update c.registers index value }

/-- `WriteRegister16`. -/
def writeRegister16 (c : GuestCpuContext) (index : ℕ) (value : BitVec 16) : GuestCpuContext :=
  c.writeRegister32 (fieldRegister index)
    (c.registers (fieldRegister index) &&& 0xFFFF0000 ||| value.setWidth 32)

/-- `WriteRegister8`. -/
def writeRegister8 (c : GuestCpuContext) (index : ℕ) (value : Byte) : GuestCpuContext :=
  let base := fieldRegister (index % 4)
  let shift := if index < 4 then 0 else 8
  c.writeRegister32 base
    (c.registers base &&& ~~~((0xFF : Word) <<< shift) ||| value.setWidth 32 <<< shift)

/-- Go on behind an instruction. -/
def skip (c : GuestCpuContext) (length : ℕ) : GuestCpuContext := { c with eip := c.eip + BitVec.ofNat 32 length }

@[simp] theorem skip_eflags (c : GuestCpuContext) (length : ℕ) : (c.skip length).eflags = c.eflags := rfl

@[simp] theorem writeRegister32_eflags (c : GuestCpuContext) (index : Fin 8) (value : Word) :
    (c.writeRegister32 index value).eflags = c.eflags := rfl

end GuestCpuContext

/-! ## Parity -/

/-- The parity of a byte, folded onto its lowest bit as `SetCompareFlags` does. -/
def foldedParity (value : Byte) : Bool :=
  let parity := value
  let parity := parity ^^^ parity >>> 4
  let parity := parity ^^^ parity >>> 2
  let parity := parity ^^^ parity >>> 1
  parity &&& 1 = 0

theorem foldedParity_eq : ∀ value : Byte, foldedParity value = parity (value.setWidth 32) := by
  decide +kernel

theorem clear_lowest_lt : ∀ value : Byte, value ≠ 0 → (value &&& (value - 1)).toNat < value.toNat := by
  decide +kernel

/-- The loop of `HasEvenParity`. -/
def evenParityLoop (value : Byte) (evenParity : Bool) : Bool :=
  if h : value = 0 then evenParity else evenParityLoop (value &&& (value - 1)) (!evenParity)
termination_by value.toNat
decreasing_by exact clear_lowest_lt value h

/-- `HasEvenParity`. -/
def hasEvenParity (value : Byte) : Bool := evenParityLoop value true

/-- Clearing the lowest bit that is set changes the parity. -/
theorem parity_clear_lowest : ∀ value : Byte, value ≠ 0 →
    parity ((value &&& (value - 1)).setWidth 32) = !parity (value.setWidth 32) := by
  decide +kernel

theorem evenParityLoop_eq (value : Byte) (evenParity : Bool) :
    evenParityLoop value evenParity = (evenParity == parity (value.setWidth 32)) := by
  fun_induction evenParityLoop value evenParity with
  | case1 evenParity =>
    show evenParity = (evenParity == true)
    simp
  | case2 value evenParity h ih =>
    rw [ih, parity_clear_lowest value h]
    simp

theorem hasEvenParity_eq (value : Byte) : hasEvenParity value = parity (value.setWidth 32) := by
  rw [hasEvenParity, evenParityLoop_eq]
  simp

/-! ## Flags of a comparison -/

/-- `SetCompareFlags`. -/
def setCompareFlags (c : GuestCpuContext) (lhs rhs : Word) (widthBytes : ℕ) : GuestCpuContext :=
  if widthBytes ≠ 1 ∧ widthBytes ≠ 2 ∧ widthBytes ≠ 4 then c
  else
    let mask : Word := if widthBytes = 4 then 0xFFFFFFFF else ((1 : Word) <<< (widthBytes * 8)) - 1
    let sign : Word := (1 : Word) <<< (widthBytes * 8 - 1)
    let lhs := lhs &&& mask
    let rhs := rhs &&& mask
    let result := (lhs - rhs) &&& mask
    let flags := c.eflags &&& ~~~0x8D5
    let flags := if lhs < rhs then flags ||| 0x1 else flags
    let flags := if foldedParity (result.setWidth 8) = true then flags ||| 0x4 else flags
    let flags := if (lhs ^^^ rhs ^^^ result) &&& 0x10 ≠ 0 then flags ||| 0x10 else flags
    let flags := if result = 0 then flags ||| 0x40 else flags
    let flags := if result &&& sign ≠ 0 then flags ||| 0x80 else flags
    let flags := if (lhs ^^^ rhs) &&& (lhs ^^^ result) &&& sign ≠ 0 then flags ||| 0x800 else flags
    { c with eflags := flags }

@[simp] theorem setCompareFlags_registers (c : GuestCpuContext) (lhs rhs : Word) (widthBytes : ℕ) :
    (setCompareFlags c lhs rhs widthBytes).registers = c.registers := by
  unfold setCompareFlags
  split_ifs <;> rfl

/-- `SetCompareFlags8`. -/
def setCompareFlags8 (c : GuestCpuContext) (lhs rhs : Byte) : GuestCpuContext :=
  setCompareFlags c (lhs.setWidth 32) (rhs.setWidth 32) 1

/-- Flags that are set one after the other where their conditions hold. -/
theorem set_in_order (eflags : Word) {cf pf af zf sf of : Prop} [Decidable cf] [Decidable pf] [Decidable af]
    [Decidable zf] [Decidable sf] [Decidable of] {f : Flags} (hcf : f.cf = decide cf) (hpf : f.pf = decide pf)
    (haf : f.af = decide af) (hzf : f.zf = decide zf) (hsf : f.sf = decide sf) (hof : f.of = decide of) :
    (let flags := eflags &&& ~~~0x8D5
     let flags := if cf then flags ||| 0x1 else flags
     let flags := if pf then flags ||| 0x4 else flags
     let flags := if af then flags ||| 0x10 else flags
     let flags := if zf then flags ||| 0x40 else flags
     let flags := if sf then flags ||| 0x80 else flags
     if of then flags ||| 0x800 else flags) = withStatus eflags f := by
  simp only [ite_or_bit]
  simp only [withStatus, Flags.toWord, hcf, hpf, haf, hzf, hsf, hof, decide_eq_true_eq, BitVec.or_assoc]
  rfl

/-- The bits of a comparison of narrow operands in words. -/
theorem compare_in_words {w : ℕ} (h8 : 8 ≤ w) (hw : w ≤ 32) (eflags : Word) (a b : BitVec w) :
    (let lhs := a.setWidth 32
     let rhs := b.setWidth 32
     let result := (a - b).setWidth 32
     let sign := BitVec.twoPow 32 (w - 1)
     let flags := eflags &&& ~~~0x8D5
     let flags := if lhs < rhs then flags ||| 0x1 else flags
     let flags := if foldedParity (result.setWidth 8) = true then flags ||| 0x4 else flags
     let flags := if (lhs ^^^ rhs ^^^ result) &&& 0x10 ≠ 0 then flags ||| 0x10 else flags
     let flags := if result = 0 then flags ||| 0x40 else flags
     let flags := if result &&& sign ≠ 0 then flags ||| 0x80 else flags
     if (lhs ^^^ rhs) &&& (lhs ^^^ result) &&& sign ≠ 0 then flags ||| 0x800 else flags) =
      withStatus eflags (subtractFlags a b) := by
  apply set_in_order
  · show decide (a < b) = _
    rw [decide_eq_decide, wide_lt hw]
  · show parity ((a - b).setWidth 32) = _
    rw [foldedParity_eq, Bool.decide_eq_true]
    apply parity_congr
    rw [BitVec.setWidth_setWidth_of_le _ (show 8 ≤ 32 by decide), setWidth_wide (by decide)]
  · show decide (a.toNat % 16 < b.toNat % 16) = _
    have hbit := and_bit_ne_zero (a.setWidth 32 ^^^ b.setWidth 32 ^^^ (a - b).setWidth 32)
      (show 4 < 32 by decide) (show (0x10 : Word) = BitVec.twoPow 32 4 by decide)
    rw [← BitVec.setWidth_xor, ← BitVec.setWidth_xor, BitVec.getLsbD_setWidth, borrow_bit (by omega)] at hbit
    rw [← BitVec.setWidth_xor, ← BitVec.setWidth_xor, decide_eq_decide, hbit]
    simp
  · show decide (a - b = 0) = _
    rw [decide_eq_decide, wide_eq_zero hw]
  · show (a - b).msb = _
    rw [Bool.eq_iff_iff, decide_eq_true_iff]
    exact (wide_sign (by omega) hw (a - b)).symm
  · show a.ssubOverflow b = _
    rw [← BitVec.setWidth_xor, ← BitVec.setWidth_xor, ← BitVec.setWidth_and, Bool.eq_iff_iff,
      decide_eq_true_iff, ← overflow_bit_sub]
    exact (wide_sign (by omega) hw _).symm

/-- The mask of an operand width. -/
theorem and_width_mask {n w : ℕ} (hn : n = 1 ∨ n = 2 ∨ n = 4) (hw : w = n * 8) (x : Word) :
    (x &&& if n = 4 then 0xFFFFFFFF else ((1 : Word) <<< (n * 8)) - 1) = (x.setWidth w).setWidth 32 := by
  have hmask : ∀ k < 32,
      BitVec.getLsbD (if n = 4 then (0xFFFFFFFF : Word) else ((1 : Word) <<< (n * 8)) - 1) k = decide (k < w) := by
    obtain rfl | rfl | rfl := hn <;> subst hw <;> decide
  apply BitVec.eq_of_getLsbD_eq
  intro k hk
  rw [BitVec.getLsbD_and, hmask k hk, BitVec.getLsbD_setWidth, BitVec.getLsbD_setWidth]
  simp [hk, Bool.and_comm]

/-- `SetCompareFlags` leaves the flags of a subtraction at its width. -/
theorem setCompareFlags_eq (c : GuestCpuContext) (lhs rhs : Word) {n w : ℕ} (hn : n = 1 ∨ n = 2 ∨ n = 4)
    (hw : w = n * 8) : setCompareFlags c lhs rhs n =
      { c with eflags := withStatus c.eflags (subtractFlags (lhs.setWidth w) (rhs.setWidth w)) } := by
  have h8 : 8 ≤ w ∧ w ≤ 32 := by omega
  have hwidth : ¬(n ≠ 1 ∧ n ≠ 2 ∧ n ≠ 4) := by omega
  have hsign : (1 : Word) <<< (n * 8 - 1) = BitVec.twoPow 32 (w - 1) := by rw [hw]; rfl
  have hresult : ((lhs.setWidth w).setWidth 32 - (rhs.setWidth w).setWidth 32).setWidth w =
      lhs.setWidth w - rhs.setWidth w := by
    rw [setWidth_sub_of_le h8.2, setWidth_wide h8.2, setWidth_wide h8.2]
  have hflags := compare_in_words h8.1 h8.2 c.eflags (lhs.setWidth w) (rhs.setWidth w)
  unfold setCompareFlags
  simp only [if_neg hwidth, and_width_mask hn hw, hsign, hresult]
  rw [← hflags]

theorem setCompareFlags8_eq (c : GuestCpuContext) (lhs rhs : Byte) :
    setCompareFlags8 c lhs rhs = { c with eflags := withStatus c.eflags (subtractFlags lhs rhs) } := by
  rw [setCompareFlags8, setCompareFlags_eq c _ _ (Or.inl rfl) rfl, setWidth_wide (by decide),
    setWidth_wide (by decide)]

/-- `UpdateSubtract8Flags`. -/
def updateSubtract8Flags (c : GuestCpuContext) (left right result : Byte) : GuestCpuContext :=
  let flags := c.eflags &&& ~~~0x8D5
  let flags := if left < right then flags ||| 0x1 else flags
  let flags := if hasEvenParity result = true then flags ||| 0x4 else flags
  let flags := if (left ^^^ right ^^^ result) &&& 0x10 ≠ 0 then flags ||| 0x10 else flags
  let flags := if result = 0 then flags ||| 0x40 else flags
  let flags := if result &&& 0x80 ≠ 0 then flags ||| 0x80 else flags
  let flags := if (left ^^^ right) &&& (left ^^^ result) &&& 0x80 ≠ 0 then flags ||| 0x800 else flags
  { c with eflags := flags }

/-- A test of the sign bit of a byte. -/
theorem byte_sign (x : Byte) : x &&& 0x80 ≠ 0 ↔ x.msb = true := by
  rw [and_bit_ne_zero x (show 7 < 8 by decide) (by decide), BitVec.msb_eq_getLsbD_last]

/-- `UpdateSubtract8Flags` leaves the flags of a subtraction of bytes. -/
theorem updateSubtract8Flags_eq (c : GuestCpuContext) (left right : Byte) :
    updateSubtract8Flags c left right (left - right) =
      { c with eflags := withStatus c.eflags (subtractFlags left right) } := by
  have hflags : (updateSubtract8Flags c left right (left - right)).eflags =
      withStatus c.eflags (subtractFlags left right) := by
    apply set_in_order
    · rfl
    · rw [hasEvenParity_eq, Bool.decide_eq_true]
      rfl
    · rw [Bool.eq_iff_iff, decide_eq_true_iff, and_bit_ne_zero _ (show 4 < 8 by decide) (by decide),
        borrow_bit (by decide)]
      rfl
    · rfl
    · rw [Bool.eq_iff_iff, decide_eq_true_iff, byte_sign]
      rfl
    · rw [Bool.eq_iff_iff, decide_eq_true_iff, byte_sign, overflow_bit_sub]
      rfl
  rw [← hflags]
  rfl

/-! ## Flags of a sum and of a logical operation -/

/-- `UpdateAdd32Flags`. -/
def updateAdd32Flags (c : GuestCpuContext) (left right result : Word) : GuestCpuContext :=
  let flags := c.eflags &&& ~~~0x8D5
  let flags := if left.toNat + right.toNat > 0xFFFFFFFF then flags ||| 0x1 else flags
  let flags := if hasEvenParity (result.setWidth 8) = true then flags ||| 0x4 else flags
  let flags := if (left ^^^ right ^^^ result) &&& 0x10 ≠ 0 then flags ||| 0x10 else flags
  let flags := if result = 0 then flags ||| 0x40 else flags
  let flags := if result &&& 0x80000000 ≠ 0 then flags ||| 0x80 else flags
  let flags := if ~~~(left ^^^ right) &&& (left ^^^ result) &&& 0x80000000 ≠ 0 then flags ||| 0x800 else flags
  { c with eflags := flags }

/-- A test of the sign bit of a word. -/
theorem word_sign (x : Word) : x &&& 0x80000000 ≠ 0 ↔ x.msb = true := by
  rw [and_bit_ne_zero x (show 31 < 32 by decide) (by decide), BitVec.msb_eq_getLsbD_last]

/-- The parity of the low byte of a word. -/
theorem hasEvenParity_low (x : Word) : hasEvenParity (x.setWidth 8) = parity x := by
  rw [hasEvenParity_eq]
  apply parity_congr
  rw [setWidth_wide (by decide)]

/-- `UpdateAdd32Flags` leaves the flags of an addition of words. -/
theorem updateAdd32Flags_eq (c : GuestCpuContext) (left right : Word) :
    updateAdd32Flags c left right (left + right) =
      { c with eflags := withStatus c.eflags (addFlags left right) } := by
  have hflags : (updateAdd32Flags c left right (left + right)).eflags =
      withStatus c.eflags (addFlags left right) := by
    apply set_in_order
    · show decide (2 ^ 32 ≤ left.toNat + right.toNat) = _
      rw [decide_eq_decide]
      omega
    · rw [hasEvenParity_low, Bool.decide_eq_true]
      show parity ((left + right).setWidth 32) = _
      rw [BitVec.setWidth_eq]
    · rw [Bool.eq_iff_iff, decide_eq_true_iff, and_bit_ne_zero _ (show 4 < 32 by decide) (by decide),
        carry_bit (by decide)]
      rfl
    · rfl
    · rw [Bool.eq_iff_iff, decide_eq_true_iff, word_sign]
      rfl
    · rw [Bool.eq_iff_iff, decide_eq_true_iff, word_sign, overflow_bit_add (by decide)]
      rfl
  rw [← hflags]
  rfl

/-- `UpdateLogical32Flags`. -/
def updateLogical32Flags (c : GuestCpuContext) (result : Word) : GuestCpuContext :=
  let flags := c.eflags &&& ~~~0x8C5
  let flags := if hasEvenParity (result.setWidth 8) = true then flags ||| 0x4 else flags
  let flags := if result = 0 then flags ||| 0x40 else flags
  let flags := if result &&& 0x80000000 ≠ 0 then flags ||| 0x80 else flags
  { c with eflags := flags }

/-- `UpdateLogical32Flags` leaves the flags of a logical operation, and AF as it was. -/
theorem updateLogical32Flags_eq (c : GuestCpuContext) (result : Word) :
    updateLogical32Flags c result =
      { c with eflags := withStatus c.eflags { logicFlags result with af := (Flags.ofWord c.eflags).af } } := by
  have hclear : c.eflags &&& ~~~0x8C5 = withStatus c.eflags { Flags.clear with af := (Flags.ofWord c.eflags).af } := by
    have hword : ∀ f : Flags, f.toWord &&& ~~~0x8C5 = ({ Flags.clear with af := f.af } : Flags).toWord := by
      rintro ⟨cf, pf, af, zf, sf, of⟩
      cases cf <;> cases pf <;> cases af <;> cases zf <;> cases sf <;> cases of <;> decide
    rw [← withStatus_and c.eflags (by decide) (hword _), withStatus_ofWord]
  have hflags : (updateLogical32Flags c result).eflags =
      withStatus c.eflags { logicFlags result with af := (Flags.ofWord c.eflags).af } := by
    unfold updateLogical32Flags
    simp only [hclear, hasEvenParity_low, word_sign, raise_pf, raise_zf, raise_sf, Flags.clear, logicFlags,
      Bool.false_or, Bool.decide_eq_true]
  rw [← hflags]
  rfl

end Repiu.Engine
