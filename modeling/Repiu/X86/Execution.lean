import Repiu.ByteMemory

/-!
# Execution of small 32-bit code

The instructions of the guest loops that the port emulation recognises: decoding from a
code window and execution on registers, status flags and a flat data memory. Ports are
read through a function, so a read has no effect but its value.
-/

namespace Repiu.X86

/-! ## Data memory -/

/-- A flat 32-bit data memory. -/
abbrev DataMemory := Word → Byte

namespace DataMemory

/-- Load a word. -/
def getWord (m : DataMemory) (a : Word) : Word := word32 (m a) (m (a + 1)) (m (a + 2)) (m (a + 3))

/-- Store a word. -/
def setWord (m : DataMemory) (a w : Word) : DataMemory :=
  fun x => if (x - a).toNat < 4 then (le32 w).getD (x - a).toNat 0 else m x

theorem setWord_add (m : DataMemory) (a w : Word) {k : ℕ} (hk : k < 4) :
    m.setWord a w (a + BitVec.ofNat 32 k) = (le32 w).getD k 0 := by
  have hoffset : (a + BitVec.ofNat 32 k - a).toNat = k := by
    rw [add_sub_cancel_left, BitVec.toNat_ofNat]
    omega
  unfold setWord
  rw [hoffset, if_pos hk]

theorem setWord_of_far (m : DataMemory) {a w x : Word} (h : 4 ≤ (x - a).toNat) : m.setWord a w x = m x := by
  unfold setWord
  rw [if_neg (by omega)]

@[simp] theorem getWord_setWord (m : DataMemory) (a w : Word) : (m.setWord a w).getWord a = w := by
  have h0 : m.setWord a w a = (le32 w).getD 0 0 := by
    simpa using m.setWord_add a w (show 0 < 4 by decide)
  have h1 : m.setWord a w (a + 1) = (le32 w).getD 1 0 := m.setWord_add a w (by decide)
  have h2 : m.setWord a w (a + 2) = (le32 w).getD 2 0 := m.setWord_add a w (by decide)
  have h3 : m.setWord a w (a + 3) = (le32 w).getD 3 0 := m.setWord_add a w (by decide)
  unfold getWord
  rw [h0, h1, h2, h3]
  exact word32_le32 w

/-- The word after a stored one is untouched. -/
theorem getWord_setWord_add_four (m : DataMemory) (a w : Word) :
    (m.setWord a w).getWord (a + 4) = m.getWord (a + 4) := by
  unfold getWord
  rw [m.setWord_of_far (by bv_omega), m.setWord_of_far (by bv_omega), m.setWord_of_far (by bv_omega),
    m.setWord_of_far (by bv_omega)]

@[simp] theorem setWord_setWord (m : DataMemory) (a w w' : Word) :
    (m.setWord a w).setWord a w' = m.setWord a w' := by
  funext x
  unfold setWord
  split_ifs <;> rfl

/-- Storing what is there changes nothing. -/
theorem setWord_getWord (m : DataMemory) (a : Word) : m.setWord a (m.getWord a) = m := by
  funext x
  unfold setWord
  split_ifs with hx
  · have hbytes : le32 (m.getWord a) = [m a, m (a + 1), m (a + 2), m (a + 3)] := le32_word32 _ _ _ _
    obtain ⟨k, hk⟩ : ∃ k, (x - a).toNat = k := ⟨_, rfl⟩
    have hxk : x = a + BitVec.ofNat 32 k := by
      rw [← hk, BitVec.ofNat_toNat, BitVec.setWidth_eq, add_sub_cancel]
    rw [hk] at hx ⊢
    rw [hbytes, hxk]
    interval_cases k
    · simp
    · rfl
    · rfl
    · rfl
  · rfl

end DataMemory

/-! ## Status flags -/

/-- The status flags. -/
structure Flags where
  cf : Bool
  pf : Bool
  af : Bool
  zf : Bool
  sf : Bool
  of : Bool
deriving DecidableEq

/-- Even parity of the low byte. -/
def parity (w : Word) : Bool := ((List.range 8).countP fun k => w.getLsbD k) % 2 = 0

/-- The flags of `a - b`. -/
def subFlags (a b : Word) : Flags where
  cf := a < b
  pf := parity (a - b)
  af := a % 16 < b % 16
  zf := a - b = 0
  sf := (a - b).msb
  of := a.msb != b.msb && (a - b).msb != a.msb

/-- The flags of a logical operation; AF, which is undefined, is cleared. -/
def logicFlags (r : Word) : Flags where
  cf := false
  pf := parity r
  af := false
  zf := r = 0
  sf := r.msb
  of := false

/-- The flags of an increment, which leaves the carry alone. -/
def incFlags (f : Flags) (a : Word) : Flags where
  cf := f.cf
  pf := parity (a + 1)
  af := a % 16 = 15
  zf := a + 1 = 0
  sf := (a + 1).msb
  of := a + 1 = 0x80000000

/-- The flags of a decrement. -/
def decFlags (f : Flags) (a : Word) : Flags := { subFlags a 1 with cf := f.cf }

/-- The conditions of the signed branches. -/
inductive Condition
  | l | ge | le | g
deriving DecidableEq

/-- Whether the flags meet a condition. -/
def Condition.holds (f : Flags) : Condition → Bool
  | .l => f.sf != f.of
  | .ge => f.sf == f.of
  | .le => f.zf || f.sf != f.of
  | .g => !f.zf && f.sf == f.of

theorem lt_subFlags (a b : Word) : ((subFlags a b).sf != (subFlags a b).of) = decide (a.toInt < b.toInt) := by
  have ha := a.isLt
  have hb := b.isLt
  have hsub : (a - b).toNat = if b.toNat ≤ a.toNat then a.toNat - b.toNat else 2 ^ 32 + a.toNat - b.toNat := by
    rw [BitVec.toNat_sub]
    split_ifs <;> omega
  simp only [subFlags, BitVec.msb_eq_decide, BitVec.toInt_eq_toNat_cond, hsub]
  by_cases hsa : 2 ^ (32 - 1) ≤ a.toNat <;> by_cases hsb : 2 ^ (32 - 1) ≤ b.toNat <;>
    by_cases hle : b.toNat ≤ a.toNat <;>
    simp only [hsa, hsb, hle, if_true, if_false, decide_true, decide_false, bne_self_eq_false,
      Bool.false_and, Bool.true_and, Bool.bne_false, Bool.bne_true] <;>
    grind
theorem zf_subFlags (a b : Word) : (subFlags a b).zf = decide (a.toInt = b.toInt) := by
  have hiff : a - b = 0 ↔ a.toInt = b.toInt := by rw [sub_eq_zero, BitVec.toInt_inj]
  exact decide_eq_decide.mpr hiff

/-- What a condition says of the operands of a comparison. -/
def Condition.compares (a b : ℤ) : Condition → Bool
  | .l => a < b
  | .ge => b ≤ a
  | .le => a ≤ b
  | .g => b < a

theorem holds_subFlags (a b : Word) (c : Condition) :
    c.holds (subFlags a b) = c.compares a.toInt b.toInt := by
  have hlt := lt_subFlags a b
  have hge : ((subFlags a b).sf == (subFlags a b).of) = decide (b.toInt ≤ a.toInt) := by
    have hnot : ((subFlags a b).sf == (subFlags a b).of) = !((subFlags a b).sf != (subFlags a b).of) := by
      simp [bne]
    rw [hnot, hlt, ← decide_not, decide_eq_decide, not_lt]
  cases c with
  | l => exact hlt
  | ge => exact hge
  | le =>
    rw [Condition.holds, zf_subFlags, hlt, Condition.compares, ← Bool.decide_or, decide_eq_decide]
    omega
  | g =>
    rw [Condition.holds, zf_subFlags, hge, Condition.compares, ← decide_not, ← Bool.decide_and,
      decide_eq_decide]
    omega

/-! ## Instructions -/

/-- Widths of a port access. -/
inductive PortWidth
  | byte | word | dword
deriving DecidableEq

/-- The instructions of the loops. Displacements count from the next instruction. -/
inductive Insn
  | inc (r : Fin 8)
  | dec (r : Fin 8)
  | sub (target source : Fin 8)
  | xor (target source : Fin 8)
  | mov (target source : Fin 8)
  | movImm (r : Fin 8) (value : Word)
  | cmpImm (r : Fin 8) (value : Word)
  | push (r : Fin 8)
  | pop (r : Fin 8)
  | call (displacement : Word)
  | ret
  | jmp (displacement : Word)
  | jcc (condition : Condition) (displacement : Word)
  | input (width : PortWidth)
deriving DecidableEq

/-- A three-bit register number. -/
def registerOf (b : Byte) : Fin 8 := Fin.ofNat 8 b.toNat

/-- The condition of `7C` to `7F`, in the low opcode bits. -/
def conditionOf (b : Byte) : Option Condition :=
  if b &&& 0x0F = 0x0C then some .l
  else if b &&& 0x0F = 0x0D then some .ge
  else if b &&& 0x0F = 0x0E then some .le
  else if b &&& 0x0F = 0x0F then some .g
  else none

/-- A register form of an instruction with two operands: `rm` is the target. -/
def registerForm (insn : Fin 8 → Fin 8 → Insn) (modrm : Byte) : Option (Insn × Word) :=
  if modrm &&& 0xC0 = 0xC0 then some (insn (registerOf modrm) (registerOf (modrm >>> 3)), 2) else none

/-- The instruction at an address, with its length. -/
def decodeInsn (code : DataMemory) (a : Word) : Option (Insn × Word) :=
  let b := code a
  if b &&& 0xF8 = 0x40 then some (.inc (registerOf b), 1)
  else if b &&& 0xF8 = 0x48 then some (.dec (registerOf b), 1)
  else if b &&& 0xF8 = 0x50 then some (.push (registerOf b), 1)
  else if b &&& 0xF8 = 0x58 then some (.pop (registerOf b), 1)
  else if b &&& 0xF8 = 0xB8 then some (.movImm (registerOf b) (code.getWord (a + 1)), 5)
  else if b = 0x29 then registerForm .sub (code (a + 1))
  else if b = 0x31 then registerForm .xor (code (a + 1))
  else if b = 0x89 then registerForm .mov (code (a + 1))
  else if b = 0x83 ∧ code (a + 1) &&& 0xF8 = 0xF8 then
    some (.cmpImm (registerOf (code (a + 1))) ((code (a + 2)).signExtend 32), 3)
  else if b = 0x81 ∧ code (a + 1) &&& 0xF8 = 0xF8 then
    some (.cmpImm (registerOf (code (a + 1))) (code.getWord (a + 2)), 6)
  else if b &&& 0xFC = 0x7C then
    (conditionOf b).map fun c => (.jcc c ((code (a + 1)).signExtend 32), 2)
  else if b = 0x0F ∧ code (a + 1) &&& 0xFC = 0x8C then
    (conditionOf (code (a + 1))).map fun c => (.jcc c (code.getWord (a + 2)), 6)
  else if b = 0xEB then some (.jmp ((code (a + 1)).signExtend 32), 2)
  else if b = 0xE8 then some (.call (code.getWord (a + 1)), 5)
  else if b = 0xC3 then some (.ret, 1)
  else if b = 0xEC then some (.input .byte, 1)
  else if b = 0xED then some (.input .dword, 1)
  else if b = 0x66 ∧ code (a + 1) = 0xED then some (.input .word, 2)
  else if b = 0x66 ∧ code (a + 1) = 0xEC then some (.input .byte, 2)
  else none

/-- A port read is one or two bytes long. -/
def ShortInput (decoded : Option (Insn × Word)) : Prop :=
  ∀ width length, decoded = some (.input width, length) → ∃ n : ℕ, n ≤ 2 ∧ length = BitVec.ofNat 32 n

theorem ShortInput.ite {p : Prop} [Decidable p] {x y : Option (Insn × Word)} (hx : ShortInput x)
    (hy : ShortInput y) : ShortInput (if p then x else y) := by
  by_cases hp : p
  · rwa [if_pos hp]
  · rwa [if_neg hp]

theorem shortInput_other {i : Insn} {l : Word} (h : ∀ width, i ≠ .input width) :
    ShortInput (some (i, l)) := by
  intro width length heq
  rw [Option.some.injEq, Prod.mk.injEq] at heq
  exact absurd heq.1 (h width)

theorem shortInput_input {width : PortWidth} {n : ℕ} (h : n ≤ 2) :
    ShortInput (some (.input width, BitVec.ofNat 32 n)) := by
  intro width' length heq
  rw [Option.some.injEq, Prod.mk.injEq] at heq
  exact ⟨n, h, heq.2.symm⟩

theorem shortInput_map {α : Type} {o : Option α} {f : α → Insn × Word} (h : ∀ x, ShortInput (some (f x))) :
    ShortInput (o.map f) := by
  cases o with
  | none => intro width length heq; cases heq
  | some x => exact h x

theorem decodeInsn_input_length (code : DataMemory) (a : Word) : ShortInput (decodeInsn code a) := by
  unfold decodeInsn registerForm
  repeat' apply ShortInput.ite
  all_goals
    first
    | exact @shortInput_input _ 1 (by decide)
    | exact @shortInput_input _ 2 (by decide)
    | exact shortInput_map fun _ => shortInput_other (by simp)
    | exact shortInput_other (by simp)
    | (intro width length heq; cases heq)

/-! ## Execution -/

/-- The machine. -/
structure Machine where
  eip : Word
  registers : Fin 8 → Word
  flags : Flags
  memory : DataMemory

/-- What a port holds; a read does not change it. -/
abbrev Ports := PortWidth → BitVec 16 → Word

/-- EAX after a port read of the given width. -/
def inputInto (eax value : Word) : PortWidth → Word
  | .byte => eax &&& 0xFFFFFF00 ||| value &&& 0xFF
  | .word => eax &&& 0xFFFF0000 ||| value &&& 0xFFFF
  | .dword => value

namespace Machine

/-- Write a register and go on. -/
def write (s : Machine) (next : Word) (r : Fin 8) (value : Word) (flags : Flags) : Machine :=
  { s with eip := next, registers := Function.update s.registers r value, flags := flags }

/-- Execute an instruction; `next` is the address behind it. -/
def execute (ports : Ports) (s : Machine) (next : Word) : Insn → Machine
  | .inc r => s.write next r (s.registers r + 1) (incFlags s.flags (s.registers r))
  | .dec r => s.write next r (s.registers r - 1) (decFlags s.flags (s.registers r))
  | .sub target source =>
    s.write next target (s.registers target - s.registers source)
      (subFlags (s.registers target) (s.registers source))
  | .xor target source =>
    s.write next target (s.registers target ^^^ s.registers source)
      (logicFlags (s.registers target ^^^ s.registers source))
  | .mov target source => s.write next target (s.registers source) s.flags
  | .movImm r value => s.write next r value s.flags
  | .cmpImm r value => { s with eip := next, flags := subFlags (s.registers r) value }
  | .push r =>
    let esp := s.registers 4 - 4
    { s.write next 4 esp s.flags with memory := s.memory.setWord esp (s.registers r) }
  | .pop r =>
    let s' := s.write next 4 (s.registers 4 + 4) s.flags
    s'.write next r (s.memory.getWord (s.registers 4)) s.flags
  | .call displacement =>
    let esp := s.registers 4 - 4
    { s.write (next + displacement) 4 esp s.flags with memory := s.memory.setWord esp next }
  | .ret => s.write (s.memory.getWord (s.registers 4)) 4 (s.registers 4 + 4) s.flags
  | .jmp displacement => { s with eip := next + displacement }
  | .jcc condition displacement =>
    { s with eip := if condition.holds s.flags then next + displacement else next }
  | .input width =>
    s.write next 0
      (inputInto (s.registers 0) (ports width ((s.registers 2).setWidth 16)) width) s.flags

/-- One step; `none` on code that is not of this subset. -/
def step (code : DataMemory) (ports : Ports) (s : Machine) : Option Machine :=
  (decodeInsn code s.eip).map fun p => s.execute ports (s.eip + p.2) p.1

theorem step_of_decode {code : DataMemory} {ports : Ports} {s : Machine} {i : Insn} {length : Word}
    (h : decodeInsn code s.eip = some (i, length)) :
    s.step code ports = some (s.execute ports (s.eip + length) i) := by
  rw [step, h, Option.map_some]

end Machine

end Repiu.X86
