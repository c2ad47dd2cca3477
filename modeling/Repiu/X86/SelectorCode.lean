import Repiu.X86.CodeRuns

/-!
# Code on selectors

The instructions of emitted guards that work on 16-bit selectors, with those that go around them,
and runs of such code.
-/

namespace Repiu.X86

/-! ## Selectors in memory -/

namespace DataMemory

/-- Load a selector. -/
def getHalf (m : DataMemory) (a : Word) : BitVec 16 := m (a + 1) ++ m a

/-- Store a selector. -/
def setHalf (m : DataMemory) (a : Word) (h : BitVec 16) : DataMemory :=
  fun x => if (x - a).toNat < 2 then (le16 h).getD (x - a).toNat 0 else m x

theorem setHalf_of_far (m : DataMemory) {a x : Word} (h : BitVec 16) (hfar : 2 ≤ (x - a).toNat) :
    m.setHalf a h x = m x := by
  unfold setHalf
  rw [if_neg (by omega)]

@[simp] theorem getHalf_setHalf (m : DataMemory) (a : Word) (h : BitVec 16) : (m.setHalf a h).getHalf a = h := by
  have h0 : m.setHalf a h a = h.extractLsb' 0 8 := by
    unfold setHalf
    rw [sub_self]
    rfl
  have h1 : m.setHalf a h (a + 1) = h.extractLsb' 8 8 := by
    unfold setHalf
    rw [add_sub_cancel_left]
    rfl
  rw [getHalf, h0, h1, append_le16]

/-- The selector in a stored word. -/
theorem getHalf_setWord (m : DataMemory) (a w : Word) : (m.setWord a w).getHalf a = w.setWidth 16 := by
  have h0 : m.setWord a w a = w.extractLsb' 0 8 := by
    unfold setWord
    rw [sub_self]
    rfl
  have h1 : m.setWord a w (a + 1) = w.extractLsb' 8 8 := m.setWord_add a w (by decide)
  rw [getHalf, h0, h1]
  ext k hk
  simp only [BitVec.getElem_append, BitVec.getElem_setWidth]
  split_ifs with hlow
  · simp
  · simp [show 8 + (k - 8) = k by omega]

theorem getHalf_setWord_apart (m : DataMemory) {a b : Word} (w : Word) (h : Apart a 4 b 2) :
    (m.setWord a w).getHalf b = m.getHalf b := by
  obtain ⟨hab, hba⟩ := h
  unfold getHalf
  rw [m.setWord_of_far hab, m.setWord_of_far (by bv_omega)]

theorem getWord_setHalf_apart (m : DataMemory) {a b : Word} (v : BitVec 16) (h : Apart a 2 b 4) :
    (m.setHalf a v).getWord b = m.getWord b := by
  obtain ⟨hab, hba⟩ := h
  unfold getWord
  rw [m.setHalf_of_far v hab, m.setHalf_of_far v (by bv_omega), m.setHalf_of_far v (by bv_omega),
    m.setHalf_of_far v (by bv_omega)]

end DataMemory

/-- A register with another low half. -/
def withLow (w : Word) (h : BitVec 16) : Word := (w.extractLsb' 16 16 ++ h : BitVec 32)

@[simp] theorem setWidth_withLow (w : Word) (h : BitVec 16) : (withLow w h).setWidth 16 = h := by
  unfold withLow
  ext k hk
  rw [BitVec.getElem_setWidth, BitVec.getLsbD_append, if_pos hk, BitVec.getLsbD_eq_getElem hk]

/-- Read the selector in a place. -/
def Place.readHalf (registers : Registers) (memory : DataMemory) : Place → BitVec 16
  | .register r => (registers r).setWidth 16
  | .memory modrm sib disp => memory.getHalf (effectiveAddress registers modrm sib disp)

/-- The flags of `a - b` on 16 bits. -/
def subFlags16 (a b : BitVec 16) : Flags where
  cf := a < b
  pf := parity ((a - b).setWidth 32)
  af := a % 16 < b % 16
  zf := a - b = 0
  sf := (a - b).msb
  of := a.msb != b.msb && (a - b).msb != a.msb

theorem zf_subFlags16 (a b : BitVec 16) : (subFlags16 a b).zf = decide (a = b) := by
  show decide (a - b = 0) = _
  rw [decide_eq_decide]
  exact sub_eq_zero

/-! ## Instructions -/

/-- The instructions of guards on selectors.  Displacements count from the next instruction. -/
inductive SelectorInsn
  | code (i : CodeInsn)
  | load (r : Fin 8) (place : Place)
  | cmp (r : Fin 8) (place : Place)
  | storeAx (address : Word)
  | je (displacement : Word)
  | lea (r : Fin 8) (modrm sib : Byte) (disp : List Byte)
  | jmp (displacement : Word)
  | nop
deriving DecidableEq

/-- The instruction behind an operand-size prefix. -/
def decodeHalf : List Byte → Option (SelectorInsn × ℕ)
  | [] => none
  | b :: rest =>
    if b = 0x8B then (readPlace rest).map fun p => (.load (fieldRegister p.reg) p.place, 2 + p.length)
    else if b = 0x3B then (readPlace rest).map fun p => (.cmp (fieldRegister p.reg) p.place, 2 + p.length)
    else if b = 0xA3 then
      match rest with
      | b0 :: b1 :: b2 :: b3 :: _ => some (.storeAx (word32 b0 b1 b2 b3), 6)
      | _ => none
    else none

/-- The instruction at the head of bytes, with its length. -/
def decodeSelectorCode : List Byte → Option (SelectorInsn × ℕ)
  | [] => none
  | b :: rest =>
    if b = 0x66 then decodeHalf rest
    else if b = 0x74 then rest.head?.map fun d => (.je (d.signExtend 32), 2)
    else if b = 0x8D then
      (readPlace rest).bind fun p =>
        match p.place with
        | .memory modrm sib disp => some (.lea (fieldRegister p.reg) modrm sib disp, 1 + p.length)
        | .register _ => none
    else if b = 0xE9 then
      match rest with
      | b0 :: b1 :: b2 :: b3 :: _ => some (.jmp (word32 b0 b1 b2 b3), 5)
      | _ => none
    else if b = 0x90 then some (.nop, 1)
    else (decodeCode (b :: rest)).map fun p => (.code p.1, p.2)

/-! ## Execution -/

namespace CodeState

/-- Execute an instruction on selectors; `next` is the address behind it. -/
def executeSelector (s : CodeState) (next : Word) : SelectorInsn → CodeState
  | .code i => s.execute next i
  | .load r place =>
    (s.write (withLow (s.registers r) (place.readHalf s.registers s.memory)) (.register r)).goto next
  | .cmp r place =>
    (s.status (subFlags16 ((s.registers r).setWidth 16) (place.readHalf s.registers s.memory))).goto next
  | .storeAx address =>
    { s with eip := next, memory := s.memory.setHalf address ((s.registers 0).setWidth 16) }
  | .je displacement => s.goto (if zeroFlag s.eflags then next + displacement else next)
  | .lea r modrm sib disp => (s.write (effectiveAddress s.registers modrm sib disp) (.register r)).goto next
  | .jmp displacement => s.goto (next + displacement)
  | .nop => s.goto next

/-- One step; `none` on code that is not of this subset, a trap among it. -/
def stepSelector (code : DataMemory) (s : CodeState) : Option CodeState :=
  (decodeSelectorCode (fetch code s.eip)).map fun p => s.executeSelector (s.eip + BitVec.ofNat 32 p.2) p.1

/-- A number of steps. -/
def runSelector (code : DataMemory) : ℕ → CodeState → Option CodeState
  | 0, s => some s
  | n + 1, s => (s.stepSelector code).bind (runSelector code n)

/-- Code leads from one state to another. -/
def LeadsTo (code : DataMemory) (s s' : CodeState) : Prop := ∃ n, runSelector code n s = some s'

variable {code : DataMemory} {s s' s'' : CodeState}

theorem LeadsTo.refl (code : DataMemory) (s : CodeState) : LeadsTo code s s := ⟨0, rfl⟩

theorem LeadsTo.head (hstep : s.stepSelector code = some s') (h : LeadsTo code s' s'') : LeadsTo code s s'' := by
  obtain ⟨n, hn⟩ := h
  refine ⟨n + 1, ?_⟩
  rw [runSelector, hstep]
  exact hn

theorem LeadsTo.trans (h : LeadsTo code s s') (h' : LeadsTo code s' s'') : LeadsTo code s s'' := by
  obtain ⟨n, hn⟩ := h
  induction n generalizing s with
  | zero =>
    rw [Option.some.inj hn]
    exact h'
  | succ n ih =>
    rw [runSelector] at hn
    obtain ⟨s₁, hstep, hrest⟩ := Option.bind_eq_some_iff.mp hn
    exact (ih hrest).head hstep

/-- A run to a state without a step is as long as any other. -/
theorem le_of_stuck {m n : ℕ} (hn : runSelector code n s = some s') (hstuck : s'.stepSelector code = none)
    (hm : runSelector code m s = some s'') : m ≤ n := by
  induction n generalizing m s with
  | zero =>
    cases m with
    | zero => exact le_refl 0
    | succ m =>
      rw [Option.some.inj hn, runSelector, hstuck] at hm
      cases hm
  | succ n ih =>
    cases m with
    | zero => exact Nat.zero_le _
    | succ m =>
      rw [runSelector] at hn hm
      obtain ⟨t, hstep, hrest⟩ := Option.bind_eq_some_iff.mp hn
      rw [hstep, Option.bind_some] at hm
      exact Nat.succ_le_succ (ih hrest hm)

/-- A trap has no step. -/
theorem stepSelector_trap (h : code s.eip = 0xCC) : s.stepSelector code = none := by
  obtain ⟨tail, htail⟩ : ∃ tail, fetch code s.eip = 0xCC :: tail := by
    refine ⟨(List.range 14).map fun k => code (s.eip + BitVec.ofNat 32 (k + 1)), ?_⟩
    have hhead : code (s.eip + BitVec.ofNat 32 0) = 0xCC := by rw [← h]; exact congrArg code (add_zero _)
    rw [fetch, maxInstructionLength, List.range_succ_eq_map, List.map_cons, List.map_map, hhead]
    rfl
  have hnone : decodeSelectorCode (0xCC :: tail) = none := by
    show ((readPlace tail).bind (modrmInsn 0xCC)).map _ = none
    cases readPlace tail <;> rfl
  rw [stepSelector, htail, hnone]
  rfl

end CodeState

/-! ## Code at an address -/

/-- Bytes that decode to an instruction on selectors, whatever follows them. -/
structure EncodesSelector (bytes : List Byte) (i : SelectorInsn) : Prop where
  short : bytes.length ≤ maxInstructionLength
  decode : ∀ tail, decodeSelectorCode (bytes ++ tail) = some (i, bytes.length)

/-- An instruction at an address is executed. -/
theorem leadsTo_of_codeAt {code : DataMemory} {s : CodeState} {bytes : List Byte} {i : SelectorInsn}
    (hcode : CodeAt code s.eip bytes) (hi : EncodesSelector bytes i) :
    s.LeadsTo code (s.executeSelector (s.eip + BitVec.ofNat 32 bytes.length) i) := by
  obtain ⟨tail, htail⟩ := fetch_of_codeAt hcode hi.short
  refine CodeState.LeadsTo.head ?_ (CodeState.LeadsTo.refl code _)
  rw [CodeState.stepSelector, htail, hi.decode, Option.map_some]

/-- An instruction at an address, with what it does. -/
theorem leadsTo_code {code : DataMemory} {s t : CodeState} {bytes : List Byte} {i : SelectorInsn}
    (hcode : CodeAt code s.eip bytes) (hi : EncodesSelector bytes i)
    (ht : s.executeSelector (s.eip + BitVec.ofNat 32 bytes.length) i = t) : s.LeadsTo code t := by
  rw [← ht]
  exact leadsTo_of_codeAt hcode hi

/-- The opcodes that this subset adds. -/
def selectorOpcodes : List Byte := [0x66, 0x74, 0x8D, 0xE9, 0x90]

/-- An instruction of the code around the selectors. -/
theorem EncodesInsn.selector {opcode : Byte} {bytes : List Byte} {i : CodeInsn} (h : EncodesInsn (opcode :: bytes) i)
    (hopcode : opcode ∉ selectorOpcodes) : EncodesSelector (opcode :: bytes) (.code i) := by
  refine ⟨h.short, fun tail => ?_⟩
  simp only [selectorOpcodes, List.mem_cons, List.not_mem_nil, or_false, not_or] at hopcode
  obtain ⟨h66, h74, h8D, hE9, h90⟩ := hopcode
  have hdecode := h.decode tail
  rw [List.cons_append] at hdecode ⊢
  unfold decodeSelectorCode
  simp only [h66, h74, h8D, hE9, h90, if_false, hdecode]
  rfl

/-- A selector operand behind its opcode. -/
theorem encodes_load {operand : List Byte} {place : Place} {reg : ℕ} (hplace : ReadsPlace operand place reg)
    (hshort : operand.length ≤ 13) :
    EncodesSelector (0x66 :: 0x8B :: operand) (.load (fieldRegister reg) place) := by
  constructor
  · show operand.length + 2 ≤ 15
    omega
  · intro tail
    show (readPlace (operand ++ tail)).map _ = _
    rw [hplace, Option.map_some, List.length_cons, List.length_cons, Nat.add_comm]

theorem encodes_cmp {operand : List Byte} {place : Place} {reg : ℕ} (hplace : ReadsPlace operand place reg)
    (hshort : operand.length ≤ 13) :
    EncodesSelector (0x66 :: 0x3B :: operand) (.cmp (fieldRegister reg) place) := by
  constructor
  · show operand.length + 2 ≤ 15
    omega
  · intro tail
    show (readPlace (operand ++ tail)).map _ = _
    rw [hplace, Option.map_some, List.length_cons, List.length_cons, Nat.add_comm]

theorem encodes_storeAx (a : Word) : EncodesSelector ([0x66, 0xA3] ++ le32 a) (.storeAx a) := by
  constructor
  · show 6 ≤ 15
    decide
  · intro tail
    show some (SelectorInsn.storeAx (word32 _ _ _ _), 6) = _
    rw [word32_le32]
    rfl

/-- A short jump on equality. -/
theorem encodes_je (d : Byte) : EncodesSelector [0x74, d] (.je (d.signExtend 32)) :=
  ⟨show 2 ≤ 15 by decide, fun _ => rfl⟩

theorem encodes_jmp (d : Word) : EncodesSelector (0xE9 :: le32 d) (.jmp d) := by
  constructor
  · show 5 ≤ 15
    decide
  · intro tail
    show some (SelectorInsn.jmp (word32 _ _ _ _), 5) = _
    rw [word32_le32]
    rfl

end Repiu.X86
