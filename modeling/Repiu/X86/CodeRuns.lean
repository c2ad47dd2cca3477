import Repiu.X86.Addressing

/-!
# Runs of emitted code

The instructions of emitted guard and probe code: decoding from a code window,
execution on registers, EFLAGS and a flat data memory, and the run of a piece of
straight-line code that lies at an address.
-/

namespace Repiu.X86

/-! ## Windows of the data memory -/

/-- Two windows of the cyclic address space, with their lengths, share no address. -/
def Apart (a : Word) (m : ℕ) (b : Word) (n : ℕ) : Prop := m ≤ (b - a).toNat ∧ n ≤ (a - b).toNat

instance (a : Word) (m : ℕ) (b : Word) (n : ℕ) : Decidable (Apart a m b n) :=
  inferInstanceAs (Decidable (_ ∧ _))

/-- A word apart from a stored one is untouched. -/
theorem DataMemory.getWord_setWord_apart (m : DataMemory) {a b : Word} (w : Word) (h : Apart a 4 b 4) :
    (m.setWord a w).getWord b = m.getWord b := by
  obtain ⟨hab, hba⟩ := h
  unfold DataMemory.getWord
  rw [m.setWord_of_far hab, m.setWord_of_far (by bv_omega), m.setWord_of_far (by bv_omega),
    m.setWord_of_far (by bv_omega)]

/-! ## EFLAGS -/

/-- The status flags in EFLAGS. -/
def statusMask : Word := 0x8D5

/-- The flags `popfd` loads in user code. -/
def userMask : Word := 0x244DD5

/-- Status flags as the bits of EFLAGS. -/
def Flags.toWord (f : Flags) : Word :=
  (if f.cf then 0x1 else 0) ||| (if f.pf then 0x4 else 0) ||| (if f.af then 0x10 else 0) |||
    (if f.zf then 0x40 else 0) ||| (if f.sf then 0x80 else 0) ||| (if f.of then 0x800 else 0)

/-- EFLAGS with other status flags. -/
def withStatus (eflags : Word) (f : Flags) : Word := eflags &&& ~~~statusMask ||| f.toWord

/-- EFLAGS behind a `popfd` of a word. -/
def loadFlags (eflags popped : Word) : Word := eflags &&& ~~~userMask ||| popped &&& userMask

/-- The zero flag. -/
def zeroFlag (eflags : Word) : Bool := eflags.getLsbD 6

theorem Flags.toWord_user (f : Flags) : f.toWord &&& ~~~userMask = 0 := by
  obtain ⟨cf, pf, af, zf, sf, of⟩ := f
  cases cf <;> cases pf <;> cases af <;> cases zf <;> cases sf <;> cases of <;> decide

@[simp] theorem zeroFlag_withStatus (eflags : Word) (f : Flags) : zeroFlag (withStatus eflags f) = f.zf := by
  have hword : f.toWord.getLsbD 6 = f.zf := by
    obtain ⟨cf, pf, af, zf, sf, of⟩ := f
    cases cf <;> cases pf <;> cases af <;> cases zf <;> cases sf <;> cases of <;> decide
  have hmask : (~~~statusMask).getLsbD 6 = false := by decide
  rw [zeroFlag, withStatus, BitVec.getLsbD_or, BitVec.getLsbD_and, hmask, hword, Bool.and_false,
    Bool.false_or]

@[simp] theorem withStatus_withStatus (eflags : Word) (f g : Flags) :
    withStatus (withStatus eflags f) g = withStatus eflags g := by
  have hword : f.toWord &&& ~~~statusMask = 0 := by
    obtain ⟨cf, pf, af, zf, sf, of⟩ := f
    cases cf <;> cases pf <;> cases af <;> cases zf <;> cases sf <;> cases of <;> decide
  have hkeep : withStatus eflags f &&& ~~~statusMask = eflags &&& ~~~statusMask := by
    rw [withStatus, BitVec.and_or_distrib_right, hword, BitVec.and_assoc, BitVec.and_self]
    exact BitVec.or_zero
  rw [withStatus, hkeep, withStatus]

/-- What `popfd` loads does not depend on the status flags before it. -/
@[simp] theorem loadFlags_withStatus (eflags : Word) (f : Flags) (popped : Word) :
    loadFlags (withStatus eflags f) popped = loadFlags eflags popped := by
  have hmask : ~~~statusMask &&& ~~~userMask = ~~~userMask := by decide
  have hkeep : withStatus eflags f &&& ~~~userMask = eflags &&& ~~~userMask := by
    rw [withStatus, BitVec.and_or_distrib_right, f.toWord_user, BitVec.and_assoc, hmask]
    exact BitVec.or_zero
  rw [loadFlags, hkeep, loadFlags]

/-- The flags of a right shift by a count that is not zero; OF, which longer shifts leave undefined,
and AF are cleared there. -/
def shrFlags (w : Word) (count : ℕ) : Flags :=
  { logicFlags (w >>> count) with
    cf := w.getLsbD (count - 1)
    of := count = 1 && w.msb }

/-! ## Instructions -/

/-- The instructions of emitted guards and probes.  Displacements count from the next
instruction. -/
inductive CodeInsn
  | push (r : Fin 8)
  | pop (r : Fin 8)
  | pushfd
  | popfd
  | load (r : Fin 8) (place : Place)
  | store (place : Place) (r : Fin 8)
  | xor (r : Fin 8) (place : Place)
  | cmp (place : Place) (r : Fin 8)
  | andImm (place : Place) (value : Word)
  | cmpImm (place : Place) (value : Word)
  | shr (place : Place) (count : ℕ)
  | inc (place : Place)
  | call (place : Place)
  | jmp (place : Place)
  | jne (displacement : Word)
  | ret (pop : Word)
deriving DecidableEq

/-- A 32-bit immediate at the head of bytes. -/
def readImm32 (f : Word → CodeInsn) (length : ℕ) : List Byte → Option (CodeInsn × ℕ)
  | b0 :: b1 :: b2 :: b3 :: _ => some (f (word32 b0 b1 b2 b3), length + 4)
  | _ => none

/-- The instructions with a ModRM operand. -/
def modrmInsn (opcode : Byte) (p : ModrmOperand) : Option (CodeInsn × ℕ) :=
  let r := fieldRegister p.reg
  let length := 1 + p.length
  if opcode = 0x8B then some (.load r p.place, length)
  else if opcode = 0x89 then some (.store p.place r, length)
  else if opcode = 0x33 then some (.xor r p.place, length)
  else if opcode = 0x39 then some (.cmp p.place r, length)
  else if opcode = 0x81 ∧ p.reg = 4 then readImm32 (.andImm p.place) length p.rest
  else if opcode = 0x81 ∧ p.reg = 7 then readImm32 (.cmpImm p.place) length p.rest
  else if opcode = 0xC1 ∧ p.reg = 5 then
    p.rest.head?.map fun b => (.shr p.place (b.toNat % 32), length + 1)
  else if opcode = 0xFF ∧ p.reg = 0 then some (.inc p.place, length)
  else if opcode = 0xFF ∧ p.reg = 2 then some (.call p.place, length)
  else if opcode = 0xFF ∧ p.reg = 4 then some (.jmp p.place, length)
  else none

/-- The instruction at the head of bytes, with its length. -/
def decodeCode : List Byte → Option (CodeInsn × ℕ)
  | [] => none
  | b :: rest =>
    if b &&& 0xF8 = 0x50 then some (.push (registerOf b), 1)
    else if b &&& 0xF8 = 0x58 then some (.pop (registerOf b), 1)
    else if b = 0x9C then some (.pushfd, 1)
    else if b = 0x9D then some (.popfd, 1)
    else if b = 0x75 then rest.head?.map fun d => (.jne (d.signExtend 32), 2)
    else if b = 0xC3 then some (.ret 0, 1)
    else if b = 0xC2 then
      match rest with
      | lo :: hi :: _ => some (.ret ((hi ++ lo).setWidth 32), 3)
      | _ => none
    else (readPlace rest).bind (modrmInsn b)

/-! ## Execution -/

/-- The machine that runs emitted code. -/
structure CodeState where
  eip : Word
  registers : Registers
  eflags : Word
  memory : DataMemory

namespace CodeState

/-- Read a place. -/
def read (s : CodeState) (place : Place) : Word := place.read s.registers s.memory

/-- Write a place. -/
def write (s : CodeState) (value : Word) : Place → CodeState
  | .register r => { s with registers := Function.update s.registers r value }
  | .memory modrm sib disp =>
    { s with memory := s.memory.setWord (effectiveAddress s.registers modrm sib disp) value }

/-- ESP. -/
def esp (s : CodeState) : Word := s.registers 4

@[simp] theorem esp_mk (eip : Word) (registers : Registers) (eflags : Word) (memory : DataMemory) :
    (⟨eip, registers, eflags, memory⟩ : CodeState).esp = registers 4 := rfl

/-- Push a word. -/
def pushWord (s : CodeState) (value : Word) : CodeState :=
  { s with
    registers := Function.update s.registers 4 (s.esp - 4)
    memory := s.memory.setWord (s.esp - 4) value }

/-- Move ESP up. -/
def release (s : CodeState) (bytes : Word) : CodeState :=
  { s with registers := Function.update s.registers 4 (s.esp + bytes) }

/-- Go on at an address. -/
def goto (s : CodeState) (next : Word) : CodeState := { s with eip := next }

/-- With other status flags. -/
def status (s : CodeState) (f : Flags) : CodeState := { s with eflags := withStatus s.eflags f }

/-- Execute an instruction; `next` is the address behind it. -/
def execute (s : CodeState) (next : Word) : CodeInsn → CodeState
  | .push r => (s.pushWord (s.registers r)).goto next
  | .pop r => ((s.release 4).write (s.memory.getWord s.esp) (.register r)).goto next
  -- the image that is pushed has VM and RF clear
  | .pushfd => (s.pushWord (s.eflags &&& 0x00FCFFFF)).goto next
  | .popfd =>
    ({ s with eflags := loadFlags s.eflags (s.memory.getWord s.esp) }.release 4).goto next
  | .load r place => (s.write (s.read place) (.register r)).goto next
  | .store place r => (s.write (s.registers r) place).goto next
  | .xor r place =>
    let value := s.registers r ^^^ s.read place
    ((s.write value (.register r)).status (logicFlags value)).goto next
  | .cmp place r => (s.status (subFlags (s.read place) (s.registers r))).goto next
  | .andImm place imm =>
    let value := s.read place &&& imm
    ((s.write value place).status (logicFlags value)).goto next
  | .cmpImm place imm => (s.status (subFlags (s.read place) imm)).goto next
  | .shr place count =>
    if count = 0 then s.goto next
    else ((s.write (s.read place >>> count) place).status (shrFlags (s.read place) count)).goto next
  | .inc place =>
    let value := s.read place
    let flags := incFlags ⟨s.eflags.getLsbD 0, false, false, false, false, false⟩ value
    ((s.write (value + 1) place).status flags).goto next
  | .call place => (s.pushWord next).goto (s.read place)
  | .jmp place => s.goto (s.read place)
  | .jne displacement => s.goto (if zeroFlag s.eflags then next else next + displacement)
  | .ret pop => (s.release (4 + pop)).goto (s.memory.getWord s.esp)

theorem execute_push (s : CodeState) (next : Word) (r : Fin 8) : s.execute next (.push r) =
    ⟨next, Function.update s.registers 4 (s.esp - 4), s.eflags, s.memory.setWord (s.esp - 4) (s.registers r)⟩ :=
  rfl

theorem execute_pop (s : CodeState) (next : Word) (r : Fin 8) : s.execute next (.pop r) =
    ⟨next, Function.update (Function.update s.registers 4 (s.esp + 4)) r (s.memory.getWord s.esp), s.eflags,
      s.memory⟩ :=
  rfl

theorem execute_popfd (s : CodeState) (next : Word) : s.execute next .popfd =
    ⟨next, Function.update s.registers 4 (s.esp + 4), loadFlags s.eflags (s.memory.getWord s.esp), s.memory⟩ :=
  rfl

theorem execute_load (s : CodeState) (next : Word) (r : Fin 8) (place : Place) : s.execute next (.load r place) =
    ⟨next, Function.update s.registers r (s.read place), s.eflags, s.memory⟩ :=
  rfl

theorem execute_store (s : CodeState) (next : Word) (r : Fin 8) (modrm sib : Byte) (disp : List Byte) :
    s.execute next (.store (.memory modrm sib disp) r) =
      ⟨next, s.registers, s.eflags,
        s.memory.setWord (effectiveAddress s.registers modrm sib disp) (s.registers r)⟩ :=
  rfl

theorem execute_cmp (s : CodeState) (next : Word) (r : Fin 8) (place : Place) : s.execute next (.cmp place r) =
    ⟨next, s.registers, withStatus s.eflags (subFlags (s.read place) (s.registers r)), s.memory⟩ :=
  rfl

theorem execute_inc (s : CodeState) (next : Word) (modrm sib : Byte) (disp : List Byte) :
    s.execute next (.inc (.memory modrm sib disp)) =
      ⟨next, s.registers,
        withStatus s.eflags (incFlags ⟨s.eflags.getLsbD 0, false, false, false, false, false⟩
          (s.memory.getWord (effectiveAddress s.registers modrm sib disp))),
        s.memory.setWord (effectiveAddress s.registers modrm sib disp)
          (s.memory.getWord (effectiveAddress s.registers modrm sib disp) + 1)⟩ :=
  rfl

/-- The bytes the machine sees at an address. -/
def fetch (code : DataMemory) (a : Word) : List Byte :=
  (List.range maxInstructionLength).map fun k => code (a + BitVec.ofNat 32 k)

/-- One step; `none` on code that is not of this subset. -/
def step (code : DataMemory) (s : CodeState) : Option CodeState :=
  (decodeCode (fetch code s.eip)).map fun p => s.execute (s.eip + BitVec.ofNat 32 p.2) p.1

/-- A number of steps. -/
def run (code : DataMemory) : ℕ → CodeState → Option CodeState
  | 0, s => some s
  | n + 1, s => (s.step code).bind (run code n)

end CodeState

/-! ## Code at an address -/

/-- Bytes lie at an address. -/
def CodeAt (code : DataMemory) (a : Word) (bytes : List Byte) : Prop :=
  ∀ k (h : k < bytes.length), code (a + BitVec.ofNat 32 k) = bytes[k]

theorem length_fetch (code : DataMemory) (a : Word) : (CodeState.fetch code a).length = maxInstructionLength := by
  rw [CodeState.fetch, List.length_map, List.length_range]

theorem CodeAt.left {code : DataMemory} {a : Word} {xs ys : List Byte} (h : CodeAt code a (xs ++ ys)) :
    CodeAt code a xs := by
  intro k hk
  have := h k (by rw [List.length_append]; omega)
  rwa [List.getElem_append_left hk] at this

theorem CodeAt.right {code : DataMemory} {a : Word} {xs ys : List Byte} (h : CodeAt code a (xs ++ ys)) :
    CodeAt code (a + BitVec.ofNat 32 xs.length) ys := by
  intro k hk
  have := h (xs.length + k) (by rw [List.length_append]; omega)
  rw [List.getElem_append_right (Nat.le_add_right _ _)] at this
  simp only [Nat.add_sub_cancel_left] at this
  rw [add_assoc, ← BitVec.ofNat_add]
  exact this

/-- The machine sees bytes that lie at an address. -/
theorem fetch_of_codeAt {code : DataMemory} {a : Word} {xs : List Byte} (h : CodeAt code a xs)
    (hlen : xs.length ≤ maxInstructionLength) : ∃ tail, CodeState.fetch code a = xs ++ tail := by
  have htake : (CodeState.fetch code a).take xs.length = xs := by
    refine List.ext_getElem ?_ fun k hk hk' => ?_
    · simp [CodeState.fetch, hlen]
    · rw [List.getElem_take, ← h k hk']
      simp [CodeState.fetch]
  refine ⟨(CodeState.fetch code a).drop xs.length, ?_⟩
  have hsplit := List.take_append_drop xs.length (CodeState.fetch code a)
  rw [htake] at hsplit
  exact hsplit.symm

/-- Bytes that decode to an instruction, whatever follows them. -/
structure EncodesInsn (bytes : List Byte) (i : CodeInsn) : Prop where
  short : bytes.length ≤ maxInstructionLength
  decode : ∀ tail, decodeCode (bytes ++ tail) = some (i, bytes.length)

/-- Bytes that are a ModRM operand, whatever follows them. -/
def ReadsPlace (operand : List Byte) (place : Place) (reg : ℕ) : Prop :=
  ∀ rest, readPlace (operand ++ rest) = some ⟨place, reg, operand.length, rest⟩

theorem readsPlace_register {modrm : Byte} (h : modField modrm = 3) :
    ReadsPlace [modrm] (.register (fieldRegister (rmField modrm))) (regField modrm) :=
  readPlace_register h

theorem readsPlace_memory {modrm : Byte} {disp : List Byte} (hmod : modField modrm ≠ 3)
    (hrm : rmField modrm ≠ 4) (hdisp : disp.length = dispSize 32 modrm 0) :
    ReadsPlace (modrm :: disp) (.memory modrm 0 disp) (regField modrm) := by
  intro rest
  rw [List.cons_append, readPlace_memory hmod hrm hdisp, List.length_cons, Nat.add_comm]

theorem readsPlace_sib {modrm sib : Byte} {disp : List Byte} (hmod : modField modrm ≠ 3)
    (hrm : rmField modrm = 4) (hdisp : disp.length = dispSize 32 modrm sib) :
    ReadsPlace (modrm :: sib :: disp) (.memory modrm sib disp) (regField modrm) := by
  intro rest
  rw [List.cons_append, List.cons_append, readPlace_sib hmod hrm hdisp, List.length_cons, List.length_cons,
    Nat.add_comm]

/-- The opcodes with a ModRM operand. -/
def codeModrmOpcodes : List Byte := [0x8B, 0x89, 0x33, 0x39, 0x81, 0xC1, 0xFF]

theorem decodeCode_modrm {opcode : Byte} (h : opcode ∈ codeModrmOpcodes) (rest : List Byte) :
    decodeCode (opcode :: rest) = (readPlace rest).bind (modrmInsn opcode) := by
  simp only [codeModrmOpcodes, List.mem_cons, List.not_mem_nil, or_false] at h
  rcases h with rfl | rfl | rfl | rfl | rfl | rfl | rfl <;> rfl

/-- An instruction with a ModRM operand, and its immediate if it has one. -/
theorem encodes_modrm {opcode : Byte} (h : opcode ∈ codeModrmOpcodes) {operand imm : List Byte} {place : Place}
    {reg : ℕ} {i : CodeInsn} (hplace : ReadsPlace operand place reg)
    (hinsn : ∀ rest, modrmInsn opcode ⟨place, reg, operand.length, imm ++ rest⟩ =
      some (i, 1 + operand.length + imm.length))
    (hshort : 1 + operand.length + imm.length ≤ maxInstructionLength) :
    EncodesInsn (opcode :: (operand ++ imm)) i := by
  have hlength : (opcode :: (operand ++ imm)).length = 1 + operand.length + imm.length := by
    rw [List.length_cons, List.length_append]
    omega
  constructor
  · rwa [hlength]
  · intro tail
    rw [List.cons_append, decodeCode_modrm h, List.append_assoc, hplace, Option.bind_some, hinsn, hlength]

/-- A word immediate is read back. -/
theorem readImm32_le32 (f : Word → CodeInsn) (length : ℕ) (w : Word) (rest : List Byte) :
    readImm32 f length (le32 w ++ rest) = some (f w, length + 4) := by
  show some (f (word32 _ _ _ _), length + 4) = _
  rw [word32_le32]

/-- A compare with an immediate, whatever the immediate is. -/
theorem decodeCode_cmpImm {operand : List Byte} {place : Place} (hplace : ReadsPlace operand place 7)
    {tail : List Byte} (htail : 4 ≤ tail.length) :
    ∃ value, decodeCode (0x81 :: (operand ++ tail)) = some (.cmpImm place value, 1 + operand.length + 4) := by
  match tail, htail with
  | b0 :: b1 :: b2 :: b3 :: tail, _ =>
    refine ⟨word32 b0 b1 b2 b3, ?_⟩
    rw [decodeCode_modrm (by decide), hplace, Option.bind_some]
    rfl

namespace CodeState

variable {code : DataMemory} {s : CodeState}

theorem step_of_codeAt {bytes : List Byte} {i : CodeInsn} (hcode : CodeAt code s.eip bytes)
    (hi : EncodesInsn bytes i) : s.step code = some (s.execute (s.eip + BitVec.ofNat 32 bytes.length) i) := by
  obtain ⟨tail, htail⟩ := fetch_of_codeAt hcode hi.short
  rw [step, htail, hi.decode, Option.map_some]

theorem run_add (m n : ℕ) : run code (m + n) s = (run code m s).bind (run code n) := by
  induction m generalizing s with
  | zero => rw [Nat.zero_add, run, Option.bind_some]
  | succ m ih =>
    rw [Nat.add_right_comm, run, run, Option.bind_assoc]
    exact congrArg _ (funext fun s' => ih)

end CodeState

/-! ## Straight-line code -/

/-- The instructions that go on with the next one. -/
def CodeInsn.sequential : CodeInsn → Bool
  | .call _ | .jmp _ | .jne _ | .ret _ => false
  | _ => true

/-- A piece of code: instructions, each with its bytes. -/
abbrev Listing := List (List Byte × CodeInsn)

/-- The bytes of a listing. -/
def Listing.bytes (l : Listing) : List Byte := l.flatMap Prod.fst

/-- Every line is encoded by its bytes and goes on with the next one. -/
def Listing.Straight (l : Listing) : Prop := ∀ line ∈ l, EncodesInsn line.1 line.2 ∧ line.2.sequential

/-- What a listing does from its address on. -/
def Listing.effect (l : Listing) (s : CodeState) : CodeState :=
  l.foldl (fun s line => s.execute (s.eip + BitVec.ofNat 32 line.1.length) line.2) s

@[simp] theorem Listing.bytes_cons (line : List Byte × CodeInsn) (l : Listing) :
    Listing.bytes (line :: l) = line.1 ++ l.bytes := List.flatMap_cons

namespace CodeState

variable {code : DataMemory} {s : CodeState}

@[simp] theorem goto_eip (next : Word) : (s.goto next).eip = next := rfl

theorem execute_eip {i : CodeInsn} (hi : i.sequential) (next : Word) : (s.execute next i).eip = next := by
  cases i with
  | call place => cases hi
  | jmp place => cases hi
  | jne displacement => cases hi
  | ret pop => cases hi
  | shr place count =>
    show (if count = 0 then s.goto next else CodeState.goto _ next).eip = next
    split_ifs <;> rfl
  | _ => rfl

/-- Straight-line code runs through in as many steps as it has instructions. -/
theorem run_straight {l : Listing} (hl : l.Straight) (hcode : CodeAt code s.eip l.bytes) :
    run code l.length s = some (l.effect s) ∧
      (l.effect s).eip = s.eip + BitVec.ofNat 32 l.bytes.length := by
  induction l generalizing s with
  | nil => exact ⟨rfl, (BitVec.add_zero _).symm⟩
  | cons line l ih =>
    obtain ⟨hencodes, hsequential⟩ := hl line List.mem_cons_self
    rw [Listing.bytes_cons] at hcode
    have heip : (s.execute (s.eip + BitVec.ofNat 32 line.1.length) line.2).eip =
        s.eip + BitVec.ofNat 32 line.1.length := execute_eip hsequential _
    have hstep := step_of_codeAt hcode.left hencodes
    -- the rest of the listing lies where the first instruction leaves EIP
    obtain ⟨hrun, hend⟩ := ih (fun line' h => hl line' (List.mem_cons_of_mem _ h)) (heip ▸ hcode.right)
    constructor
    · rw [List.length_cons, run, hstep, Option.bind_some, hrun]
      rfl
    · rw [Listing.bytes_cons, List.length_append, BitVec.ofNat_add, ← add_assoc, ← heip]
      exact hend

end CodeState

end Repiu.X86
