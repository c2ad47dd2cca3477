import Repiu.PartialRuns
import Repiu.X86.Execution

/-!
# Batched port delay loops

`TryBatchPortIoDelayLoop` recognises loops that only read a port until a counter reaches
its limit, in an inline form and in one that calls a wrapper around the read, and
advances the counter so that the guest runs the last iteration only. Here the loop with
the advanced counter is compared with the loop as it is.
-/

namespace Repiu.Engine.PortIoDelayLoop

open Repiu.X86 Repiu.PartialRuns

/-- `PortIoDelayLoopOutcome`. -/
inductive Outcome
  | kBatched | kShapeMismatch | kRegisterConflict | kResultNotDead | kNothingToSkip | kUnreadable
deriving DecidableEq

def kMaxLoopBodyBytes : Word := 64

def kMaxLoopTailBytes : ℕ := 16

/-! ## The inline form -/

/-- `LoopBody`, when it is valid. -/
structure LoopBody where
  counterRegister : Fin 8 := 0
  step : ℤ := 0
  zeroesDestination : Bool := false
deriving DecidableEq

/-- The loop of `DecodeLoopBody`: the body and the number of counters. The first argument is
`body_end - address`. -/
def decodeBodyBytes (code : DataMemory) (destination : Fin 8) :
    ℕ → Word → LoopBody → ℕ → Option (LoopBody × ℕ)
  | 0, _, body, counters => some (body, counters)
  | n + 1, address, body, counters =>
    let opcode := code address
    if 0x40 ≤ opcode ∧ opcode ≤ 0x47 then
      let reg := registerOf (opcode - 0x40)
      if reg = 4 then none
      else
        decodeBodyBytes code destination n (address + 1) { body with counterRegister := reg, step := 1 }
          (counters + 1)
    else if 0x48 ≤ opcode ∧ opcode ≤ 0x4F then
      let reg := registerOf (opcode - 0x48)
      if reg = 4 then none
      else
        decodeBodyBytes code destination n (address + 1) { body with counterRegister := reg, step := -1 }
          (counters + 1)
    else if opcode = 0x29 ∨ opcode = 0x31 then
      match n with
      | 0 => none
      | n + 1 =>
        let modrm := code (address + 1)
        let source := registerOf (modrm >>> 3)
        let target := registerOf modrm
        if modrm &&& 0xC0 ≠ 0xC0 then none
        else if source ≠ target then none
        else if target = destination then
          decodeBodyBytes code destination n (address + 2) { body with zeroesDestination := true } counters
        else if target = body.counterRegister ∧ counters ≠ 0 then none
        else decodeBodyBytes code destination n (address + 2) body counters
    else none

/-- `DecodeLoopBody`. -/
def decodeLoopBody (code : DataMemory) (bodyStart bodyEnd : Word) (destination : Fin 8) :
    Option LoopBody :=
  match decodeBodyBytes code destination (bodyEnd - bodyStart).toNat bodyStart {} 0 with
  | none => none
  | some (body, counters) =>
    if counters ≠ 1 ∨ body.counterRegister = destination then none else some body

/-- The comparison behind the IN: the counter, the limit and the address of the branch. -/
def readCompare (code : DataMemory) (address : Word) : Option (Fin 8 × Word × Word) :=
  if code address = 0x83 ∧ code (address + 1) &&& 0xF8 = 0xF8 then
    some (registerOf (code (address + 1)), (code (address + 2)).signExtend 32, address + 3)
  else if code address = 0x81 ∧ code (address + 1) &&& 0xF8 = 0xF8 then
    some (registerOf (code (address + 1)), code.getWord (address + 2), address + 6)
  else none

/-- The branch that closes a loop: its condition as the opcode of a short branch that goes on,
the address of the jump back and its displacement. -/
structure BackEdge where
  condition : Byte
  address : Word
  displacement : Byte
deriving DecidableEq

/-- The inverted test: a branch out of the loop, then a jump back. -/
def readInverted (code : DataMemory) (branch exitLength : Word) (exitDisplacement : ℤ) (inverted : Byte) :
    Option BackEdge :=
  if exitDisplacement ≤ 0 ∨ code (branch + exitLength) ≠ 0xEB then none
  else
    some
      { condition := if inverted = 0x7D then 0x7C else 0x7E
        address := branch + exitLength
        displacement := code (branch + exitLength + 1) }

/-- The branch behind the comparison, in either form. -/
def readBackEdge (code : DataMemory) (branch : Word) : Option BackEdge :=
  if code branch = 0x7D ∨ code branch = 0x7F then
    readInverted code branch 2 (code (branch + 1)).toInt (code branch)
  else if code branch = 0x0F ∧ (code (branch + 1) = 0x8D ∨ code (branch + 1) = 0x8F) then
    readInverted code branch 6 (code.getWord (branch + 2)).toInt (code (branch + 1) - 0x10)
  else some { condition := code branch, address := branch, displacement := code (branch + 1) }

/-- An inline loop that has been recognised. -/
structure DirectLoop where
  bodyStart : Word
  backEdge : Word
  counter : Fin 8
  limit : Word
  step : ℤ
deriving DecidableEq

/-- The part of `TryBatchPortIoDelayLoop` behind the comparison. -/
def matchDirect (code : DataMemory) (inAddress : Word) (counter : Fin 8) (limit branch : Word) :
    Except Outcome DirectLoop :=
  match readBackEdge code branch with
  | none => .error .kShapeMismatch
  | some edge =>
    let bodyStart := edge.address + 2 + edge.displacement.signExtend 32
    if edge.condition ≠ 0x7C ∧ edge.condition ≠ 0x7E then .error .kShapeMismatch
    else if 0 ≤ edge.displacement.toInt ∨ inAddress ≤ bodyStart ∨
        kMaxLoopBodyBytes < inAddress - bodyStart then .error .kShapeMismatch
    else if counter = 0 ∨ counter = 2 then .error .kRegisterConflict
    else
      match decodeLoopBody code bodyStart inAddress 0 with
      | none => .error .kShapeMismatch
      | some body =>
        if body.counterRegister ≠ counter then .error .kShapeMismatch
        else if !body.zeroesDestination then .error .kResultNotDead
        else .ok { bodyStart, backEdge := edge.address, counter, limit, step := body.step }

/-! ## The form with a wrapper -/

/-- The part of `ThreadContext` that is read, and whether a guest store goes through. -/
structure Context where
  runtimeBase : Word
  runtimeSize : Word
  storeSucceeds : Word → Bool

/-- `IsGuestRangeReadable`. -/
def isGuestRangeReadable (context : Context) (address : Word) (byteCount : ℕ) : Bool :=
  address ≠ 0 ∧ byteCount ≠ 0 ∧ context.runtimeBase ≤ address ∧
    address.toNat + byteCount ≤ context.runtimeBase.toNat + context.runtimeSize.toNat

/-- A loop around a call of the wrapper. -/
structure WrappedLoop where
  bodyStart : Word
  branch : Word
  wrapperStart : Word
  wrapperEnd : Word
  savedEdx : Word
  limit : Word
deriving DecidableEq

/-- The bytes of the wrapper around the IN. -/
def isInputWrapper (code : DataMemory) (wrapper inAddress inLength : Word) : Bool :=
  code wrapper = 0x52 ∧ code (wrapper + 1) = 0x89 ∧ code (wrapper + 2) = 0xC2 ∧
    (code (wrapper + 3) = 0x29 ∨ code (wrapper + 3) = 0x31) ∧ code (wrapper + 4) = 0xC0 ∧
    (inLength = 2 ∧ code inAddress = 0x66 ∧ code (inAddress + 1) = 0xED ∨
      inLength = 1 ∧ (code inAddress = 0xEC ∨ code inAddress = 0xED)) ∧
    code (inAddress + inLength) = 0x5A ∧ code (inAddress + inLength + 1) = 0xC3

/-- The compare of the caller's tail: the limit and the offset of the branch. -/
def readTail (code : DataMemory) (tail : Word) : Option (Word × Word) :=
  if code tail ≠ 0x42 then none
  else if code (tail + 1) = 0x83 ∧ code (tail + 2) = 0xFA then some ((code (tail + 3)).signExtend 32, 4)
  else if code (tail + 1) = 0x81 ∧ code (tail + 2) = 0xFA then some (code.getWord (tail + 3), 7)
  else none

/-- The matching part of `TryBatchWrappedCallLoop`; `none` is `kNotCandidate`. -/
def matchWrapped (context : Context) (code memory : DataMemory) (inAddress inLength : Word)
    (registers : Fin 8 → Word) : Option (Except Outcome WrappedLoop) :=
  let wrapper := inAddress - 5
  if inAddress < 5 ∨ (inLength ≠ 1 ∧ inLength ≠ 2) then none
  else if !isGuestRangeReadable context wrapper (5 + inLength.toNat + 2) then none
  else if !isInputWrapper code wrapper inAddress inLength then none
  else
    let stack := registers 4
    let savedEdx := memory.getWord stack
    let returnAddress := memory.getWord (stack + 4)
    let call := returnAddress - 5
    some <|
      if !isGuestRangeReadable context stack 4 ∨ !isGuestRangeReadable context (stack + 4) 4 ∨
          returnAddress < 5 then .error .kUnreadable
      else if !isGuestRangeReadable context call (5 + kMaxLoopTailBytes) then .error .kUnreadable
      else if code call ≠ 0xE8 ∨ returnAddress + code.getWord (call + 1) ≠ wrapper then
        .error .kShapeMismatch
      else
        match readTail code returnAddress with
        | none => .error .kShapeMismatch
        | some (limit, offset) =>
          let branch := returnAddress + offset
          let displacement := code (branch + 1)
          let bodyStart := branch + 2 + displacement.signExtend 32
          if code branch ≠ 0x7C then .error .kShapeMismatch
          else if 0 ≤ displacement.toInt ∨ bodyStart + 5 ≠ call ∨
              kMaxLoopBodyBytes < call - bodyStart ∨ !isGuestRangeReadable context bodyStart 5 then
            .error .kShapeMismatch
          else if code bodyStart ≠ 0xB8 ∨
              (code.getWord (bodyStart + 1)).setWidth 16 ≠ (registers 2).setWidth 16 then
            .error .kResultNotDead
          else
            .ok
              { bodyStart, branch, wrapperStart := wrapper, wrapperEnd := inAddress + inLength + 1,
                savedEdx, limit }

/-! ## Batching -/

/-- A recognised loop. -/
inductive Loop
  | direct (loop : DirectLoop)
  | wrapped (loop : WrappedLoop)
deriving DecidableEq

/-- The recognition of `TryBatchPortIoDelayLoop`. -/
def matchLoop (context : Context) (code memory : DataMemory) (inAddress inLength : Word)
    (registers : Fin 8 → Word) (guestBytesReadable : Bool) : Except Outcome Loop :=
  if !guestBytesReadable then .error .kUnreadable
  else
    match readCompare code (inAddress + inLength) with
    | some (counter, limit, branch) => (matchDirect code inAddress counter limit branch).map .direct
    | none =>
      match matchWrapped context code memory inAddress inLength registers with
      | some result => result.map .wrapped
      | none => .error .kShapeMismatch

/-- The answer, with the registers and the memory that the guest goes on with. -/
structure Answer where
  outcome : Outcome
  registers : Fin 8 → Word
  memory : DataMemory

/-- The end of `TryBatchPortIoDelayLoop` for an inline loop. -/
def batchDirect (loop : DirectLoop) (registers : Fin 8 → Word) (memory : DataMemory) : Answer :=
  let current := (registers loop.counter).toInt
  let finalIterationValue := loop.limit.toInt - loop.step
  let remaining := (finalIterationValue - current) * loop.step
  if remaining < 1 then ⟨.kNothingToSkip, registers, memory⟩
  else
    ⟨.kBatched, Function.update registers loop.counter (BitVec.ofInt 32 finalIterationValue), memory⟩

/-- The end of `TryBatchWrappedCallLoop`. -/
def batchWrapped (context : Context) (loop : WrappedLoop) (registers : Fin 8 → Word)
    (memory : DataMemory) : Answer :=
  let current := loop.savedEdx.toInt
  let finalSavedValue := loop.limit.toInt - 2
  let skipped := finalSavedValue - current
  if skipped < 1 then ⟨.kNothingToSkip, registers, memory⟩
  else if !context.storeSucceeds (registers 4) then ⟨.kUnreadable, registers, memory⟩
  else ⟨.kBatched, registers, memory.setWord (registers 4) (BitVec.ofInt 32 finalSavedValue)⟩

/-- `TryBatchPortIoDelayLoop`; the source's answer is true for `kBatched`. -/
def tryBatchPortIoDelayLoop (context : Context) (code memory : DataMemory) (inAddress inLength : Word)
    (registers : Fin 8 → Word) (guestBytesReadable : Bool) : Answer :=
  match matchLoop context code memory inAddress inLength registers guestBytesReadable with
  | .error outcome => ⟨outcome, registers, memory⟩
  | .ok (.direct loop) => batchDirect loop registers memory
  | .ok (.wrapped loop) => batchWrapped context loop registers memory

/-! ## The body of an inline loop -/

/-- Zero some registers. -/
def zeroAll (zeroed : List (Fin 8)) (registers : Fin 8 → Word) : Fin 8 → Word :=
  fun r => if r ∈ zeroed then 0 else registers r

theorem zeroAll_of_mem {zeroed : List (Fin 8)} {registers : Fin 8 → Word} {r : Fin 8} (h : r ∈ zeroed) :
    zeroAll zeroed registers r = 0 := if_pos h

theorem zeroAll_of_not_mem {zeroed : List (Fin 8)} {registers : Fin 8 → Word} {r : Fin 8}
    (h : r ∉ zeroed) : zeroAll zeroed registers r = registers r := if_neg h

@[simp] theorem zeroAll_nil (registers : Fin 8 → Word) : zeroAll [] registers = registers := by
  funext r
  simp [zeroAll]

theorem zeroAll_cons (r : Fin 8) (zeroed : List (Fin 8)) (registers : Fin 8 → Word) :
    zeroAll zeroed (Function.update registers r 0) = zeroAll (r :: zeroed) registers := by
  funext j
  unfold zeroAll
  by_cases hj : j = r
  · subst hj
    simp
  · simp [hj]

section
variable {code : DataMemory} {a : Word}

theorem inc_byte : ∀ b : Byte, 0x40 ≤ b ∧ b ≤ 0x47 → b &&& 0xF8 = 0x40 ∧ registerOf b = registerOf (b - 0x40) := by
  decide

theorem dec_byte : ∀ b : Byte, 0x48 ≤ b ∧ b ≤ 0x4F →
    b &&& 0xF8 ≠ 0x40 ∧ b &&& 0xF8 = 0x48 ∧ registerOf b = registerOf (b - 0x48) := by
  decide

theorem decodeInsn_inc (h : 0x40 ≤ code a ∧ code a ≤ 0x47) :
    decodeInsn code a = some (.inc (registerOf (code a - 0x40)), 1) := by
  obtain ⟨hmask, hreg⟩ := inc_byte _ h
  unfold decodeInsn
  rw [if_pos hmask, hreg]

theorem decodeInsn_dec (h : 0x48 ≤ code a ∧ code a ≤ 0x4F) :
    decodeInsn code a = some (.dec (registerOf (code a - 0x48)), 1) := by
  obtain ⟨hinc, hmask, hreg⟩ := dec_byte _ h
  unfold decodeInsn
  rw [if_neg hinc, if_pos hmask, hreg]

/-- SUB or XOR of a register with itself. -/
theorem decodeInsn_zero (h : code a = 0x29 ∨ code a = 0x31) (hmod : code (a + 1) &&& 0xC0 = 0xC0)
    (hsame : registerOf (code (a + 1) >>> 3) = registerOf (code (a + 1))) :
    decodeInsn code a = some (.sub (registerOf (code (a + 1))) (registerOf (code (a + 1))), 2) ∨
      decodeInsn code a = some (.xor (registerOf (code (a + 1))) (registerOf (code (a + 1))), 2) := by
  unfold decodeInsn registerForm
  rcases h with h | h
  · left
    rw [h, hmod, hsame]
    rfl
  · right
    rw [h, hmod, hsame]
    rfl

variable {ports : Ports} {inside : Word → Prop}

/-- Steps of the machine inside a set of addresses. -/
abbrev Runs (code : DataMemory) (ports : Ports) (inside : Word → Prop) : Machine → Machine → Prop :=
  Steps (Machine.step code ports) fun s => inside s.eip

theorem runs_one {s : Machine} {i : Insn} {length : Word} (hinside : inside s.eip)
    (hdecode : decodeInsn code s.eip = some (i, length)) :
    Runs code ports inside s (s.execute ports (s.eip + length) i) :=
  Steps.one hinside (Machine.step_of_decode hdecode)

theorem runs_to {s t : Machine} {i : Insn} {length : Word} (hinside : inside s.eip)
    (hdecode : decodeInsn code s.eip = some (i, length)) (ht : s.execute ports (s.eip + length) i = t) :
    Runs code ports inside s t :=
  ht ▸ runs_one hinside hdecode

/-- A zeroing instruction of the body. -/
theorem runs_zero {s : Machine} (hinside : inside s.eip) (h : code s.eip = 0x29 ∨ code s.eip = 0x31)
    (hmod : code (s.eip + 1) &&& 0xC0 = 0xC0)
    (hsame : registerOf (code (s.eip + 1) >>> 3) = registerOf (code (s.eip + 1))) :
    ∃ f, Runs code ports inside s
      ⟨s.eip + 2, Function.update s.registers (registerOf (code (s.eip + 1))) 0, f, s.memory⟩ := by
  rcases decodeInsn_zero h hmod hsame with hdecode | hdecode
  · have hrun : Runs code ports inside s _ := runs_one hinside hdecode
    rw [Machine.execute, sub_self] at hrun
    exact ⟨_, hrun⟩
  · have hrun : Runs code ports inside s _ := runs_one hinside hdecode
    rw [Machine.execute, BitVec.xor_self] at hrun
    exact ⟨_, hrun⟩

theorem decodeBodyBytes_le {destination : Fin 8} {n counters counters' : ℕ} {body body' : LoopBody}
    (h : decodeBodyBytes code destination n a body counters = some (body', counters')) :
    counters ≤ counters' := by
  fun_induction decodeBodyBytes code destination n a body counters with
  | case1 => simp_all
  | case3 _ _ _ _ _ _ _ _ ih | case5 _ _ _ _ _ _ _ _ _ ih => exact (Nat.le_succ _).trans (ih h)
  | case9 => rename_i ih; exact ih h
  | case11 => rename_i ih; exact ih h
  | case2 | case4 | case6 | case7 | case8 | case10 | case12 => cases h

/-- The code from `a` on for `n` bytes does what `effect` says to the registers. -/
def Effects (code : DataMemory) (ports : Ports) (inside : Word → Prop) (a : Word) (n : ℕ)
    (effect : (Fin 8 → Word) → Fin 8 → Word) : Prop :=
  ∀ s : Machine, s.eip = a →
    ∃ f, Runs code ports inside s ⟨a + BitVec.ofNat 32 n, effect s.registers, f, s.memory⟩

theorem Effects.nil : Effects code ports inside a 0 (zeroAll []) := by
  rintro s rfl
  refine ⟨s.flags, ?_⟩
  have hsame : (⟨s.eip + BitVec.ofNat 32 0, zeroAll [] s.registers, s.flags, s.memory⟩ : Machine) = s := by
    simp
  rw [hsame]
  exact Steps.refl s

/-- An instruction in front. -/
theorem Effects.cons {n k : ℕ} {g effect : (Fin 8 → Word) → Fin 8 → Word}
    (hfirst : ∀ s : Machine, s.eip = a →
      ∃ f, Runs code ports inside s ⟨a + BitVec.ofNat 32 k, g s.registers, f, s.memory⟩)
    (hrest : Effects code ports inside (a + BitVec.ofNat 32 k) n effect) :
    Effects code ports inside a (n + k) fun r => effect (g r) := by
  intro s hs
  obtain ⟨f, hrun⟩ := hfirst s hs
  obtain ⟨f', hrun'⟩ := hrest ⟨a + BitVec.ofNat 32 k, g s.registers, f, s.memory⟩ rfl
  refine ⟨f', hrun.trans ?_⟩
  rw [BitVec.ofNat_add, add_comm (BitVec.ofNat 32 n), ← add_assoc]
  exact hrun'

theorem Effects.zero {n : ℕ} {effect : (Fin 8 → Word) → Fin 8 → Word}
    (hinside : ∀ k < n + 2, inside (a + BitVec.ofNat 32 k)) (h : code a = 0x29 ∨ code a = 0x31)
    (hmod : ¬(code (a + 1) &&& 0xC0 ≠ 0xC0))
    (hsame : ¬(registerOf (code (a + 1) >>> 3) ≠ registerOf (code (a + 1))))
    (hrest : Effects code ports inside (a + 2) n effect) :
    Effects code ports inside a (n + 2)
      fun r => effect (Function.update r (registerOf (code (a + 1))) 0) := by
  refine Effects.cons (k := 2) ?_ hrest
  rintro s rfl
  have hin : inside s.eip := by simpa using hinside 0 (by omega)
  exact runs_zero hin h (not_not.mp hmod) (not_not.mp hsame)

theorem inside_drop {n k : ℕ} (hinside : ∀ j < n + k, inside (a + BitVec.ofNat 32 j)) :
    ∀ j < n, inside (a + BitVec.ofNat 32 k + BitVec.ofNat 32 j) := by
  intro j hj
  have hin := hinside (k + j) (by omega)
  rwa [BitVec.ofNat_add, ← add_assoc] at hin

/-- What follows the step of the counter only zeroes other registers. -/
theorem decodeBodyBytes_after {n counters : ℕ} {body body' : LoopBody}
    (hcounters : counters = 1) (hcounter : body'.counterRegister ≠ 0)
    (h : decodeBodyBytes code 0 n a body counters = some (body', 1))
    (hinside : ∀ k < n, inside (a + BitVec.ofNat 32 k)) :
    body'.counterRegister = body.counterRegister ∧ body'.step = body.step ∧
      ∃ zeroed : List (Fin 8), body.counterRegister ∉ zeroed ∧
        (body'.zeroesDestination = true → body.zeroesDestination = true ∨ 0 ∈ zeroed) ∧
        Effects code ports inside a n (zeroAll zeroed) := by
  fun_induction decodeBodyBytes code 0 n a body counters with
  | case1 =>
    rw [Option.some.injEq, Prod.mk.injEq] at h
    obtain ⟨rfl, -⟩ := h
    exact ⟨rfl, rfl, [], List.not_mem_nil, .inl, Effects.nil⟩
  | case3 _ _ _ _ _ _ _ _ ih | case5 _ _ _ _ _ _ _ _ _ ih =>
    -- a second step would make two counters
    have := decodeBodyBytes_le h
    omega
  | case9 =>
    rename_i address _ _ _ _ _ hopcode n _ _ _ hmod hsame htarget ih
    obtain ⟨hreg, hstep, zeroed, hnot, -, hrest⟩ := ih hcounters h (inside_drop hinside)
    refine ⟨hreg, hstep, 0 :: zeroed, ?_, fun _ => .inr List.mem_cons_self, ?_⟩
    · rw [List.mem_cons]
      exact fun hbad => hbad.elim (hreg ▸ hcounter) hnot
    · have hall := Effects.zero hinside hopcode hmod hsame hrest
      rw [show registerOf (code (address + 1)) = 0 from htarget] at hall
      simpa only [zeroAll_cons] using hall
  | case11 =>
    rename_i address _ _ _ _ _ hopcode n _ _ _ hmod hsame htarget hother ih
    obtain ⟨hreg, hstep, zeroed, hnot, hzero, hrest⟩ := ih hcounters h (inside_drop hinside)
    refine ⟨hreg, hstep, registerOf (code (address + 1)) :: zeroed, ?_, fun hz => (hzero hz).imp_right (List.mem_cons_of_mem _), ?_⟩
    · rw [List.mem_cons]
      rintro (hbad | hbad)
      · exact hother ⟨hbad.symm, by omega⟩
      · exact hnot hbad
    · have hall := Effects.zero hinside hopcode hmod hsame hrest
      simpa only [zeroAll_cons] using hall
  | case2 | case4 | case6 | case7 | case8 | case10 | case12 => cases h

/-- The body: zeroing before the step, the step of the counter, zeroing of other registers. -/
def bodyEffect (before : List (Fin 8)) (counter : Fin 8) (step : ℤ) (after : List (Fin 8))
    (registers : Fin 8 → Word) : Fin 8 → Word :=
  let r := zeroAll before registers
  zeroAll after (Function.update r counter (r counter + BitVec.ofInt 32 step))

theorem bodyEffect_cons (r : Fin 8) (before : List (Fin 8)) (counter : Fin 8) (step : ℤ)
    (after : List (Fin 8)) :
    (fun registers => bodyEffect before counter step after (Function.update registers r 0)) =
      bodyEffect (r :: before) counter step after := by
  funext registers
  simp only [bodyEffect, zeroAll_cons]

theorem bodyEffect_nil (counter : Fin 8) (step : ℤ) (after : List (Fin 8)) :
    bodyEffect [] counter step after = fun registers =>
      zeroAll after (Function.update registers counter (registers counter + BitVec.ofInt 32 step)) := by
  funext registers
  simp only [bodyEffect, zeroAll_nil]

/-- The code of `n` bytes is a body with the given counter. -/
def IsBody (code : DataMemory) (ports : Ports) (inside : Word → Prop) (a : Word) (n : ℕ)
    (zeroes : Bool) (body' : LoopBody) : Prop :=
  (body'.step = 1 ∨ body'.step = -1) ∧
    ∃ before after : List (Fin 8), body'.counterRegister ∉ after ∧
      (body'.zeroesDestination = true → zeroes = true ∨ 0 ∈ before ∨ 0 ∈ after) ∧
      Effects code ports inside a n (bodyEffect before body'.counterRegister body'.step after)

/-- The step of the counter, INC or DEC, in front of the rest. -/
theorem isBody_step {n : ℕ} {body body' : LoopBody} {reg : Fin 8} {d : ℤ} (hd : d = 1 ∨ d = -1)
    (hfirst : ∀ s : Machine, s.eip = a → ∃ f, Runs code ports inside s
      ⟨a + 1, Function.update s.registers reg (s.registers reg + BitVec.ofInt 32 d), f, s.memory⟩)
    (hcounter : body'.counterRegister ≠ 0)
    (h : decodeBodyBytes code 0 n (a + 1) { body with counterRegister := reg, step := d } 1 = some (body', 1))
    (hinside : ∀ k < n + 1, inside (a + BitVec.ofNat 32 k)) :
    IsBody code ports inside a (n + 1) body.zeroesDestination body' := by
  obtain ⟨hreg, hstep, zeroed, hnot, hzero, hrest⟩ :=
    decodeBodyBytes_after rfl hcounter h (inside_drop hinside)
  simp only at hreg hstep hnot hzero
  refine ⟨hstep ▸ hd, [], zeroed, hreg ▸ hnot, fun hz => (hzero hz).imp_right .inr, ?_⟩
  rw [hreg, hstep, bodyEffect_nil]
  exact Effects.cons (k := 1) (g := fun r => Function.update r reg (r reg + BitVec.ofInt 32 d)) hfirst hrest

theorem decodeBodyBytes_before {n counters : ℕ} {body body' : LoopBody}
    (hcounters : counters = 0) (hcounter : body'.counterRegister ≠ 0)
    (h : decodeBodyBytes code 0 n a body counters = some (body', 1))
    (hinside : ∀ k < n, inside (a + BitVec.ofNat 32 k)) :
    IsBody code ports inside a n body.zeroesDestination body' := by
  fun_induction decodeBodyBytes code 0 n a body counters with
  | case1 =>
    rw [Option.some.injEq, Prod.mk.injEq] at h
    omega
  | case3 =>
    rename_i n address body counters _ hopcode reg _ _
    subst hcounters
    refine isBody_step (.inl rfl) ?_ hcounter h hinside
    rintro s rfl
    have hin : inside s.eip := by simpa using hinside 0 (by omega)
    exact ⟨_, runs_one hin (decodeInsn_inc hopcode)⟩
  | case5 =>
    rename_i n address body counters _ _ hopcode reg _ _
    subst hcounters
    refine isBody_step (.inr rfl) ?_ hcounter h hinside
    rintro s rfl
    have hin : inside s.eip := by simpa using hinside 0 (by omega)
    have hrun : Runs code ports inside s _ := runs_one hin (decodeInsn_dec hopcode)
    refine ⟨decFlags s.flags (s.registers reg), ?_⟩
    have hminus : BitVec.ofInt 32 (-1) = -1 := by decide
    rw [hminus, ← sub_eq_add_neg]
    exact hrun
  | case9 =>
    rename_i address _ _ _ _ _ hopcode n _ _ _ hmod hsame htarget ih
    obtain ⟨hstep, before, after, hnot, -, hrest⟩ := ih hcounters h (inside_drop hinside)
    refine ⟨hstep, 0 :: before, after, hnot, fun _ => .inr (.inl List.mem_cons_self), ?_⟩
    have hall := Effects.zero hinside hopcode hmod hsame hrest
    rw [show registerOf (code (address + 1)) = 0 from htarget, bodyEffect_cons] at hall
    exact hall
  | case11 =>
    rename_i address _ _ _ _ _ hopcode n _ _ _ hmod hsame htarget hother ih
    obtain ⟨hstep, before, after, hnot, hzero, hrest⟩ := ih hcounters h (inside_drop hinside)
    refine ⟨hstep, registerOf (code (address + 1)) :: before, after, hnot, ?_, ?_⟩
    · intro hz
      rcases hzero hz with hz | hz | hz
      · exact .inl hz
      · exact .inr (.inl (List.mem_cons_of_mem _ hz))
      · exact .inr (.inr hz)
    · have hall := Effects.zero hinside hopcode hmod hsame hrest
      rw [bodyEffect_cons] at hall
      exact hall
  | case2 | case4 | case6 | case7 | case8 | case10 | case12 => cases h

/-! ## The end of an inline loop -/

theorem readCompare_spec {counter : Fin 8} {limit branch : Word}
    (h : readCompare code a = some (counter, limit, branch)) :
    ∃ k, (k = 3 ∨ k = 6) ∧ decodeInsn code a = some (.cmpImm counter limit, BitVec.ofNat 32 k) ∧
      branch = a + BitVec.ofNat 32 k := by
  unfold readCompare at h
  split_ifs at h with hshort hlong
  · simp only [Option.some.injEq, Prod.mk.injEq] at h
    obtain ⟨rfl, rfl, rfl⟩ := h
    refine ⟨3, .inl rfl, ?_, rfl⟩
    unfold decodeInsn
    simpa [hshort.1] using hshort.2
  · simp only [Option.some.injEq, Prod.mk.injEq] at h
    obtain ⟨rfl, rfl, rfl⟩ := h
    refine ⟨6, .inr rfl, ?_, rfl⟩
    unfold decodeInsn
    simpa [hlong.1] using hlong.2

theorem decodeInsn_short {b : Byte} {c : Condition} (hcode : code a = b) (hbyte : b &&& 0xFC = 0x7C)
    (hc : conditionOf b = some c) :
    decodeInsn code a = some (.jcc c ((code (a + 1)).signExtend 32), 2) := by
  have hnot : ∀ b : Byte, b &&& 0xFC = 0x7C → b &&& 0xF8 ≠ 0x40 ∧ b &&& 0xF8 ≠ 0x48 ∧ b &&& 0xF8 ≠ 0x50 ∧
      b &&& 0xF8 ≠ 0x58 ∧ b &&& 0xF8 ≠ 0xB8 ∧ b ≠ 0x29 ∧ b ≠ 0x31 ∧ b ≠ 0x89 ∧ b ≠ 0x83 ∧ b ≠ 0x81 := by
    decide
  obtain ⟨h1, h2, h3, h4, h5, h6, h7, h8, h9, h10⟩ := hnot b hbyte
  unfold decodeInsn
  simp only [hcode, h1, h2, h3, h4, h5, h6, h7, h8, h9, h10, hbyte, hc, false_and, if_false, if_true, Option.map_some]

theorem decodeInsn_near {b : Byte} {c : Condition} (hbyte : code a = 0x0F) (hcode : code (a + 1) = b)
    (hsecond : b &&& 0xFC = 0x8C) (hc : conditionOf b = some c) :
    decodeInsn code a = some (.jcc c (code.getWord (a + 2)), 6) := by
  subst hcode
  unfold decodeInsn
  simpa [hbyte] using ⟨hsecond, hc⟩

theorem decodeInsn_jmp (hbyte : code a = 0xEB) :
    decodeInsn code a = some (.jmp ((code (a + 1)).signExtend 32), 2) := by
  unfold decodeInsn
  simp [hbyte]

/-- The branch at `branch` goes back to `target` on a condition and else to `out`. -/
structure Closes (code : DataMemory) (ports : Ports) (inside : Word → Prop)
    (branch target out : Word) (c : Condition) : Prop where
  back : ∀ s : Machine, s.eip = branch → c.holds s.flags = true →
    Runs code ports inside s { s with eip := target }
  leave : ∀ s : Machine, s.eip = branch → c.holds s.flags = false →
    Runs code ports inside s { s with eip := out }

theorem closes_short {c : Condition} (hinside : inside a)
    (hdecode : decodeInsn code a = some (.jcc c ((code (a + 1)).signExtend 32), 2)) :
    Closes code ports inside a (a + 2 + (code (a + 1)).signExtend 32) (a + 2) c where
  back := by
    rintro s rfl hc
    have hrun : Runs code ports inside s _ := runs_one hinside hdecode
    rwa [Machine.execute, if_pos hc] at hrun
  leave := by
    rintro s rfl hc
    have hrun : Runs code ports inside s _ := runs_one hinside hdecode
    rwa [Machine.execute, if_neg (by simp [hc])] at hrun

/-- The condition under which an inverted branch stays in the loop. -/
def goesOn : Condition → Condition
  | .l => .ge
  | .ge => .l
  | .le => .g
  | .g => .le

theorem holds_goesOn (f : Flags) (c : Condition) : (goesOn c).holds f = !c.holds f := by
  obtain ⟨cf, pf, af, zf, sf, of⟩ := f
  cases c <;> cases zf <;> cases sf <;> cases of <;> rfl

theorem closes_inverted {c : Condition} {d length : Word} (hinside : inside a) (hback : inside (a + length))
    (hdecode : decodeInsn code a = some (.jcc c d, length)) (hjmp : code (a + length) = 0xEB) :
    Closes code ports inside a (a + length + 2 + (code (a + length + 1)).signExtend 32) (a + length + d)
      (goesOn c) where
  back := by
    rintro s rfl hc
    rw [holds_goesOn, Bool.not_eq_true'] at hc
    have hrun : Runs code ports inside s _ := runs_one hinside hdecode
    rw [Machine.execute, if_neg (by simp [hc])] at hrun
    exact hrun.trans (runs_one (s := { s with eip := s.eip + length }) hback (decodeInsn_jmp hjmp))
  leave := by
    rintro s rfl hc
    rw [holds_goesOn, Bool.not_eq_false'] at hc
    have hrun : Runs code ports inside s _ := runs_one hinside hdecode
    rwa [Machine.execute, if_pos hc] at hrun

theorem exists_ofNat_of_toInt_pos {d : Word} (h : 0 < d.toInt) :
    ∃ x : ℕ, 1 ≤ x ∧ x < 2 ^ 31 ∧ d = BitVec.ofNat 32 x := by
  rw [BitVec.toInt_eq_toNat_cond] at h
  have hlt := d.isLt
  split_ifs at h with hsmall
  · exact ⟨d.toNat, by omega, by omega, by simp⟩
  · omega

theorem toInt_signExtend_byte (b : Byte) : (b.signExtend 32).toInt = b.toInt :=
  BitVec.toInt_signExtend_of_le (by decide)

/-- The inverted form of the closing branch. -/
theorem readInverted_spec {edge : BackEdge} {length : ℕ} {d : Word} {inverted : Byte} {c : Condition}
    (h : readInverted code a (BitVec.ofNat 32 length) d.toInt inverted = some edge) (hinside : inside a)
    (hback : inside edge.address) (hlength : length ≤ 6)
    (hdecode : decodeInsn code a = some (.jcc c d, BitVec.ofNat 32 length)) :
    ∃ l x : ℕ, l ≤ 6 ∧ 1 ≤ x ∧ x < 2 ^ 31 ∧ edge.address = a + BitVec.ofNat 32 l ∧
      Closes code ports inside a (edge.address + 2 + edge.displacement.signExtend 32)
        (edge.address + BitVec.ofNat 32 x) (goesOn c) := by
  unfold readInverted at h
  by_cases hbad : d.toInt ≤ 0 ∨ code (a + BitVec.ofNat 32 length) ≠ 0xEB
  · rw [if_pos hbad] at h
    cases h
  rw [if_neg hbad, Option.some.injEq] at h
  rw [not_or, not_le, not_not] at hbad
  subst h
  obtain ⟨x, hx1, hx, rfl⟩ := exists_ofNat_of_toInt_pos hbad.1
  exact ⟨length, x, hlength, hx1, hx, rfl, closes_inverted hinside hback hdecode hbad.2⟩

theorem readInverted_address {edge : BackEdge} {length : Word} {d : ℤ} {inverted : Byte}
    (h : readInverted code a length d inverted = some edge) : edge.address = a + length := by
  unfold readInverted at h
  by_cases hbad : d ≤ 0 ∨ code (a + length) ≠ 0xEB
  · rw [if_pos hbad] at h
    cases h
  · rw [if_neg hbad, Option.some.injEq] at h
    rw [← h]

theorem readBackEdge_address {edge : BackEdge} (h : readBackEdge code a = some edge) :
    ∃ l : ℕ, l ≤ 6 ∧ edge.address = a + BitVec.ofNat 32 l := by
  unfold readBackEdge at h
  split_ifs at h
  · exact ⟨2, by decide, readInverted_address h⟩
  · exact ⟨6, by decide, readInverted_address h⟩
  · rw [Option.some.injEq] at h
    exact ⟨0, by decide, by simp [← h]⟩

/-- The branch that was recognised, in either form. -/
theorem readBackEdge_spec {edge : BackEdge} (h : readBackEdge code a = some edge)
    (hcondition : edge.condition = 0x7C ∨ edge.condition = 0x7E) (hinside : inside a)
    (hback : inside edge.address) :
    ∃ c : Condition, (c = .l ∨ c = .le) ∧ ∃ l x : ℕ, l ≤ 6 ∧ 1 ≤ x ∧ x < 2 ^ 31 ∧
      edge.address = a + BitVec.ofNat 32 l ∧
      Closes code ports inside a (edge.address + 2 + edge.displacement.signExtend 32)
        (edge.address + BitVec.ofNat 32 x) c := by
  unfold readBackEdge at h
  split_ifs at h with hshort hnear
  · rw [← toInt_signExtend_byte] at h
    rcases hshort with hbyte | hbyte
    · have hdecode := decodeInsn_short (c := .ge) hbyte (by decide) (by decide)
      exact ⟨.l, .inl rfl, @readInverted_spec _ _ _ _ _ 2 _ _ _ h hinside hback (by decide) hdecode⟩
    · have hdecode := decodeInsn_short (c := .g) hbyte (by decide) (by decide)
      exact ⟨.le, .inr rfl, @readInverted_spec _ _ _ _ _ 2 _ _ _ h hinside hback (by decide) hdecode⟩
  · obtain ⟨hbyte, hsecond | hsecond⟩ := hnear
    · have hdecode := decodeInsn_near (c := .ge) hbyte hsecond (by decide) (by decide)
      exact ⟨.l, .inl rfl, @readInverted_spec _ _ _ _ _ 6 _ _ _ h hinside hback (by decide) hdecode⟩
    · have hdecode := decodeInsn_near (c := .g) hbyte hsecond (by decide) (by decide)
      exact ⟨.le, .inr rfl, @readInverted_spec _ _ _ _ _ 6 _ _ _ h hinside hback (by decide) hdecode⟩
  · rw [Option.some.injEq] at h
    subst h
    simp only at hcondition
    rcases hcondition with hbyte | hbyte
    · have hdecode := decodeInsn_short (c := .l) hbyte (by decide) (by decide)
      exact ⟨.l, .inl rfl, 0, 2, by decide, by decide, by decide, by simp, closes_short hinside hdecode⟩
    · have hdecode := decodeInsn_short (c := .le) hbyte (by decide) (by decide)
      exact ⟨.le, .inr rfl, 0, 2, by decide, by decide, by decide, by simp, closes_short hinside hdecode⟩

/-- The offsets of a stretch of code. -/
theorem offset_le_iff {start last : Word} {m j : ℕ} (hlast : last = start + BitVec.ofNat 32 m)
    (hm : m < 2 ^ 32) (hj : j < 2 ^ 32) :
    (start + BitVec.ofNat 32 j - start).toNat ≤ (last - start).toNat ↔ j ≤ m := by
  rw [hlast, add_sub_cancel_left, add_sub_cancel_left, BitVec.toNat_ofNat, BitVec.toNat_ofNat,
    Nat.mod_eq_of_lt hj, Nat.mod_eq_of_lt hm]

/-- Inside an inline loop: from its body to its jump back. -/
def DirectLoop.Inside (loop : DirectLoop) (a : Word) : Prop :=
  (a - loop.bodyStart).toNat ≤ (loop.backEdge - loop.bodyStart).toNat

/-- What is known of an inline loop that was recognised around an IN of the given place. -/
structure Recognised (code : DataMemory) (ports : Ports) (loop : DirectLoop) (inAddress compare branch : Word) :
    Prop where
  counter_ne : loop.counter ≠ 0
  counter_ne_port : loop.counter ≠ 2
  inside_in : loop.Inside inAddress
  inside_compare : loop.Inside compare
  step_eq : loop.step = 1 ∨ loop.step = -1
  body : ∃ before after : List (Fin 8), loop.counter ∉ after ∧ (0 ∈ before ∨ 0 ∈ after) ∧
    ∀ s : Machine, s.eip = loop.bodyStart → ∃ f, Runs code ports loop.Inside s
      ⟨inAddress, bodyEffect before loop.counter loop.step after s.registers, f, s.memory⟩
  closes : ∃ c : Condition, (c = .l ∨ c = .le) ∧ ∃ out, ¬loop.Inside out ∧
    Closes code ports loop.Inside branch loop.bodyStart out c

theorem decodeLoopBody_spec {bodyStart bodyEnd : Word} {body : LoopBody}
    (h : decodeLoopBody code bodyStart bodyEnd 0 = some body)
    (hinside : ∀ k < (bodyEnd - bodyStart).toNat, inside (bodyStart + BitVec.ofNat 32 k)) :
    IsBody code ports inside bodyStart (bodyEnd - bodyStart).toNat false body := by
  unfold decodeLoopBody at h
  split at h
  · cases h
  · rename_i body' counters hbytes
    split_ifs at h with hbad
    rw [not_or, not_not] at hbad
    rw [Option.some.injEq] at h
    subst h
    obtain ⟨rfl, hcounter⟩ := hbad
    exact decodeBodyBytes_before rfl hcounter hbytes hinside

variable (ports) in
theorem matchDirect_spec {inAddress limit branch : Word} {counter : Fin 8} {loop : DirectLoop} {len k : ℕ}
    (h : matchDirect code inAddress counter limit branch = .ok loop) (hlen : len ≤ 2) (hk : k ≤ 6)
    (hbranch : branch = inAddress + BitVec.ofNat 32 len + BitVec.ofNat 32 k) :
    loop.counter = counter ∧ loop.limit = limit ∧
      Recognised code ports loop inAddress (inAddress + BitVec.ofNat 32 len) branch := by
  unfold matchDirect at h
  cases hedge : readBackEdge code branch with
  | none =>
    rw [hedge] at h
    cases h
  | some edge =>
    simp only [hedge] at h
    split_ifs at h with hcondition hplace hconflict
    cases hbody : decodeLoopBody code (edge.address + 2 + edge.displacement.signExtend 32) inAddress 0 with
    | none =>
      rw [hbody] at h
      cases h
    | some body =>
      simp only [hbody] at h
      split_ifs at h with hcounter hzero
      rw [Except.ok.injEq] at h
      rw [not_not] at hcounter
      subst hcounter
      -- all of the loop's code lies within a few bytes behind the start of its body
      obtain ⟨n, hn⟩ : ∃ n, (inAddress - (edge.address + 2 + edge.displacement.signExtend 32)).toNat = n :=
        ⟨_, rfl⟩
      have hn64 : n ≤ 64 := by
        rw [← hn]
        have hle : ¬kMaxLoopBodyBytes < inAddress - (edge.address + 2 + edge.displacement.signExtend 32) :=
          fun hbad => hplace (.inr (.inr hbad))
        simpa [BitVec.lt_def, kMaxLoopBodyBytes] using hle
      have hstart : loop.bodyStart = edge.address + 2 + edge.displacement.signExtend 32 := by rw [← h]
      have hback : loop.backEdge = edge.address := by rw [← h]
      rw [← hstart] at hn hbody
      have hin : inAddress = loop.bodyStart + BitVec.ofNat 32 n := by
        rw [← hn, BitVec.ofNat_toNat, BitVec.setWidth_eq, add_sub_cancel]
      obtain ⟨l, hl, haddress⟩ := readBackEdge_address hedge
      have hedgeAt : loop.backEdge = loop.bodyStart + BitVec.ofNat 32 (n + len + k + l) := by
        rw [hback, haddress, hbranch, hin]
        simp only [BitVec.ofNat_add, add_assoc]
      have hinside : ∀ j ≤ n + len + k + l, loop.Inside (loop.bodyStart + BitVec.ofNat 32 j) := by
        intro j hj
        exact (offset_le_iff hedgeAt (by omega) (by omega)).mpr hj
      have hbranchAt : branch = loop.bodyStart + BitVec.ofNat 32 (n + len + k) := by
        rw [hbranch, hin]
        simp only [BitVec.ofNat_add, add_assoc]
      have hzeroes : body.zeroesDestination = true := by simpa using hzero
      have hedgeInside : loop.Inside edge.address := by
        rw [← hback, hedgeAt]
        exact hinside _ le_rfl
      have hbranchInside : loop.Inside branch := by
        rw [hbranchAt]
        exact hinside _ (by omega)
      obtain ⟨hstep, before, after, hafter, hzeroed, hruns⟩ : IsBody code ports loop.Inside loop.bodyStart
          (inAddress - loop.bodyStart).toNat false body :=
        decodeLoopBody_spec hbody fun j hj => hinside j (by rw [hn] at hj; omega)
      obtain ⟨c, hc, -, x, -, hx1, hx, -, hcloses⟩ : ∃ c : Condition, (c = .l ∨ c = .le) ∧ ∃ l x : ℕ,
          l ≤ 6 ∧ 1 ≤ x ∧ x < 2 ^ 31 ∧ edge.address = branch + BitVec.ofNat 32 l ∧
          Closes code ports loop.Inside branch (edge.address + 2 + edge.displacement.signExtend 32)
            (edge.address + BitVec.ofNat 32 x) c :=
        readBackEdge_spec hedge (by tauto) hbranchInside hedgeInside
      have hout : ¬loop.Inside (edge.address + BitVec.ofNat 32 x) := by
        rw [← hback, hedgeAt, add_assoc, ← BitVec.ofNat_add, DirectLoop.Inside,
          offset_le_iff hedgeAt (by omega) (by omega)]
        omega
      have hcounterEq : loop.counter = body.counterRegister := by rw [← h]
      have hstepEq : loop.step = body.step := by rw [← h]
      refine ⟨hcounterEq, by rw [← h], ?_⟩
      refine ⟨?_, ?_, ?_, ?_, hstepEq ▸ hstep, ⟨before, after, ?_, ?_, ?_⟩, ⟨c, hc, _, hout, ?_⟩⟩
      · rw [hcounterEq]
        exact fun hbad => hconflict (.inl hbad)
      · rw [hcounterEq]
        exact fun hbad => hconflict (.inr hbad)
      · rw [hin]
        exact hinside n (by omega)
      · rw [hin, add_assoc, ← BitVec.ofNat_add]
        exact hinside _ (by omega)
      · rw [hcounterEq]
        exact hafter
      · exact (hzeroed hzeroes).resolve_left (by decide)
      · intro s hs
        obtain ⟨f, hrun⟩ := hruns s hs
        rw [hn, ← hin, ← hcounterEq, ← hstepEq] at hrun
        exact ⟨f, hrun⟩
      · rw [hstart]
        exact hcloses

/-! ## Turns of an inline loop -/

/-- One turn of the loop, from its branch to its branch. -/
def turn (ports : Ports) (width : PortWidth) (before : List (Fin 8)) (counter : Fin 8) (step : ℤ)
    (after : List (Fin 8)) (registers : Fin 8 → Word) : Fin 8 → Word :=
  let r := bodyEffect before counter step after registers
  Function.update r 0 (inputInto (r 0) (ports width ((r 2).setWidth 16)) width)

section
variable {width : PortWidth} {before after : List (Fin 8)} {counter : Fin 8} {step : ℤ}
  {r r' : Fin 8 → Word}

theorem turn_counter (hcounter : counter ≠ 0) (hafter : counter ∉ after) :
    turn ports width before counter step after r counter =
      (if counter ∈ before then 0 else r counter) + BitVec.ofInt 32 step := by
  unfold turn bodyEffect
  rw [Function.update_of_ne hcounter, zeroAll_of_not_mem hafter, Function.update_self, zeroAll]

theorem turn_other {q : Fin 8} (hq : q ≠ 0) (hcounter : q ≠ counter) (hbefore : q ∉ before)
    (hafter : q ∉ after) : turn ports width before counter step after r q = r q := by
  unfold turn bodyEffect
  rw [Function.update_of_ne hq, zeroAll_of_not_mem hafter, Function.update_of_ne hcounter,
    zeroAll_of_not_mem hbefore]

/-- Zeroed registers do not matter, and neither does a counter that is reset. -/
theorem turn_congr (hsame : ∀ q, q ≠ counter → q ∉ before → q ∉ after → r q = r' q)
    (hcounter : counter ∈ before ∨ r counter = r' counter) :
    turn ports width before counter step after r = turn ports width before counter step after r' := by
  have hstep : zeroAll before r counter = zeroAll before r' counter := by
    rcases hcounter with hin | heq
    · rw [zeroAll_of_mem hin, zeroAll_of_mem hin]
    · unfold zeroAll
      rw [heq]
  have hbody : bodyEffect before counter step after r = bodyEffect before counter step after r' := by
    funext q
    simp only [bodyEffect, hstep]
    by_cases hafter : q ∈ after
    · rw [zeroAll_of_mem hafter, zeroAll_of_mem hafter]
    · rw [zeroAll_of_not_mem hafter, zeroAll_of_not_mem hafter]
      by_cases hq : q = counter
      · rw [hq, Function.update_self, Function.update_self]
      · rw [Function.update_of_ne hq, Function.update_of_ne hq]
        by_cases hbefore : q ∈ before
        · rw [zeroAll_of_mem hbefore, zeroAll_of_mem hbefore]
        · rw [zeroAll_of_not_mem hbefore, zeroAll_of_not_mem hbefore]
          exact hsame q hq hbefore hafter
  unfold turn
  rw [hbody]

/-- The counter after some turns, and the registers that the turns leave alone. -/
theorem turns_spec (hcounter : counter ≠ 0) (hbefore : counter ∉ before) (hafter : counter ∉ after)
    (hzero : 0 ∈ before ∨ 0 ∈ after) (k : ℕ) :
    (turn ports width before counter 1 after)^[k] r counter = r counter + BitVec.ofNat 32 k ∧
      ∀ q, q ≠ counter → q ∉ before → q ∉ after →
        (turn ports width before counter 1 after)^[k] r q = r q := by
  induction k with
  | zero => simp
  | succ k ih =>
    rw [Function.iterate_succ_apply']
    constructor
    · rw [turn_counter hcounter hafter, if_neg hbefore, ih.1, BitVec.ofNat_add, add_assoc]
      rfl
    · intro q hq hqb hqa
      have hq0 : q ≠ 0 := by
        rintro rfl
        exact hzero.elim hqb hqa
      rw [turn_other hq0 hq hqb hqa]
      exact ih.2 q hq hqb hqa

theorem toInt_add_ofNat {w : Word} {k : ℕ} (h : w.toInt + k < 2 ^ 31) :
    (w + BitVec.ofNat 32 k).toInt = w.toInt + k := by
  have hw := w.isLt
  rw [BitVec.toInt_eq_toNat_cond] at h ⊢
  rw [BitVec.toInt_eq_toNat_cond, BitVec.toNat_add, BitVec.toNat_ofNat]
  split_ifs at h ⊢ <;> omega

theorem toInt_ofInt_of_range {z : ℤ} (hlo : -2 ^ 31 ≤ z) (hhi : z < 2 ^ 31) : (BitVec.ofInt 32 z).toInt = z := by
  rw [BitVec.toInt_ofInt]
  exact Int.bmod_eq_of_le (by simpa using hlo) (by simpa using hhi)

theorem toInt_range (w : Word) : -2 ^ 31 ≤ w.toInt ∧ w.toInt < 2 ^ 31 :=
  ⟨BitVec.le_toInt w, BitVec.toInt_lt⟩

/-- The machine between the comparison and the branch. -/
def atBranch (branch : Word) (counter : Fin 8) (limit : Word) (memory : DataMemory)
    (registers : Fin 8 → Word) : Machine :=
  ⟨branch, registers, subFlags (registers counter) limit, memory⟩

variable {loop : DirectLoop} {inAddress inLength branch out : Word} {c : Condition} {k : ℕ} {memory : DataMemory}

section
variable (h : Recognised code ports loop inAddress (inAddress + inLength) branch)
  (hcompare : decodeInsn code (inAddress + inLength) = some (.cmpImm loop.counter loop.limit, BitVec.ofNat 32 k))
  (hbranch : branch = inAddress + inLength + BitVec.ofNat 32 k)
include h hcompare hbranch

theorem runs_compare {s : Machine} (hs : s.eip = inAddress + inLength) :
    Runs code ports loop.Inside s (atBranch branch loop.counter loop.limit s.memory s.registers) := by
  have hrun : Runs code ports loop.Inside s _ :=
    runs_one (hs ▸ h.inside_compare) (hs.symm ▸ hcompare)
  rw [Machine.execute, hs, ← hbranch] at hrun
  exact hrun

variable (hin : decodeInsn code inAddress = some (.input width, inLength))
  (hbody : ∀ s : Machine, s.eip = loop.bodyStart → ∃ f, Runs code ports loop.Inside s
    ⟨inAddress, bodyEffect before loop.counter loop.step after s.registers, f, s.memory⟩)
  (hcloses : Closes code ports loop.Inside branch loop.bodyStart out c)
include hin hbody hcloses

theorem runs_turn (hgoes : c.compares (r loop.counter).toInt loop.limit.toInt = true) :
    Runs code ports loop.Inside (atBranch branch loop.counter loop.limit memory r)
      (atBranch branch loop.counter loop.limit memory
        (turn ports width before loop.counter loop.step after r)) := by
  have hback := hcloses.back (atBranch branch loop.counter loop.limit memory r) rfl
    (by rw [atBranch, holds_subFlags]; exact hgoes)
  refine hback.trans ?_
  obtain ⟨f, hrun⟩ := hbody ⟨loop.bodyStart, r, subFlags (r loop.counter) loop.limit, memory⟩ rfl
  refine Steps.trans hrun ?_
  refine Steps.trans (runs_one h.inside_in hin) ?_
  exact runs_compare h hcompare hbranch rfl

theorem runs_turns (n : ℕ)
    (hgoes : ∀ j < n, c.compares
      ((turn ports width before loop.counter loop.step after)^[j] r loop.counter).toInt loop.limit.toInt = true) :
    Runs code ports loop.Inside (atBranch branch loop.counter loop.limit memory r)
      (atBranch branch loop.counter loop.limit memory
        ((turn ports width before loop.counter loop.step after)^[n] r)) := by
  induction n with
  | zero => exact Steps.refl _
  | succ n ih =>
    rw [Function.iterate_succ_apply']
    refine Steps.trans (ih fun j hj => hgoes j (by omega)) ?_
    exact runs_turn h hcompare hbranch hin hbody hcloses (hgoes n (by omega))

end

theorem compares_of_lt (hc : c = .l ∨ c = .le) {x y : ℤ} (h : x < y) : c.compares x y = true := by
  rcases hc with rfl | rfl
  · exact decide_eq_true h
  · exact decide_eq_true h.le

theorem not_compares_of_gt (hc : c = .l ∨ c = .le) {x y : ℤ} (h : y < x) : c.compares x y = false := by
  rcases hc with rfl | rfl
  · exact decide_eq_false (not_lt.mpr h.le)
  · exact decide_eq_false (not_le.mpr h)

/-- A loop that counts up meets the loop with the advanced counter after the turn that is left. -/
theorem direct_meets (h : Recognised code ports loop inAddress (inAddress + inLength) branch)
    (hin : decodeInsn code inAddress = some (.input width, inLength))
    (hcompare : decodeInsn code (inAddress + inLength) = some (.cmpImm loop.counter loop.limit, BitVec.ofNat 32 k))
    (hbranch : branch = inAddress + inLength + BitVec.ofNat 32 k) (hstep : loop.step = 1)
    (hremaining : 1 ≤ loop.limit.toInt - 1 - (r loop.counter).toInt) :
    ∃ m, Runs code ports loop.Inside (atBranch branch loop.counter loop.limit memory r) m ∧
      Runs code ports loop.Inside (atBranch branch loop.counter loop.limit memory
        (Function.update r loop.counter (BitVec.ofInt 32 (loop.limit.toInt - 1)))) m := by
  obtain ⟨before, after, hafter, hzero, hbody⟩ := h.body
  obtain ⟨c, hc, out, -, hcloses⟩ := h.closes
  obtain ⟨hlo, -⟩ := toInt_range (r loop.counter)
  obtain ⟨-, hhi⟩ := toInt_range loop.limit
  have hfinal : (BitVec.ofInt 32 (loop.limit.toInt - 1)).toInt = loop.limit.toInt - 1 :=
    toInt_ofInt_of_range (by omega) (by omega)
  obtain ⟨r', hr'⟩ : ∃ r', r' = Function.update r loop.counter (BitVec.ofInt 32 (loop.limit.toInt - 1)) := ⟨_, rfl⟩
  rw [← hr']
  have hcounter' : r' loop.counter = BitVec.ofInt 32 (loop.limit.toInt - 1) := by
    rw [hr', Function.update_self]
  have hlast : Runs code ports loop.Inside (atBranch branch loop.counter loop.limit memory r')
      (atBranch branch loop.counter loop.limit memory (turn ports width before loop.counter loop.step after r')) :=
    runs_turn h hcompare hbranch hin hbody hcloses
      (compares_of_lt hc (by rw [hcounter', hfinal]; omega))
  refine ⟨_, ?_, hlast⟩
  have hother : ∀ q, q ≠ loop.counter → r q = r' q := by
    intro q hq
    rw [hr', Function.update_of_ne hq]
  by_cases hreset : loop.counter ∈ before
  · -- the body resets the counter, so that one turn is enough
    rw [← turn_congr (fun q hq _ _ => hother q hq) (.inl hreset)]
    exact runs_turn h hcompare hbranch hin hbody hcloses (compares_of_lt hc (by omega))
  · obtain ⟨n, hn⟩ : ∃ n : ℕ, loop.limit.toInt - 1 - (r loop.counter).toInt = n :=
      ⟨_, (Int.toNat_of_nonneg (by omega)).symm⟩
    have hturns : ∀ j : ℕ,
        (turn ports width before loop.counter loop.step after)^[j] r loop.counter =
            r loop.counter + BitVec.ofNat 32 j ∧
          ∀ q, q ≠ loop.counter → q ∉ before → q ∉ after →
            (turn ports width before loop.counter loop.step after)^[j] r q = r q := by
      rw [hstep]
      exact turns_spec h.counter_ne hreset hafter hzero
    have hcount : ∀ j ≤ n,
        ((turn ports width before loop.counter loop.step after)^[j] r loop.counter).toInt =
          (r loop.counter).toInt + j := by
      intro j hj
      rw [(hturns j).1, toInt_add_ofNat (by omega)]
    have hmeet : turn ports width before loop.counter loop.step after r' =
        (turn ports width before loop.counter loop.step after)^[n + 1] r := by
      rw [Function.iterate_succ_apply']
      refine turn_congr (fun q hq hqb hqa => ?_) (.inr ?_)
      · rw [(hturns n).2 q hq hqb hqa, hother q hq]
      · apply BitVec.eq_of_toInt_eq
        rw [hcounter', hfinal, hcount n le_rfl]
        omega
    rw [hmeet]
    refine runs_turns h hcompare hbranch hin hbody hcloses (n + 1) fun j hj => compares_of_lt hc ?_
    rw [hcount j (by omega)]
    omega

variable (memory) in
/-- A loop that counts down is left at once, with the counter that it has. -/
theorem direct_leaves (h : Recognised code ports loop inAddress (inAddress + inLength) branch)
    (hgt : loop.limit.toInt < (r loop.counter).toInt) :
    ∃ out f, Leaves (Machine.step code ports) (fun s => loop.Inside s.eip)
      (atBranch branch loop.counter loop.limit memory r) ⟨out, r, f, memory⟩ := by
  obtain ⟨c, hc, out, hout, hcloses⟩ := h.closes
  have hleave := hcloses.leave (atBranch branch loop.counter loop.limit memory r) rfl
    (by rw [atBranch, holds_subFlags]; exact not_compares_of_gt hc hgt)
  exact ⟨out, _, hleave, hout⟩

/-- The inline form: advancing the counter is invisible exactly when the loop counts up. -/
theorem batchDirect_spec {flags : Flags} {counter : Fin 8} {limit : Word}
    (hcompareRead : readCompare code (inAddress + inLength) = some (counter, limit, branch))
    (hmatch : matchDirect code inAddress counter limit branch = .ok loop)
    (hin : decodeInsn code inAddress = some (.input width, inLength))
    (hbatched : (batchDirect loop r memory).outcome = .kBatched) :
    (∀ t, Leaves (Machine.step code ports) (fun s => loop.Inside s.eip)
        ⟨inAddress + inLength, r, flags, memory⟩ t ↔
      Leaves (Machine.step code ports) (fun s => loop.Inside s.eip)
        ⟨inAddress + inLength, (batchDirect loop r memory).registers, flags,
          (batchDirect loop r memory).memory⟩ t) ↔ loop.step ≠ -1 := by
  obtain ⟨len, hlen, rfl⟩ := decodeInsn_input_length code _ _ _ hin
  obtain ⟨k, hk, hcompare, hbranch⟩ := readCompare_spec hcompareRead
  obtain ⟨hcounterEq, hlimitEq, h⟩ := matchDirect_spec ports hmatch hlen (by omega) hbranch
  rw [← hcounterEq, ← hlimitEq] at hcompare
  unfold batchDirect at hbatched ⊢
  simp only at hbatched ⊢
  split_ifs at hbatched ⊢ with hremaining
  have hrun : ∀ q : Fin 8 → Word, Runs code ports loop.Inside ⟨inAddress + BitVec.ofNat 32 len, q, flags, memory⟩
      (atBranch branch loop.counter loop.limit memory q) :=
    fun q => runs_compare h hcompare hbranch rfl
  rcases h.step_eq with hup | hdown
  · -- upwards: both runs meet
    rw [hup] at hremaining ⊢
    obtain ⟨m, hmeet, hmeet'⟩ := direct_meets (r := r) h hin hcompare hbranch hup (by omega)
    simp only [ne_eq, show ¬(1 : ℤ) = -1 by decide, not_false_eq_true, iff_true]
    exact fun t => leaves_iff_of_meet ((hrun r).trans hmeet) ((hrun _).trans hmeet')
  · -- downwards: both leave at once, with different counters
    rw [hdown] at hremaining ⊢
    obtain ⟨-, hhi⟩ := toInt_range (r loop.counter)
    obtain ⟨hlo, -⟩ := toInt_range loop.limit
    obtain ⟨r', hr'⟩ : ∃ r', r' = Function.update r loop.counter (BitVec.ofInt 32 (loop.limit.toInt - -1)) :=
      ⟨_, rfl⟩
    have hcounter' : (r' loop.counter).toInt = loop.limit.toInt + 1 := by
      rw [hr', Function.update_self, toInt_ofInt_of_range (by omega) (by omega)]
      omega
    rw [← hr']
    obtain ⟨out, f, hleave⟩ := @direct_leaves _ _ r _ _ _ _ memory h (by omega)
    obtain ⟨out', f', hleave'⟩ := @direct_leaves _ _ r' _ _ _ _ memory h (by omega)
    simp only [ne_eq, not_true_eq_false, iff_false]
    intro hsame
    have hboth := (hsame _).mp ((hrun r).leaves_iff.mpr hleave)
    have heq := Leaves.unique hboth ((hrun r').leaves_iff.mpr hleave')
    have hcounters : r loop.counter = r' loop.counter := congrFun (congrArg Machine.registers heq) loop.counter
    rw [hcounters] at hremaining
    omega

end

/-! ## The form with a wrapper -/

/-- Inside a loop with a wrapper: from the body to the branch, and in the wrapper. -/
def WrappedLoop.Inside (loop : WrappedLoop) (a : Word) : Prop :=
  (a - loop.bodyStart).toNat ≤ (loop.branch - loop.bodyStart).toNat ∨
    (a - loop.wrapperStart).toNat ≤ (loop.wrapperEnd - loop.wrapperStart).toNat

/-- ESP, EDX and EAX set in some registers. -/
def frame (r : Fin 8 → Word) (esp edx eax : Word) : Fin 8 → Word :=
  Function.update (Function.update (Function.update r 4 esp) 2 edx) 0 eax

section
variable {r : Fin 8 → Word} {esp edx eax x : Word}

@[simp] theorem frame_esp : frame r esp edx eax 4 = esp := rfl

@[simp] theorem frame_edx : frame r esp edx eax 2 = edx := rfl

@[simp] theorem frame_eax : frame r esp edx eax 0 = eax := rfl

@[simp] theorem update_frame_esp : Function.update (frame r esp edx eax) 4 x = frame r x edx eax := by
  funext q
  fin_cases q <;> rfl

@[simp] theorem update_frame_edx : Function.update (frame r esp edx eax) 2 x = frame r esp x eax := by
  funext q
  fin_cases q <;> rfl

@[simp] theorem update_frame_eax : Function.update (frame r esp edx eax) 0 x = frame r esp edx x := by
  funext q
  fin_cases q <;> rfl

theorem frame_self : frame r (r 4) (r 2) (r 0) = r := by
  funext q
  fin_cases q <;> rfl

end

/-- The code of a loop with a wrapper around an IN. -/
structure WrappedCode (code : DataMemory) (loop : WrappedLoop) (inAddress inLength returnAddress : Word) :
    Prop where
  push : decodeInsn code loop.wrapperStart = some (.push 2, 1)
  mov : decodeInsn code (loop.wrapperStart + 1) = some (.mov 2 0, 2)
  zero : decodeInsn code (loop.wrapperStart + 3) = some (.sub 0 0, 2) ∨
    decodeInsn code (loop.wrapperStart + 3) = some (.xor 0 0, 2)
  in_eq : loop.wrapperStart + 5 = inAddress
  pop : decodeInsn code (inAddress + inLength) = some (.pop 2, 1)
  end_eq : loop.wrapperEnd = inAddress + inLength + 1
  ret : decodeInsn code loop.wrapperEnd = some (.ret, 1)
  inc : decodeInsn code returnAddress = some (.inc 2, 1)
  compare : ∃ k, (k = 3 ∨ k = 6) ∧
    decodeInsn code (returnAddress + 1) = some (.cmpImm 2 loop.limit, BitVec.ofNat 32 k) ∧
    loop.branch = returnAddress + 1 + BitVec.ofNat 32 k
  branch : ∃ d, decodeInsn code loop.branch = some (.jcc .l d, 2) ∧ loop.branch + 2 + d = loop.bodyStart
  load : ∃ port, decodeInsn code loop.bodyStart = some (.movImm 0 port, 5)
  call : ∃ d, decodeInsn code (loop.bodyStart + 5) = some (.call d, 5) ∧ returnAddress + d = loop.wrapperStart
  return_eq : returnAddress = loop.bodyStart + 5 + 5

theorem decodeInsn_inc_edx (h : code a = 0x42) : decodeInsn code a = some (.inc 2, 1) := by
  unfold decodeInsn
  rw [h]
  rfl

theorem decodeInsn_push_edx (h : code a = 0x52) : decodeInsn code a = some (.push 2, 1) := by
  unfold decodeInsn
  rw [h]
  rfl

theorem decodeInsn_mov_edx_eax (h : code a = 0x89) (h' : code (a + 1) = 0xC2) :
    decodeInsn code a = some (.mov 2 0, 2) := by
  unfold decodeInsn registerForm
  rw [h, h']
  rfl

theorem decodeInsn_pop_edx (h : code a = 0x5A) : decodeInsn code a = some (.pop 2, 1) := by
  unfold decodeInsn
  rw [h]
  rfl

theorem decodeInsn_ret (h : code a = 0xC3) : decodeInsn code a = some (.ret, 1) := by
  unfold decodeInsn
  rw [h]
  rfl

theorem decodeInsn_load_eax (h : code a = 0xB8) :
    decodeInsn code a = some (.movImm 0 (code.getWord (a + 1)), 5) := by
  unfold decodeInsn
  rw [h]
  rfl

theorem decodeInsn_call (h : code a = 0xE8) : decodeInsn code a = some (.call (code.getWord (a + 1)), 5) := by
  unfold decodeInsn
  rw [h]
  rfl

theorem decodeInsn_zero_eax (h : code a = 0x29 ∨ code a = 0x31) (h' : code (a + 1) = 0xC0) :
    decodeInsn code a = some (.sub 0 0, 2) ∨ decodeInsn code a = some (.xor 0 0, 2) := by
  have hzero := decodeInsn_zero h (by rw [h']; decide) (by rw [h']; decide)
  rwa [h', show registerOf 0xC0 = 0 by decide] at hzero

theorem readTail_spec {limit offset : Word} (h : readTail code a = some (limit, offset)) :
    code a = 0x42 ∧ ∃ k, (k = 3 ∨ k = 6) ∧
      decodeInsn code (a + 1) = some (.cmpImm 2 limit, BitVec.ofNat 32 k) ∧
      a + offset = a + 1 + BitVec.ofNat 32 k := by
  have hread : code a = 0x42 ∧ readCompare code (a + 1) = some (2, limit, a + offset) := by
    unfold readTail at h
    split_ifs at h with hinc hshort hlong
    all_goals
      rw [Option.some.injEq, Prod.mk.injEq] at h
      obtain ⟨rfl, rfl⟩ := h
      refine ⟨not_not.mp hinc, ?_⟩
      simp_all [readCompare, registerOf, add_assoc]
  exact hread.imp_right readCompare_spec

theorem matchWrapped_spec {context : Context} {memory : DataMemory} {inAddress inLength : Word}
    {r : Fin 8 → Word} {loop : WrappedLoop}
    (h : matchWrapped context code memory inAddress inLength r = some (.ok loop)) :
    loop.savedEdx = memory.getWord (r 4) ∧
      WrappedCode code loop inAddress inLength (memory.getWord (r 4 + 4)) := by
  unfold matchWrapped at h
  simp only at h
  split_ifs at h with h1 h2 hwrapper h4 h5 hcall
  · simp at h
  · simp at h
  · simp at h
  · cases htail : readTail code (memory.getWord (r 4 + 4)) with
    | none =>
      rw [htail] at h
      cases h
    | some p =>
      obtain ⟨limit, offset⟩ := p
      simp only [htail, Option.some.injEq] at h
      split_ifs at h with hbranch hplace hport
      rw [Except.ok.injEq] at h
      subst h
      have hbytes : isInputWrapper code (inAddress - 5) inAddress inLength = true := by simpa using hwrapper
      unfold isInputWrapper at hbytes
      rw [decide_eq_true_eq] at hbytes
      obtain ⟨hpush, hmov, hmov', hzero, hzero', -, hpop, hret⟩ := hbytes
      obtain ⟨hinc, hcompare⟩ := readTail_spec htail
      rw [not_or, not_not, not_not] at hcall
      rw [not_or, not_or, not_not] at hplace
      rw [not_or, not_not] at hport
      have hfive : ∀ w : Word, w - 5 + 5 = w := fun w => sub_add_cancel w 5
      have htwo : ∀ w : Word, w + 1 + 1 = w + 2 := fun w => by rw [add_assoc]; rfl
      have hfour : ∀ w : Word, w + 3 + 1 = w + 4 := fun w => by rw [add_assoc]; rfl
      have hcall' := hcall.1
      rw [← hplace.2.1] at hcall'
      refine ⟨rfl, ?_⟩
      exact
        { push := decodeInsn_push_edx hpush
          mov := decodeInsn_mov_edx_eax hmov (by rw [htwo]; exact hmov')
          zero := decodeInsn_zero_eax hzero (by rw [hfour]; exact hzero')
          in_eq := hfive inAddress
          pop := decodeInsn_pop_edx hpop
          end_eq := rfl
          ret := decodeInsn_ret hret
          inc := decodeInsn_inc_edx hinc
          compare := hcompare
          branch := ⟨_, decodeInsn_short (not_not.mp hbranch) (by decide) (by decide), rfl⟩
          load := ⟨_, decodeInsn_load_eax hport.1⟩
          call := ⟨_, decodeInsn_call hcall', by rw [hplace.2.1]; exact hcall.2⟩
          return_eq := by rw [hplace.2.1, hfive] }

/-- The machine behind the IN of a loop with a wrapper; `v` is the saved counter. -/
def behindIn (at_ : Word) (r : Fin 8 → Word) (memory : DataMemory) (v edx eax : Word) (f : Flags) : Machine :=
  ⟨at_, frame r (r 4) edx eax, f, memory.setWord (r 4) v⟩

section
variable {loop : WrappedLoop} {inAddress inLength : Word} {width : PortWidth} {r : Fin 8 → Word}
  {memory : DataMemory}

/-- The addresses of the loop's instructions lie in it. -/
structure InsideAll (loop : WrappedLoop) (inAddress inLength returnAddress : Word) : Prop where
  push : loop.Inside loop.wrapperStart
  mov : loop.Inside (loop.wrapperStart + 1)
  zero : loop.Inside (loop.wrapperStart + 3)
  input : loop.Inside inAddress
  pop : loop.Inside (inAddress + inLength)
  ret : loop.Inside loop.wrapperEnd
  inc : loop.Inside returnAddress
  compare : loop.Inside (returnAddress + 1)
  branch : loop.Inside loop.branch
  load : loop.Inside loop.bodyStart
  call : loop.Inside (loop.bodyStart + 5)

theorem WrappedCode.insideAll {returnAddress : Word} {len : ℕ} (hlen : len ≤ 2)
    (h : WrappedCode code loop inAddress (BitVec.ofNat 32 len) returnAddress) :
    InsideAll loop inAddress (BitVec.ofNat 32 len) returnAddress := by
  obtain ⟨k, hk, -, hbranch⟩ := h.compare
  have hbranchAt : loop.branch = loop.bodyStart + BitVec.ofNat 32 (11 + k) := by
    rw [hbranch, h.return_eq, BitVec.ofNat_add, ← add_assoc, add_left_inj]
    simp only [add_assoc]
    rfl
  have hendAt : loop.wrapperEnd = loop.wrapperStart + BitVec.ofNat 32 (5 + len + 1) := by
    rw [h.end_eq, ← h.in_eq, BitVec.ofNat_add, BitVec.ofNat_add]
    simp only [add_assoc]
    rfl
  have hbody : ∀ j ≤ 11 + k, loop.Inside (loop.bodyStart + BitVec.ofNat 32 j) :=
    fun j hj => .inl ((offset_le_iff hbranchAt (by omega) (by omega)).mpr hj)
  have hwrapper : ∀ j ≤ 5 + len + 1, loop.Inside (loop.wrapperStart + BitVec.ofNat 32 j) :=
    fun j hj => .inr ((offset_le_iff hendAt (by omega) (by omega)).mpr hj)
  have hpop : inAddress + BitVec.ofNat 32 len = loop.wrapperStart + BitVec.ofNat 32 (5 + len) := by
    rw [← h.in_eq, BitVec.ofNat_add, add_assoc]
    rfl
  have hinc : returnAddress = loop.bodyStart + BitVec.ofNat 32 10 := by
    rw [h.return_eq, add_assoc]
    rfl
  exact
    { push := by simpa using hwrapper 0 (by omega)
      mov := hwrapper 1 (by omega)
      zero := hwrapper 3 (by omega)
      input := h.in_eq ▸ hwrapper 5 (by omega)
      pop := hpop ▸ hwrapper _ (by omega)
      ret := hendAt ▸ hwrapper _ le_rfl
      inc := by
        rw [hinc]
        exact hbody 10 (by omega)
      compare := by
        rw [hinc, add_assoc]
        exact hbody 11 (by omega)
      branch := hbranchAt ▸ hbody _ le_rfl
      load := by simpa using hbody 0 (by omega)
      call := hbody 5 (by omega) }

variable (ports) in
/-- One turn of the loop around the wrapper. -/
theorem runs_wrapped {len : ℕ} (hlen : len ≤ 2)
    (h : WrappedCode code loop inAddress (BitVec.ofNat 32 len) (memory.getWord (r 4 + 4)))
    (hin : decodeInsn code inAddress = some (.input width, BitVec.ofNat 32 len)) :
    ∃ edx eax f, ∀ v edx' eax' f', (v + 1).toInt < loop.limit.toInt →
      Runs code ports loop.Inside (behindIn (inAddress + BitVec.ofNat 32 len) r memory v edx' eax' f')
        (behindIn (inAddress + BitVec.ofNat 32 len) r memory (v + 1) edx eax f) := by
  have hall := h.insideAll hlen
  obtain ⟨k, -, hcompare, hbranch⟩ := h.compare
  obtain ⟨d, hjl, htarget⟩ := h.branch
  obtain ⟨port, hload⟩ := h.load
  obtain ⟨d', hcall, hwrapper⟩ := h.call
  obtain ⟨z, hz⟩ : ∃ z, ∀ s : Machine, s.eip = loop.wrapperStart + 3 → s.registers 0 = port →
      Runs code ports loop.Inside s ⟨inAddress, Function.update s.registers 0 0, z, s.memory⟩ := by
    have hnext : loop.wrapperStart + 3 + 2 = inAddress := by
      rw [← h.in_eq, add_assoc]
      rfl
    rcases h.zero with hsub | hxor
    · refine ⟨subFlags port port, fun s hs heax => runs_to (hs ▸ hall.zero) (hs.symm ▸ hsub) ?_⟩
      rw [Machine.execute, Machine.write, heax, hs, hnext, sub_self]
    · refine ⟨logicFlags (port ^^^ port), fun s hs heax => runs_to (hs ▸ hall.zero) (hs.symm ▸ hxor) ?_⟩
      rw [Machine.execute, Machine.write, heax, hs, hnext, BitVec.xor_self]
      rfl
  refine ⟨port, inputInto 0 (ports width (port.setWidth 16)) width, z, ?_⟩
  intro v edx' eax' f' hv
  obtain ⟨m, hm⟩ : ∃ m, m = memory.setWord (r 4) v := ⟨_, rfl⟩
  have hreturn : m.getWord (r 4 + 4) = memory.getWord (r 4 + 4) := by
    rw [hm]
    exact DataMemory.getWord_setWord_add_four _ _ _
  -- back to the caller: POP EDX and RET
  have hpop : Runs code ports loop.Inside ⟨inAddress + BitVec.ofNat 32 len, frame r (r 4) edx' eax', f', m⟩
      ⟨loop.wrapperEnd, frame r (r 4 + 4) v eax', f', m⟩ :=
    runs_to hall.pop h.pop (by simp [Machine.execute, Machine.write, h.end_eq, hm])
  have hret : Runs code ports loop.Inside ⟨loop.wrapperEnd, frame r (r 4 + 4) v eax', f', m⟩
      ⟨memory.getWord (r 4 + 4), frame r (r 4 + 4 + 4) v eax', f', m⟩ :=
    runs_to hall.ret h.ret (by rw [← hreturn]; simp [Machine.execute, Machine.write])
  -- the step of the counter, the comparison and the branch back
  have hinc : Runs code ports loop.Inside ⟨memory.getWord (r 4 + 4), frame r (r 4 + 4 + 4) v eax', f', m⟩
      ⟨memory.getWord (r 4 + 4) + 1, frame r (r 4 + 4 + 4) (v + 1) eax', incFlags f' v, m⟩ :=
    runs_to hall.inc h.inc (by simp [Machine.execute, Machine.write])
  have hcmp : Runs code ports loop.Inside
      ⟨memory.getWord (r 4 + 4) + 1, frame r (r 4 + 4 + 4) (v + 1) eax', incFlags f' v, m⟩
      ⟨loop.branch, frame r (r 4 + 4 + 4) (v + 1) eax', subFlags (v + 1) loop.limit, m⟩ :=
    runs_to hall.compare hcompare (by rw [hbranch]; simp [Machine.execute])
  have hback : Runs code ports loop.Inside
      ⟨loop.branch, frame r (r 4 + 4 + 4) (v + 1) eax', subFlags (v + 1) loop.limit, m⟩
      ⟨loop.bodyStart, frame r (r 4 + 4 + 4) (v + 1) eax', subFlags (v + 1) loop.limit, m⟩ := by
    refine runs_to hall.branch hjl ?_
    have hholds : Condition.l.holds (subFlags (v + 1) loop.limit) = true := by
      rw [holds_subFlags]
      exact decide_eq_true hv
    rw [Machine.execute, if_pos hholds, htarget]
  -- the call: the return address is pushed over itself
  have hmov : Runs code ports loop.Inside
      ⟨loop.bodyStart, frame r (r 4 + 4 + 4) (v + 1) eax', subFlags (v + 1) loop.limit, m⟩
      ⟨loop.bodyStart + 5, frame r (r 4 + 4 + 4) (v + 1) port, subFlags (v + 1) loop.limit, m⟩ :=
    runs_to hall.load hload (by simp [Machine.execute, Machine.write])
  have hcalled : Runs code ports loop.Inside
      ⟨loop.bodyStart + 5, frame r (r 4 + 4 + 4) (v + 1) port, subFlags (v + 1) loop.limit, m⟩
      ⟨loop.wrapperStart, frame r (r 4 + 4) (v + 1) port, subFlags (v + 1) loop.limit, m⟩ := by
    refine runs_to hall.call hcall ?_
    have hpush : m.setWord (r 4 + 4) (memory.getWord (r 4 + 4)) = m := by
      rw [← hreturn]
      exact m.setWord_getWord _
    simp only [Machine.execute, Machine.write, frame_esp, update_frame_esp, add_sub_cancel_right]
    rw [← h.return_eq, hwrapper, hpush]
  -- the wrapper up to the IN
  have hpushed : Runs code ports loop.Inside
      ⟨loop.wrapperStart, frame r (r 4 + 4) (v + 1) port, subFlags (v + 1) loop.limit, m⟩
      ⟨loop.wrapperStart + 1, frame r (r 4) (v + 1) port, subFlags (v + 1) loop.limit,
        memory.setWord (r 4) (v + 1)⟩ := by
    refine runs_to hall.push h.push ?_
    simp only [Machine.execute, Machine.write, frame_esp, frame_edx, update_frame_esp, add_sub_cancel_right]
    rw [hm, DataMemory.setWord_setWord]
  have hmoved : Runs code ports loop.Inside
      ⟨loop.wrapperStart + 1, frame r (r 4) (v + 1) port, subFlags (v + 1) loop.limit,
        memory.setWord (r 4) (v + 1)⟩
      ⟨loop.wrapperStart + 3, frame r (r 4) port port, subFlags (v + 1) loop.limit,
        memory.setWord (r 4) (v + 1)⟩ := by
    refine runs_to hall.mov h.mov ?_
    simp only [Machine.execute, Machine.write, frame_eax, update_frame_edx, add_assoc]
    rfl
  have hzeroed := hz ⟨loop.wrapperStart + 3, frame r (r 4) port port, subFlags (v + 1) loop.limit,
    memory.setWord (r 4) (v + 1)⟩ rfl rfl
  simp only [update_frame_eax] at hzeroed
  have hread : Runs code ports loop.Inside
      ⟨inAddress, frame r (r 4) port 0, z, memory.setWord (r 4) (v + 1)⟩
      (behindIn (inAddress + BitVec.ofNat 32 len) r memory (v + 1) port
        (inputInto 0 (ports width (port.setWidth 16)) width) z) := by
    refine runs_to hall.input hin ?_
    simp only [Machine.execute, Machine.write, frame_eax, frame_edx, update_frame_eax, behindIn]
  unfold behindIn at hread ⊢
  rw [← hm]
  exact (((hpop.trans hret).trans hinc).trans (hcmp.trans hback)).trans
    ((hmov.trans hcalled).trans ((hpushed.trans hmoved).trans (hzeroed.trans hread)))

/-- The form with a wrapper: advancing the saved counter is always invisible. -/
theorem batchWrapped_spec {context : Context} {flags : Flags}
    (hmatch : matchWrapped context code memory inAddress inLength r = some (.ok loop))
    (hin : decodeInsn code inAddress = some (.input width, inLength))
    (hbatched : (batchWrapped context loop r memory).outcome = .kBatched) (t : Machine) :
    Leaves (Machine.step code ports) (fun s => loop.Inside s.eip)
        ⟨inAddress + inLength, r, flags, memory⟩ t ↔
      Leaves (Machine.step code ports) (fun s => loop.Inside s.eip)
        ⟨inAddress + inLength, (batchWrapped context loop r memory).registers, flags,
          (batchWrapped context loop r memory).memory⟩ t := by
  obtain ⟨len, hlen, rfl⟩ := decodeInsn_input_length code _ _ _ hin
  obtain ⟨hsaved, h⟩ := matchWrapped_spec hmatch
  obtain ⟨edx, eax, f, hturn⟩ := runs_wrapped ports hlen h hin
  unfold batchWrapped at hbatched ⊢
  simp only at hbatched ⊢
  split_ifs at hbatched ⊢ with hskipped hstore
  rw [hsaved] at hskipped
  obtain ⟨saved, hv⟩ : ∃ saved, saved = memory.getWord (r 4) := ⟨_, rfl⟩
  rw [← hv] at hskipped
  obtain ⟨hlo, -⟩ := toInt_range saved
  obtain ⟨-, hhi⟩ := toInt_range loop.limit
  obtain ⟨n, hn⟩ : ∃ n : ℕ, loop.limit.toInt - 2 - saved.toInt = n :=
    ⟨_, (Int.toNat_of_nonneg (by omega)).symm⟩
  have hcount : ∀ j ≤ n, (saved + BitVec.ofNat 32 j).toInt = saved.toInt + j :=
    fun j hj => toInt_add_ofNat (by omega)
  have hfinal : BitVec.ofInt 32 (loop.limit.toInt - 2) = saved + BitVec.ofNat 32 n := by
    apply BitVec.eq_of_toInt_eq
    rw [toInt_ofInt_of_range (by omega) (by omega), hcount n le_rfl]
    omega
  have hsucc : ∀ j, saved + BitVec.ofNat 32 (j + 1) = saved + BitVec.ofNat 32 j + 1 := by
    intro j
    rw [BitVec.ofNat_add, add_assoc]
    rfl
  have hnext : ∀ j ≤ n, (saved + BitVec.ofNat 32 j + 1).toInt < loop.limit.toInt := by
    intro j hj
    rw [← hsucc, toInt_add_ofNat (by push_cast; omega)]
    push_cast
    omega
  have hturns : ∀ j ≤ n, Runs code ports loop.Inside
      (behindIn (inAddress + BitVec.ofNat 32 len) r memory saved (r 2) (r 0) flags)
      (behindIn (inAddress + BitVec.ofNat 32 len) r memory (saved + BitVec.ofNat 32 (j + 1)) edx eax f) := by
    intro j
    induction j with
    | zero =>
      intro hj
      have hfirst := hturn saved (r 2) (r 0) flags (by simpa using hnext 0 hj)
      rwa [hsucc, BitVec.add_zero]
    | succ j ih =>
      intro hj
      rw [hsucc (j + 1)]
      exact (ih (by omega)).trans (hturn _ _ _ _ (hnext (j + 1) hj))
  have hstart : (⟨inAddress + BitVec.ofNat 32 len, r, flags, memory⟩ : Machine) =
      behindIn (inAddress + BitVec.ofNat 32 len) r memory saved (r 2) (r 0) flags := by
    rw [behindIn, frame_self, hv, DataMemory.setWord_getWord]
  have hstart' : (⟨inAddress + BitVec.ofNat 32 len, r, flags,
      memory.setWord (r 4) (BitVec.ofInt 32 (loop.limit.toInt - 2))⟩ : Machine) =
      behindIn (inAddress + BitVec.ofNat 32 len) r memory (saved + BitVec.ofNat 32 n) (r 2) (r 0) flags := by
    rw [behindIn, frame_self, hfinal]
  rw [hstart, hstart']
  refine leaves_iff_of_meet (hturns n le_rfl) ?_
  rw [hsucc]
  exact hturn _ _ _ _ (hnext n le_rfl)

end

end

/-! ## Batched loops -/

/-- Inside a recognised loop. -/
def Loop.Inside : Loop → Word → Prop
  | .direct loop => loop.Inside
  | .wrapped loop => loop.Inside

/-- The body steps its counter with DEC. -/
def Loop.countsDown : Loop → Bool
  | .direct loop => loop.step = -1
  | .wrapped _ => false

/-- From behind the IN, the guest leaves a batched loop as it leaves the loop itself, exactly when
the loop does not count down. -/
theorem batched_loop_invisible_iff (context : Context) (code memory : DataMemory) (ports : Ports)
    (inAddress inLength : Word) (width : PortWidth) (registers : Fin 8 → Word) (flags : Flags)
    (guestBytesReadable : Bool) (loop : Loop)
    (hin : decodeInsn code inAddress = some (.input width, inLength))
    (hmatch : matchLoop context code memory inAddress inLength registers guestBytesReadable = .ok loop)
    (hbatched : (tryBatchPortIoDelayLoop context code memory inAddress inLength registers
      guestBytesReadable).outcome = .kBatched) :
    (∀ t, Leaves (Machine.step code ports) (fun s => loop.Inside s.eip)
        ⟨inAddress + inLength, registers, flags, memory⟩ t ↔
      Leaves (Machine.step code ports) (fun s => loop.Inside s.eip)
        ⟨inAddress + inLength,
          (tryBatchPortIoDelayLoop context code memory inAddress inLength registers
            guestBytesReadable).registers, flags,
          (tryBatchPortIoDelayLoop context code memory inAddress inLength registers
            guestBytesReadable).memory⟩ t) ↔ loop.countsDown = false := by
  unfold tryBatchPortIoDelayLoop at hbatched ⊢
  rw [hmatch] at hbatched ⊢
  unfold matchLoop at hmatch
  split_ifs at hmatch with hreadable
  cases hcompare : readCompare code (inAddress + inLength) with
  | some p =>
    obtain ⟨counter, limit, branch⟩ := p
    rw [hcompare] at hmatch
    cases hdirect : matchDirect code inAddress counter limit branch with
    | error outcome =>
      simp only [hdirect] at hmatch
      cases hmatch
    | ok direct =>
      simp only [hdirect] at hmatch
      cases hmatch
      simp only [Loop.countsDown, decide_eq_false_iff_not]
      exact batchDirect_spec hcompare hdirect hin hbatched
  | none =>
    rw [hcompare] at hmatch
    simp only at hmatch
    cases hwrapped : matchWrapped context code memory inAddress inLength registers with
    | none =>
      rw [hwrapped] at hmatch
      cases hmatch
    | some result =>
      rw [hwrapped] at hmatch
      cases result with
      | error outcome => cases hmatch
      | ok wrapped =>
        cases hmatch
        simp only [Loop.countsDown, iff_true]
        exact batchWrapped_spec hwrapped hin hbatched

/-- Code at an address. -/
def codeAt (start : Word) (bytes : List Byte) : DataMemory := fun a => bytes.getD (a - start).toNat 0

/-- Registers with EBX at a value and the JAMMA port in EDX. -/
def sampleRegisters (ebx : Word) : Fin 8 → Word := fun r => if r = 3 then ebx else if r = 2 then 0x2D0 else 0

def sampleContext : Context := { runtimeBase := 0x1000, runtimeSize := 0x1000, storeSucceeds := fun _ => true }

/-- `inc ebx; sub eax, eax; in eax, dx; cmp ebx, 5; jl`. -/
def upwardLoop : DataMemory := codeAt 0x1100 [0x43, 0x29, 0xC0, 0xED, 0x83, 0xFB, 0x05, 0x7C, 0xF7]

/-- `dec ebx; sub eax, eax; in eax, dx; cmp ebx, 5; jl`. -/
def downwardLoop : DataMemory := codeAt 0x1100 [0x4B, 0x29, 0xC0, 0xED, 0x83, 0xFB, 0x05, 0x7C, 0xF7]

/-- The sample loops, from the body at 1100 to the branch at 1107. -/
def sampleLoop (step : ℤ) : DirectLoop :=
  { bodyStart := 0x1100, backEdge := 0x1107, counter := 3, limit := 5, step }

def sampleFlags : Flags := subFlags 0 0

theorem batched_loop_upward :
    (tryBatchPortIoDelayLoop sampleContext upwardLoop (fun _ => 0) 0x1103 1 (sampleRegisters 1)
      true).outcome = .kBatched ∧
    ∀ t, Leaves (Machine.step upwardLoop fun _ _ => 0xFF) (fun s => (sampleLoop 1).Inside s.eip)
        ⟨0x1103 + 1, sampleRegisters 1, sampleFlags, fun _ => 0⟩ t ↔
      Leaves (Machine.step upwardLoop fun _ _ => 0xFF) (fun s => (sampleLoop 1).Inside s.eip)
        ⟨0x1103 + 1,
          (tryBatchPortIoDelayLoop sampleContext upwardLoop (fun _ => 0) 0x1103 1 (sampleRegisters 1)
            true).registers, sampleFlags,
          (tryBatchPortIoDelayLoop sampleContext upwardLoop (fun _ => 0) 0x1103 1 (sampleRegisters 1)
            true).memory⟩ t := by
  constructor
  · decide +kernel
  · exact (batched_loop_invisible_iff sampleContext upwardLoop (fun _ => 0) (fun _ _ => 0xFF) 0x1103 1 .dword
      (sampleRegisters 1) sampleFlags true (.direct (sampleLoop 1)) (by decide +kernel) (by decide +kernel)
      (by decide +kernel)).mpr rfl

theorem batched_loop_downward :
    ¬((tryBatchPortIoDelayLoop sampleContext downwardLoop (fun _ => 0) 0x1103 1 (sampleRegisters 10)
          true).outcome = .kBatched →
      ∀ t, Leaves (Machine.step downwardLoop fun _ _ => 0xFF) (fun s => (sampleLoop (-1)).Inside s.eip)
          ⟨0x1103 + 1, sampleRegisters 10, sampleFlags, fun _ => 0⟩ t ↔
        Leaves (Machine.step downwardLoop fun _ _ => 0xFF) (fun s => (sampleLoop (-1)).Inside s.eip)
          ⟨0x1103 + 1,
            (tryBatchPortIoDelayLoop sampleContext downwardLoop (fun _ => 0) 0x1103 1 (sampleRegisters 10)
              true).registers, sampleFlags,
            (tryBatchPortIoDelayLoop sampleContext downwardLoop (fun _ => 0) 0x1103 1 (sampleRegisters 10)
              true).memory⟩ t) := by
  intro hclaim
  have hmatch : matchDirect downwardLoop 0x1103 3 5 0x1107 = .ok (sampleLoop (-1)) := by decide +kernel
  have hcompare : readCompare downwardLoop (0x1103 + 1) = some (3, 5, 0x1107) := by decide +kernel
  have hin : decodeInsn downwardLoop 0x1103 = some (.input .dword, 1) := by decide +kernel
  have hanswer : tryBatchPortIoDelayLoop sampleContext downwardLoop (fun _ => 0) 0x1103 1 (sampleRegisters 10)
      true = batchDirect (sampleLoop (-1)) (sampleRegisters 10) fun _ => 0 := by
    unfold tryBatchPortIoDelayLoop matchLoop
    rw [hcompare]
    simp only [hmatch]
    rfl
  rw [hanswer] at hclaim
  exact (batchDirect_spec hcompare hmatch hin (by decide +kernel)).mp (hclaim (by decide +kernel)) rfl

end Repiu.Engine.PortIoDelayLoop
