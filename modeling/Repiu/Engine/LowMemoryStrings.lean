import Repiu.Engine.EmulatedFlags
import Repiu.Engine.GuestMemory

/-!
# String instructions on low memory

The service of the scans, loads and comparisons that fault on DOS low memory
(`low_memory_string_access.cpp`): the iterations it does at once, and the instruction that goes on
where they stop.
-/

namespace Repiu.Engine

open X86

/-! ## The decoded instruction -/

/-- The mnemonics of string instructions that are served. -/
inductive StringMnemonic
  | scasb | scasw | scasd | lodsb | lodsw | lodsd | cmpsb | cmpsw | cmpsd | other
deriving DecidableEq

/-- What the decoder says of an instruction without a segment override. -/
structure DecodedInstruction where
  isStringOp : Bool
  mnemonic : StringMnemonic
  addressWidth : ℕ
  repeated : RepeatPrefix
  length : ℕ

/-- `ClassifyStringOperation`. -/
def classifyStringOperation : StringMnemonic → Option (StringOperation × ℕ)
  | .scasb => some (.scas, 1)
  | .scasw => some (.scas, 2)
  | .scasd => some (.scas, 4)
  | .lodsb => some (.lods, 1)
  | .lodsw => some (.lods, 2)
  | .lodsd => some (.lods, 4)
  | .cmpsb => some (.cmps, 1)
  | .cmpsw => some (.cmps, 2)
  | .cmpsd => some (.cmps, 4)
  | .other => none

/-! ## Operands -/

/-- `kLowMemoryStringIterationCap`. -/
def kLowMemoryStringIterationCap : ℕ := kDosLowMemorySize

/-- `IsWithinLowMemory`. -/
def isWithinLowMemory (address : Word) (width : ℕ) : Bool :=
  address.toNat < kDosLowMemorySize ∧ width ≤ kDosLowMemorySize - address.toNat

/-- `ReadLowMemoryValue`. -/
def readLowMemoryValue (arena : GuestArena) (memory : DataMemory) (address : Word) (width : ℕ) : Option Word :=
  if width = 1 then (arena.readDosLowMemoryUInt8 memory address).map (·.setWidth 32)
  else if width = 2 then (arena.readDosLowMemoryUInt16 memory address).map (·.setWidth 32)
  else if width = 4 then arena.readDosLowMemoryUInt32 memory address
  else none

/-- `ReadStringOperand`. -/
def readStringOperand (arena : GuestArena) (memory : DataMemory) (address : Word) (width : ℕ) : Option Word :=
  if address.toNat < kDosLowMemorySize then
    if !isWithinLowMemory address width then none else readLowMemoryValue arena memory address width
  else if !arena.isGuestRangeReadable address width then none
  else some (memory.loadBytes address width)

/-- `ReadAccumulator`. -/
def readAccumulator (c : GuestCpuContext) (width : ℕ) : Word :=
  if width = 1 then c.eax &&& 0xFF else if width = 2 then c.eax &&& 0xFFFF else c.eax

/-- `WriteAccumulator`. -/
def writeAccumulator (c : GuestCpuContext) (width : ℕ) (value : Word) : GuestCpuContext :=
  c.writeRegister32 0
    (if width = 1 then c.eax &&& 0xFFFFFF00 ||| value &&& 0xFF
    else if width = 2 then c.eax &&& 0xFFFF0000 ||| value &&& 0xFFFF
    else value)

/-! ## The loop -/

/-- A string operation that is served, with the facts the loop uses. -/
structure StringService where
  operation : StringOperation
  width : ℕ
  repeated : RepeatPrefix
  delta : Word

namespace StringService

/-- `uses_edi`. -/
def usesEdi (v : StringService) : Bool := v.operation ≠ .lods

/-- `uses_esi`. -/
def usesEsi (v : StringService) : Bool := v.operation ≠ .scas

/-- `touches_low_memory`. -/
def touchesLowMemory (v : StringService) (c : GuestCpuContext) : Bool :=
  v.usesEdi ∧ c.edi.toNat < kDosLowMemorySize ∨ v.usesEsi ∧ c.esi.toNat < kDosLowMemorySize

/-- The operands of an iteration: what is at EDI and what is at ESI, and zero where the operation
does not look. -/
def readOperands (v : StringService) (arena : GuestArena) (memory : DataMemory) (c : GuestCpuContext) :
    Option (Word × Word) :=
  match if v.usesEdi then readStringOperand arena memory c.edi v.width else some 0 with
  | none => none
  | some destinationValue =>
    match if v.usesEsi then readStringOperand arena memory c.esi v.width else some 0 with
    | none => none
    | some sourceValue => some (destinationValue, sourceValue)

/-- The effect of an iteration, the pointers and the count apart. -/
def effect (v : StringService) (c : GuestCpuContext) (destinationValue sourceValue : Word) : GuestCpuContext :=
  match v.operation with
  | .scas => setCompareFlags c (readAccumulator c v.width) destinationValue v.width
  | .cmps => setCompareFlags c sourceValue destinationValue v.width
  | .lods => writeAccumulator c v.width sourceValue
  | .movs => c

/-- The effect of an iteration, the count apart. -/
def apply (v : StringService) (c : GuestCpuContext) (destinationValue sourceValue : Word) : GuestCpuContext :=
  let edi := c.edi
  let esi := c.esi
  let c := v.effect c destinationValue sourceValue
  let c := if v.usesEdi then c.writeRegister32 7 (edi + v.delta) else c
  if v.usesEsi then c.writeRegister32 6 (esi + v.delta) else c

/-- Whether the zero flag ends the repetition. -/
def endsOnZeroFlag (v : StringService) (c : GuestCpuContext) : Bool :=
  let zeroFlag : Bool := c.eflags &&& 0x40 ≠ 0
  v.operation ≠ .lods ∧ (v.repeated = .repe ∧ !zeroFlag ∨ v.repeated = .repne ∧ zeroFlag)

/-- The loop of `ServiceGuestLowMemoryStringInstruction`: the iterations it does, at most as many as
given, and whether the repetition ended. -/
def loop (v : StringService) (arena : GuestArena) (memory : DataMemory) :
    ℕ → GuestCpuContext → ℕ × Bool × GuestCpuContext
  | 0, c => (0, false, c)
  | n + 1, c =>
    if !v.touchesLowMemory c then (0, false, c)
    else
      match v.readOperands arena memory c with
      | none => (0, false, c)
      | some (destinationValue, sourceValue) =>
        let c := v.apply c destinationValue sourceValue
        if v.repeated = .none then (1, true, c)
        else
          let c := c.writeRegister32 1 (c.ecx - 1)
          if c.ecx = 0 then (1, true, c)
          else if v.endsOnZeroFlag c then (1, true, c)
          else
            let rest := loop v arena memory n c
            (rest.1 + 1, rest.2)

end StringService

/-- `ServiceGuestLowMemoryStringInstruction`. -/
def serviceGuestLowMemoryStringInstruction (arena : GuestArena) (memory : DataMemory)
    (decoded : Option DecodedInstruction) (c : GuestCpuContext) : Bool × GuestCpuContext :=
  match decoded with
  | none => (false, c)
  | some instruction =>
    if !instruction.isStringOp then (false, c)
    else
      match classifyStringOperation instruction.mnemonic with
      | none => (false, c)
      | some (operation, width) =>
        if instruction.addressWidth ≠ 32 then (false, c)
        else if instruction.repeated ≠ .none ∧ c.ecx = 0 then (false, c)
        else
          let delta :=
            if c.eflags &&& 0x400 ≠ 0 then -BitVec.ofNat 32 width else BitVec.ofNat 32 width
          let service : StringService := ⟨operation, width, instruction.repeated, delta⟩
          let (iterations, terminated, c') := service.loop arena memory kLowMemoryStringIterationCap c
          if iterations = 0 then (false, c')
          else (true, if terminated then { c' with eip := c.eip + BitVec.ofNat 32 instruction.length } else c')

/-! ## Operands are elements -/

/-- The machine of a guest with its memory. -/
def GuestCpuContext.withMemory (c : GuestCpuContext) (memory : DataMemory) : CodeState :=
  ⟨c.eip, c.registers, c.eflags, memory⟩

theorem GuestCpuContext.withMemory_inj {c c' : GuestCpuContext} {memory : DataMemory}
    (h : c.withMemory memory = c'.withMemory memory) : c = c' := by
  unfold GuestCpuContext.withMemory at h
  rw [CodeState.mk.injEq] at h
  rw [GuestCpuContext.mk.injEq]
  exact ⟨h.2.1, h.1, h.2.2.1⟩

theorem loadBytes_one (m : DataMemory) (a : Word) : m.loadBytes a 1 = (m a).setWidth 32 := by
  show (0 : Word) <<< 8 ||| (m a).setWidth 32 = _
  rw [show (0 : Word) <<< 8 = 0 from rfl]
  exact BitVec.zero_or

theorem loadBytes_two (m : DataMemory) (a : Word) :
    m.loadBytes a 2 = ((m a).setWidth 16 ||| (m (a + 1)).setWidth 16 <<< 8).setWidth 32 := by
  rw [DataMemory.loadBytes, loadBytes_one]
  apply BitVec.eq_of_getLsbD_eq
  intro k hk
  simp only [BitVec.getLsbD_or, BitVec.getLsbD_shiftLeft, BitVec.getLsbD_setWidth]
  grind

theorem loadBytes_four (m : DataMemory) (a : Word) :
    m.loadBytes a 4 = (m a).setWidth 32 ||| (m (a + 1)).setWidth 32 <<< 8 |||
      (m (a + 2)).setWidth 32 <<< 16 ||| (m (a + 3)).setWidth 32 <<< 24 := by
  have h2 : a + 1 + 1 = a + 2 := by rw [add_assoc]; rfl
  have h3 : a + 1 + 1 + 1 = a + 3 := by rw [add_assoc, add_assoc]; rfl
  have hreverse : ∀ b0 b1 b2 b3 : Word, b3 ||| b2 ||| b1 ||| b0 = b0 ||| b1 ||| b2 ||| b3 := by
    intro b0 b1 b2 b3
    ac_rfl
  rw [DataMemory.loadBytes, DataMemory.loadBytes, DataMemory.loadBytes, loadBytes_one, h3, h2]
  rw [BitVec.shiftLeft_or_distrib, BitVec.shiftLeft_or_distrib, BitVec.shiftLeft_or_distrib,
    ← BitVec.shiftLeft_add, ← BitVec.shiftLeft_add, ← BitVec.shiftLeft_add]
  exact hreverse _ _ _ _

/-- What is read for an iteration is what lies there. -/
theorem readStringOperand_eq {arena : GuestArena} {memory : DataMemory} {address value : Word} {width : ℕ}
    (h : readStringOperand arena memory address width = some value) : value = memory.loadBytes address width := by
  unfold readStringOperand readLowMemoryValue at h
  split_ifs at h with _ _ h1 h2 h4
  · rw [h1, loadBytes_one]
    unfold GuestArena.readDosLowMemoryUInt8 at h
    split_ifs at h
    · simpa using h.symm
    · simp at h
  · rw [h2, loadBytes_two]
    unfold GuestArena.readDosLowMemoryUInt16 at h
    split_ifs at h
    · simpa using h.symm
    · simp at h
  · rw [h4, loadBytes_four]
    unfold GuestArena.readDosLowMemoryUInt32 at h
    split_ifs at h
    simpa using h.symm
  · simpa using h.symm

/-! ## Iterations are iterations of the instruction -/

namespace StringService

/-- The instruction that is served. -/
def insn (v : StringService) (length : ℕ) (hwidth : v.width = 1 ∨ v.width = 2 ∨ v.width = 4) : StringInsn where
  operation := v.operation
  width := v.width
  repeated := v.repeated
  length := length
  width_eq := hwidth

variable {v : StringService} {arena : GuestArena} {memory : DataMemory} {length : ℕ}
  {hwidth : v.width = 1 ∨ v.width = 2 ∨ v.width = 4}

theorem readOperands_eq {c : GuestCpuContext} {destinationValue sourceValue : Word}
    (h : v.readOperands arena memory c = some (destinationValue, sourceValue)) :
    (v.usesEdi = true → destinationValue = memory.loadBytes c.edi v.width) ∧
      (v.usesEsi = true → sourceValue = memory.loadBytes c.esi v.width) := by
  unfold readOperands at h
  split at h
  · cases h
  · rename_i d hd
    split at h
    · cases h
    · rename_i s hs
      rw [Option.some.injEq, Prod.mk.injEq] at h
      rw [← h.1, ← h.2]
      refine ⟨fun huse => ?_, fun huse => ?_⟩
      · rw [if_pos huse] at hd
        exact readStringOperand_eq hd
      · rw [if_pos huse] at hs
        exact readStringOperand_eq hs

/-- The accumulator at the width of an element. -/
theorem readAccumulator_setWidth (c : GuestCpuContext) {width : ℕ} (h : width = 1 ∨ width = 2 ∨ width = 4) :
    (readAccumulator c width).setWidth (width * 8) = (c.registers 0).setWidth (width * 8) := by
  apply BitVec.eq_of_getLsbD_eq
  intro k hk
  simp only [BitVec.getLsbD_setWidth, hk, decide_true, Bool.true_and]
  obtain rfl | rfl | rfl := h
  · show (c.registers 0 &&& 0xFF).getLsbD k = _
    have hmask : ∀ k < 8, (0xFF : Word).getLsbD k = true := by decide
    rw [BitVec.getLsbD_and, hmask k hk, Bool.and_true]
  · show (c.registers 0 &&& 0xFFFF).getLsbD k = _
    have hmask : ∀ k < 16, (0xFFFF : Word).getLsbD k = true := by decide
    rw [BitVec.getLsbD_and, hmask k hk, Bool.and_true]
  · rfl

/-- An element has no bits above its width. -/
theorem getLsbD_loadBytes (a : Word) {n k : ℕ} (hk : n * 8 ≤ k) : (memory.loadBytes a n).getLsbD k = false := by
  induction n generalizing a k with
  | zero => exact BitVec.getLsbD_zero
  | succ n ih =>
    have hbyte : ((memory a).setWidth 32).getLsbD k = false := by
      rw [BitVec.getLsbD_setWidth, BitVec.getLsbD_of_ge _ _ (by omega), Bool.and_false]
    rw [DataMemory.loadBytes, BitVec.getLsbD_or, BitVec.getLsbD_shiftLeft, ih (a + 1) (by omega), hbyte]
    simp

/-- Replacing the low byte or the low half of a register. -/
theorem replace_low {mask keep : Word} {n : ℕ} (hmask : ∀ k < 32, mask.getLsbD k = decide (k < n))
    (hkeep : keep = ~~~mask) {x value : Word} (hvalue : ∀ k, n ≤ k → value.getLsbD k = false) :
    x &&& keep ||| value &&& mask = x >>> n <<< n ||| value := by
  have hx : x &&& keep = x >>> n <<< n := by
    apply BitVec.eq_of_getLsbD_eq
    intro k hk
    rw [hkeep, BitVec.getLsbD_and, BitVec.getLsbD_not, hmask k hk, BitVec.getLsbD_shiftLeft,
      BitVec.getLsbD_ushiftRight]
    by_cases hkn : k < n
    · simp [hkn]
    · rw [show n + (k - n) = k by omega]
      simp [hk, hkn]
  have hlow : value &&& mask = value := by
    apply BitVec.eq_of_getLsbD_eq
    intro k hk
    rw [BitVec.getLsbD_and, hmask k hk]
    by_cases hkn : k < n
    · simp [hkn]
    · rw [hvalue k (by omega), Bool.false_and]
  rw [hlow, hx]

theorem writeAccumulator_eq (c : GuestCpuContext) {width : ℕ} (h : width = 1 ∨ width = 2 ∨ width = 4)
    (address : Word) : writeAccumulator c width (memory.loadBytes address width) =
      c.writeRegister32 0
        (c.registers 0 >>> (width * 8) <<< (width * 8) ||| memory.loadBytes address width) := by
  have hbits : ∀ k, width * 8 ≤ k → (memory.loadBytes address width).getLsbD k = false :=
    fun k hk => getLsbD_loadBytes address hk
  unfold writeAccumulator
  obtain rfl | rfl | rfl := h
  · rw [if_pos rfl, replace_low (by decide) (by decide) hbits]
    rfl
  · rw [if_neg (by decide), if_pos rfl, replace_low (by decide) (by decide) hbits]
    rfl
  · have hnone : c.registers 0 >>> (4 * 8) <<< (4 * 8) = 0 := by
      rw [BitVec.ushiftRight_eq_zero (by decide)]
      exact BitVec.zero_shiftLeft _
    have hwhole : (0 : Word) ||| memory.loadBytes address 4 = memory.loadBytes address 4 := BitVec.zero_or
    rw [if_neg (by decide), if_neg (by decide), hnone, hwhole]

/-- The effect of an iteration is the operation of the instruction. -/
theorem effect_withMemory {c : GuestCpuContext} {destinationValue sourceValue : Word}
    (h : v.readOperands arena memory c = some (destinationValue, sourceValue)) (hmovs : v.operation ≠ .movs) :
    (v.effect c destinationValue sourceValue).withMemory memory =
      (v.insn length hwidth).operate .flat (c.withMemory memory) := by
  obtain ⟨hdestination, hsource⟩ := readOperands_eq h
  have htarget : StringInsn.target .flat (c.withMemory memory) = c.edi := BitVec.zero_add _
  have horigin : StringInsn.source .flat (c.withMemory memory) = c.esi := BitVec.zero_add _
  have hwidth := hwidth
  unfold StringInsn.operate
  rw [htarget, horigin]
  unfold effect
  unfold usesEdi at hdestination
  unfold usesEsi at hsource
  have hoperation : (v.insn length hwidth).operation = v.operation := rfl
  rw [hoperation]
  cases hop : v.operation with
  | movs => exact absurd hop hmovs
  | scas =>
    rw [hop] at hdestination
    rw [hdestination (by decide)]
    dsimp only
    rw [setCompareFlags_eq c _ _ hwidth rfl, readAccumulator_setWidth c hwidth]
    rfl
  | lods =>
    rw [hop] at hsource
    rw [hsource (by decide)]
    dsimp only
    rw [writeAccumulator_eq c hwidth]
    rfl
  | cmps =>
    rw [hop] at hdestination hsource
    rw [hdestination (by decide), hsource (by decide)]
    dsimp only
    rw [setCompareFlags_eq c _ _ hwidth rfl]
    rfl

theorem effect_pointers (c : GuestCpuContext) (destinationValue sourceValue : Word) :
    (v.effect c destinationValue sourceValue).edi = c.edi ∧ (v.effect c destinationValue sourceValue).esi = c.esi := by
  unfold effect GuestCpuContext.edi GuestCpuContext.esi
  cases v.operation with
  | movs => exact ⟨rfl, rfl⟩
  | scas => simp
  | lods => exact ⟨rfl, rfl⟩
  | cmps => simp

/-- The pointers move as those of the instruction. -/
theorem apply_withMemory {c : GuestCpuContext} {destinationValue sourceValue : Word}
    (h : v.readOperands arena memory c = some (destinationValue, sourceValue)) (hmovs : v.operation ≠ .movs)
    (hdelta : v.delta = (v.insn length hwidth).stride (c.withMemory memory)) :
    (v.insn length hwidth).advance ((v.insn length hwidth).operate .flat (c.withMemory memory)) =
      (v.apply c destinationValue sourceValue).withMemory memory := by
  have hpointers := effect_pointers (v := v) c destinationValue sourceValue
  rw [← StringInsn.stride_operate .flat, ← effect_withMemory h hmovs] at hdelta
  rw [← effect_withMemory h hmovs]
  unfold StringInsn.advance apply
  rw [← hpointers.1, ← hpointers.2]
  have hedi : (v.insn length hwidth).usesEdi = v.usesEdi := rfl
  have hesi : (v.insn length hwidth).usesEsi = v.usesEsi := rfl
  rw [hedi, hesi]
  by_cases hd : v.usesEdi = true <;> by_cases hs : v.usesEsi = true <;>
    simp only [hd, hs, if_true, Bool.false_eq_true, if_false]
  · rw [hdelta]
    rfl
  · rw [hdelta]
    rfl
  · rw [hdelta]
    rfl

/-- An iteration of the loop is an iteration of the instruction. -/
theorem iteration_withMemory {c : GuestCpuContext} {destinationValue sourceValue : Word}
    (h : v.readOperands arena memory c = some (destinationValue, sourceValue)) (hmovs : v.operation ≠ .movs)
    (hdelta : v.delta = (v.insn length hwidth).stride (c.withMemory memory)) :
    (v.insn length hwidth).iteration .flat (c.withMemory memory) =
      (if v.repeated = .none then v.apply c destinationValue sourceValue
      else
        (v.apply c destinationValue sourceValue).writeRegister32 1
          ((v.apply c destinationValue sourceValue).ecx - 1)).withMemory memory := by
  have hadvance := apply_withMemory h hmovs hdelta
  have hrepeated : (v.insn length hwidth).repeated = v.repeated := rfl
  unfold StringInsn.iteration
  rw [hadvance, hrepeated]
  by_cases hnone : v.repeated = .none
  · rw [if_pos hnone, if_pos hnone]
  · rw [if_neg hnone, if_neg hnone]
    rfl

/-- The loop ends a repetition where the instruction does. -/
theorem ends_withMemory (hmovs : v.operation ≠ .movs) (c : GuestCpuContext) :
    (v.insn length hwidth).ends (c.withMemory memory) ↔
      v.repeated = .none ∨ c.ecx = 0 ∨ v.endsOnZeroFlag c = true := by
  have hbit : decide (c.eflags &&& 0x40 ≠ 0) = zeroFlag c.eflags := by
    rw [eq_comm, Bool.eq_iff_iff, decide_eq_true_iff]
    exact (and_bit_ne_zero c.eflags (show 6 < 32 by decide) (by decide)).symm
  have hcompares : (v.insn length hwidth).compares = true ↔ v.operation ≠ .lods := by
    show decide (v.operation = .scas ∨ v.operation = .cmps) = true ↔ _
    cases hop : v.operation with
    | movs => exact absurd hop hmovs
    | scas => decide
    | lods => decide
    | cmps => decide
  unfold StringInsn.ends endsOnZeroFlag
  rw [hcompares]
  simp only [hbit, decide_eq_true_eq, Bool.not_eq_true']
  rfl

/-- The loop does iterations of which only the last may end the repetition, and says whether it did. -/
theorem loop_prefix (hmovs : v.operation ≠ .movs) (n : ℕ) (c : GuestCpuContext)
    (hdelta : v.delta = (v.insn length hwidth).stride (c.withMemory memory)) :
    (v.insn length hwidth).Prefix .flat (c.withMemory memory) (v.loop arena memory n c).1
      (v.loop arena memory n c).2.1 ((v.loop arena memory n c).2.2.withMemory memory) := by
  induction n generalizing c with
  | zero => exact StringInsn.Prefix.zero _
  | succ n ih =>
    cases htouch : v.touchesLowMemory c with
    | false =>
      simp only [loop, htouch, Bool.not_false, if_true]
      exact StringInsn.Prefix.zero _
    | true =>
      cases hoperands : v.readOperands arena memory c with
      | none =>
        simp only [loop, htouch, hoperands, Bool.not_true, Bool.false_eq_true, if_false]
        exact StringInsn.Prefix.zero _
      | some operands =>
        obtain ⟨destinationValue, sourceValue⟩ := operands
        have hiteration := iteration_withMemory hoperands hmovs hdelta
        simp only [loop, htouch, hoperands, Bool.not_true, Bool.false_eq_true, if_false]
        by_cases hnone : v.repeated = .none
        · rw [if_pos hnone] at hiteration
          simp only [if_pos hnone]
          rw [← hiteration]
          exact StringInsn.Prefix.last (Or.inl hnone)
        rw [if_neg hnone] at hiteration
        simp only [if_neg hnone]
        have hstride : (v.insn length hwidth).stride ((v.insn length hwidth).iteration .flat (c.withMemory memory)) =
            (v.insn length hwidth).stride (c.withMemory memory) := StringInsn.stride_iteration _
        rw [hiteration, ← hdelta] at hstride
        generalize (v.apply c destinationValue sourceValue).writeRegister32 1
          ((v.apply c destinationValue sourceValue).ecx - 1) = c' at hiteration hstride ⊢
        by_cases hzero : c'.ecx = 0
        · simp only [if_pos hzero]
          rw [← hiteration]
          apply StringInsn.Prefix.last
          rw [hiteration, ends_withMemory hmovs]
          exact Or.inr (Or.inl hzero)
        simp only [if_neg hzero]
        by_cases hflag : v.endsOnZeroFlag c' = true
        · simp only [if_pos hflag]
          rw [← hiteration]
          apply StringInsn.Prefix.last
          rw [hiteration, ends_withMemory hmovs]
          exact Or.inr (Or.inr hflag)
        · simp only [if_neg hflag]
          have hrest := ih c' hstride.symm
          rw [← hiteration] at hrest
          apply StringInsn.Prefix.more _ hrest
          rw [hiteration, ends_withMemory hmovs]
          tauto

end StringService

/-! ## The service -/

/-- The decoded instruction is a string instruction with 32-bit addressing. -/
structure DecodedInstruction.Is (decoded : DecodedInstruction) (i : StringInsn) : Prop where
  stringOp : decoded.isStringOp = true
  mnemonic : classifyStringOperation decoded.mnemonic = some (i.operation, i.width)
  addressing : decoded.addressWidth = 32
  repeated : decoded.repeated = i.repeated
  length : decoded.length = i.length

theorem classifyStringOperation_width {mnemonic : StringMnemonic} {operation : StringOperation} {width : ℕ}
    (h : classifyStringOperation mnemonic = some (operation, width)) :
    operation ≠ .movs ∧ (width = 1 ∨ width = 2 ∨ width = 4) := by
  cases mnemonic <;> simp only [classifyStringOperation, Option.some.injEq, Prod.mk.injEq, reduceCtorEq] at h <;>
    obtain ⟨rfl, rfl⟩ := h <;> decide

/-- What the service leaves is the machine behind some iterations of the instruction: the registers
and the flags, and EIP behind the instruction where the repetition ended. -/
structure ServedIterations (i : StringInsn) (memory : DataMemory) (c c' : GuestCpuContext) (k : ℕ) : Prop where
  some_iteration : 1 ≤ k
  goes : ∀ j, 1 ≤ j → j < k → ¬i.ends ((i.iteration .flat)^[j] (c.withMemory memory))
  registers : c'.registers = ((i.iteration .flat)^[k] (c.withMemory memory)).registers
  eflags : c'.eflags = ((i.iteration .flat)^[k] (c.withMemory memory)).eflags
  ended : i.ends ((i.iteration .flat)^[k] (c.withMemory memory)) →
    c'.eip = c.eip + BitVec.ofNat 32 i.length ∧ i.Finishes .flat (c.withMemory memory) (c'.withMemory memory)
  resumed : ¬i.ends ((i.iteration .flat)^[k] (c.withMemory memory)) →
    c'.eip = c.eip ∧
      ∀ t, i.Finishes .flat (c'.withMemory memory) t ↔ i.Finishes .flat (c.withMemory memory) t

/-- A run of the loop that has done something leaves what the service promises. -/
theorem servedIterations_of_prefix {i : StringInsn} {memory : DataMemory} {c r : GuestCpuContext} {k : ℕ}
    {ended : Bool} (hcount : ¬i.exhausted (c.withMemory memory)) (hk : 1 ≤ k)
    (hpart : i.Prefix .flat (c.withMemory memory) k ended (r.withMemory memory)) :
    ServedIterations i memory c
      (if ended then { r with eip := c.eip + BitVec.ofNat 32 i.length } else r) k := by
  have heip : r.eip = c.eip := by
    show (r.withMemory memory).eip = _
    rw [hpart.iterate, StringInsn.iterate_eip]
    rfl
  have hended := hpart.ended_iff
  have hiterate := hpart.iterate
  refine ⟨hk, hpart.goes, ?_, ?_, fun hends => ?_, fun hgoes => ?_⟩
  · rw [← hiterate]
    split_ifs <;> rfl
  · rw [← hiterate]
    split_ifs <;> rfl
  · rw [← hiterate] at hends
    rw [if_pos (hended.mpr ⟨hk, hends⟩)]
    refine ⟨rfl, ?_⟩
    have hfinishes := hpart.finishes hcount hk hends
    unfold StringInsn.skip at hfinishes
    rw [show (r.withMemory memory).eip = c.eip from heip] at hfinishes
    exact hfinishes
  · rw [← hiterate] at hgoes
    rw [if_neg fun htrue => hgoes (hended.mp htrue).2]
    exact ⟨heip, fun t => hpart.finishes_iff hcount hgoes⟩

/-- The service declines and leaves everything as it was, or does some iterations. -/
theorem service_cases (arena : GuestArena) (memory : DataMemory) (decoded : Option DecodedInstruction)
    (c : GuestCpuContext) :
    serviceGuestLowMemoryStringInstruction arena memory decoded c = (false, c) ∨
      ∃ instruction i k c', decoded = some instruction ∧ instruction.Is i ∧ ServedIterations i memory c c' k ∧
        serviceGuestLowMemoryStringInstruction arena memory decoded c = (true, c') := by
  unfold serviceGuestLowMemoryStringInstruction
  cases decoded with
  | none => exact Or.inl rfl
  | some instruction =>
    dsimp only
    by_cases hstring : instruction.isStringOp = true
    swap
    · rw [if_pos (by simpa using hstring)]
      exact Or.inl rfl
    rw [if_neg (by simpa using hstring)]
    cases hclass : classifyStringOperation instruction.mnemonic with
    | none => exact Or.inl rfl
    | some operation =>
      obtain ⟨operation, width⟩ := operation
      obtain ⟨hmovs, hwidth⟩ := classifyStringOperation_width hclass
      dsimp only
      by_cases haddress : instruction.addressWidth = 32
      swap
      · rw [if_pos haddress]
        exact Or.inl rfl
      rw [if_neg (not_not.mpr haddress)]
      by_cases hcount : instruction.repeated ≠ .none ∧ c.ecx = 0
      · rw [if_pos hcount]
        exact Or.inl rfl
      rw [if_neg hcount]
      let service : StringService :=
        { operation := operation
          width := width
          repeated := instruction.repeated
          delta := if c.eflags &&& 0x400 ≠ 0 then -BitVec.ofNat 32 width else BitVec.ofNat 32 width }
      let i := service.insn instruction.length hwidth
      have hdelta : service.delta = i.stride (c.withMemory memory) := by
        have hbit := and_bit_ne_zero c.eflags (show 10 < 32 by decide) (show (0x400 : Word) = _ by decide)
        show (if c.eflags &&& 0x400 ≠ 0 then -BitVec.ofNat 32 width else BitVec.ofNat 32 width) =
          if c.eflags.getLsbD 10 = true then -BitVec.ofNat 32 width else BitVec.ofNat 32 width
        simp only [hbit]
      have hpart : i.Prefix .flat (c.withMemory memory) (service.loop arena memory kLowMemoryStringIterationCap c).1
          (service.loop arena memory kLowMemoryStringIterationCap c).2.1
          ((service.loop arena memory kLowMemoryStringIterationCap c).2.2.withMemory memory) :=
        StringService.loop_prefix hmovs kLowMemoryStringIterationCap c hdelta
      change (if (service.loop arena memory kLowMemoryStringIterationCap c).1 = 0 then _ else _) = _ ∨
        ∃ _ _ _ _, _ ∧ _ ∧ _ ∧
          (if (service.loop arena memory kLowMemoryStringIterationCap c).1 = 0 then _ else _) = _
      by_cases hzero : (service.loop arena memory kLowMemoryStringIterationCap c).1 = 0
      · have hsame := hpart.iterate
        rw [hzero] at hsame
        rw [if_pos hzero]
        exact Or.inl (Prod.ext rfl (GuestCpuContext.withMemory_inj hsame))
      · rw [if_neg hzero]
        exact Or.inr ⟨instruction, i, _, _, rfl, ⟨hstring, hclass, haddress, rfl, rfl⟩,
          servedIterations_of_prefix hcount (by omega) hpart, rfl⟩

/-- The string service does a number of iterations of the instruction that faulted, leaves EIP behind
the instruction exactly where they end its repetition, and otherwise leaves a state from which the
instruction goes on to the end it would have reached.  What it declines it leaves as it was. -/
theorem service_is_restartable_prefix (arena : GuestArena) (memory : DataMemory)
    (decoded : Option DecodedInstruction) (c c' : GuestCpuContext) (handled : Bool)
    (h : serviceGuestLowMemoryStringInstruction arena memory decoded c = (handled, c')) :
    (handled = true → ∃ instruction i k, decoded = some instruction ∧ instruction.Is i ∧
      ServedIterations i memory c c' k) ∧
      (handled = false → c' = c) := by
  obtain hdeclined | ⟨instruction, i, k, served, hdecoded, his, hserved, hservice⟩ :=
    service_cases arena memory decoded c
  · rw [hdeclined, Prod.mk.injEq] at h
    rw [← h.1, ← h.2]
    exact ⟨fun hfalse => (Bool.false_ne_true hfalse).elim, fun _ => rfl⟩
  · rw [hservice, Prod.mk.injEq] at h
    rw [← h.1, ← h.2]
    exact ⟨fun _ => ⟨instruction, i, k, hdecoded, his, hserved⟩,
      fun hfalse => (Bool.false_ne_true hfalse.symm).elim⟩

/-- A `repne scasb` that has two bytes left to scan, the first of them in low memory. -/
def sampleScan : GuestCpuContext where
  registers := fun r => if r = 1 then 2 else if r = 7 then 0x17 else 0
  eip := 0x101000
  eflags := 0x202

/-- The same as it is decoded. -/
def sampleInstruction : DecodedInstruction where
  isStringOp := true
  mnemonic := .scasb
  addressWidth := 32
  repeated := .repne
  length := 2

theorem service_is_restartable_prefix_scasb :
    ∃ instruction i k, some sampleInstruction = some instruction ∧ instruction.Is i ∧
      ServedIterations i (fun _ => 0) sampleScan
        (serviceGuestLowMemoryStringInstruction sampleArena (fun _ => 0) (some sampleInstruction) sampleScan).2 k :=
  ( service_is_restartable_prefix sampleArena (fun _ => 0) (some sampleInstruction) sampleScan _ _ rfl).1
    (by decide +kernel)

end Repiu.Engine
