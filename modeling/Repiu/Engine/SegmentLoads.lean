import Repiu.Engine.DpmiServices
import Repiu.Engine.EmulatedArithmetic
import Repiu.Engine.EnterInstruction
import Repiu.X86.SegmentedOperands

/-!
# Loads of segment registers

The decoding of memory operands (`DecodeModRmMemoryAddress`) and the handler of `mov` into a segment register
(`HandleSegmentLoadInstruction`), which takes the offset of its operand for the linear address.
-/

namespace Repiu.Engine

open X86

/-! ## Memory operands -/

/-- The number of displacement bytes as the decoder of operands has it. -/
theorem dispSize_memory {modrm : Byte} (hmod : modField modrm ≠ 3) (sib : Byte) :
    dispSize 32 modrm sib =
      if modField modrm = 0 ∧ (rmField modrm = 5 ∨ rmField modrm = 4 ∧ rmField sib = 5) ∨ modField modrm = 2 then 4
      else if modField modrm = 1 then 1
      else 0 := by
  have hsib : hasSib 32 modrm = decide (rmField modrm = 4) := by simp [hasSib, hmod]
  have hwidth : modField modrm < 4 := Nat.div_lt_of_lt_mul modrm.isLt
  unfold dispSize
  simp only [hsib, decide_eq_true_eq]
  rw [if_neg (by decide)]
  generalize modField modrm = m at hmod hwidth
  by_cases hbase : rmField modrm = 4 ∧ rmField sib = 5
  · rw [if_pos hbase]
    interval_cases m <;> simp [hbase] at hmod ⊢
  · rw [if_neg hbase]
    interval_cases m <;> simp [hbase] at hmod ⊢

/-- The base and the index as the decoder of operands has them. -/
theorem baseIndex_eq (c : GuestCpuContext) (modrm sib : Byte) :
    (if rmField modrm = 4 then
        if modField modrm = 0 ∧ rmField sib = 5 then 0 else c.registers (fieldRegister (rmField sib))
      else if modField modrm = 0 ∧ rmField modrm = 5 then 0
      else c.registers (fieldRegister (rmField modrm))) +
      (if rmField modrm = 4 ∧ regField sib ≠ 4 then
        c.registers (fieldRegister (regField sib)) <<< modField sib
      else 0) =
    baseIndex c.registers modrm sib := by
  unfold baseIndex sibBaseIndex
  by_cases hrm : rmField modrm = 4
  · rw [if_pos hrm, if_pos hrm]
    congr 1
    by_cases hindex : regField sib = 4
    · rw [if_pos hindex, if_neg fun h => h.2 hindex]
    · rw [if_neg hindex, if_pos ⟨hrm, hindex⟩]
  · have hindex : ¬(rmField modrm = 4 ∧ regField sib ≠ 4) := fun h => hrm h.1
    rw [if_neg hrm, if_neg hrm, if_neg hindex, add_zero]

/-- A memory operand is decoded to its offset with 32-bit addressing, and to the bytes up to its end. -/
theorem decodeModRmMemoryAddress_eq (c : GuestCpuContext) (instruction : ℕ → Byte) :
    decodeModRmMemoryAddress c instruction =
      if modField (instruction 1) = 3 then none
      else
        let bytes (k : ℕ) : Byte := instruction (k + 1)
        some (operandOffset 32 bytes c.registers, 1 + operandLength 32 bytes) := by
  unfold decodeModRmMemoryAddress
  dsimp only
  by_cases hmod : modField (instruction 1) = 3
  · rw [if_pos hmod, if_pos hmod]
  rw [if_neg hmod, if_neg hmod, baseIndex_eq]
  obtain ⟨bytes, hbytes⟩ : ∃ bytes : ℕ → Byte, bytes = fun k => instruction (k + 1) := ⟨_, rfl⟩
  have hhas : hasSib 32 (instruction 1) = decide (rmField (instruction 1) = 4) := by simp [hasSib, hmod]
  have hsib : rmField (instruction 1) = 4 → operandSib 32 bytes = instruction 2 := by
    intro hrm
    rw [hbytes]
    exact if_pos (hhas.trans (decide_eq_true hrm))
  have hstart : (if rmField (instruction 1) = 4 then 3 else 2) = dispStart 32 bytes + 1 := by
    rw [hbytes, dispStart, zero_add]
    simp only [hhas, decide_eq_true_eq]
    split_ifs <;> rfl
  have hbase : baseIndex c.registers (instruction 1) (instruction 2) =
      baseIndex c.registers (instruction 1) (operandSib 32 bytes) := by
    unfold baseIndex
    split_ifs with hrm
    · rw [hsib hrm]
    · rfl
    · rfl
  have habsolute : rmField (instruction 1) = 4 ∧ rmField (instruction 2) = 5 ↔
      rmField (instruction 1) = 4 ∧ rmField (operandSib 32 bytes) = 5 := and_congr_right fun hrm => by rw [hsib hrm]
  have hsize := dispSize_memory hmod (operandSib 32 bytes)
  have hoffset : operandOffset 32 bytes c.registers =
      baseIndex c.registers (bytes 0) (operandSib 32 bytes) + dispValue (operandDisp 32 bytes) := rfl
  have hmodrm : bytes 0 = instruction 1 := by rw [hbytes]
  simp only [hstart, habsolute, ← hbytes]
  rw [hoffset, operandDisp, operandLength, hmodrm, hsize, hbase, hbytes]
  generalize dispStart 32 (fun k => instruction (k + 1)) = start
  have hlength : ∀ n, start + 1 + n = 1 + (start + n) := fun n => by omega
  split_ifs
  · rw [← hlength]
    rfl
  · rw [← hlength]
    rfl
  · show some (_, _) = some (_ + 0, 1 + start)
    rw [add_zero, add_comm 1]

/-! ## The handler -/

/-- The part of the thread context and of the guest that the handler reads and writes. Segment registers are numbered
as in instructions. -/
structure SegmentLoadState where
  selectorTable : SelectorTable
  guestSegments : Fin 6 → BitVec 16
  context : GuestCpuContext
  memory : DataMemory

namespace SegmentLoadState

variable (s : SegmentLoadState)

/-- The bytes at EIP. -/
def instruction (k : ℕ) : Byte := s.memory (s.context.eip + BitVec.ofNat 32 k)

/-- `RecordGuestSegmentLoad`. -/
def recordGuestSegmentLoad (segmentRegister : Fin 6) (selector : BitVec 16) : SegmentLoadState :=
  let descriptor : GuestDescriptor :=
    { selector := selector, base := 0, limit := BitVec.ofNat 32 (kDosLowMemorySize - 1) }
  { s with
    selectorTable :=
      if selector ≠ 0 ∧ findDescriptor s.selectorTable selector = none then
        (registerDescriptor s.selectorTable descriptor).getD s.selectorTable
      else s.selectorTable
    guestSegments :=
      if segmentRegister = 1 then s.guestSegments else Function.update s.guestSegments segmentRegister selector }

/-- Go on behind an instruction. -/
def skip (length : ℕ) : SegmentLoadState := { s with context := s.context.skip length }

end SegmentLoadState

/-- The prefixes that the handler skips. -/
def isLoadPrefix (b : Byte) : Bool :=
  b = 0x26 ∨ b = 0x2E ∨ b = 0x36 ∨ b = 0x3E ∨ b = 0x64 ∨ b = 0x65 ∨ b = 0x66 ∨ b = 0x67

/-- The prefix loop, for at most as many bytes as given. -/
def loadPrefixLength (instruction : ℕ → Byte) : ℕ → ℕ → Option ℕ
  | 0, _ => none
  | n + 1, prefixLength =>
    if isLoadPrefix (instruction prefixLength) then loadPrefixLength instruction n (prefixLength + 1)
    else some prefixLength

/-- A load that is done: the address of its source, where that is in memory, and the state behind it. -/
structure SegmentLoad where
  source : Option Word
  next : SegmentLoadState

section
variable (arena : GuestArena) (limit : ℕ)

/-- `HandleSegmentLoadInstruction` before it goes on with the next instruction. -/
def loadSegment (s : SegmentLoadState) : Option SegmentLoad :=
  match loadPrefixLength s.instruction limit 0 with
  | none => none
  | some prefixLength =>
    if s.instruction prefixLength ≠ 0x8E then none
    else
      let modrm := s.instruction (prefixLength + 1)
      let segmentRegister := regField modrm
      if segmentRegister = 1 ∨ 5 < segmentRegister then none
      else if modField modrm = 3 then
        let selector := (s.context.registers (fieldRegister (rmField modrm))).setWidth 16
        some ⟨none, (s.recordGuestSegmentLoad (Fin.ofNat 6 segmentRegister) selector).skip (prefixLength + 2)⟩
      else
        match decodeModRmMemoryAddress s.context fun k => s.instruction (prefixLength + k) with
        | none => none
        | some (source, unprefixedLength) =>
          if !arena.isGuestRangeReadable source 2 then none
          else
            let selector := s.memory.getHalf source
            some ⟨some source,
              (s.recordGuestSegmentLoad (Fin.ofNat 6 segmentRegister) selector).skip (prefixLength + unprefixedLength)⟩

/-- What the handler leaves, with the loads that it has done: the state that each found, and its source. -/
structure SegmentLoadOutcome where
  handled : Bool
  state : SegmentLoadState
  loads : List (SegmentLoadState × Option Word) := []

/-- `HandleSegmentLoadInstruction`, which goes on with the loads behind it, at most as many as given, and then, as
often, with a store of a segment register. -/
def handleSegmentLoadInstruction (store : SegmentLoadState → SegmentLoadState) :
    ℕ → SegmentLoadState → SegmentLoadOutcome
  | 0, s => { handled := false, state := s }
  | n + 1, s =>
    match loadSegment arena limit s with
    | none => { handled := false, state := s }
    | some load =>
      let rest := handleSegmentLoadInstruction store n load.next
      { handled := true, state := store rest.state, loads := (s, load.source) :: rest.loads }

/-- The states in which loads follow each other. -/
def loadStates : ℕ → SegmentLoadState → List SegmentLoadState
  | 0, _ => []
  | n + 1, s =>
    match loadSegment arena limit s with
    | none => []
    | some load => s :: loadStates n load.next

end

/-! ## The instruction -/

section
variable (base : SegmentLoadState → Fin 6 → Word) (limit : ℕ) (s : SegmentLoadState)

/-- The bytes behind the opcode. -/
def operandBytes (k : ℕ) : Byte := s.instruction ((prefixesAt s.instruction limit).length + 1 + k)

/-- The linear address that the instruction reads its selector from. -/
def selectorAddress : Word :=
  linearAddress (prefixesAt s.instruction limit) (operandBytes limit s) (base s) s.context.registers

/-- The operand is a register, or its offset is its linear address. -/
def FlatLoad : Prop :=
  modField (operandBytes limit s 0) ≠ 3 →
    FlatOperand (prefixesAt s.instruction limit) (operandBytes limit s) (base s) s.context.registers

/-- The handler reads each selector from where the instruction does, and leaves all as it was where it refuses. -/
def SegmentLoadsCorrect (arena : GuestArena) (store : SegmentLoadState → SegmentLoadState) (n : ℕ) : Prop :=
  let outcome := handleSegmentLoadInstruction arena limit store n s
  (outcome.handled = false → outcome.state = s) ∧
    ∀ load ∈ outcome.loads, ∀ source, load.2 = some source → source = selectorAddress base limit load.1

end

/-! ## One load -/

theorem loadPrefixLength_some {instruction : ℕ → Byte} {n first last : ℕ}
    (h : loadPrefixLength instruction n first = some last) :
    first ≤ last ∧ last < first + n ∧ ∀ k, first ≤ k → k < last → isLoadPrefix (instruction k) = true := by
  induction n generalizing first with
  | zero => exact absurd h (by simp [loadPrefixLength])
  | succ n ih =>
    rw [loadPrefixLength] at h
    split_ifs at h with hprefix
    · obtain ⟨hfirst, hlast, hall⟩ := ih h
      refine ⟨by omega, by omega, fun k hk hk' => ?_⟩
      rcases Nat.eq_or_lt_of_le hk with rfl | hk
      · exact hprefix
      · exact hall k hk hk'
    · obtain rfl := Option.some.inj h
      exact ⟨le_rfl, by omega, fun k hk hk' => absurd hk (by omega)⟩

/-- What the handler skips is a prefix. -/
theorem isPrefix_of_isLoadPrefix : ∀ b : Byte, isLoadPrefix b = true → isPrefix .legacy32 b = true := by
  decide +kernel

section
variable {base : SegmentLoadState → Fin 6 → Word} {arena : GuestArena} {limit : ℕ} {s : SegmentLoadState}
  {load : SegmentLoad}

/-- The operand of a load starts behind what the handler skips and the opcode. -/
theorem operandBytes_eq {prefixLength : ℕ} (hlength : loadPrefixLength s.instruction limit 0 = some prefixLength)
    (hopcode : s.instruction prefixLength = 0x8E) (k : ℕ) :
    operandBytes limit s k = s.instruction (prefixLength + (k + 1)) := by
  obtain ⟨-, hlast, hall⟩ := loadPrefixLength_some hlength
  have hprefixes : prefixesAt s.instruction limit = (List.range prefixLength).map s.instruction :=
    prefixesAt_eq (by omega) (fun k hk => isPrefix_of_isLoadPrefix _ (hall k (Nat.zero_le k) hk))
      (by rw [hopcode]; decide)
  rw [operandBytes, hprefixes, List.length_map, List.length_range, add_assoc, add_comm 1]

/-- A load that is done reads the offset of its operand with 32-bit addressing. -/
theorem loadSegment_source (h : loadSegment arena limit s = some load) :
    load.source =
      if modField (operandBytes limit s 0) = 3 then none
      else some (operandOffset 32 (operandBytes limit s) s.context.registers) := by
  unfold loadSegment at h
  cases hlength : loadPrefixLength s.instruction limit 0 with
  | none => simp [hlength] at h
  | some prefixLength =>
    simp only [hlength] at h
    split_ifs at h with hopcode hregister hmod
    · -- a register operand
      obtain rfl := Option.some.inj h
      rw [operandBytes_eq hlength (of_not_not hopcode), if_pos hmod]
    · have hbytes : (fun k => s.instruction (prefixLength + (k + 1))) = operandBytes limit s :=
        funext fun k => (operandBytes_eq hlength (of_not_not hopcode) k).symm
      have hmemory : modField (operandBytes limit s 0) ≠ 3 := by
        rw [← hbytes]
        exact hmod
      rw [decodeModRmMemoryAddress_eq, if_neg hmod, hbytes] at h
      dsimp only at h
      split_ifs at h with hrange
      obtain rfl := Option.some.inj h
      rw [if_neg hmemory]

/-- A load that is done reads its selector from where the instruction does exactly where its operand is flat. -/
theorem loadSegment_flat (h : loadSegment arena limit s = some load) :
    (∀ source, load.source = some source → source = selectorAddress base limit s) ↔ FlatLoad base limit s := by
  rw [loadSegment_source h]
  unfold FlatLoad
  split_ifs with hmod
  · exact iff_of_true (fun source hsource => absurd hsource (by simp)) fun hmemory => absurd hmod hmemory
  · rw [← eq_linearAddress_iff]
    constructor
    · intro hsource _
      exact hsource _ rfl
    · rintro hflat source hsource
      rw [← Option.some.inj hsource]
      exact hflat hmod

/-! ## Loads that follow each other -/

variable (store : SegmentLoadState → SegmentLoadState)

theorem handleSegmentLoadInstruction_loads (n : ℕ) (s : SegmentLoadState) :
    (∀ load ∈ (handleSegmentLoadInstruction arena limit store n s).loads, ∀ source, load.2 = some source →
        source = selectorAddress base limit load.1) ↔
      ∀ t ∈ loadStates arena limit n s, FlatLoad base limit t := by
  induction n generalizing s with
  | zero =>
    refine iff_of_true (fun load hload => ?_) fun t ht => ?_
    · exact absurd hload List.not_mem_nil
    · exact absurd ht List.not_mem_nil
  | succ n ih =>
    rw [handleSegmentLoadInstruction, loadStates]
    cases hload : loadSegment arena limit s with
    | none =>
      refine iff_of_true (fun load hload => ?_) fun t ht => ?_
      · exact absurd hload List.not_mem_nil
      · exact absurd ht List.not_mem_nil
    | some load =>
      dsimp only
      rw [List.forall_mem_cons, List.forall_mem_cons, ih load.next, loadSegment_flat hload]

theorem handleSegmentLoadInstruction_refused (n : ℕ)
    (h : (handleSegmentLoadInstruction arena limit store n s).handled = false) :
    (handleSegmentLoadInstruction arena limit store n s).state = s := by
  cases n with
  | zero => rfl
  | succ n =>
    rw [handleSegmentLoadInstruction] at h ⊢
    cases hload : loadSegment arena limit s with
    | none => rfl
    | some load =>
      rw [hload] at h
      exact absurd h (by simp)

theorem segmentLoadsCorrect_iff (n : ℕ) : SegmentLoadsCorrect base limit s arena store n ↔
    ∀ t ∈ loadStates arena limit n s, FlatLoad base limit t := by
  rw [← handleSegmentLoadInstruction_loads store n s]
  exact and_iff_right (handleSegmentLoadInstruction_refused store n)

end

/-! ## Emulated addresses -/

/-- The decoder of operands always has the offset. ENTER is right where its stack is flat and the display is not
disturbed. The loads are right where their operands are flat. -/
theorem emulated_addresses (ss : Word) (base : SegmentLoadState → Fin 6 → Word) (arena : GuestArena)
    (host : ℕ → HostOutcomes) (memory : DataMemory) (c : GuestCpuContext) (instruction : ℕ → Byte)
    (store : SegmentLoadState → SegmentLoadState) (limit n : ℕ) (s : SegmentLoadState) :
    (decodeModRmMemoryAddress c instruction =
      if modField (instruction 1) = 3 then none
      else
        let bytes (k : ℕ) : Byte := instruction (k + 1)
        some (operandOffset 32 bytes c.registers, 1 + operandLength 32 bytes)) ∧
    (EnterCorrect arena memory ss host c ↔ EnterSettled arena memory ss host c) ∧
    (SegmentLoadsCorrect base limit s arena store n ↔ ∀ t ∈ loadStates arena limit n s, FlatLoad base limit t) :=
  ⟨decodeModRmMemoryAddress_eq c instruction, enterCorrect_iff ss, segmentLoadsCorrect_iff store n⟩

/-- The base that a segment register has by its descriptor. -/
def descriptorBase (s : SegmentLoadState) (segment : Fin 6) : Word :=
  ((findDescriptor s.selectorTable (s.guestSegments segment)).map (·.base)).getD 0

/-- At `mov ds, fs:[esi]`, with an FS that does not start at zero. -/
def overriddenLoad : SegmentLoadState where
  selectorTable := { descriptors := [{ selector := 0x8F, base := 0x100, limit := 0xFFFF }] }
  guestSegments := fun segment => if segment = 4 then 0x8F else 0
  context := { registers := fun _ => 0x100010, eip := 0x100000, eflags := 0 }
  memory := fun x =>
    if x = 0x100000 then 0x64 else if x = 0x100001 then 0x8E else if x = 0x100002 then 0x1E else 0

/-- At `enter 0, 2`, with a display right where the frame goes. -/
def overlappingEnter : GuestCpuContext where
  registers := fun _ => 0x108000
  eip := 0x100000
  eflags := 0

def overlappingMemory : DataMemory := fun x => if x = 0x100000 then 0xC8 else if x = 0x100003 then 2 else 0

/-- A host that does all it is asked. -/
def willingHost : HostOutcomes := ⟨true, true, true, true⟩

theorem emulated_addresses_overridden :
    ¬SegmentLoadsCorrect descriptorBase 15 overriddenLoad sampleArena id 1 ∧
      ¬EnterCorrect sampleArena overlappingMemory 0 (fun _ => willingHost) overlappingEnter := by
  constructor
  · rw [segmentLoadsCorrect_iff]
    intro h
    have hload : (loadSegment sampleArena 15 overriddenLoad).isSome = true := by decide
    obtain ⟨load, hload⟩ := Option.isSome_iff_exists.mp hload
    have hflat := h overriddenLoad (by simp [loadStates, hload]) (by decide)
    unfold FlatOperand at hflat
    exact absurd hflat (by decide)
  · rw [enterCorrect_iff]
    intro h
    have hrange : EnterInRange sampleArena overlappingMemory overlappingEnter := by
      refine ⟨by decide, by decide, by decide, by decide, ?_⟩
      intro i hfirst hlast
      have hlevel : enterLevel overlappingMemory overlappingEnter = 2 := by decide
      obtain rfl : i = 1 := by omega
      decide
    have hsettled := ((h hrange).1 fun _ _ => rfl).2 1 le_rfl (by decide) 0 (by decide) 0x107FFD
    exact absurd (hsettled (by decide) (by decide)) (by decide)

end Repiu.Engine
