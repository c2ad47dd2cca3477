import Repiu.Runtime.Planner
import Repiu.X86.DecoderTheorems

/-!
# Records of a plan

Every record a planner run leaves in its plan was made by the classification of a
decoded instruction or is the boundary of an excluded address; the jump-table
sweeps only turn boundaries and indirect exits into jump tables.
-/

namespace Repiu.Runtime

open Repiu.X86

/-- A property of records that the planner establishes and its sweeps keep. -/
structure RecordInvariant (input : PlannerInput) (P : AotInstructionRecord → Prop) : Prop where
  excluded : ∀ address, P (excludedBoundary address)
  classified : ∀ guards block address codeMode i bytes,
    decode input.table (decoderMode codeMode) (bytes.take maxInstructionLength) = some i →
    P (classifyInstruction input guards block i codeMode (decodedRecord address codeMode i bytes)).record
  retargeted : ∀ record targets, P record →
    (record.kind = .kHleBoundary ∨ record.kind = .kIndirectExit) →
    P { record with tableTargets := targets }
  reclassified : ∀ record targets index, P record →
    (record.kind = .kHleBoundary ∨ record.kind = .kIndirectExit) → record.bytes ≠ [] →
    (∀ i, decode input.table (decoderMode record.guestCodeDefaultOperandSize) record.bytes = some i →
      (matchJumpTableBranch i).isSome) →
    P { record with tableTargets := targets, tableIndexRegister := index, kind := .kJumpTable }

namespace RecordInvariant

variable {input : PlannerInput} {P : AotInstructionRecord → Prop}

/-- The records of a planner state. -/
def All (P : AotInstructionRecord → Prop) (blocks : List AotBasicBlock) : Prop :=
  ∀ b ∈ blocks, ∀ r ∈ b.instructions, P r

theorem walkBlock (h : RecordInvariant input P) (fuel : ℕ) (address : Word) (s : PlannerState)
    (block : List AotInstructionRecord) (hblock : ∀ r ∈ block, P r) :
    (walkBlock input fuel address s block).1.blocks = s.blocks ∧
      ∀ r ∈ (walkBlock input fuel address s block).2, P r := by
  induction fuel generalizing address s block with
  | zero => exact ⟨rfl, hblock⟩
  | succ fuel ih =>
    have hsnoc : ∀ record, P record → ∀ r ∈ block ++ [record], P r := by
      intro record hrecord r hr
      rcases List.mem_append.mp hr with hr | hr
      · exact hblock r hr
      · rw [List.mem_singleton.mp hr]
        exact hrecord
    unfold Runtime.walkBlock
    split_ifs with hex hvis
    · exact ⟨rfl, hsnoc _ (h.excluded address)⟩
    · exact ⟨rfl, hblock⟩
    · simp only
      split
      · exact ⟨rfl, hblock⟩
      · split
        · exact ⟨rfl, hblock⟩
        · rename_i bytes _ _ i hi
          have hP := h.classified s.guards block address
            (guestCodeDefaultOperandSizeForAddress input.image address) i bytes hi
          split_ifs
          · exact ih _ _ _ (hsnoc _ hP)
          · exact ⟨rfl, hsnoc _ hP⟩

theorem visitBlock (h : RecordInvariant input P) (entry : Word) (s : PlannerState)
    (hs : All P s.blocks) : All P (visitBlock input entry s).blocks := by
  have hsnoc : ∀ (block : AotBasicBlock), (∀ r ∈ block.instructions, P r) →
      All P (s.blocks ++ [block]) := by
    intro block hblock b hb
    rcases List.mem_append.mp hb with hb | hb
    · exact hs b hb
    · rw [List.mem_singleton.mp hb]
      exact hblock
  unfold Runtime.visitBlock
  split_ifs with hvis hex hnone
  · exact hs
  · refine hsnoc _ ?_
    intro r hr
    rw [List.mem_singleton.mp hr]
    exact h.excluded entry
  · exact hs
  · simp only
    obtain ⟨hblocks, hrecords⟩ := h.walkBlock kMaximumBlockInstructions entry
      { s with visitedBlocks := entry :: s.visitedBlocks } [] (by simp)
    rw [hblocks]
    exact hsnoc _ hrecords

theorem drainPending (h : RecordInvariant input P) {fuel : ℕ} {s s' : PlannerState}
    (hs : All P s.blocks) (hrun : drainPending input fuel s = some s') : All P s'.blocks := by
  induction fuel generalizing s with
  | zero =>
    unfold Runtime.drainPending at hrun
    split at hrun
    · rw [← Option.some.inj hrun]
      exact hs
    · split_ifs at hrun
      rw [← Option.some.inj hrun]
      exact hs
  | succ fuel ih =>
    unfold Runtime.drainPending at hrun
    split at hrun
    · rw [← Option.some.inj hrun]
      exact hs
    · split_ifs at hrun
      · rw [← Option.some.inj hrun]
        exact hs
      · rename_i entry rest _ _
        exact ih (h.visitBlock entry { s with pending := rest } hs) hrun

theorem tryReclassifyJumpTable (h : RecordInvariant input P) {mode : MachineMode} (guards : Guards)
    {record : AotInstructionRecord} (hmode : mode = decoderMode record.guestCodeDefaultOperandSize)
    (hr : P record) :
    ((tryReclassifyJumpTable input.table input.image mode guards record).1 = true →
      P { (tryReclassifyJumpTable input.table input.image mode guards record).2 with kind := .kJumpTable }) ∧
    ((tryReclassifyJumpTable input.table input.image mode guards record).1 = false →
      P (tryReclassifyJumpTable input.table input.image mode guards record).2) := by
  unfold Runtime.tryReclassifyJumpTable
  split_ifs with hkind
  · simp [hr]
  · rw [not_or, not_and_or, not_not, not_not] at hkind
    split
    · simp [hr]
    split_ifs
    · simp [hr]
    split
    · simp [hr]
    rename_i i hi
    split
    · simp [hr]
    rename_i hbranch
    split_ifs
    · simp [hr]
    · simp only
      have hjump : ∀ j, decode input.table (decoderMode record.guestCodeDefaultOperandSize)
          record.bytes = some j → (matchJumpTableBranch j).isSome := by
        intro j hj
        rw [← hmode, hi, Option.some.injEq] at hj
        rw [← hj, hbranch]
        rfl
      split_ifs with hok
      · exact ⟨fun _ => h.reclassified record _ _ hr hkind.1 hkind.2 hjump, by simp⟩
      · exact ⟨by simp, fun _ => h.retargeted record _ hr hkind.1⟩

theorem sweepRecord (h : RecordInvariant input P) {record : AotInstructionRecord} (s : PlannerState)
    (hr : P record) : P (sweepRecord input record s).2.1 := by
  unfold Runtime.sweepRecord
  simp only
  have hre := h.tryReclassifyJumpTable
    (tryPropagateLowByteJumpTableGuard input.table (decoderMode record.guestCodeDefaultOperandSize)
      s.guards record).2 rfl hr
  split_ifs with hc
  · exact hre.1 hc
  · exact hre.2 (by simpa using hc)

theorem sweepRecords (h : RecordInvariant input P) (records : List AotInstructionRecord)
    (s : PlannerState) (hrecords : ∀ r ∈ records, P r) :
    ∀ r ∈ (sweepRecords input records s).2.1, P r := by
  induction records generalizing s with
  | nil => simp [Runtime.sweepRecords]
  | cons r rs ih =>
    intro r' hr'
    simp only [Runtime.sweepRecords, List.mem_cons] at hr'
    rcases hr' with rfl | hr'
    · exact h.sweepRecord s (hrecords r List.mem_cons_self)
    · exact ih _ (fun x hx => hrecords x (List.mem_cons_of_mem r hx)) r' hr'

theorem sweepBlocks (h : RecordInvariant input P) (blocks : List AotBasicBlock) (s : PlannerState)
    (hblocks : All P blocks) : All P (sweepBlocks input blocks s).2.1 := by
  induction blocks generalizing s with
  | nil => simp [Runtime.sweepBlocks, All]
  | cons b bs ih =>
    intro b' hb'
    simp only [Runtime.sweepBlocks, List.mem_cons] at hb'
    rcases hb' with rfl | hb'
    · exact h.sweepRecords b.instructions s (hblocks b List.mem_cons_self)
    · exact ih _ (fun x hx => hblocks x (List.mem_cons_of_mem b hx)) b' hb'

theorem planLoop (h : RecordInvariant input P) {fuel : ℕ} {s s' : PlannerState}
    (hs : All P s.blocks) (hrun : planLoop input fuel s = some s') : All P s'.blocks := by
  induction fuel generalizing s with
  | zero => simp [Runtime.planLoop] at hrun
  | succ fuel ih =>
    unfold Runtime.planLoop at hrun
    split at hrun
    · contradiction
    · rename_i t ht
      have hdrained := h.drainPending hs ht
      simp only at hrun
      split_ifs at hrun
      · rw [← Option.some.inj hrun]
        exact hdrained
      · exact ih (h.sweepBlocks t.blocks t hdrained) hrun
      · rw [← Option.some.inj hrun]
        exact h.sweepBlocks t.blocks t hdrained

end RecordInvariant

/-- The rule for the records of a plan. -/
theorem plan_records {table : Table} {fuel : ℕ} {image : RelocatedRuntimeImage} {entry : Word}
    {excluded : List AotExcludedGuestRange} {plan : AotTranslationPlan} {P : AotInstructionRecord → Prop}
    (h : RecordInvariant ⟨table, image, excluded, planCodeModeRanges image⟩ P)
    (hplan : buildAotTranslationPlanFromEntry table fuel image entry excluded = some plan) :
    RecordInvariant.All P plan.blocks := by
  unfold buildAotTranslationPlanFromEntry at hplan
  split_ifs at hplan
  · obtain ⟨s, hs, rfl⟩ := Option.map_eq_some_iff.mp hplan
    exact h.planLoop (by intro b hb; cases hb) hs
  · rw [← Option.some.inj hplan]
    intro b hb
    cases hb

/-! ## Classification -/

/-- What classification leaves of the record it is given. -/
structure SameInstruction (r r' : AotInstructionRecord) : Prop where
  guestAddress : r'.guestAddress = r.guestAddress
  length : r'.length = r.length
  mnemonic : r'.mnemonic = r.mnemonic
  size : r'.guestCodeDefaultOperandSize = r.guestCodeDefaultOperandSize
  bytes : r'.bytes = r.bytes

theorem sameInstruction_classifyBranch (input : PlannerInput) (guards : Guards)
    (block : List AotInstructionRecord) (i : Instruction) (codeMode : GuestCodeDefaultOperandSize)
    (record : AotInstructionRecord) :
    SameInstruction record (classifyBranch input guards block i codeMode record).record := by
  unfold classifyBranch
  simp only
  split
  · exact ⟨rfl, rfl, rfl, rfl, rfl⟩
  · split <;> exact ⟨rfl, rfl, rfl, rfl, rfl⟩

theorem sameInstruction_classifyPlain (input : PlannerInput) (guards : Guards)
    (block : List AotInstructionRecord) (i : Instruction) (codeMode : GuestCodeDefaultOperandSize)
    (record : AotInstructionRecord) :
    SameInstruction record (classifyPlain input guards block i codeMode record).record := by
  unfold classifyPlain
  simp only
  repeat' first
    | exact ⟨rfl, rfl, rfl, rfl, rfl⟩
    | exact sameInstruction_classifyBranch input guards block i codeMode record
    | split

theorem sameInstruction_classifyInstruction (input : PlannerInput) (guards : Guards)
    (block : List AotInstructionRecord) (i : Instruction) (codeMode : GuestCodeDefaultOperandSize)
    (record : AotInstructionRecord) :
    SameInstruction record (classifyInstruction input guards block i codeMode record).record := by
  unfold classifyInstruction
  split
  · exact sameInstruction_classifyPlain input guards block i codeMode record
  split_ifs
  · exact sameInstruction_classifyPlain input _ block i codeMode record
  split
  · exact sameInstruction_classifyPlain input guards block i codeMode record
  split_ifs
  · exact sameInstruction_classifyPlain input guards block i codeMode record
  · simp only
    split_ifs
    · exact ⟨rfl, rfl, rfl, rfl, rfl⟩
    · obtain ⟨h₁, h₂, h₃, h₄, h₅⟩ := sameInstruction_classifyPlain input guards block i codeMode
        { record with tableTargets := _ }
      exact ⟨h₁, h₂, h₃, h₄, h₅⟩

/-- The instruction a record stands for. -/
structure RecordOf (table : Table) (record : AotInstructionRecord) (i : Instruction) : Prop where
  decodes : decode table (decoderMode record.guestCodeDefaultOperandSize) record.bytes = some i
  bytes_length : record.bytes.length = i.length
  length : record.length = i.length
  mnemonic : record.mnemonic = i.mnemonic

/-- A record of a plan: an excluded boundary, or one of an instruction. -/
def Planned (table : Table) (record : AotInstructionRecord) : Prop :=
  (record.bytes = [] ∧ record.kind = .kHleBoundary) ∨ ∃ i, RecordOf table record i

theorem recordOf_decodedRecord {table : Table} {codeMode : GuestCodeDefaultOperandSize}
    {bytes : List Byte} {i : Instruction} (address : Word)
    (h : decode table (decoderMode codeMode) (bytes.take maxInstructionLength) = some i) :
    RecordOf table (decodedRecord address codeMode i bytes) i := by
  obtain ⟨hlen, hdec⟩ := decode_take h
  have hle : i.length ≤ maxInstructionLength := decode_length_le h
  rw [List.take_take, Nat.min_eq_left hle] at hlen hdec
  exact ⟨hdec, hlen, rfl, rfl⟩

theorem RecordOf.sameInstruction {table : Table} {r r' : AotInstructionRecord} {i : Instruction}
    (h : RecordOf table r i) (hsame : SameInstruction r r') : RecordOf table r' i where
  decodes := by rw [hsame.size, hsame.bytes, h.decodes]
  bytes_length := by rw [hsame.bytes, h.bytes_length]
  length := hsame.length.trans h.length
  mnemonic := hsame.mnemonic.trans h.mnemonic

theorem planned_invariant (input : PlannerInput) : RecordInvariant input (Planned input.table) where
  excluded := fun _ => Or.inl ⟨rfl, rfl⟩
  classified := by
    intro guards block address codeMode i bytes h
    exact Or.inr ⟨i, (recordOf_decodedRecord address h).sameInstruction
      (sameInstruction_classifyInstruction input guards block i codeMode _)⟩
  retargeted := by
    intro record targets h _
    rcases h with h | ⟨i, h⟩
    · exact Or.inl h
    · exact Or.inr ⟨i, h.sameInstruction ⟨rfl, rfl, rfl, rfl, rfl⟩⟩
  reclassified := by
    intro record targets index h _ hne _
    rcases h with h | ⟨i, h⟩
    · exact absurd h.1 hne
    · exact Or.inr ⟨i, h.sameInstruction ⟨rfl, rfl, rfl, rfl, rfl⟩⟩

/-- Every record of a plan stands for an instruction or an excluded address. -/
theorem planned_records {table : Table} {fuel : ℕ} {image : RelocatedRuntimeImage} {entry : Word}
    {excluded : List AotExcludedGuestRange} {plan : AotTranslationPlan}
    (hplan : buildAotTranslationPlanFromEntry table fuel image entry excluded = some plan) :
    RecordInvariant.All (Planned table) plan.blocks :=
  plan_records (planned_invariant ⟨table, image, excluded, planCodeModeRanges image⟩) hplan

end Repiu.Runtime
