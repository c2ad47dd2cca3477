import Repiu.Runtime.PlannerTheorems

/-!
# Runs of the planner

The rule for properties of the planner's state: one case for each thing the walk of a
block, the pending loop and a sweep can do.
-/

namespace Repiu.Runtime

open Repiu.X86

/-! ## States -/

/-- Other blocks in place of the state's. -/
def PlannerState.withBlocks (s : PlannerState) (blocks : List AotBasicBlock) : PlannerState :=
  { s with blocks := blocks }

/-- A block is finished: it becomes the last of the plan. -/
def PlannerState.close (s : PlannerState) (entry : Word) (block : List AotInstructionRecord) :
    PlannerState :=
  { s.withBlocks (s.blocks ++ [⟨entry, block⟩]) with blockCount := s.blockCount + 1 }

/-- The records of a planner state. -/
def PlannerState.records (s : PlannerState) : List AotInstructionRecord :=
  (s.blocks.map AotBasicBlock.instructions).flatten

theorem records_close {s : PlannerState} {block : List AotInstructionRecord} (entry : Word) :
    (s.close entry block).records = s.records ++ block := by
  simp [PlannerState.records, PlannerState.close, PlannerState.withBlocks]

theorem records_withBlocks {s : PlannerState} {before after : List AotBasicBlock} {entry : Word}
    {done todo : List AotInstructionRecord} {record : AotInstructionRecord} :
    (s.withBlocks (before ++ ⟨entry, done ++ record :: todo⟩ :: after)).records =
      (before.map AotBasicBlock.instructions).flatten ++
        (done ++ record :: (todo ++ (after.map AotBasicBlock.instructions).flatten)) := by
  simp [PlannerState.records, PlannerState.withBlocks]

/-- A block entry is taken from the pending ones. -/
def PlannerState.take (s : PlannerState) (entry : Word) (rest : List Word) : PlannerState :=
  { s with pending := rest, visitedBlocks := entry :: s.visitedBlocks }

/-- An excluded boundary is counted. -/
def PlannerState.countExcluded (s : PlannerState) : PlannerState :=
  { s with
    instructionCount := s.instructionCount + 1
    sourceCodeBytes := s.sourceCodeBytes + 1
    hleBoundaryCount := s.hleBoundaryCount + 1 }

/-- An address outside the image is counted. -/
def PlannerState.countOutside (s : PlannerState) : PlannerState :=
  { s with outsideImageTargetCount := s.outsideImageTargetCount + 1 }

/-- An address that does not decode is counted. -/
def PlannerState.countUndecodable (s : PlannerState) : PlannerState :=
  { s with decodeFailureCount := s.decodeFailureCount + 1 }

/-- An instruction address is visited. -/
def PlannerState.visit (s : PlannerState) (address : Word) : PlannerState :=
  { s with visitedInstructions := address :: s.visitedInstructions }

/-- A classified instruction is taken over. -/
def PlannerState.absorb (s : PlannerState) (c : Classified) : PlannerState :=
  { s with
    toPlanCounters := s.toPlanCounters.count c.record
    instructionCount := s.instructionCount + 1
    sourceCodeBytes := s.sourceCodeBytes + c.record.length
    hleBoundaryCount := s.hleBoundaryCount + (countsAsHleBoundary c.record.kind).toNat
    guards := c.guards
    pending := c.pushes.reverse ++ s.pending }

/-- The instruction at an address of the image. -/
def decodeAt (input : PlannerInput) (address : Word) : Option (Instruction × List Byte) :=
  (findBytes input.image address maxInstructionLength).bind fun bytes =>
    (decode input.table (decoderMode (guestCodeDefaultOperandSizeForAddress input.image address))
      (bytes.take maxInstructionLength)).map fun i => (i, bytes)

/-- The classification of the instruction at an address. -/
def classifyAt (input : PlannerInput) (guards : Guards) (block : List AotInstructionRecord)
    (address : Word) (i : Instruction) (bytes : List Byte) : Classified :=
  let codeMode := guestCodeDefaultOperandSizeForAddress input.image address
  classifyInstruction input guards block i codeMode (decodedRecord address codeMode i bytes)

/-! ## The walk of a block -/

section
variable (input : PlannerInput) (fuel : ℕ) (address : Word) (s : PlannerState)
  (block : List AotInstructionRecord)

/-- One step of the walk of a block. -/
theorem walkBlock_succ :
    walkBlock input (fuel + 1) address s block =
      if isExcludedGuestAddress input.excludedRanges address then
        (s.countExcluded, block ++ [excludedBoundary address])
      else if address ∈ s.visitedInstructions then (s, block)
      else
        match findBytes input.image address maxInstructionLength with
        | none => ((s.visit address).countOutside, block)
        | some _ =>
          match decodeAt input address with
          | none => ((s.visit address).countUndecodable, block)
          | some (i, bytes) =>
            let c := classifyAt input s.guards block address i bytes
            if c.goesOn then
              walkBlock input fuel c.record.next ((s.visit address).absorb c) (block ++ [c.record])
            else ((s.visit address).absorb c, block ++ [c.record]) := by
  rw [walkBlock]
  by_cases hexcluded : isExcludedGuestAddress input.excludedRanges address = true
  · rw [if_pos hexcluded, if_pos hexcluded]
    rfl
  by_cases hvisited : address ∈ s.visitedInstructions
  · rw [if_neg hexcluded, if_neg hexcluded, if_pos hvisited, if_pos hvisited]
  rw [if_neg hexcluded, if_neg hexcluded, if_neg hvisited, if_neg hvisited]
  unfold decodeAt
  cases findBytes input.image address maxInstructionLength with
  | none => rfl
  | some bytes =>
    dsimp only
    rw [Option.bind_some]
    cases decode input.table (decoderMode (guestCodeDefaultOperandSizeForAddress input.image address))
      (bytes.take maxInstructionLength) with
    | none => rfl
    | some i =>
      -- the bytes counted are those of the instruction: its record keeps their number
      have hlength : i.length = (classifyAt input s.guards block address i bytes).record.length :=
        (sameInstruction_classifyInstruction input s.guards block i _
          (decodedRecord address _ i bytes)).length.symm
      dsimp only
      rw [hlength]
      rfl

end

/-! ## The loops -/

/-- The pending loop ends, or takes the next entry. -/
theorem drainPending_cases {input : PlannerInput} {fuel : ℕ} {s s' : PlannerState}
    (h : drainPending input fuel s = some s') :
    (s' = s ∧ (s.pending = [] ∨ kMaximumInstructions ≤ s.instructionCount)) ∨
    ∃ n entry rest, fuel = n + 1 ∧ s.pending = entry :: rest ∧
      s.instructionCount < kMaximumInstructions ∧
      drainPending input n (visitBlock input entry { s with pending := rest }) = some s' := by
  unfold drainPending at h
  split at h
  · exact Or.inl ⟨(Option.some.inj h).symm, Or.inl ‹_›⟩
  · rename_i entry rest hpending
    by_cases hcount : kMaximumInstructions ≤ s.instructionCount
    · rw [if_pos hcount] at h
      exact Or.inl ⟨(Option.some.inj h).symm, Or.inr hcount⟩
    · rw [if_neg hcount] at h
      cases fuel with
      | zero => cases h
      | succ n => exact Or.inr ⟨n, entry, rest, rfl, hpending, Nat.lt_of_not_le hcount, h⟩

theorem drainPending_ends {input : PlannerInput} (fuel : ℕ) {s : PlannerState}
    (h : s.pending = [] ∨ kMaximumInstructions ≤ s.instructionCount) :
    drainPending input fuel s = some s := by
  unfold drainPending
  split
  · rfl
  · rename_i hpending
    rcases h with h | h
    · rw [h] at hpending
      cases hpending
    · rw [if_pos h]

theorem drainPending_step {input : PlannerInput} {fuel : ℕ} {s : PlannerState} {entry : Word}
    {rest : List Word} (hpending : s.pending = entry :: rest)
    (hcount : s.instructionCount < kMaximumInstructions) :
    drainPending input (fuel + 1) s =
      drainPending input fuel (visitBlock input entry { s with pending := rest }) := by
  rw [drainPending, hpending]
  dsimp only
  rw [if_neg (Nat.not_le_of_lt hcount)]

/-- A sweep of a state. -/
def sweep (input : PlannerInput) (s : PlannerState) : PlannerState :=
  (sweepBlocks input s.blocks s).2.2.withBlocks (sweepBlocks input s.blocks s).2.1

/-- The outer loop: drain, and then stop at the limit, sweep for the last time, or start over. -/
theorem planLoop_cases {input : PlannerInput} {fuel : ℕ} {s s' : PlannerState}
    (h : planLoop input fuel s = some s') :
    ∃ n t, fuel = n + 1 ∧ drainPending input n s = some t ∧
      ((kMaximumInstructions ≤ t.instructionCount ∧ s' = t) ∨
        (t.instructionCount < kMaximumInstructions ∧ (sweepBlocks input t.blocks t).1 = false ∧
          s' = sweep input t) ∨
        (t.instructionCount < kMaximumInstructions ∧ (sweepBlocks input t.blocks t).1 = true ∧
          planLoop input n (sweep input t) = some s')) := by
  cases fuel with
  | zero => cases h
  | succ n =>
    rw [planLoop] at h
    cases hdrain : drainPending input n s with
    | none =>
      rw [hdrain] at h
      cases h
    | some t =>
      rw [hdrain] at h
      dsimp only at h
      refine ⟨n, t, rfl, hdrain, ?_⟩
      by_cases hcount : kMaximumInstructions ≤ t.instructionCount
      · rw [if_pos hcount] at h
        exact Or.inl ⟨hcount, (Option.some.inj h).symm⟩
      rw [if_neg hcount] at h
      by_cases hchanged : (sweepBlocks input t.blocks t).1 = true
      · rw [if_pos hchanged] at h
        exact Or.inr (Or.inr ⟨Nat.lt_of_not_le hcount, hchanged, h⟩)
      · rw [if_neg hchanged] at h
        exact Or.inr (Or.inl ⟨Nat.lt_of_not_le hcount, by simpa using hchanged,
          (Option.some.inj h).symm⟩)

/-- A finished plan: nothing of an invalid image, or the state the outer loop ends in. -/
theorem buildAotTranslationPlanFromEntry_cases {table : Table} {image : RelocatedRuntimeImage}
    {excluded : List AotExcludedGuestRange} {fuel : ℕ} {entry : Word} {plan : AotTranslationPlan}
    (hplan : buildAotTranslationPlanFromEntry table fuel image entry excluded = some plan) :
    plan = {} ∨ ∃ s, planLoop ⟨table, image, excluded, planCodeModeRanges image⟩ fuel
        { pending := [entry] } = some s ∧
      plan = {
        toPlanCounters := s.toPlanCounters, valid := s.instructionCount ≠ 0, entryAddress := entry,
        blockCount := s.blockCount, instructionCount := s.instructionCount,
        sourceCodeBytes := s.sourceCodeBytes, hleBoundaryCount := s.hleBoundaryCount,
        outsideImageTargetCount := s.outsideImageTargetCount, decodeFailureCount := s.decodeFailureCount,
        analysisLimitCount := if s.pending = [] then 0 else 1,
        codeModeRanges := planCodeModeRanges image, blocks := s.blocks } := by
  unfold buildAotTranslationPlanFromEntry at hplan
  by_cases hvalid : ¬image.valid
  · rw [if_pos hvalid] at hplan
    exact Or.inl (Option.some.inj hplan).symm
  · rw [if_neg hvalid] at hplan
    obtain ⟨s, hs, rfl⟩ := Option.map_eq_some_iff.mp hplan
    exact Or.inr ⟨s, hs, rfl⟩

/-! ## Sweeps -/

/-- A boundary or indirect exit that a guard turns into a jump table. -/
structure Reclassified (input : PlannerInput) (guards : Guards) (record : AotInstructionRecord)
    (guard : JumpTableGuard) (targets : List Word) : Prop where
  kind : record.kind = .kHleBoundary ∨ record.kind = .kIndirectExit
  bytes : record.bytes ≠ []
  guarded : guards.find record.guestAddress = some guard
  normal : guard.requiresLowByteNormalization = false
  branch : ∃ i tableAddress,
    decode input.table (decoderMode record.guestCodeDefaultOperandSize) record.bytes = some i ∧
    matchJumpTableBranch i = some (guard.indexRegister, tableAddress) ∧
    readJumpTableTargets input.image tableAddress guard.entryCount record.tableTargets = (true, targets)

theorem tryReclassifyJumpTable_cases (input : PlannerInput) (guards : Guards)
    (record : AotInstructionRecord) :
    (∃ targets, (targets = record.tableTargets ∨
        ((record.kind = .kHleBoundary ∨ record.kind = .kIndirectExit) ∧ record.bytes ≠ [])) ∧
      tryReclassifyJumpTable input.table input.image (decoderMode record.guestCodeDefaultOperandSize)
        guards record = (false, { record with tableTargets := targets })) ∨
    ∃ guard targets, Reclassified input guards record guard targets ∧
      tryReclassifyJumpTable input.table input.image (decoderMode record.guestCodeDefaultOperandSize)
        guards record =
        (true, { record with tableTargets := targets, tableIndexRegister := guard.indexRegister }) := by
  have hsame : ∃ targets, (targets = record.tableTargets ∨
      ((record.kind = .kHleBoundary ∨ record.kind = .kIndirectExit) ∧ record.bytes ≠ [])) ∧
      (false, record) = (false, { record with tableTargets := targets }) :=
    ⟨record.tableTargets, Or.inl rfl, rfl⟩
  unfold tryReclassifyJumpTable
  by_cases hkind : (record.kind ≠ .kHleBoundary ∧ record.kind ≠ .kIndirectExit) ∨ record.bytes = []
  · rw [if_pos hkind]
    exact Or.inl hsame
  rw [if_neg hkind]
  rw [not_or, not_and_or, not_not, not_not] at hkind
  cases hguard : guards.find record.guestAddress with
  | none => exact Or.inl hsame
  | some guard =>
    dsimp only
    by_cases hnormal : guard.requiresLowByteNormalization = true
    · rw [if_pos hnormal]
      exact Or.inl hsame
    rw [if_neg hnormal]
    cases hdecode : decode input.table (decoderMode record.guestCodeDefaultOperandSize) record.bytes with
    | none => exact Or.inl hsame
    | some i =>
      dsimp only
      cases hmatch : matchJumpTableBranch i with
      | none => exact Or.inl hsame
      | some branch =>
        obtain ⟨branchRegister, tableAddress⟩ := branch
        dsimp only
        by_cases hregister : branchRegister ≠ guard.indexRegister
        · rw [if_pos hregister]
          exact Or.inl hsame
        rw [if_neg hregister]
        rw [not_not] at hregister
        subst hregister
        cases hread : readJumpTableTargets input.image tableAddress guard.entryCount
          record.tableTargets with
        | mk ok targets =>
          cases ok with
          | false => exact Or.inl ⟨targets, Or.inr hkind, rfl⟩
          | true =>
            exact Or.inr ⟨guard, targets, ⟨hkind.1, hkind.2, hguard, by simpa using hnormal,
              i, tableAddress, hdecode, hmatch, hread⟩, rfl⟩

/-- The guards after a sweep has seen a record. -/
def sweptGuards (input : PlannerInput) (record : AotInstructionRecord) (guards : Guards) : Guards :=
  (tryPropagateLowByteJumpTableGuard input.table (decoderMode record.guestCodeDefaultOperandSize)
    guards record).2

/-- A sweep leaves a record, up to the targets it has tried to read, or turns it into a jump
table. -/
theorem sweepRecord_cases (input : PlannerInput) (record : AotInstructionRecord) (s : PlannerState) :
    (∃ targets, (targets = record.tableTargets ∨
        ((record.kind = .kHleBoundary ∨ record.kind = .kIndirectExit) ∧ record.bytes ≠ [])) ∧
      sweepRecord input record s =
        ((tryPropagateLowByteJumpTableGuard input.table
            (decoderMode record.guestCodeDefaultOperandSize) s.guards record).1,
          { record with tableTargets := targets },
          { s with guards := sweptGuards input record s.guards })) ∨
    ∃ guard targets, Reclassified input (sweptGuards input record s.guards) record guard targets ∧
      sweepRecord input record s =
        (true, { record with
            tableTargets := targets, tableIndexRegister := guard.indexRegister, kind := .kJumpTable },
          { s with
            toPlanCounters := s.toPlanCounters.reclassify record.kind targets
            guards := sweptGuards input record s.guards
            hleBoundaryCount := s.hleBoundaryCount - (decide (record.kind = .kHleBoundary)).toNat
            pending := targets.reverse ++ s.pending }) := by
  unfold sweepRecord
  dsimp only
  rcases tryReclassifyJumpTable_cases input (sweptGuards input record s.guards) record with
    ⟨targets, htargets, heq⟩ | ⟨guard, targets, hreclassified, heq⟩
  · unfold sweptGuards at heq ⊢
    rw [heq]
    exact Or.inl ⟨targets, htargets, rfl⟩
  · refine Or.inr ⟨guard, targets, hreclassified, ?_⟩
    unfold sweptGuards at heq ⊢
    rw [heq]
    rfl

/-- A sweep visits nothing and plans no instruction. -/
theorem sweepRecord_visits (input : PlannerInput) (record : AotInstructionRecord) (s : PlannerState) :
    (sweepRecord input record s).2.2.visitedBlocks = s.visitedBlocks ∧
      (sweepRecord input record s).2.2.visitedInstructions = s.visitedInstructions ∧
      (sweepRecord input record s).2.2.instructionCount = s.instructionCount := by
  rcases sweepRecord_cases input record s with ⟨targets, -, heq⟩ | ⟨guard, targets, -, heq⟩
  all_goals
    rw [heq]
    exact ⟨rfl, rfl, rfl⟩

/-! ## The rule -/

/-- What a property of the planner's state has to survive.  `Q` holds between blocks, `W` while a
block is walked: with the instructions left, the block's entry, the address the walk stands at
and the records so far. -/
structure PlannerInvariant (input : PlannerInput) (Q : PlannerState → Prop)
    (W : ℕ → Word → Word → PlannerState → List AotInstructionRecord → Prop) : Prop where
  revisited : ∀ {s entry rest}, Q s → s.pending = entry :: rest → entry ∈ s.visitedBlocks →
    Q { s with pending := rest }
  excludedEntry : ∀ {s entry rest}, Q s → s.instructionCount < kMaximumInstructions →
    s.pending = entry :: rest → entry ∉ s.visitedBlocks →
    isExcludedGuestAddress input.excludedRanges entry = true →
    Q ((s.take entry rest).countExcluded.close entry [excludedBoundary entry])
  outsideEntry : ∀ {s entry rest}, Q s → s.pending = entry :: rest → entry ∉ s.visitedBlocks →
    isExcludedGuestAddress input.excludedRanges entry = false →
    findBytes input.image entry 1 = none → Q (s.take entry rest).countOutside
  entered : ∀ {s entry rest}, Q s → s.instructionCount < kMaximumInstructions →
    s.pending = entry :: rest → entry ∉ s.visitedBlocks →
    isExcludedGuestAddress input.excludedRanges entry = false →
    W kMaximumBlockInstructions entry entry (s.take entry rest) []
  excluded : ∀ {fuel entry address s block}, W (fuel + 1) entry address s block →
    isExcludedGuestAddress input.excludedRanges address = true →
    Q (s.countExcluded.close entry (block ++ [excludedBoundary address]))
  visited : ∀ {fuel entry address s block}, W (fuel + 1) entry address s block →
    address ∈ s.visitedInstructions → Q (s.close entry block)
  outside : ∀ {fuel entry address s block}, W (fuel + 1) entry address s block →
    isExcludedGuestAddress input.excludedRanges address = false → address ∉ s.visitedInstructions →
    findBytes input.image address maxInstructionLength = none →
    Q ((s.visit address).countOutside.close entry block)
  undecodable : ∀ {fuel entry address s block}, W (fuel + 1) entry address s block →
    isExcludedGuestAddress input.excludedRanges address = false → address ∉ s.visitedInstructions →
    (findBytes input.image address maxInstructionLength).isSome → decodeAt input address = none → Q ((s.visit address).countUndecodable.close entry block)
  ended : ∀ {fuel entry address s block i bytes}, W (fuel + 1) entry address s block →
    isExcludedGuestAddress input.excludedRanges address = false → address ∉ s.visitedInstructions →
    decodeAt input address = some (i, bytes) →
    (classifyAt input s.guards block address i bytes).goesOn = false →
    Q (((s.visit address).absorb (classifyAt input s.guards block address i bytes)).close entry
      (block ++ [(classifyAt input s.guards block address i bytes).record]))
  wentOn : ∀ {fuel entry address s block i bytes}, W (fuel + 1) entry address s block →
    isExcludedGuestAddress input.excludedRanges address = false → address ∉ s.visitedInstructions →
    decodeAt input address = some (i, bytes) →
    (classifyAt input s.guards block address i bytes).goesOn = true →
    W fuel entry (classifyAt input s.guards block address i bytes).record.next
      ((s.visit address).absorb (classifyAt input s.guards block address i bytes))
      (block ++ [(classifyAt input s.guards block address i bytes).record])
  full : ∀ {entry address s block}, W 0 entry address s block → Q (s.close entry block)
  swept : ∀ {s : PlannerState} {before after : List AotBasicBlock} {entry done todo record},
    Q (s.withBlocks (before ++ ⟨entry, done ++ record :: todo⟩ :: after)) →
    Q ((sweepRecord input record s).2.2.withBlocks
      (before ++ ⟨entry, done ++ (sweepRecord input record s).2.1 :: todo⟩ :: after))

namespace PlannerInvariant

variable {input : PlannerInput} {Q : PlannerState → Prop}
  {W : ℕ → Word → Word → PlannerState → List AotInstructionRecord → Prop}

theorem walkBlock (h : PlannerInvariant input Q W) {fuel : ℕ} {entry address : Word} {s : PlannerState}
    {block : List AotInstructionRecord} (hw : W fuel entry address s block) :
    Q ((walkBlock input fuel address s block).1.close entry
      (walkBlock input fuel address s block).2) := by
  induction fuel generalizing address s block with
  | zero => exact h.full hw
  | succ fuel ih =>
    rw [walkBlock_succ]
    by_cases hexcluded : isExcludedGuestAddress input.excludedRanges address = true
    · rw [if_pos hexcluded]
      exact h.excluded hw hexcluded
    by_cases hvisited : address ∈ s.visitedInstructions
    · rw [if_neg hexcluded, if_pos hvisited]
      exact h.visited hw hvisited
    rw [if_neg hexcluded, if_neg hvisited]
    rw [Bool.not_eq_true] at hexcluded
    cases hfind : findBytes input.image address maxInstructionLength with
    | none => exact h.outside hw hexcluded hvisited hfind
    | some _ =>
      cases hdecode : decodeAt input address with
      | none => exact h.undecodable hw hexcluded hvisited (by rw [hfind]; rfl) hdecode
      | some decoded =>
        obtain ⟨i, bytes⟩ := decoded
        dsimp only
        by_cases hon : (classifyAt input s.guards block address i bytes).goesOn = true
        · rw [if_pos hon]
          exact ih (h.wentOn hw hexcluded hvisited hdecode hon)
        · rw [if_neg hon]
          exact h.ended hw hexcluded hvisited hdecode (by simpa using hon)

theorem visitBlock (h : PlannerInvariant input Q W) {s : PlannerState} {entry : Word} {rest : List Word}
    (hq : Q s) (hcount : s.instructionCount < kMaximumInstructions) (hpending : s.pending = entry :: rest) :
    Q (visitBlock input entry { s with pending := rest }) := by
  unfold Runtime.visitBlock
  by_cases hvisited : entry ∈ s.visitedBlocks
  · rw [if_pos hvisited]
    exact h.revisited hq hpending hvisited
  rw [if_neg hvisited]
  dsimp only
  by_cases hexcluded : isExcludedGuestAddress input.excludedRanges entry = true
  · rw [if_pos hexcluded]
    exact h.excludedEntry hq hcount hpending hvisited hexcluded
  rw [if_neg hexcluded]
  rw [Bool.not_eq_true] at hexcluded
  cases hfind : findBytes input.image entry 1 with
  | none => exact h.outsideEntry hq hpending hvisited hexcluded hfind
  | some _ => exact h.walkBlock (h.entered hq hcount hpending hvisited hexcluded)

theorem drainPending (h : PlannerInvariant input Q W) {fuel : ℕ} {s s' : PlannerState} (hq : Q s)
    (hrun : drainPending input fuel s = some s') : Q s' := by
  induction fuel generalizing s with
  | zero =>
    rcases drainPending_cases hrun with ⟨rfl, -⟩ | ⟨n, _, _, hn, _⟩
    · exact hq
    · cases hn
  | succ fuel ih =>
    rcases drainPending_cases hrun with ⟨rfl, -⟩ | ⟨n, entry, rest, hn, hpending, hcount, hrest⟩
    · exact hq
    · cases hn
      exact ih (h.visitBlock hq hcount hpending) hrest

theorem sweepRecords (h : PlannerInvariant input Q W) (before after : List AotBasicBlock) (entry : Word)
    (done records : List AotInstructionRecord) {s : PlannerState}
    (hq : Q (s.withBlocks (before ++ ⟨entry, done ++ records⟩ :: after))) :
    Q ((sweepRecords input records s).2.2.withBlocks
      (before ++ ⟨entry, done ++ (sweepRecords input records s).2.1⟩ :: after)) := by
  induction records generalizing done s with
  | nil => exact hq
  | cons record records ih =>
    have hstep := h.swept hq
    rw [List.append_cons done] at hstep
    have hrest := ih (done ++ [(sweepRecord input record s).2.1]) hstep
    rw [List.append_assoc] at hrest
    exact hrest

theorem sweepBlocks (h : PlannerInvariant input Q W) (before blocks : List AotBasicBlock)
    {s : PlannerState} (hq : Q (s.withBlocks (before ++ blocks))) :
    Q ((sweepBlocks input blocks s).2.2.withBlocks (before ++ (sweepBlocks input blocks s).2.1)) := by
  induction blocks generalizing before s with
  | nil => exact hq
  | cons b blocks ih =>
    have hstep := h.sweepRecords before blocks b.guestAddress [] b.instructions hq
    rw [List.append_cons before] at hstep
    have hrest := ih (before ++ [⟨b.guestAddress, (Runtime.sweepRecords input b.instructions s).2.1⟩]) hstep
    rw [List.append_assoc] at hrest
    exact hrest

/-- The rule: what the planner leaves has the property. -/
theorem planLoop (h : PlannerInvariant input Q W) {fuel : ℕ} {s s' : PlannerState} (hq : Q s)
    (hrun : planLoop input fuel s = some s') : Q s' := by
  induction fuel generalizing s with
  | zero => cases hrun
  | succ fuel ih =>
    obtain ⟨n, t, hn, hdrain, hcases⟩ := planLoop_cases hrun
    cases hn
    have hdrained := h.drainPending hq hdrain
    have hswept : Q (sweep input t) := h.sweepBlocks [] t.blocks hdrained
    rcases hcases with ⟨-, rfl⟩ | ⟨-, -, rfl⟩ | ⟨-, -, hrest⟩
    · exact hdrained
    · exact hswept
    · exact ih hswept hrest

/-- The rule for plans. -/
theorem plan {table : Table} {image : RelocatedRuntimeImage} {excluded : List AotExcludedGuestRange}
    {Q : PlannerState → Prop}
    {W : ℕ → Word → Word → PlannerState → List AotInstructionRecord → Prop} {fuel : ℕ} {entry : Word}
    {plan : AotTranslationPlan}
    (h : PlannerInvariant ⟨table, image, excluded, planCodeModeRanges image⟩ Q W)
    (hstart : Q { pending := [entry] })
    (hplan : buildAotTranslationPlanFromEntry table fuel image entry excluded = some plan) :
    plan = {} ∨ ∃ s, Q s ∧ plan.blocks = s.blocks ∧ plan.instructionCount = s.instructionCount ∧
      plan.hleBoundaryCount = s.hleBoundaryCount ∧
      plan.outsideImageTargetCount = s.outsideImageTargetCount ∧
      plan.decodeFailureCount = s.decodeFailureCount ∧
      plan.analysisLimitCount = if s.pending = [] then 0 else 1 := by
  rcases buildAotTranslationPlanFromEntry_cases hplan with rfl | ⟨s, hs, rfl⟩
  · exact Or.inl rfl
  · exact Or.inr ⟨s, h.planLoop hstart hs, rfl, rfl, rfl, rfl, rfl, rfl⟩

end PlannerInvariant

end Repiu.Runtime
