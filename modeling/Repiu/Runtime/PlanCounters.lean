import Repiu.Runtime.JumpTables

/-!
# Plan counters

Each counter of a finished plan is the number of its records of that kind.  Instructions
are planned below a limit, so no counter outgrows the 32 bits the source gives it.
-/

namespace Repiu.Runtime

open Repiu.X86

/-! ## Numbers of records -/

/-- The number of records of a kind. -/
def countKind (kind : AotInstructionKind) (records : List AotInstructionRecord) : ℕ :=
  records.countP fun r => r.kind = kind

/-- The number of records that are boundaries for `hle_boundary_count`. -/
def countBoundaries (records : List AotInstructionRecord) : ℕ :=
  records.countP fun r => countsAsHleBoundary r.kind

/-- The targets a record adds to the plan's: those of a jump table. -/
def planTargets (r : AotInstructionRecord) : ℕ :=
  if r.kind = .kJumpTable then r.tableTargets.length else 0

/-- The number of targets of the jump tables. -/
def countTargets (records : List AotInstructionRecord) : ℕ := (records.map planTargets).sum

/-- The counters are the numbers of records of their kinds. -/
structure PlanCounters.Exact (c : PlanCounters) (records : List AotInstructionRecord) : Prop where
  copies : c.copyInstructionCount = countKind .kCopy records
  directCalls : c.directCallCount = countKind .kDirectCall records
  directJumps : c.directJumpCount = countKind .kDirectJump records
  conditionalBranches : c.conditionalBranchCount = countKind .kConditionalBranch records
  returns : c.returnCount = countKind .kReturn records
  farReturns : c.farReturnCount = countKind .kFarReturn records
  indirectExits : c.indirectExitCount = countKind .kIndirectExit records
  jumpTables : c.jumpTableCount = countKind .kJumpTable records
  jumpTableTargets : c.jumpTableTargetCount = countTargets records

section
variable {before after : List AotInstructionRecord} {r : AotInstructionRecord} {kind : AotInstructionKind}

@[simp] theorem countKind_middle :
    countKind kind (before ++ r :: after) =
      countKind kind before + countKind kind after + if r.kind = kind then 1 else 0 := by
  simp only [countKind, List.countP_append, List.countP_cons, decide_eq_true_eq]
  omega

@[simp] theorem countBoundaries_middle :
    countBoundaries (before ++ r :: after) =
      countBoundaries before + countBoundaries after + (countsAsHleBoundary r.kind).toNat := by
  simp only [countBoundaries, List.countP_append, List.countP_cons]
  cases countsAsHleBoundary r.kind with
  | false => rfl
  | true =>
    show _ + (_ + 1) = _ + _ + 1
    omega

@[simp] theorem countTargets_middle :
    countTargets (before ++ r :: after) = countTargets before + countTargets after + planTargets r := by
  simp only [countTargets, List.map_append, List.map_cons, List.sum_append, List.sum_cons]
  omega

theorem countKind_le (records : List AotInstructionRecord) : countKind kind records ≤ records.length :=
  List.countP_le_length

theorem countBoundaries_le (records : List AotInstructionRecord) :
    countBoundaries records ≤ records.length :=
  List.countP_le_length

end

/-! ## What counting keeps -/

namespace PlanCounters.Exact

variable {c : PlanCounters} {records before after : List AotInstructionRecord} {r : AotInstructionRecord}

theorem count (h : c.Exact records) (r : AotInstructionRecord) : (c.count r).Exact (records ++ [r]) := by
  obtain ⟨h₁, h₂, h₃, h₄, h₅, h₆, h₇, h₈, h₉⟩ := h
  unfold PlanCounters.count
  cases hkind : r.kind
  all_goals
    constructor <;> simp [*, countKind, countTargets, planTargets]

/-- An excluded boundary has no counter of its own. -/
theorem excluded (h : c.Exact records) (address : Word) :
    c.Exact (records ++ [excludedBoundary address]) :=
  h.count (excludedBoundary address)

/-- The targets a failed recovery leaves behind are not counted. -/
theorem retarget (h : c.Exact (before ++ r :: after)) (hkind : r.kind ≠ .kJumpTable)
    (targets : List Word) : c.Exact (before ++ { r with tableTargets := targets } :: after) := by
  obtain ⟨h₁, h₂, h₃, h₄, h₅, h₆, h₇, h₈, h₉⟩ := h
  simp only [countKind_middle, countTargets_middle, planTargets, if_neg hkind] at *
  constructor
  all_goals
    simp only [countKind_middle, countTargets_middle, planTargets, if_neg hkind]
    assumption

/-- A sweep takes a record from one counter to another. -/
theorem reclassify (h : c.Exact (before ++ r :: after))
    (hkind : r.kind = .kHleBoundary ∨ r.kind = .kIndirectExit) (targets : List Word) (index : ℕ) :
    (c.reclassify r.kind targets).Exact
      (before ++ { r with
        tableTargets := targets, tableIndexRegister := index, kind := .kJumpTable } :: after) := by
  obtain ⟨h₁, h₂, h₃, h₄, h₅, h₆, h₇, h₈, h₉⟩ := h
  unfold PlanCounters.reclassify
  rcases hkind with hkind | hkind
  all_goals
    simp only [countKind_middle, countTargets_middle, planTargets, hkind] at *
    constructor <;> simp [*, planTargets]

end PlanCounters.Exact

/-! ## The planner's counters -/

/-- What a planner state counts, with the block that is being walked. -/
structure Counted (s : PlannerState) (block : List AotInstructionRecord) : Prop where
  kinds : s.toPlanCounters.Exact (s.records ++ block)
  boundaries : s.hleBoundaryCount = countBoundaries (s.records ++ block)
  instructions : s.instructionCount = (s.records ++ block).length
  bytes : s.sourceCodeBytes = ((s.records ++ block).map AotInstructionRecord.length).sum
  blocks : s.blockCount = s.blocks.length
  tables : ∀ r ∈ s.records ++ block, planTargets r ≤ kMaximumJumpTableEntries

namespace Counted

variable {s : PlannerState} {block : List AotInstructionRecord}

theorem congr {s' : PlannerState} (h : Counted s block) (hcounters : s'.toPlanCounters = s.toPlanCounters)
    (hboundaries : s'.hleBoundaryCount = s.hleBoundaryCount)
    (hinstructions : s'.instructionCount = s.instructionCount)
    (hbytes : s'.sourceCodeBytes = s.sourceCodeBytes) (hcount : s'.blockCount = s.blockCount)
    (hblocks : s'.blocks = s.blocks) : Counted s' block := by
  have hrecords : s'.records = s.records := by
    unfold PlannerState.records
    rw [hblocks]
  constructor
  · rw [hcounters, hrecords]
    exact h.kinds
  · rw [hboundaries, hrecords]
    exact h.boundaries
  · rw [hinstructions, hrecords]
    exact h.instructions
  · rw [hbytes, hrecords]
    exact h.bytes
  · rw [hcount, hblocks]
    exact h.blocks
  · rw [hrecords]
    exact h.tables

theorem close (h : Counted s block) (entry : Word) : Counted (s.close entry block) [] := by
  have hrecords : (s.close entry block).records ++ [] = s.records ++ block := by
    rw [records_close, List.append_nil]
  constructor
  · rw [hrecords]
    exact h.kinds
  · rw [hrecords]
    exact h.boundaries
  · rw [hrecords]
    exact h.instructions
  · rw [hrecords]
    exact h.bytes
  · show s.blockCount + 1 = (s.blocks ++ [_]).length
    rw [h.blocks, List.length_append, List.length_singleton]
  · rw [hrecords]
    exact h.tables

theorem snoc_excluded (h : Counted s block) (address : Word) :
    Counted s.countExcluded (block ++ [excludedBoundary address]) := by
  have hrecords : s.countExcluded.records ++ (block ++ [excludedBoundary address]) =
      (s.records ++ block) ++ [excludedBoundary address] := (List.append_assoc _ _ _).symm
  constructor
  · rw [hrecords]
    exact h.kinds.excluded address
  · rw [hrecords, countBoundaries_middle]
    show s.hleBoundaryCount + 1 = countBoundaries _ + 0 + 1
    rw [h.boundaries]
  · rw [hrecords, List.length_append]
    show s.instructionCount + 1 = _ + 1
    rw [h.instructions]
  · rw [hrecords, List.map_append, List.sum_append]
    show s.sourceCodeBytes + 1 = _ + 1
    rw [h.bytes]
  · exact h.blocks
  · rw [hrecords]
    intro r hr
    rcases List.mem_append.mp hr with hr | hr
    · exact h.tables r hr
    · rw [List.mem_singleton.mp hr]
      exact Nat.zero_le _

theorem take (h : Counted s []) (entry : Word) (rest : List Word) : Counted (s.take entry rest) [] :=
  h.congr rfl rfl rfl rfl rfl rfl

theorem absorb (h : Counted s block) (address : Word) {c : Classified}
    (htargets : planTargets c.record ≤ kMaximumJumpTableEntries) :
    Counted ((s.visit address).absorb c) (block ++ [c.record]) := by
  have hrecords : ((s.visit address).absorb c).records ++ (block ++ [c.record]) =
      (s.records ++ block) ++ [c.record] := (List.append_assoc _ _ _).symm
  constructor
  · rw [hrecords]
    exact h.kinds.count c.record
  · rw [hrecords, countBoundaries_middle]
    show s.hleBoundaryCount + _ = countBoundaries _ + 0 + _
    rw [h.boundaries, Nat.add_zero]
  · rw [hrecords, List.length_append]
    show s.instructionCount + 1 = _ + 1
    rw [h.instructions]
  · rw [hrecords, List.map_append, List.sum_append]
    show s.sourceCodeBytes + c.record.length = _ + (c.record.length + 0)
    rw [h.bytes, Nat.add_zero]
  · exact h.blocks
  · rw [hrecords]
    intro r hr
    rcases List.mem_append.mp hr with hr | hr
    · exact h.tables r hr
    · rw [List.mem_singleton.mp hr]
      exact htargets

end Counted

section
variable {input : PlannerInput} {guards : Guards} {block : List AotInstructionRecord} {i : Instruction}
  {codeMode : GuestCodeDefaultOperandSize} {record : AotInstructionRecord}

theorem planTargets_of_ne (h : record.kind ≠ .kJumpTable) : planTargets record = 0 := if_neg h

/-- A table is recovered with no more entries than the limit. -/
theorem readJumpTableTargets_le {image : RelocatedRuntimeImage} {tableAddress : Word} {entryCount : ℕ}
    {old targets : List Word}
    (h : readJumpTableTargets image tableAddress entryCount old = (true, targets)) :
    targets.length ≤ kMaximumJumpTableEntries := by
  rw [readJumpTableTargets_length h]
  unfold readJumpTableTargets at h
  split at h
  · cases h
  · omega

theorem planTargets_classifyInstruction_le :
    planTargets (classifyInstruction input guards block i codeMode record).record ≤
      kMaximumJumpTableEntries := by
  have hplain (guards : Guards) (record : AotInstructionRecord) :
      planTargets (classifyPlain input guards block i codeMode record).record ≤
        kMaximumJumpTableEntries := by
    rw [planTargets_of_ne classifyPlain_ne_jumpTable]
    exact Nat.zero_le _
  unfold classifyInstruction
  split
  · exact hplain _ _
  split
  · exact hplain _ _
  split
  · exact hplain _ _
  split
  · exact hplain _ _
  dsimp only
  split
  · rename_i hok
    show (if _ then _ else 0) ≤ _
    rw [if_pos rfl]
    exact readJumpTableTargets_le (Prod.ext hok rfl)
  · exact hplain _ _

end

/-- One record of a sweep: it keeps its counters, or goes over to the jump tables. -/
theorem Counted.swept {input : PlannerInput} {s : PlannerState} {before after : List AotBasicBlock}
    {entry : Word} {done todo : List AotInstructionRecord} {record : AotInstructionRecord}
    (h : Counted (s.withBlocks (before ++ ⟨entry, done ++ record :: todo⟩ :: after)) []) :
    Counted ((sweepRecord input record s).2.2.withBlocks
      (before ++ ⟨entry, done ++ (sweepRecord input record s).2.1 :: todo⟩ :: after)) [] := by
  obtain ⟨hkinds, hboundaries, hinstructions, hbytes, hblocks, htables⟩ := h
  have hregroup (r : AotInstructionRecord) (t : PlannerState) :
      (t.withBlocks (before ++ ⟨entry, done ++ r :: todo⟩ :: after)).records ++ [] =
        ((before.map AotBasicBlock.instructions).flatten ++ done) ++
          r :: (todo ++ (after.map AotBasicBlock.instructions).flatten) := by
    rw [records_withBlocks, List.append_nil, List.append_assoc]
  rw [hregroup] at hkinds hboundaries hinstructions hbytes htables
  have hcount (r : AotInstructionRecord) :
      (before ++ ⟨entry, done ++ r :: todo⟩ :: after).length =
        (before ++ ⟨entry, done ++ record :: todo⟩ :: after).length := by
    rw [List.length_append, List.length_append, List.length_cons, List.length_cons]
  have hothers : ∀ r', planTargets r' ≤ kMaximumJumpTableEntries →
      ∀ r ∈ ((before.map AotBasicBlock.instructions).flatten ++ done) ++
        r' :: (todo ++ (after.map AotBasicBlock.instructions).flatten),
        planTargets r ≤ kMaximumJumpTableEntries := by
    intro r' hr' r hr
    rcases List.mem_append.mp hr with hr | hr
    · exact htables r (List.mem_append_left _ hr)
    · rcases List.mem_cons.mp hr with rfl | hr
      · exact hr'
      · exact htables r (List.mem_append_right _ (List.mem_cons_of_mem _ hr))
  rcases sweepRecord_cases input record s with ⟨targets, htargets, heq⟩ | ⟨guard, targets, hre, heq⟩
  · -- the record keeps its kind, up to targets that no counter has seen
    rw [heq]
    dsimp only
    have hkept : s.toPlanCounters.Exact (((before.map AotBasicBlock.instructions).flatten ++ done) ++
        { record with tableTargets := targets } ::
          (todo ++ (after.map AotBasicBlock.instructions).flatten)) ∧
        planTargets { record with tableTargets := targets } ≤ kMaximumJumpTableEntries := by
      rcases htargets with rfl | ⟨hkind, -⟩
      · exact ⟨hkinds, htables record (by simp)⟩
      · have hne : record.kind ≠ .kJumpTable := by
          rcases hkind with hkind | hkind <;> rw [hkind] <;> decide
        refine ⟨hkinds.retarget hne targets, ?_⟩
        have hnone : planTargets { record with tableTargets := targets } = 0 := planTargets_of_ne hne
        rw [hnone]
        exact Nat.zero_le _
    constructor
    · rw [hregroup]
      exact hkept.1
    · rw [hregroup, countBoundaries_middle]
      rw [countBoundaries_middle] at hboundaries
      exact hboundaries
    · rw [hregroup]
      refine hinstructions.trans ?_
      simp only [List.length_append, List.length_cons]
    · rw [hregroup]
      refine hbytes.trans ?_
      simp only [List.map_append, List.map_cons]
    · exact hblocks.trans (hcount _).symm
    · rw [hregroup]
      exact hothers _ hkept.2
  · have hboundary : (decide (record.kind = .kHleBoundary)).toNat =
        (countsAsHleBoundary record.kind).toNat := by
      rcases hre.kind with hkind | hkind <;> rw [hkind] <;> rfl
    obtain ⟨i, tableAddress, -, -, hread⟩ := hre.branch
    rw [heq]
    dsimp only
    constructor
    · rw [hregroup]
      exact hkinds.reclassify hre.kind targets guard.indexRegister
    · rw [hregroup, countBoundaries_middle]
      rw [countBoundaries_middle] at hboundaries
      -- the record leaves the boundaries if it was one
      show s.hleBoundaryCount - _ = _ + _ + 0
      have hboundaries : s.hleBoundaryCount = _ := hboundaries
      rw [hboundary, hboundaries]
      omega
    · rw [hregroup]
      refine hinstructions.trans ?_
      simp only [List.length_append, List.length_cons]
    · rw [hregroup]
      refine hbytes.trans ?_
      simp only [List.map_append, List.map_cons]
    · exact hblocks.trans (hcount _).symm
    · rw [hregroup]
      exact hothers _ (readJumpTableTargets_le hread)

/-- Where the planner may be: a block starts below the instruction limit, and ends at its own. -/
def instructionLimit : ℕ := kMaximumInstructions + kMaximumBlockInstructions

theorem counted_invariant (input : PlannerInput) :
    PlannerInvariant input (fun s => Counted s [] ∧ s.instructionCount < instructionLimit)
      (fun fuel _ _ s block => Counted s block ∧ s.instructionCount + fuel < instructionLimit) where
  revisited := fun h _ _ => ⟨h.1.congr rfl rfl rfl rfl rfl rfl, h.2⟩
  excludedEntry := by
    intro s entry rest h hcount _ _ _
    refine ⟨((h.1.take entry rest).snoc_excluded entry).close entry, ?_⟩
    show s.instructionCount + 1 < kMaximumInstructions + kMaximumBlockInstructions
    have : 0 < kMaximumBlockInstructions := by decide
    omega
  outsideEntry := fun h _ _ _ _ => ⟨h.1.congr rfl rfl rfl rfl rfl rfl, h.2⟩
  entered := by
    intro s entry rest h hcount _ _ _
    refine ⟨h.1.take entry rest, ?_⟩
    show s.instructionCount + kMaximumBlockInstructions < kMaximumInstructions + kMaximumBlockInstructions
    omega
  excluded := by
    intro fuel entry address s block h _
    refine ⟨(h.1.snoc_excluded address).close entry, ?_⟩
    show s.instructionCount + 1 < instructionLimit
    have := h.2
    omega
  visited := by
    intro fuel entry address s block h _
    refine ⟨h.1.close entry, ?_⟩
    show s.instructionCount < instructionLimit
    have := h.2
    omega
  outside := by
    intro fuel entry address s block h _ _ _
    have hcounted : Counted (s.visit address).countOutside block := h.1.congr rfl rfl rfl rfl rfl rfl
    refine ⟨hcounted.close entry, ?_⟩
    show s.instructionCount < instructionLimit
    have := h.2
    omega
  undecodable := by
    intro fuel entry address s block h _ _ _ _
    have hcounted : Counted (s.visit address).countUndecodable block :=
      h.1.congr rfl rfl rfl rfl rfl rfl
    refine ⟨hcounted.close entry, ?_⟩
    show s.instructionCount < instructionLimit
    have := h.2
    omega
  ended := by
    intro fuel entry address s block i bytes h _ _ _ _
    refine ⟨(h.1.absorb address planTargets_classifyInstruction_le).close entry, ?_⟩
    show s.instructionCount + 1 < instructionLimit
    have := h.2
    omega
  wentOn := by
    intro fuel entry address s block i bytes h _ _ _ _
    refine ⟨h.1.absorb address planTargets_classifyInstruction_le, ?_⟩
    show s.instructionCount + 1 + fuel < instructionLimit
    have := h.2
    omega
  full := fun h => ⟨h.1.close _, h.2⟩
  swept := by
    intro s before after entry done todo record h
    refine ⟨h.1.swept, ?_⟩
    show (sweepRecord input record s).2.2.instructionCount < instructionLimit
    rw [(sweepRecord_visits input record s).2.2]
    exact h.2

/-! ## The finished plan -/

/-- The counters of one kind, as a list. -/
def PlanCounters.values (c : PlanCounters) : List ℕ :=
  [c.copyInstructionCount, c.directCallCount, c.directJumpCount, c.conditionalBranchCount,
    c.returnCount, c.farReturnCount, c.indirectExitCount, c.jumpTableCount, c.jumpTableTargetCount]

/-- A plan whose counters say what its records are, in 32 bits each. -/
structure AotTranslationPlan.CountsExactly (plan : AotTranslationPlan) : Prop where
  kinds : plan.toPlanCounters.Exact plan.records
  boundaries : plan.hleBoundaryCount = countBoundaries plan.records
  instructions : plan.instructionCount = plan.records.length
  bytes : plan.sourceCodeBytes = (plan.records.map AotInstructionRecord.length).sum
  blocks : plan.blockCount = plan.blocks.length
  fits : ∀ n ∈ plan.hleBoundaryCount :: plan.instructionCount :: plan.toPlanCounters.values, n < 2 ^ 32

theorem countTargets_le {records : List AotInstructionRecord}
    (h : ∀ r ∈ records, planTargets r ≤ kMaximumJumpTableEntries) :
    countTargets records ≤ records.length * kMaximumJumpTableEntries := by
  unfold countTargets
  rw [← List.length_map planTargets]
  apply List.sum_le_card_nsmul
  intro n hn
  obtain ⟨r, hr, rfl⟩ := List.mem_map.mp hn
  exact h r hr

/-- What the planner counted fits: there are at most `instructionLimit` records, of at most 61 targets. -/
theorem Counted.fits {s : PlannerState} (h : Counted s []) (hlimit : s.instructionCount < instructionLimit) :
    ∀ n ∈ s.hleBoundaryCount :: s.instructionCount :: s.toPlanCounters.values, n < 2 ^ 32 := by
  obtain ⟨⟨h₁, h₂, h₃, h₄, h₅, h₆, h₇, h₈, h₉⟩, hboundaries, hinstructions, -, -, htables⟩ := h
  rw [hinstructions] at hlimit
  have hsmall : instructionLimit * kMaximumJumpTableEntries < 2 ^ 32 := by decide
  have hlimits : instructionLimit ≤ instructionLimit * kMaximumJumpTableEntries := by decide
  have hkind (kind : AotInstructionKind) : countKind kind (s.records ++ []) < 2 ^ 32 :=
    (countKind_le _).trans_lt (hlimit.trans_le (hlimits.trans hsmall.le))
  have hinstruction : (s.records ++ []).length < 2 ^ 32 :=
    hlimit.trans_le (hlimits.trans hsmall.le)
  have hboundary : countBoundaries (s.records ++ []) < 2 ^ 32 :=
    (countBoundaries_le _).trans_lt hinstruction
  have htargets : countTargets (s.records ++ []) < 2 ^ 32 :=
    (countTargets_le htables).trans_lt ((Nat.mul_le_mul_right _ hlimit.le).trans_lt hsmall)
  intro n hn
  simp only [PlanCounters.values, List.mem_cons, List.not_mem_nil, or_false] at hn
  rcases hn with rfl | rfl | rfl | rfl | rfl | rfl | rfl | rfl | rfl | rfl | rfl
  · exact hboundaries ▸ hboundary
  · exact hinstructions ▸ hinstruction
  · exact h₁ ▸ hkind _
  · exact h₂ ▸ hkind _
  · exact h₃ ▸ hkind _
  · exact h₄ ▸ hkind _
  · exact h₅ ▸ hkind _
  · exact h₆ ▸ hkind _
  · exact h₇ ▸ hkind _
  · exact h₈ ▸ hkind _
  · exact h₉ ▸ htargets

/-- Every plan counts exactly: sweeps move the records they reclassify from one counter to the
other, and excluded boundaries count as boundaries. -/
theorem plan_counts (table : Table) (image : RelocatedRuntimeImage) (entry : Word)
    (excluded : List AotExcludedGuestRange) :
    ∃ fuel plan, (∀ m, fuel ≤ m →
        buildAotTranslationPlanFromEntry table m image entry excluded = some plan) ∧
      plan.CountsExactly := by
  obtain ⟨fuel, plan, hplan⟩ := buildAotTranslationPlanFromEntry_total table image entry excluded
  refine ⟨fuel, plan, hplan, ?_⟩
  rcases buildAotTranslationPlanFromEntry_cases (hplan fuel le_rfl) with rfl | ⟨s, hs, rfl⟩
  · exact ⟨⟨rfl, rfl, rfl, rfl, rfl, rfl, rfl, rfl, rfl⟩, rfl, rfl, rfl, rfl, by decide⟩
  · have hstart : Counted { pending := [entry] } [] :=
      ⟨⟨rfl, rfl, rfl, rfl, rfl, rfl, rfl, rfl, rfl⟩, rfl, rfl, rfl, rfl, fun _ hr => by cases hr⟩
    have hnone : (0 : ℕ) < instructionLimit := by decide
    obtain ⟨hcounted, hlimit⟩ := (counted_invariant _).planLoop ⟨hstart, hnone⟩ hs
    have hfits := hcounted.fits hlimit
    obtain ⟨hkinds, hboundaries, hinstructions, hbytes, hblocks, -⟩ := hcounted
    rw [List.append_nil] at hkinds hboundaries hinstructions hbytes
    exact ⟨hkinds, hboundaries, hinstructions, hbytes, hblocks, hfits⟩

end Repiu.Runtime
