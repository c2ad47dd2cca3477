import Repiu.PartialRuns
import Repiu.Runtime.PlanClosure

/-!
# Excluded ranges

The planner tests the first byte of an instruction against the excluded ranges. Its run is
taken apart into steps, and an instruction that runs into a range is found at the step that
decodes it.
-/

namespace Repiu.Runtime

open Repiu.X86 Repiu.PartialRuns

/-! ## Ranges that begin inside an instruction -/

/-- A range begins behind the first of the `count` bytes at an address. -/
def AotExcludedGuestRange.BeginsIn (range : AotExcludedGuestRange) (address : Word) (count : ℕ) : Prop :=
  range.byteCount ≠ 0 ∧ 0 < (range.guestAddress - address).toNat ∧
    (range.guestAddress - address).toNat < count

theorem isExcludedGuestAddress_eq_true {ranges : List AotExcludedGuestRange} {address : Word} :
    isExcludedGuestAddress ranges address = true ↔ ∃ range ∈ ranges, range.byteCount ≠ 0 ∧
      range.guestAddress.toNat ≤ address.toNat ∧
      address.toNat < range.guestAddress.toNat + range.byteCount.toNat := by
  simp [isExcludedGuestAddress]

/-- Bytes behind an address that is not excluded are excluded by a range that begins among them. -/
theorem excluded_behind_iff {ranges : List AotExcludedGuestRange} {address : Word}
    (hplain : isExcludedGuestAddress ranges address = false) (count : ℕ) :
    (∀ k < count, isExcludedGuestAddress ranges (address + BitVec.ofNat 32 k) = false) ↔
      ∀ range ∈ ranges, ¬range.BeginsIn address count := by
  constructor
  · intro hall range hrange ⟨hbytes, hpos, hlt⟩
    have hfirst := hall _ hlt
    rw [BitVec.ofNat_toNat, BitVec.setWidth_eq, BitVec.add_comm, BitVec.sub_add_cancel] at hfirst
    have hin : isExcludedGuestAddress ranges range.guestAddress = true := by
      rw [isExcludedGuestAddress_eq_true]
      refine ⟨range, hrange, hbytes, Nat.le_refl _, ?_⟩
      have : range.byteCount.toNat ≠ 0 := fun h => hbytes (BitVec.eq_of_toNat_eq h)
      omega
    rw [hin] at hfirst
    cases hfirst
  · intro hnone k hk
    by_contra hin
    rw [Bool.not_eq_false, isExcludedGuestAddress_eq_true] at hin
    obtain ⟨range, hrange, hbytes, hlow, hhigh⟩ := hin
    -- the address itself is in front of the range, or behind it with the sum wrapped around
    have hout : ¬(range.guestAddress.toNat ≤ address.toNat ∧
        address.toNat < range.guestAddress.toNat + range.byteCount.toNat) := by
      intro hin
      rw [isExcludedGuestAddress_eq_true.mpr ⟨range, hrange, hbytes, hin⟩] at hplain
      cases hplain
    apply hnone range hrange
    refine ⟨hbytes, ?_, ?_⟩
    all_goals
      rw [BitVec.toNat_sub]
      rw [BitVec.toNat_add, BitVec.toNat_ofNat] at hlow hhigh
      omega

/-! ## Records clear of the ranges -/

/-- A record with no byte in an excluded range, or the boundary of an excluded address. -/
def ClearOfRanges (ranges : List AotExcludedGuestRange) (record : AotInstructionRecord) : Prop :=
  record ≠ excludedBoundary record.guestAddress →
    ∀ k < record.length, isExcludedGuestAddress ranges (record.guestAddress + BitVec.ofNat 32 k) = false

section
variable {input : PlannerInput}

theorem clearOfRanges_excludedBoundary (ranges : List AotExcludedGuestRange) (address : Word) :
    ClearOfRanges ranges (excludedBoundary address) :=
  fun hne => absurd rfl hne

/-- A record with bytes is no boundary of an excluded address. -/
theorem ne_excludedBoundary {record : AotInstructionRecord} (hbytes : record.bytes ≠ []) :
    record ≠ excludedBoundary record.guestAddress := by
  intro heq
  rw [heq] at hbytes
  exact hbytes rfl

/-- The record of an instruction decoded outside the ranges. -/
theorem clearOfRanges_classifyAt {guards : Guards} {block : List AotInstructionRecord} {address : Word}
    {i : Instruction} {bytes : List Byte}
    (hplain : isExcludedGuestAddress input.excludedRanges address = false)
    (hdecode : decodeAt input address = some (i, bytes)) :
    ClearOfRanges input.excludedRanges (classifyAt input guards block address i bytes).record ↔
      ∀ range ∈ input.excludedRanges, ¬range.BeginsIn address i.length := by
  have hsame := sameInstruction_classifyInstruction input guards block i
    (guestCodeDefaultOperandSizeForAddress input.image address)
    (decodedRecord address (guestCodeDefaultOperandSizeForAddress input.image address) i bytes)
  have haddress : (classifyAt input guards block address i bytes).record.guestAddress = address :=
    hsame.guestAddress
  have hlength : (classifyAt input guards block address i bytes).record.length = i.length := hsame.length
  have hbytes : (classifyAt input guards block address i bytes).record.bytes.length = i.length := by
    obtain ⟨bytes', -, hmap⟩ := Option.bind_eq_some_iff.mp hdecode
    obtain ⟨i', hi', heq⟩ := Option.map_eq_some_iff.mp hmap
    cases heq
    exact ((recordOf_decodedRecord address hi').sameInstruction hsame).bytes_length
  have hne : (classifyAt input guards block address i bytes).record.bytes ≠ [] →
      (classifyAt input guards block address i bytes).record ≠ excludedBoundary address := by
    intro h heq
    apply ne_excludedBoundary h
    rw [haddress]
    exact heq
  rw [← excluded_behind_iff hplain, ClearOfRanges, haddress, hlength]
  constructor
  · intro hclear k hk
    apply hclear _ k hk
    apply hne
    intro hnil
    rw [hnil] at hbytes
    rw [← hbytes] at hk
    exact absurd hk (Nat.not_lt_zero k)
  · exact fun hall _ => hall

/-- A sweep moves no record and makes no boundary of an excluded address. -/
theorem clearOfRanges_sweepRecord (ranges : List AotExcludedGuestRange) (record : AotInstructionRecord)
    (s : PlannerState) :
    ClearOfRanges ranges (sweepRecord input record s).2.1 ↔ ClearOfRanges ranges record := by
  have hkept : ∀ record' : AotInstructionRecord, record.bytes ≠ [] → record'.bytes = record.bytes →
      record'.guestAddress = record.guestAddress → record'.length = record.length →
      (ClearOfRanges ranges record' ↔ ClearOfRanges ranges record) := by
    intro record' hne hbytes haddress hlength
    have hne' : record' ≠ excludedBoundary record'.guestAddress :=
      ne_excludedBoundary (hbytes.symm ▸ hne)
    rw [haddress] at hne'
    rw [ClearOfRanges, ClearOfRanges, haddress, hlength]
    exact ⟨fun h _ => h hne', fun h _ => h (ne_excludedBoundary hne)⟩
  rcases sweepRecord_cases input record s with ⟨targets, htargets, heq⟩ | ⟨guard, targets, hre, heq⟩
  · rw [heq]
    rcases htargets with rfl | ⟨-, hbytes⟩
    · exact Iff.rfl
    · exact hkept _ hbytes rfl rfl rfl
  · rw [heq]
    exact hkept _ hre.bytes rfl rfl rfl

theorem clearOfRanges_sweepRecords (ranges : List AotExcludedGuestRange)
    (records : List AotInstructionRecord) (s : PlannerState) :
    (∀ r ∈ (sweepRecords input records s).2.1, ClearOfRanges ranges r) ↔
      ∀ r ∈ records, ClearOfRanges ranges r := by
  induction records generalizing s with
  | nil => exact Iff.rfl
  | cons record records ih =>
    show (∀ r ∈ (sweepRecord input record s).2.1 ::
      (sweepRecords input records (sweepRecord input record s).2.2).2.1, ClearOfRanges ranges r) ↔ _
    rw [List.forall_mem_cons, List.forall_mem_cons, ih, clearOfRanges_sweepRecord]

/-- The records of the state a sweep leaves. -/
theorem clearOfRanges_sweep (ranges : List AotExcludedGuestRange) (s : PlannerState) :
    (∀ r ∈ (sweep input s).records, ClearOfRanges ranges r) ↔
      ∀ r ∈ s.records, ClearOfRanges ranges r := by
  have hblocks : ∀ (blocks : List AotBasicBlock) (s : PlannerState),
      (∀ r ∈ ((sweepBlocks input blocks s).2.1.map AotBasicBlock.instructions).flatten,
        ClearOfRanges ranges r) ↔
        ∀ r ∈ (blocks.map AotBasicBlock.instructions).flatten, ClearOfRanges ranges r := by
    intro blocks
    induction blocks with
    | nil => exact fun s => Iff.rfl
    | cons b blocks ih =>
      intro s
      show (∀ r ∈ (sweepRecords input b.instructions s).2.1 ++
        ((sweepBlocks input blocks (sweepRecords input b.instructions s).2.2).2.1.map
          AotBasicBlock.instructions).flatten, ClearOfRanges ranges r) ↔ _
      rw [List.forall_mem_append, List.map_cons, List.flatten_cons, List.forall_mem_append, ih,
        clearOfRanges_sweepRecords]
  exact hblocks s.blocks s

end

/-! ## The planner in steps -/

/-- Where the planner stands: between two blocks, in the walk of a block (with the instructions left,
the block's entry, the next address and the records so far), or at its end. -/
inductive PlannerConfig where
  | between (s : PlannerState)
  | walking (room : ℕ) (entry address : Word) (s : PlannerState) (block : List AotInstructionRecord)
  | done (s : PlannerState)

namespace PlannerConfig

/-- The planner is not at its end. -/
def Running : PlannerConfig → Prop
  | done _ => False
  | _ => True

/-- The records so far. -/
def records : PlannerConfig → List AotInstructionRecord
  | between s => s.records
  | walking _ _ _ s block => s.records ++ block
  | done s => s.records

end PlannerConfig

/-- The next entry is taken, or with none left the records are swept. -/
def betweenStep (input : PlannerInput) (s : PlannerState) : PlannerConfig :=
  if kMaximumInstructions ≤ s.instructionCount then .done s
  else
    match s.pending with
    | [] => if (sweepBlocks input s.blocks s).1 then .between (sweep input s) else .done (sweep input s)
    | entry :: rest =>
      if entry ∈ s.visitedBlocks then .between { s with pending := rest }
      else if isExcludedGuestAddress input.excludedRanges entry then
        .between ((s.take entry rest).countExcluded.close entry [excludedBoundary entry])
      else
        match findBytes input.image entry 1 with
        | none => .between (s.take entry rest).countOutside
        | some _ => .walking kMaximumBlockInstructions entry entry (s.take entry rest) []

/-- One instruction of a block. -/
def walkStep (input : PlannerInput) (entry address : Word) (s : PlannerState)
    (block : List AotInstructionRecord) : ℕ → PlannerConfig
  | 0 => .between (s.close entry block)
  | room + 1 =>
    if isExcludedGuestAddress input.excludedRanges address then
      .between (s.countExcluded.close entry (block ++ [excludedBoundary address]))
    else if address ∈ s.visitedInstructions then .between (s.close entry block)
    else
      match findBytes input.image address maxInstructionLength with
      | none => .between ((s.visit address).countOutside.close entry block)
      | some _ =>
        match decodeAt input address with
        | none => .between ((s.visit address).countUndecodable.close entry block)
        | some (i, bytes) =>
          let c := classifyAt input s.guards block address i bytes
          if c.goesOn then
            .walking room entry c.record.next ((s.visit address).absorb c) (block ++ [c.record])
          else .between (((s.visit address).absorb c).close entry (block ++ [c.record]))

/-- A step of the planner. -/
def plannerStep (input : PlannerInput) : PlannerConfig → Option PlannerConfig
  | .between s => some (betweenStep input s)
  | .walking room entry address s block => some (walkStep input entry address s block room)
  | .done _ => none

/-- The steps of a planner. -/
def PlannerSteps (input : PlannerInput) : PlannerConfig → PlannerConfig → Prop :=
  Steps (plannerStep input) PlannerConfig.Running

/-! ## The loops are runs of steps -/

section
variable {input : PlannerInput}

theorem betweenStep_steps {s : PlannerState} {c : PlannerConfig} (h : betweenStep input s = c) :
    PlannerSteps input (.between s) c :=
  Steps.one trivial (congrArg some h)

theorem walkStep_steps {room : ℕ} {entry address : Word} {s : PlannerState}
    {block : List AotInstructionRecord} {c : PlannerConfig}
    (h : walkStep input entry address s block room = c) :
    PlannerSteps input (.walking room entry address s block) c :=
  Steps.one trivial (congrArg some h)

theorem walkBlock_steps (room : ℕ) (entry address : Word) (s : PlannerState)
    (block : List AotInstructionRecord) :
    PlannerSteps input (.walking room entry address s block)
      (.between ((walkBlock input room address s block).1.close entry
        (walkBlock input room address s block).2)) := by
  induction room generalizing address s block with
  | zero => exact walkStep_steps rfl
  | succ room ih =>
    rw [walkBlock_succ]
    by_cases hexcluded : isExcludedGuestAddress input.excludedRanges address = true
    · rw [if_pos hexcluded]
      apply walkStep_steps
      rw [walkStep, if_pos hexcluded]
    by_cases hvisited : address ∈ s.visitedInstructions
    · rw [if_neg hexcluded, if_pos hvisited]
      apply walkStep_steps
      rw [walkStep, if_neg hexcluded, if_pos hvisited]
    rw [if_neg hexcluded, if_neg hvisited]
    cases hfind : findBytes input.image address maxInstructionLength with
    | none =>
      apply walkStep_steps
      rw [walkStep, if_neg hexcluded, if_neg hvisited, hfind]
    | some _ =>
      cases hdecode : decodeAt input address with
      | none =>
        apply walkStep_steps
        rw [walkStep, if_neg hexcluded, if_neg hvisited, hfind, hdecode]
      | some decoded =>
        obtain ⟨i, bytes⟩ := decoded
        dsimp only
        by_cases hon : (classifyAt input s.guards block address i bytes).goesOn = true
        · rw [if_pos hon]
          apply Steps.trans _ (ih _ _ _)
          apply walkStep_steps
          rw [walkStep, if_neg hexcluded, if_neg hvisited, hfind, hdecode]
          exact if_pos hon
        · rw [if_neg hon]
          apply walkStep_steps
          rw [walkStep, if_neg hexcluded, if_neg hvisited, hfind, hdecode]
          exact if_neg hon

theorem visitBlock_steps {s : PlannerState} {entry : Word} {rest : List Word}
    (hcount : s.instructionCount < kMaximumInstructions) (hpending : s.pending = entry :: rest) :
    PlannerSteps input (.between s) (.between (visitBlock input entry { s with pending := rest })) := by
  have hroom : ¬kMaximumInstructions ≤ s.instructionCount := Nat.not_le_of_lt hcount
  unfold visitBlock
  by_cases hvisited : entry ∈ s.visitedBlocks
  · rw [if_pos hvisited]
    apply betweenStep_steps
    rw [betweenStep, if_neg hroom, hpending]
    exact if_pos hvisited
  rw [if_neg hvisited]
  dsimp only
  by_cases hexcluded : isExcludedGuestAddress input.excludedRanges entry = true
  · rw [if_pos hexcluded]
    apply betweenStep_steps
    rw [betweenStep, if_neg hroom, hpending]
    exact (if_neg hvisited).trans (if_pos hexcluded)
  rw [if_neg hexcluded]
  cases hfind : findBytes input.image entry 1 with
  | none =>
    apply betweenStep_steps
    rw [betweenStep, if_neg hroom, hpending]
    dsimp only
    rw [if_neg hvisited, if_neg hexcluded, hfind]
    rfl
  | some _ =>
    apply Steps.trans _ (walkBlock_steps kMaximumBlockInstructions entry entry (s.take entry rest) [])
    apply betweenStep_steps
    rw [betweenStep, if_neg hroom, hpending]
    dsimp only
    rw [if_neg hvisited, if_neg hexcluded, hfind]

theorem drainPending_steps {fuel : ℕ} {s s' : PlannerState} (hrun : drainPending input fuel s = some s') :
    PlannerSteps input (.between s) (.between s') ∧
      (s'.pending = [] ∨ kMaximumInstructions ≤ s'.instructionCount) := by
  induction fuel generalizing s with
  | zero =>
    rcases drainPending_cases hrun with ⟨rfl, hends⟩ | ⟨n, _, _, hn, _⟩
    · exact ⟨Steps.refl _, hends⟩
    · cases hn
  | succ fuel ih =>
    rcases drainPending_cases hrun with ⟨rfl, hends⟩ | ⟨n, entry, rest, hn, hpending, hcount, hrest⟩
    · exact ⟨Steps.refl _, hends⟩
    · cases hn
      exact ⟨(visitBlock_steps hcount hpending).trans (ih hrest).1, (ih hrest).2⟩

theorem planLoop_steps {fuel : ℕ} {s s' : PlannerState} (hrun : planLoop input fuel s = some s') :
    PlannerSteps input (.between s) (.done s') := by
  induction fuel generalizing s with
  | zero => cases hrun
  | succ fuel ih =>
    obtain ⟨n, t, hn, hdrain, hcases⟩ := planLoop_cases hrun
    cases hn
    obtain ⟨hdrained, hends⟩ := drainPending_steps hdrain
    apply hdrained.trans
    rcases hcases with ⟨hlimit, rfl⟩ | ⟨hroom, hchanged, rfl⟩ | ⟨hroom, hchanged, hrest⟩
    · apply betweenStep_steps
      rw [betweenStep, if_pos hlimit]
    · have hroom' := Nat.not_le_of_lt hroom
      apply betweenStep_steps
      rw [betweenStep, if_neg hroom', hends.resolve_right hroom']
      dsimp only
      rw [hchanged]
      rfl
    · have hroom' := Nat.not_le_of_lt hroom
      apply Steps.trans _ (ih hrest)
      apply betweenStep_steps
      rw [betweenStep, if_neg hroom', hends.resolve_right hroom']
      dsimp only
      rw [hchanged]
      rfl

/-! ## A step and the ranges -/

/-- The step at hand decodes no instruction that a range begins in. -/
def DecodesClear (input : PlannerInput) : PlannerConfig → Prop
  | .walking (_ + 1) _ address s _ =>
    isExcludedGuestAddress input.excludedRanges address = false → address ∉ s.visitedInstructions →
      ∀ i bytes, decodeAt input address = some (i, bytes) →
        ∀ range ∈ input.excludedRanges, ¬range.BeginsIn address i.length
  | _ => True

/-- The records so far are clear of the ranges. -/
def RecordsClear (input : PlannerInput) (c : PlannerConfig) : Prop :=
  ∀ r ∈ c.records, ClearOfRanges input.excludedRanges r

theorem recordsClear_snoc_boundary {s : PlannerState} {entry address : Word}
    {block : List AotInstructionRecord} :
    RecordsClear input (.between (s.close entry (block ++ [excludedBoundary address]))) ↔
      ∀ r ∈ s.records ++ block, ClearOfRanges input.excludedRanges r := by
  show (∀ r ∈ (s.close entry (block ++ [excludedBoundary address])).records,
    ClearOfRanges input.excludedRanges r) ↔ _
  rw [records_close, ← List.append_assoc, List.forall_mem_append]
  apply and_iff_left
  rw [List.forall_mem_singleton]
  exact clearOfRanges_excludedBoundary _ address

theorem recordsClear_close {s : PlannerState} {entry : Word} {block : List AotInstructionRecord} :
    RecordsClear input (.between (s.close entry block)) ↔
      ∀ r ∈ s.records ++ block, ClearOfRanges input.excludedRanges r := by
  rw [← records_close entry]
  exact Iff.rfl

/-- Between blocks nothing is decoded, and no record loses or gains a byte. -/
theorem recordsClear_betweenStep (s : PlannerState) :
    RecordsClear input (betweenStep input s) ↔ RecordsClear input (.between s) := by
  unfold betweenStep
  by_cases hlimit : kMaximumInstructions ≤ s.instructionCount
  · rw [if_pos hlimit]
    exact Iff.rfl
  rw [if_neg hlimit]
  cases hpending : s.pending with
  | nil =>
    by_cases hchanged : (sweepBlocks input s.blocks s).1 = true
    · dsimp only
      rw [if_pos hchanged]
      exact clearOfRanges_sweep _ s
    · dsimp only
      rw [if_neg hchanged]
      exact clearOfRanges_sweep _ s
  | cons entry rest =>
    dsimp only
    by_cases hvisited : entry ∈ s.visitedBlocks
    · rw [if_pos hvisited]
      exact Iff.rfl
    rw [if_neg hvisited]
    by_cases hexcluded : isExcludedGuestAddress input.excludedRanges entry = true
    · rw [if_pos hexcluded, ← List.nil_append [excludedBoundary entry], recordsClear_snoc_boundary,
        List.append_nil]
      exact Iff.rfl
    rw [if_neg hexcluded]
    cases findBytes input.image entry 1 with
    | none => exact Iff.rfl
    | some _ =>
      show (∀ r ∈ (s.take entry rest).records ++ [], ClearOfRanges input.excludedRanges r) ↔ _
      rw [List.append_nil]
      exact Iff.rfl

/-- One instruction of a block keeps the records clear if no range begins in it. -/
theorem recordsClear_walkStep (room : ℕ) (entry address : Word) (s : PlannerState)
    (block : List AotInstructionRecord) :
    RecordsClear input (walkStep input entry address s block room) ↔
      RecordsClear input (.walking room entry address s block) ∧
        DecodesClear input (.walking room entry address s block) := by
  cases room with
  | zero => exact recordsClear_close.trans (and_iff_left trivial).symm
  | succ room =>
    rw [walkStep]
    by_cases hexcluded : isExcludedGuestAddress input.excludedRanges address = true
    · rw [if_pos hexcluded, recordsClear_snoc_boundary]
      have hclear : DecodesClear input (.walking (room + 1) entry address s block) := by
        intro hplain
        rw [hexcluded] at hplain
        cases hplain
      exact (and_iff_left hclear).symm
    rw [if_neg hexcluded]
    rw [Bool.not_eq_true] at hexcluded
    by_cases hvisited : address ∈ s.visitedInstructions
    · rw [if_pos hvisited, recordsClear_close]
      exact (and_iff_left fun _ hnew => absurd hvisited hnew).symm
    rw [if_neg hvisited]
    -- no instruction, no condition
    have hnothing : decodeAt input address = none →
        DecodesClear input (.walking (room + 1) entry address s block) := by
      intro hnone _ _ i bytes hdecode
      rw [hnone] at hdecode
      cases hdecode
    cases hfind : findBytes input.image address maxInstructionLength with
    | none =>
      have hnone : decodeAt input address = none := by
        rw [decodeAt, hfind]
        rfl
      exact recordsClear_close.trans (and_iff_left (hnothing hnone)).symm
    | some _ =>
      cases hdecode : decodeAt input address with
      | none => exact recordsClear_close.trans (and_iff_left (hnothing hdecode)).symm
      | some decoded =>
        obtain ⟨i, bytes⟩ := decoded
        dsimp only
        have hrecord := @clearOfRanges_classifyAt _ s.guards block _ _ _ hexcluded hdecode
        have hcondition : DecodesClear input (.walking (room + 1) entry address s block) ↔
            ∀ range ∈ input.excludedRanges, ¬range.BeginsIn address i.length := by
          constructor
          · exact fun h => h hexcluded hvisited i bytes hdecode
          · intro h _ _ i' bytes' hdecode'
            rw [hdecode, Option.some.injEq] at hdecode'
            cases hdecode'
            exact h
        have hsnoc : (∀ r ∈ s.records ++ (block ++ [(classifyAt input s.guards block address i bytes).record]),
            ClearOfRanges input.excludedRanges r) ↔
              RecordsClear input (.walking (room + 1) entry address s block) ∧
                DecodesClear input (.walking (room + 1) entry address s block) := by
          rw [hcondition, ← hrecord, ← List.append_assoc, List.forall_mem_append, List.forall_mem_singleton]
          exact Iff.rfl
        by_cases hon : (classifyAt input s.guards block address i bytes).goesOn = true
        · rw [if_pos hon]
          exact hsnoc
        · rw [if_neg hon, recordsClear_close]
          exact hsnoc

theorem recordsClear_plannerStep {c c' : PlannerConfig} (hstep : plannerStep input c = some c') :
    RecordsClear input c' ↔ RecordsClear input c ∧ DecodesClear input c := by
  cases c with
  | between s =>
    rw [← Option.some.inj hstep, recordsClear_betweenStep]
    exact (and_iff_left trivial).symm
  | walking room entry address s block =>
    rw [← Option.some.inj hstep]
    exact recordsClear_walkStep room entry address s block
  | done s => cases hstep

end

/-! ## Plans -/

/-- The planner never reaches an instruction that an excluded range begins in. -/
def NeverRunsInto (input : PlannerInput) (entry : Word) : Prop :=
  ∀ c, PlannerSteps input (.between { pending := [entry] }) c → DecodesClear input c

/-- No byte of a planned instruction is in an excluded range, exactly if of an image that is read at
all no instruction is decoded that a range begins in. -/
theorem plan_clear_of_ranges_iff {table : Table} {fuel : ℕ} {image : RelocatedRuntimeImage} {entry : Word}
    {excluded : List AotExcludedGuestRange} {plan : AotTranslationPlan}
    (hplan : buildAotTranslationPlanFromEntry table fuel image entry excluded = some plan) :
    (∀ r ∈ plan.records, r ≠ excludedBoundary r.guestAddress →
      ∀ k < r.length, isExcludedGuestAddress excluded (r.guestAddress + BitVec.ofNat 32 k) = false) ↔
      (image.valid → NeverRunsInto ⟨table, image, excluded, planCodeModeRanges image⟩ entry) := by
  unfold buildAotTranslationPlanFromEntry at hplan
  by_cases hvalid : image.valid
  · rw [if_neg (not_not_intro hvalid)] at hplan
    obtain ⟨s, hs, rfl⟩ := Option.map_eq_some_iff.mp hplan
    have hleaves : Leaves (plannerStep ⟨table, image, excluded, planCodeModeRanges image⟩)
        PlannerConfig.Running (.between { pending := [entry] }) (.done s) :=
      ⟨planLoop_steps hs, id⟩
    have hstart : RecordsClear ⟨table, image, excluded, planCodeModeRanges image⟩
        (.between { pending := [entry] }) := by
      intro r hr
      cases hr
    have hrun := hleaves.iff_along (fun _ => recordsClear_plannerStep)
    rw [and_iff_right hstart] at hrun
    refine hrun.trans ⟨?_, ?_⟩
    · intro h _ c hc
      cases c with
      | done => exact trivial
      | _ => exact h _ hc trivial
    · exact fun h c hc _ => h hvalid c hc
  · rw [if_pos hvalid] at hplan
    rw [← Option.some.inj hplan]
    apply iff_of_true
    · intro r hr
      cases hr
    · exact fun h => absurd h hvalid

/-- `call eax` with a range away from its two bytes. -/
theorem plan_clear_of_ranges_call :
    ∃ plan, buildAotTranslationPlanFromEntry controlTable 8 callSource 0x1000 [⟨0x1010, 1⟩] = some plan ∧
    ((∀ r ∈ plan.records, r ≠ excludedBoundary r.guestAddress →
      ∀ k < r.length, isExcludedGuestAddress [⟨0x1010, 1⟩] (r.guestAddress + BitVec.ofNat 32 k) = false) ↔
      (callSource.valid → NeverRunsInto
        ⟨controlTable, callSource, [⟨0x1010, 1⟩], planCodeModeRanges callSource⟩ 0x1000)) := by
  cases h : buildAotTranslationPlanFromEntry controlTable 8 callSource 0x1000 [⟨0x1010, 1⟩] with
  | none =>
    have hsome : (buildAotTranslationPlanFromEntry controlTable 8 callSource 0x1000
      [⟨0x1010, 1⟩]).isSome := by decide +kernel
    rw [h] at hsome
    cases hsome
  | some plan => exact ⟨plan, rfl, plan_clear_of_ranges_iff h⟩

/-- With its second byte excluded, `call eax` is planned all the same. -/
theorem plan_runs_into_range :
    ∃ plan, buildAotTranslationPlanFromEntry controlTable 8 callSource 0x1000 [⟨0x1001, 1⟩] = some plan ∧
      ∃ r ∈ plan.records, r ≠ excludedBoundary r.guestAddress ∧
        ∃ k < r.length, isExcludedGuestAddress [⟨0x1001, 1⟩] (r.guestAddress + BitVec.ofNat 32 k) = true := by
  have hruns : ((buildAotTranslationPlanFromEntry controlTable 8 callSource 0x1000 [⟨0x1001, 1⟩]).any
      fun plan => plan.records.any fun r => decide (r ≠ excludedBoundary r.guestAddress) &&
        (List.range r.length).any fun k =>
          isExcludedGuestAddress [⟨0x1001, 1⟩] (r.guestAddress + BitVec.ofNat 32 k)) = true := by
    decide +kernel
  rw [Option.any_eq_true_iff_get] at hruns
  obtain ⟨hsome, hrecords⟩ := hruns
  refine ⟨_, (Option.some_get hsome).symm, ?_⟩
  obtain ⟨r, hr, hrecord⟩ := List.any_eq_true.mp hrecords
  rw [Bool.and_eq_true, decide_eq_true_eq] at hrecord
  obtain ⟨hne, hbytes⟩ := hrecord
  obtain ⟨k, hk, hin⟩ := List.any_eq_true.mp hbytes
  exact ⟨r, hr, hne, k, List.mem_range.mp hk, hin⟩

end Repiu.Runtime
