import Repiu.Runtime.PlannerTermination
import Repiu.X86.Rows

/-!
# Closure of a plan

The successors of the planned records: each is planned itself, lies outside the image,
does not decode, or was left pending at the instruction limit.  The one exception is
the address behind the last instruction a block has room for.
-/

namespace Repiu.Runtime

open Repiu.X86

/-- The addresses a planned record hands control to, as far as the plan knows them. -/
def AotInstructionRecord.successors (r : AotInstructionRecord) : List Word :=
  match r.kind with
  | .kCopy => [r.next]
  | .kHleBoundary => if r.bytes = [] then [] else [r.next]
  | .kSegmentOverrideMem | .kGuardedSegmentPop | .kGuardedSegmentLoad | .kGuardedSegmentPush
  | .kGuardedSegmentRead | .kPortIo => [r.fallthroughTarget]
  | .kDirectCall | .kConditionalBranch => [r.directTarget, r.fallthroughTarget]
  | .kDirectJump => [r.directTarget]
  | .kJumpTable => r.tableTargets
  | .kReturn | .kFarReturn | .kIndirectExit => []

/-! ## Successors of a classified instruction -/

section
variable (input : PlannerInput) (guards : Guards) (block : List AotInstructionRecord) (i : Instruction)
  (codeMode : GuestCodeDefaultOperandSize) (record : AotInstructionRecord)

/-- A classification makes the successors of its record pending, or goes on to the one it has. -/
def PushesSuccessors (c : Classified) : Prop :=
  ∀ t ∈ c.record.successors, t ∈ c.pushes ∨ (c.goesOn = true ∧ t = c.record.next)

theorem pushesSuccessors_classifyBranch :
    PushesSuccessors (classifyBranch input guards block i codeMode record) := by
  unfold classifyBranch
  dsimp only
  split
  · intro t ht
    cases ht
  · split
    all_goals exact fun t ht => Or.inl ht

theorem pushesSuccessors_classifyPlain :
    PushesSuccessors (classifyPlain input guards block i codeMode record) := by
  unfold classifyPlain
  dsimp only
  split
  · exact fun t ht => Or.inl ht
  split
  · exact fun t ht => Or.inl ht
  split
  · exact fun t ht => Or.inl ht
  split
  · exact fun t ht => Or.inl ht
  split
  · exact fun t ht => Or.inl ht
  split
  · exact fun t ht => Or.inl ht
  split
  · intro t ht
    simp only [AotInstructionRecord.successors] at ht
    split at ht
    · cases ht
    · exact Or.inl ht
  split
  · split
    · intro t ht
      cases ht
    · intro t ht
      cases ht
  split
  · exact pushesSuccessors_classifyBranch input guards block i codeMode record
  · exact fun t ht => Or.inr ⟨rfl, List.mem_singleton.mp ht⟩

theorem pushesSuccessors_classifyInstruction :
    PushesSuccessors (classifyInstruction input guards block i codeMode record) := by
  unfold classifyInstruction
  split
  · exact pushesSuccessors_classifyPlain input guards block i codeMode record
  split
  · exact pushesSuccessors_classifyPlain input _ block i codeMode record
  split
  · exact pushesSuccessors_classifyPlain input guards block i codeMode record
  split
  · exact pushesSuccessors_classifyPlain input guards block i codeMode record
  · dsimp only
    split
    · exact fun t ht => Or.inl ht
    · exact pushesSuccessors_classifyPlain input guards block i codeMode _

end

theorem classifyAt_guestAddress (input : PlannerInput) (guards : Guards)
    (block : List AotInstructionRecord) (address : Word) (i : Instruction) (bytes : List Byte) :
    (classifyAt input guards block address i bytes).record.guestAddress = address :=
  (sameInstruction_classifyInstruction input guards block i _ _).guestAddress

/-! ## The invariant -/

/-- The addresses of the records so far, those of the block being walked last. -/
def PlannerState.addresses (s : PlannerState) (block : List AotInstructionRecord) : List Word :=
  (s.records ++ block).map AotInstructionRecord.guestAddress

/-- An address that was counted as outside the image. -/
def CountedOutside (input : PlannerInput) (s : PlannerState) (a : Word) : Prop :=
  findBytes input.image a maxInstructionLength = none ∧ s.outsideImageTargetCount ≠ 0

/-- An address that was counted as not decodable. -/
def CountedUndecodable (input : PlannerInput) (s : PlannerState) (a : Word) : Prop :=
  decodeAt input a = none ∧ s.decodeFailureCount ≠ 0

/-- An address the planner has seen or is going to. -/
def Covered (input : PlannerInput) (s : PlannerState) (a : Word) : Prop :=
  a ∈ s.pending ∨ a ∈ s.visitedBlocks ∨ a ∈ s.visitedInstructions ∨
    (isExcludedGuestAddress input.excludedRanges a = true ∧ a ∈ s.addresses [])

/-- A visited block entry has been dealt with. -/
def EntrySettled (input : PlannerInput) (s : PlannerState) (a : Word) : Prop :=
  a ∈ s.visitedInstructions ∨
    (isExcludedGuestAddress input.excludedRanges a = true ∧ a ∈ s.addresses []) ∨
    CountedOutside input s a

/-- What holds of the plan so far, the block being walked included. -/
structure Planning (input : PlannerInput) (s : PlannerState) (block : List AotInstructionRecord) :
    Prop where
  instructions : ∀ a ∈ s.visitedInstructions, isExcludedGuestAddress input.excludedRanges a = false ∧
    (a ∈ s.addresses block ∨ CountedOutside input s a ∨ CountedUndecodable input s a)
  unique : ((s.addresses block).filter fun a =>
    !isExcludedGuestAddress input.excludedRanges a).Nodup
  visited : ∀ r ∈ s.records ++ block,
    isExcludedGuestAddress input.excludedRanges r.guestAddress = false →
    r.guestAddress ∈ s.visitedInstructions
  boundary : ∀ r ∈ s.records ++ block,
    isExcludedGuestAddress input.excludedRanges r.guestAddress = true →
    r = excludedBoundary r.guestAddress
  successors : ∀ b ∈ s.blocks, ∀ k r, b.instructions[k]? = some r → ∀ t ∈ r.successors,
    Covered input s t ∨ k + 1 = kMaximumBlockInstructions

/-- Between blocks. -/
def Closed (input : PlannerInput) (s : PlannerState) : Prop :=
  Planning input s [] ∧ ∀ a ∈ s.visitedBlocks, EntrySettled input s a

/-- While a block is walked. -/
structure Walking (input : PlannerInput) (fuel : ℕ) (entry address : Word) (s : PlannerState)
    (block : List AotInstructionRecord) : Prop where
  planning : Planning input s block
  room : block.length + fuel = kMaximumBlockInstructions
  entries : ∀ a ∈ s.visitedBlocks, EntrySettled input s a ∨ (a = entry ∧ block = [])
  started : if block = [] then address = entry else entry ∈ s.visitedInstructions
  current : ∀ k r, block[k]? = some r → ∀ t ∈ r.successors,
    Covered input s t ∨ (k + 1 = block.length ∧ t = address)

/-! ## Growth -/

section
variable {input : PlannerInput} {s s' : PlannerState} {block : List AotInstructionRecord} {a : Word}

/-- A state that knows what another one knows. -/
structure Extends (input : PlannerInput) (s s' : PlannerState) : Prop where
  pending : ∀ a ∈ s.pending, Covered input s' a
  blocks : ∀ a ∈ s.visitedBlocks, a ∈ s'.visitedBlocks
  instructions : ∀ a ∈ s.visitedInstructions, a ∈ s'.visitedInstructions
  addresses : ∀ a ∈ s.addresses [], a ∈ s'.addresses []
  outside : s.outsideImageTargetCount ≤ s'.outsideImageTargetCount
  undecodable : s.decodeFailureCount ≤ s'.decodeFailureCount

theorem Covered.extends (h : Covered input s a) (hx : Extends input s s') : Covered input s' a := by
  rcases h with h | h | h | ⟨hexcluded, h⟩
  · exact hx.pending a h
  · exact Or.inr (Or.inl (hx.blocks a h))
  · exact Or.inr (Or.inr (Or.inl (hx.instructions a h)))
  · exact Or.inr (Or.inr (Or.inr ⟨hexcluded, hx.addresses a h⟩))

theorem CountedOutside.extends (h : CountedOutside input s a) (hx : Extends input s s') :
    CountedOutside input s' a :=
  ⟨h.1, fun hzero => h.2 (Nat.le_zero.mp (hzero ▸ hx.outside))⟩

theorem CountedUndecodable.extends (h : CountedUndecodable input s a) (hx : Extends input s s') :
    CountedUndecodable input s' a :=
  ⟨h.1, fun hzero => h.2 (Nat.le_zero.mp (hzero ▸ hx.undecodable))⟩

theorem EntrySettled.extends (h : EntrySettled input s a) (hx : Extends input s s') :
    EntrySettled input s' a := by
  rcases h with h | ⟨hexcluded, h⟩ | h
  · exact Or.inl (hx.instructions a h)
  · exact Or.inr (Or.inl ⟨hexcluded, hx.addresses a h⟩)
  · exact Or.inr (Or.inr (h.extends hx))

/-- The state changes, the records do not. -/
theorem Planning.grow (h : Planning input s block) (hx : Extends input s s') (hblocks : s'.blocks = s.blocks)
    (hnew : ∀ a ∈ s'.visitedInstructions, a ∉ s.visitedInstructions →
      isExcludedGuestAddress input.excludedRanges a = false ∧
        (CountedOutside input s' a ∨ CountedUndecodable input s' a)) :
    Planning input s' block := by
  have hrecords : s'.records = s.records := by rw [PlannerState.records, hblocks]; rfl
  have haddresses : s'.addresses block = s.addresses block := by
    rw [PlannerState.addresses, hrecords]
    rfl
  refine ⟨?_, ?_, ?_, ?_, ?_⟩
  · intro a ha
    by_cases hold : a ∈ s.visitedInstructions
    · obtain ⟨hexcluded, hin | hout | hbad⟩ := h.instructions a hold
      · exact ⟨hexcluded, Or.inl (by rwa [haddresses])⟩
      · exact ⟨hexcluded, Or.inr (Or.inl (hout.extends hx))⟩
      · exact ⟨hexcluded, Or.inr (Or.inr (hbad.extends hx))⟩
    · exact ⟨(hnew a ha hold).1, Or.inr (hnew a ha hold).2⟩
  · rw [haddresses]
    exact h.unique
  · intro r hr hexcluded
    rw [hrecords] at hr
    exact hx.instructions _ (h.visited r hr hexcluded)
  · intro r hr
    rw [hrecords] at hr
    exact h.boundary r hr
  · intro b hb k r hk t ht
    rw [hblocks] at hb
    exact (h.successors b hb k r hk t ht).imp_left fun hcovered => hcovered.extends hx

/-- An excluded boundary is appended to the block. -/
theorem Planning.snoc_excluded (h : Planning input s block) (hx : Extends input s s')
    (hblocks : s'.blocks = s.blocks) (hvisited : s'.visitedInstructions = s.visitedInstructions)
    (hexcluded : isExcludedGuestAddress input.excludedRanges a = true) :
    Planning input s' (block ++ [excludedBoundary a]) := by
  have hgrow := h.grow hx hblocks fun x hx' hnew => absurd (hvisited ▸ hx') hnew
  have haddresses : s'.addresses (block ++ [excludedBoundary a]) = s'.addresses block ++ [a] := by
    simp [PlannerState.addresses, excludedBoundary]
  have hmem : ∀ r ∈ s'.records ++ (block ++ [excludedBoundary a]),
      r ∈ s'.records ++ block ∨ r = excludedBoundary a := by
    intro r hr
    rw [← List.append_assoc] at hr
    rcases List.mem_append.mp hr with hr | hr
    · exact Or.inl hr
    · exact Or.inr (List.mem_singleton.mp hr)
  refine ⟨?_, ?_, ?_, ?_, hgrow.successors⟩
  · intro x hx
    refine ⟨(hgrow.instructions x hx).1, (hgrow.instructions x hx).2.imp_left fun hin => ?_⟩
    rw [haddresses]
    exact List.mem_append_left _ hin
  · rw [haddresses, List.filter_append]
    simpa [hexcluded] using hgrow.unique
  · intro r hr hplain
    rcases hmem r hr with hr | rfl
    · exact hgrow.visited r hr hplain
    · exact absurd (hplain.symm.trans hexcluded) Bool.false_ne_true
  · intro r hr hex
    rcases hmem r hr with hr | rfl
    · exact hgrow.boundary r hr hex
    · rfl

/-- The record of a new instruction is appended to the block. -/
theorem Planning.snoc (h : Planning input s block) (hx : Extends input s s')
    (hblocks : s'.blocks = s.blocks) {r : AotInstructionRecord}
    (hvisited : s'.visitedInstructions = r.guestAddress :: s.visitedInstructions)
    (hexcluded : isExcludedGuestAddress input.excludedRanges r.guestAddress = false)
    (hfresh : r.guestAddress ∉ s.visitedInstructions) : Planning input s' (block ++ [r]) := by
  have hrecords : s'.records = s.records := by rw [PlannerState.records, hblocks]; rfl
  have haddresses : s'.addresses (block ++ [r]) = s.addresses block ++ [r.guestAddress] := by
    simp [PlannerState.addresses, hrecords]
  have hmem : ∀ x ∈ s'.records ++ (block ++ [r]), x ∈ s.records ++ block ∨ x = r := by
    intro x hx
    rw [← List.append_assoc, hrecords] at hx
    rcases List.mem_append.mp hx with hx | hx
    · exact Or.inl hx
    · exact Or.inr (List.mem_singleton.mp hx)
  refine ⟨?_, ?_, ?_, ?_, ?_⟩
  · intro x hx'
    rw [haddresses]
    rw [hvisited] at hx'
    rcases List.mem_cons.mp hx' with rfl | hold
    · exact ⟨hexcluded, Or.inl (List.mem_append_right _ (List.mem_singleton_self _))⟩
    · obtain ⟨hplain, hin | hout | hbad⟩ := h.instructions x hold
      · exact ⟨hplain, Or.inl (List.mem_append_left _ hin)⟩
      · exact ⟨hplain, Or.inr (Or.inl (hout.extends hx))⟩
      · exact ⟨hplain, Or.inr (Or.inr (hbad.extends hx))⟩
  · rw [haddresses, List.filter_append]
    have hone : ([r.guestAddress].filter fun a => !isExcludedGuestAddress input.excludedRanges a) =
        [r.guestAddress] := by simp [hexcluded]
    rw [hone, List.nodup_append]
    refine ⟨h.unique, List.nodup_singleton _, ?_⟩
    intro x hx y hy heq
    rw [List.mem_singleton] at hy
    rw [hy] at heq
    -- a record of the address would have visited it
    obtain ⟨hin, -⟩ := List.mem_filter.mp hx
    obtain ⟨r', hr', hrx⟩ := List.mem_map.mp hin
    have := h.visited r' hr' (by rw [hrx, heq]; exact hexcluded)
    rw [hrx, heq] at this
    exact hfresh this
  · intro x hx' hplain
    rw [hvisited]
    rcases hmem x hx' with hx' | rfl
    · exact List.mem_cons_of_mem _ (h.visited x hx' hplain)
    · exact List.mem_cons_self
  · intro x hx' hex
    rcases hmem x hx' with hx' | rfl
    · exact h.boundary x hx' hex
    · exact absurd (hexcluded.symm.trans hex) Bool.false_ne_true
  · intro b hb k x hk t ht
    rw [hblocks] at hb
    exact (h.successors b hb k x hk t ht).imp_left fun hcovered => hcovered.extends hx

/-! ## Finished blocks -/

theorem addresses_close (entry : Word) : (s.close entry block).addresses [] = s.addresses block := by
  rw [PlannerState.addresses, records_close, List.append_nil]
  rfl

theorem extends_close (entry : Word) : Extends input s (s.close entry block) where
  pending := fun _ h => Or.inl h
  blocks := fun _ h => h
  instructions := fun _ h => h
  addresses := by
    intro a ha
    rw [addresses_close, PlannerState.addresses, List.map_append]
    rw [PlannerState.addresses, List.append_nil] at ha
    exact List.mem_append_left _ ha
  outside := le_rfl
  undecodable := le_rfl

theorem Extends.trans {s'' : PlannerState} (h : Extends input s s') (h' : Extends input s' s'') :
    Extends input s s'' where
  pending := fun a ha => (h.pending a ha).extends h'
  blocks := fun a ha => h'.blocks a (h.blocks a ha)
  instructions := fun a ha => h'.instructions a (h.instructions a ha)
  addresses := fun a ha => h'.addresses a (h.addresses a ha)
  outside := h.outside.trans h'.outside
  undecodable := h.undecodable.trans h'.undecodable

theorem Planning.close (h : Planning input s block) {entry : Word}
    (hblock : ∀ k r, block[k]? = some r → ∀ t ∈ r.successors,
      Covered input (s.close entry block) t ∨ k + 1 = kMaximumBlockInstructions) :
    Planning input (s.close entry block) [] := by
  refine ⟨?_, ?_, ?_, ?_, ?_⟩
  · intro a ha
    rw [addresses_close]
    exact h.instructions a ha
  · rw [addresses_close]
    exact h.unique
  · intro r hr
    rw [records_close, List.append_nil] at hr
    exact h.visited r hr
  · intro r hr
    rw [records_close, List.append_nil] at hr
    exact h.boundary r hr
  · intro b hb k r hk t ht
    rcases List.mem_append.mp hb with hb | hb
    · exact (h.successors b hb k r hk t ht).imp_left fun hc => hc.extends (extends_close entry)
    · rw [List.mem_singleton] at hb
      rw [hb] at hk
      exact hblock k r hk t ht

/-- The walk ends at an address that has been dealt with. -/
theorem Walking.finish {fuel : ℕ} {entry address : Word} (h : Walking input fuel entry address s block)
    (new : List AotInstructionRecord) (hx : Extends input s s')
    (hblocks : s'.visitedBlocks = s.visitedBlocks) (hplanning : Planning input s' (block ++ new))
    (haddress : EntrySettled input (s'.close entry (block ++ new)) address)
    (hcovered : Covered input (s'.close entry (block ++ new)) address)
    (hnew : ∀ r ∈ new, ∀ t ∈ r.successors, Covered input (s'.close entry (block ++ new)) t) :
    Closed input (s'.close entry (block ++ new)) := by
  have hx' : Extends input s (s'.close entry (block ++ new)) := hx.trans (extends_close entry)
  refine ⟨hplanning.close ?_, ?_⟩
  · intro k r hk t ht
    by_cases hlt : k < block.length
    · rw [List.getElem?_append_left hlt] at hk
      rcases h.current k r hk t ht with hc | ⟨-, rfl⟩
      · exact Or.inl (hc.extends hx')
      · exact Or.inl hcovered
    · rw [List.getElem?_append_right (Nat.le_of_not_lt hlt)] at hk
      exact Or.inl (hnew r (List.mem_of_getElem? hk) t ht)
  · intro a ha
    have ha : a ∈ s.visitedBlocks := hblocks ▸ ha
    rcases h.entries a ha with hsettled | ⟨rfl, hnil⟩
    · exact hsettled.extends hx'
    · have hstarted := h.started
      rw [if_pos hnil] at hstarted
      rw [hstarted] at haddress
      exact haddress

/-- The walk ends for want of room. -/
theorem Walking.full {entry address : Word} (h : Walking input 0 entry address s block) :
    Closed input (s.close entry block) := by
  have hroom : block.length = kMaximumBlockInstructions := h.room
  refine ⟨h.planning.close ?_, ?_⟩
  · intro k r hk t ht
    rcases h.current k r hk t ht with hc | ⟨hlast, -⟩
    · exact Or.inl (hc.extends (extends_close entry))
    · exact Or.inr (hlast.trans hroom)
  · intro a ha
    rcases h.entries a ha with hsettled | ⟨-, rfl⟩
    · exact hsettled.extends (extends_close entry)
    · cases hroom

end

/-! ## The steps of the planner -/

section
variable {input : PlannerInput} {s : PlannerState} {block : List AotInstructionRecord}

theorem extends_visit (a : Word) : Extends input s (s.visit a) :=
  ⟨fun _ h => Or.inl h, fun _ h => h, fun _ h => List.mem_cons_of_mem _ h, fun _ h => h, le_rfl, le_rfl⟩

theorem extends_countExcluded : Extends input s s.countExcluded :=
  ⟨fun _ h => Or.inl h, fun _ h => h, fun _ h => h, fun _ h => h, le_rfl, le_rfl⟩

theorem extends_countOutside : Extends input s s.countOutside :=
  ⟨fun _ h => Or.inl h, fun _ h => h, fun _ h => h, fun _ h => h, Nat.le_succ _, le_rfl⟩

theorem extends_countUndecodable : Extends input s s.countUndecodable :=
  ⟨fun _ h => Or.inl h, fun _ h => h, fun _ h => h, fun _ h => h, le_rfl, Nat.le_succ _⟩

theorem extends_absorb (c : Classified) : Extends input s (s.absorb c) :=
  ⟨fun _ h => Or.inl (List.mem_append_right _ h), fun _ h => h, fun _ h => h, fun _ h => h,
    le_rfl, le_rfl⟩

/-- Taking an entry from the pending ones loses none of them. -/
theorem extends_take {entry : Word} {rest : List Word} (hpending : s.pending = entry :: rest) :
    Extends input s (s.take entry rest) where
  pending := by
    intro a ha
    rw [hpending] at ha
    rcases List.mem_cons.mp ha with rfl | ha
    · exact Or.inr (Or.inl List.mem_cons_self)
    · exact Or.inl ha
  blocks := fun _ h => List.mem_cons_of_mem _ h
  instructions := fun _ h => h
  addresses := fun _ h => h
  outside := le_rfl
  undecodable := le_rfl

/-- Fewer bytes are found wherever more are. -/
theorem findBytes_eq_none {image : RelocatedRuntimeImage} {a : Word} {m n : ℕ} (hmn : m ≤ n)
    (h : findBytes image a m = none) : findBytes image a n = none := by
  unfold findBytes at h ⊢
  rw [Option.map_eq_none_iff, List.find?_eq_none] at h ⊢
  intro o ho hin
  apply h o ho
  simp only [decide_eq_true_eq] at hin ⊢
  exact ⟨hin.1, by omega⟩

theorem Closed.revisited {entry : Word} {rest : List Word} (h : Closed input s)
    (hpending : s.pending = entry :: rest) (hvisited : entry ∈ s.visitedBlocks) :
    Closed input { s with pending := rest } := by
  have hx : Extends input s { s with pending := rest } := by
    refine ⟨?_, fun _ h => h, fun _ h => h, fun _ h => h, le_rfl, le_rfl⟩
    intro a ha
    rw [hpending] at ha
    rcases List.mem_cons.mp ha with rfl | ha
    · exact Or.inr (Or.inl hvisited)
    · exact Or.inl ha
  exact ⟨h.1.grow hx rfl fun a ha hnew => absurd ha hnew, fun a ha => (h.2 a ha).extends hx⟩

theorem Closed.excludedEntry {entry : Word} {rest : List Word} (h : Closed input s)
    (hpending : s.pending = entry :: rest)
    (hexcluded : isExcludedGuestAddress input.excludedRanges entry = true) :
    Closed input ((s.take entry rest).countExcluded.close entry [excludedBoundary entry]) := by
  have hx : Extends input s (s.take entry rest).countExcluded :=
    (extends_take hpending).trans extends_countExcluded
  have hplanning := h.1.snoc_excluded hx rfl rfl hexcluded
  have hin : entry ∈ ((s.take entry rest).countExcluded.close entry [excludedBoundary entry]).addresses [] := by
    rw [addresses_close]
    simp [PlannerState.addresses, excludedBoundary]
  refine ⟨hplanning.close ?_, ?_⟩
  · intro k r hk t ht
    have hr := List.mem_of_getElem? hk
    rw [List.nil_append, List.mem_singleton] at hr
    rw [hr] at ht
    cases ht
  · intro a ha
    rcases List.mem_cons.mp ha with rfl | ha
    · exact Or.inr (Or.inl ⟨hexcluded, hin⟩)
    · exact (h.2 a ha).extends (hx.trans (extends_close entry))

theorem Closed.outsideEntry {entry : Word} {rest : List Word} (h : Closed input s)
    (hpending : s.pending = entry :: rest) (hfind : findBytes input.image entry 1 = none) :
    Closed input (s.take entry rest).countOutside := by
  have hx : Extends input s (s.take entry rest).countOutside :=
    (extends_take hpending).trans extends_countOutside
  refine ⟨h.1.grow hx rfl fun a ha hnew => absurd ha hnew, ?_⟩
  intro a ha
  rcases List.mem_cons.mp ha with rfl | ha
  · exact Or.inr (Or.inr ⟨findBytes_eq_none (by decide) hfind, Nat.succ_ne_zero _⟩)
  · exact (h.2 a ha).extends hx

theorem Closed.entered {entry : Word} {rest : List Word} (h : Closed input s)
    (hpending : s.pending = entry :: rest) :
    Walking input kMaximumBlockInstructions entry entry (s.take entry rest) [] := by
  have hx : Extends input s (s.take entry rest) := extends_take hpending
  refine ⟨h.1.grow hx rfl fun a ha hnew => absurd ha hnew, Nat.zero_add _, ?_, ?_, ?_⟩
  · intro a ha
    rcases List.mem_cons.mp ha with rfl | ha
    · exact Or.inr ⟨rfl, rfl⟩
    · exact Or.inl ((h.2 a ha).extends hx)
  · rw [if_pos rfl]
  · intro k r hk
    simp at hk

section
variable {fuel : ℕ} {entry address : Word} (h : Walking input (fuel + 1) entry address s block)
include h

theorem Walking.excluded (hexcluded : isExcludedGuestAddress input.excludedRanges address = true) :
    Closed input (s.countExcluded.close entry (block ++ [excludedBoundary address])) := by
  have hin : address ∈
      (s.countExcluded.close entry (block ++ [excludedBoundary address])).addresses [] := by
    rw [addresses_close]
    simp [PlannerState.addresses, excludedBoundary]
  apply h.finish [excludedBoundary address] extends_countExcluded rfl
    (h.planning.snoc_excluded extends_countExcluded rfl rfl hexcluded)
  · exact Or.inr (Or.inl ⟨hexcluded, hin⟩)
  · exact Or.inr (Or.inr (Or.inr ⟨hexcluded, hin⟩))
  · intro r hr t ht
    rw [List.mem_singleton.mp hr] at ht
    cases ht

theorem Walking.visited (hvisited : address ∈ s.visitedInstructions) :
    Closed input (s.close entry block) := by
  have hx : Extends input s s :=
    ⟨fun _ h => Or.inl h, fun _ h => h, fun _ h => h, fun _ h => h, le_rfl, le_rfl⟩
  have hclosed := h.finish [] hx rfl
    (by rw [List.append_nil]; exact h.planning) (Or.inl hvisited) (Or.inr (Or.inr (Or.inl hvisited)))
    (by intro r hr; cases hr)
  rwa [List.append_nil] at hclosed

/-- The walk ends at an address that was counted instead of planned. -/
theorem Walking.counted {s' : PlannerState} (hx : Extends input s s') (hblocks : s'.blocks = s.blocks)
    (hentries : s'.visitedBlocks = s.visitedBlocks)
    (hvisited : s'.visitedInstructions = address :: s.visitedInstructions)
    (hplain : isExcludedGuestAddress input.excludedRanges address = false)
    (hcounted : CountedOutside input s' address ∨ CountedUndecodable input s' address) :
    Closed input (s'.close entry block) := by
  have hplanning : Planning input s' block := by
    refine h.planning.grow hx hblocks fun a ha hnew => ?_
    rw [hvisited] at ha
    rcases List.mem_cons.mp ha with rfl | ha
    · exact ⟨hplain, hcounted⟩
    · exact absurd ha hnew
  have hin : address ∈ s'.visitedInstructions := by
    rw [hvisited]
    exact List.mem_cons_self
  have hclosed := h.finish [] hx hentries (by rwa [List.append_nil]) (Or.inl hin)
    (Or.inr (Or.inr (Or.inl hin))) (by intro r hr; cases hr)
  rwa [List.append_nil] at hclosed

variable (hplain : isExcludedGuestAddress input.excludedRanges address = false)
  (hfresh : address ∉ s.visitedInstructions) {i : Instruction} {bytes : List Byte}
include hplain hfresh

/-- What a new instruction adds. -/
theorem Walking.absorb :
    Planning input ((s.visit address).absorb (classifyAt input s.guards block address i bytes))
      (block ++ [(classifyAt input s.guards block address i bytes).record]) := by
  have haddress := classifyAt_guestAddress input s.guards block address i bytes
  apply h.planning.snoc ((extends_visit address).trans (extends_absorb _)) rfl
  · rw [haddress]
    rfl
  · rwa [haddress]
  · rwa [haddress]

theorem Walking.ended (hends : (classifyAt input s.guards block address i bytes).goesOn = false) :
    Closed input (((s.visit address).absorb (classifyAt input s.guards block address i bytes)).close
      entry (block ++ [(classifyAt input s.guards block address i bytes).record])) := by
  apply h.finish _ ((extends_visit address).trans (extends_absorb _)) rfl (h.absorb hplain hfresh)
  · exact Or.inl List.mem_cons_self
  · exact Or.inr (Or.inr (Or.inl List.mem_cons_self))
  · intro r hr t ht
    rw [List.mem_singleton.mp hr] at ht
    rcases pushesSuccessors_classifyInstruction input s.guards block i _ _ t ht with hpush | ⟨hon, -⟩
    · exact Or.inl (List.mem_append_left _ (List.mem_reverse.mpr hpush))
    · exact absurd (hends.symm.trans hon) Bool.false_ne_true

theorem Walking.wentOn :
    Walking input fuel entry (classifyAt input s.guards block address i bytes).record.next
      ((s.visit address).absorb (classifyAt input s.guards block address i bytes))
      (block ++ [(classifyAt input s.guards block address i bytes).record]) := by
  have hx : Extends input s
      ((s.visit address).absorb (classifyAt input s.guards block address i bytes)) :=
    (extends_visit address).trans (extends_absorb _)
  have hnil : block ++ [(classifyAt input s.guards block address i bytes).record] ≠ [] := by simp
  refine ⟨h.absorb hplain hfresh, ?_, ?_, ?_, ?_⟩
  · have := h.room
    rw [List.length_append, List.length_singleton]
    omega
  · intro a ha
    rcases h.entries a ha with hsettled | ⟨rfl, hblock⟩
    · exact Or.inl (hsettled.extends hx)
    · have hstarted := h.started
      rw [if_pos hblock] at hstarted
      rw [← hstarted]
      exact Or.inl (Or.inl List.mem_cons_self)
  · rw [if_neg hnil]
    have hstarted := h.started
    by_cases hblock : block = []
    · rw [if_pos hblock] at hstarted
      rw [← hstarted]
      exact List.mem_cons_self
    · rw [if_neg hblock] at hstarted
      exact List.mem_cons_of_mem _ hstarted
  · intro k r hk t ht
    by_cases hlt : k < block.length
    · rw [List.getElem?_append_left hlt] at hk
      rcases h.current k r hk t ht with hc | ⟨-, rfl⟩
      · exact Or.inl (hc.extends hx)
      · exact Or.inl (Or.inr (Or.inr (Or.inl List.mem_cons_self)))
    · rw [List.getElem?_append_right (Nat.le_of_not_lt hlt)] at hk
      have hzero : k - block.length = 0 := by
        have := (List.getElem?_eq_some_iff.mp hk).1
        rw [List.length_singleton] at this
        omega
      rw [hzero] at hk
      rw [← Option.some.inj hk] at ht
      rcases pushesSuccessors_classifyInstruction input s.guards block i _ _ t ht with hpush | ⟨-, ht⟩
      · exact Or.inl (Or.inl (List.mem_append_left _ (List.mem_reverse.mpr hpush)))
      · refine Or.inr ⟨?_, ht⟩
        rw [List.length_append, List.length_singleton]
        omega

end

end

/-! ## Sweeps -/

/-- What a sweep leaves of a record. -/
structure SameAddress (r r' : AotInstructionRecord) : Prop where
  guestAddress : r'.guestAddress = r.guestAddress
  boundary : r.bytes = [] → r' = r

/-- A swept record keeps its address, and its successors are its old ones or pending. -/
theorem sweepRecord_successors (input : PlannerInput) (record : AotInstructionRecord) (s : PlannerState) :
    SameAddress record (sweepRecord input record s).2.1 ∧
      ∀ t ∈ (sweepRecord input record s).2.1.successors,
        t ∈ record.successors ∨ t ∈ (sweepRecord input record s).2.2.pending := by
  rcases sweepRecord_cases input record s with ⟨targets, htargets, heq⟩ | ⟨guard, targets, hre, heq⟩
  · rw [heq]
    refine ⟨⟨rfl, ?_⟩, ?_⟩
    · intro hbytes
      rcases htargets with rfl | ⟨-, hne⟩
      · rfl
      · exact absurd hbytes hne
    · intro t ht
      rcases htargets with rfl | ⟨hkind, -⟩
      · exact Or.inl ht
      · -- the successors of these kinds do not look at the targets
        refine Or.inl ?_
        rcases hkind with hkind | hkind
        all_goals
          simp only [AotInstructionRecord.successors, hkind] at ht ⊢
          exact ht
  · rw [heq]
    refine ⟨⟨rfl, fun hbytes => absurd hbytes hre.bytes⟩, ?_⟩
    intro t ht
    exact Or.inr (List.mem_append_left _ (List.mem_reverse.mpr ht))

/-- What a sweep leaves of the state. -/
theorem extends_sweepRecord (input : PlannerInput) (record : AotInstructionRecord) (s : PlannerState) :
    (∀ a ∈ s.pending, a ∈ (sweepRecord input record s).2.2.pending) ∧
      (sweepRecord input record s).2.2.visitedBlocks = s.visitedBlocks ∧
      (sweepRecord input record s).2.2.visitedInstructions = s.visitedInstructions ∧
      (sweepRecord input record s).2.2.outsideImageTargetCount = s.outsideImageTargetCount ∧
      (sweepRecord input record s).2.2.decodeFailureCount = s.decodeFailureCount := by
  rcases sweepRecord_cases input record s with ⟨targets, -, heq⟩ | ⟨guard, targets, -, heq⟩
  · rw [heq]
    exact ⟨fun _ h => h, rfl, rfl, rfl, rfl⟩
  · rw [heq]
    exact ⟨fun _ h => List.mem_append_right _ h, rfl, rfl, rfl, rfl⟩

section
variable {before after : List AotBasicBlock} {entry : Word} {done todo : List AotInstructionRecord}
  {record record' : AotInstructionRecord} {s : PlannerState}

/-- Another record of the same address. -/
theorem addresses_withBlocks (s' : PlannerState) (h : record'.guestAddress = record.guestAddress) :
    (s'.withBlocks (before ++ ⟨entry, done ++ record' :: todo⟩ :: after)).addresses [] =
      (s.withBlocks (before ++ ⟨entry, done ++ record :: todo⟩ :: after)).addresses [] := by
  simp only [PlannerState.addresses, records_withBlocks, List.map_append, List.map_cons, h]

theorem mem_withBlocks {r : AotInstructionRecord} (s' : PlannerState)
    (h : r ∈ (s'.withBlocks (before ++ ⟨entry, done ++ record' :: todo⟩ :: after)).records) :
    r = record' ∨ r ∈ (s.withBlocks (before ++ ⟨entry, done ++ record :: todo⟩ :: after)).records := by
  rw [records_withBlocks] at h ⊢
  simp only [List.mem_append, List.mem_cons] at h ⊢
  tauto

/-- The records of a block with one of them replaced. -/
theorem getElem?_replaced {k : ℕ} {r : AotInstructionRecord}
    (h : (done ++ record' :: todo)[k]? = some r) :
    r = record' ∧ (done ++ record :: todo)[k]? = some record ∨
      (done ++ record :: todo)[k]? = some r := by
  by_cases hlt : k < done.length
  · rw [List.getElem?_append_left hlt] at h ⊢
    exact Or.inr h
  · rw [List.getElem?_append_right (Nat.le_of_not_lt hlt)] at h ⊢
    cases hk : k - done.length with
    | zero =>
      rw [hk] at h
      exact Or.inl ⟨(Option.some.inj h).symm, rfl⟩
    | succ n =>
      rw [hk] at h
      exact Or.inr h

theorem Closed.swept {input : PlannerInput}
    (h : Closed input (s.withBlocks (before ++ ⟨entry, done ++ record :: todo⟩ :: after))) :
    Closed input ((sweepRecord input record s).2.2.withBlocks
      (before ++ ⟨entry, done ++ (sweepRecord input record s).2.1 :: todo⟩ :: after)) := by
  obtain ⟨hsame, hsuccessors⟩ := sweepRecord_successors input record s
  have hstate := extends_sweepRecord input record s
  generalize (sweepRecord input record s).2.1 = record' at hsame hsuccessors ⊢
  generalize (sweepRecord input record s).2.2 = s' at hsuccessors hstate ⊢
  obtain ⟨hpending, hblocks, hinstructions, houtside, hundecodable⟩ := hstate
  have haddresses := @addresses_withBlocks before after entry done todo record record' s s'
    hsame.guestAddress
  have hx : Extends input (s.withBlocks (before ++ ⟨entry, done ++ record :: todo⟩ :: after))
      (s'.withBlocks (before ++ ⟨entry, done ++ record' :: todo⟩ :: after)) :=
    ⟨fun a ha => Or.inl (hpending a ha), fun a ha => hblocks ▸ ha, fun a ha => hinstructions ▸ ha,
      fun a ha => haddresses ▸ ha, houtside ▸ le_rfl, hundecodable ▸ le_rfl⟩
  have hrecord : record ∈
      (s.withBlocks (before ++ ⟨entry, done ++ record :: todo⟩ :: after)).records := by
    rw [records_withBlocks]
    simp
  refine ⟨⟨?_, ?_, ?_, ?_, ?_⟩, ?_⟩
  · intro a ha
    rw [haddresses]
    have ha : a ∈ s.visitedInstructions := hinstructions ▸ ha
    obtain ⟨hplain, hin | hout | hbad⟩ := h.1.instructions a ha
    · exact ⟨hplain, Or.inl hin⟩
    · exact ⟨hplain, Or.inr (Or.inl (hout.extends hx))⟩
    · exact ⟨hplain, Or.inr (Or.inr (hbad.extends hx))⟩
  · rw [haddresses]
    exact h.1.unique
  · intro r hr hplain
    rw [List.append_nil] at hr
    rcases @mem_withBlocks _ _ _ _ _ record _ s r s' hr with rfl | hr
    · rw [hsame.guestAddress] at hplain ⊢
      exact hx.instructions _ (h.1.visited record (by rwa [List.append_nil]) hplain)
    · exact hx.instructions _ (h.1.visited r (by rwa [List.append_nil]) hplain)
  · intro r hr hexcluded
    rw [List.append_nil] at hr
    rcases @mem_withBlocks _ _ _ _ _ record _ s r s' hr with rfl | hr
    · rw [hsame.guestAddress] at hexcluded ⊢
      have hboundary := h.1.boundary record (by rwa [List.append_nil]) hexcluded
      rw [hsame.boundary (by rw [hboundary]; rfl)]
      exact hboundary
    · exact h.1.boundary r (by rwa [List.append_nil]) hexcluded
  · intro b hb k r hk t ht
    have hold : ∀ {b : AotBasicBlock} {r : AotInstructionRecord},
        b ∈ before ++ ⟨entry, done ++ record :: todo⟩ :: after → b.instructions[k]? = some r →
        t ∈ r.successors → Covered input (s'.withBlocks
          (before ++ ⟨entry, done ++ record' :: todo⟩ :: after)) t ∨ k + 1 = kMaximumBlockInstructions :=
      fun hb hk ht => (h.1.successors _ hb k _ hk t ht).imp_left fun hc => hc.extends hx
    rcases List.mem_append.mp hb with hb | hb
    · exact hold (List.mem_append_left _ hb) hk ht
    rcases List.mem_cons.mp hb with rfl | hb
    · -- the swept block
      have hmem : (⟨entry, done ++ record :: todo⟩ : AotBasicBlock) ∈
          before ++ ⟨entry, done ++ record :: todo⟩ :: after := by simp
      rcases @getElem?_replaced done todo record record' k r hk with ⟨rfl, hrecord'⟩ | hr
      · rcases hsuccessors t ht with ht | ht
        · exact hold hmem hrecord' ht
        · exact Or.inl (Or.inl ht)
      · exact hold hmem hr ht
    · exact hold (List.mem_append_right _ (List.mem_cons_of_mem _ hb)) hk ht
  · intro a ha
    have ha : a ∈ s.visitedBlocks := hblocks ▸ ha
    exact (h.2 a ha).extends hx

end

/-! ## Plans -/

theorem closed_invariant (input : PlannerInput) : PlannerInvariant input (Closed input) (Walking input) where
  revisited := fun h hpending hvisited => h.revisited hpending hvisited
  excludedEntry := fun h _ hpending _ hexcluded => h.excludedEntry hpending hexcluded
  outsideEntry := fun h hpending _ _ hfind => h.outsideEntry hpending hfind
  entered := fun h _ hpending _ _ => h.entered hpending
  excluded := fun h hexcluded => h.excluded hexcluded
  visited := fun h hvisited => h.visited hvisited
  outside := fun h hplain _ hfind =>
    h.counted ((extends_visit _).trans extends_countOutside) rfl rfl rfl hplain
      (Or.inl ⟨hfind, Nat.succ_ne_zero _⟩)
  undecodable := fun h hplain _ _ hdecode =>
    h.counted ((extends_visit _).trans extends_countUndecodable) rfl rfl rfl hplain
      (Or.inr ⟨hdecode, Nat.succ_ne_zero _⟩)
  ended := fun h hplain hfresh _ hends => h.ended hplain hfresh hends
  wentOn := fun h hplain hfresh _ _ => h.wentOn hplain hfresh
  full := fun h => h.full
  swept := fun h => h.swept

theorem closed_start (input : PlannerInput) (entry : Word) : Closed input { pending := [entry] } := by
  refine ⟨⟨?_, List.nodup_nil, ?_, ?_, ?_⟩, ?_⟩
  · intro a ha
    cases ha
  · intro r hr
    cases hr
  · intro r hr
    cases hr
  · intro b hb
    cases hb
  · intro a ha
    cases ha

/-- `call eax` at `0x1000`. -/
def callSource : RelocatedRuntimeImage :=
  { valid := true
    objects :=
      [{ relocatedBaseAddress := 0x1000
         virtualSize := 32
         flags := 0
         bytes := [0xFF, 0xD0] ++ List.replicate 30 0x90 }]
    codeModeRanges := [] }

end Repiu.Runtime
