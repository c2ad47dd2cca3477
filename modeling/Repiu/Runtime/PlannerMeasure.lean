import Repiu.Runtime.PlannerTermination
import Mathlib.Data.Prod.Lex
import Mathlib.Logic.Relation

/-!
# The planner's measure

The planner ends also without its limits.  A turn of its loops gains a guard or a jump
table, of which there are finitely many; or else it visits a new block entry; or else it
has fewer entries pending.  The walk of a block ends because it visits no address twice.
-/

namespace Repiu.Runtime

open Repiu.X86

/-! ## Turns -/

/-- One turn of the planner's loops: a pending entry is visited, with any limit on the length of its
block, or a sweep changes something.  No turn looks at the instruction limit. -/
inductive Turn (input : PlannerInput) : PlannerState → PlannerState → Prop
  | visit {s : PlannerState} {entry : Word} {rest : List Word} (limit : ℕ)
      (hpending : s.pending = entry :: rest) :
      Turn input s (visitBlockUpTo input limit entry { s with pending := rest })
  | sweep {s : PlannerState} (hchanged : (sweepBlocks input s.blocks s).1 = true) :
      Turn input s (sweep input s)

/-- The states that turns lead to from an entry point. -/
def Reached (input : PlannerInput) (entry : Word) (s : PlannerState) : Prop :=
  Relation.ReflTransGen (Turn input) { pending := [entry] } s

/-- The records made of instructions of the image: all but the excluded boundaries. -/
def ofImage (r : AotInstructionRecord) : Bool := r.kind = .kJumpTable ∨ r.bytes ≠ []

/-- No address is visited twice, and each record made of an instruction has an address of its own. -/
structure Unrepeated (s : PlannerState) (block : List AotInstructionRecord) : Prop where
  instructions : s.visitedInstructions.Nodup
  decoded : (s.records ++ block).countP ofImage ≤ s.visitedInstructions.length

namespace Unrepeated

variable {input : PlannerInput} {s : PlannerState} {block : List AotInstructionRecord} {address : Word}

theorem close (h : Unrepeated s block) (entry : Word) : Unrepeated (s.close entry block) [] := by
  refine ⟨h.instructions, ?_⟩
  rw [records_close, List.append_nil]
  exact h.decoded

theorem snoc_excluded (h : Unrepeated s block) (address : Word) :
    Unrepeated s.countExcluded (block ++ [excludedBoundary address]) := by
  refine ⟨h.instructions, ?_⟩
  have hnone : [excludedBoundary address].countP ofImage = 0 := rfl
  show (s.records ++ (block ++ [excludedBoundary address])).countP ofImage ≤ _
  rw [← List.append_assoc, List.countP_append, hnone]
  exact h.decoded

theorem visit (h : Unrepeated s block) (hfresh : address ∉ s.visitedInstructions) :
    Unrepeated (s.visit address) block :=
  ⟨List.nodup_cons.mpr ⟨hfresh, h.instructions⟩, h.decoded.trans (Nat.le_succ _)⟩

theorem absorb (h : Unrepeated s block) (hfresh : address ∉ s.visitedInstructions) (c : Classified) :
    Unrepeated ((s.visit address).absorb c) (block ++ [c.record]) := by
  refine ⟨(h.visit hfresh).instructions, ?_⟩
  have hone : [c.record].countP ofImage ≤ 1 := List.countP_le_length
  show (s.records ++ (block ++ [c.record])).countP ofImage ≤ s.visitedInstructions.length + 1
  rw [← List.append_assoc, List.countP_append]
  exact Nat.add_le_add h.decoded hone

end Unrepeated

theorem unrepeated_invariant (input : PlannerInput) :
    PlannerInvariant input (fun s => Unrepeated s []) (fun _ _ _ s block => Unrepeated s block) where
  revisited := fun h _ _ => ⟨h.instructions, h.decoded⟩
  excludedEntry := by
    intro s entry rest h _ _ _ _
    have htaken : Unrepeated (s.take entry rest) [] := ⟨h.instructions, h.decoded⟩
    exact (htaken.snoc_excluded entry).close entry
  outsideEntry := fun h _ _ _ _ => ⟨h.instructions, h.decoded⟩
  entered := fun h _ _ _ _ => ⟨h.instructions, h.decoded⟩
  excluded := fun h _ => (h.snoc_excluded _).close _
  visited := fun h _ => h.close _
  outside := by
    intro fuel entry address s block h _ hfresh _
    have hvisited := h.visit hfresh
    have hcounted : Unrepeated (s.visit address).countOutside block :=
      ⟨hvisited.instructions, hvisited.decoded⟩
    exact hcounted.close entry
  undecodable := by
    intro fuel entry address s block h _ hfresh _ _
    have hvisited := h.visit hfresh
    have hcounted : Unrepeated (s.visit address).countUndecodable block :=
      ⟨hvisited.instructions, hvisited.decoded⟩
    exact hcounted.close entry
  ended := fun h _ hfresh _ _ => (h.absorb hfresh _).close _
  wentOn := fun h _ hfresh _ _ => h.absorb hfresh _
  full := fun h => h.close _
  swept := by
    intro s before after entry done todo record h
    have hsame : ofImage (sweepRecord input record s).2.1 = ofImage record := by
      rcases sweepRecord_cases input record s with ⟨targets, -, heq⟩ | ⟨guard, targets, hre, heq⟩
      · rw [heq]
        rfl
      · -- only a record with bytes becomes a jump table
        rw [heq]
        simp [ofImage, hre.bytes]
    constructor
    · show (sweepRecord input record s).2.2.visitedInstructions.Nodup
      rw [(sweepRecord_visits input record s).2.1]
      exact h.instructions
    · show _ ≤ (sweepRecord input record s).2.2.visitedInstructions.length
      rw [(sweepRecord_visits input record s).2.1]
      have hdecoded := h.decoded
      rw [List.append_nil, records_withBlocks] at hdecoded ⊢
      simp only [List.countP_append, List.countP_cons, hsame] at hdecoded ⊢
      exact hdecoded

/-! ## Turns keep the invariants -/

section
variable {input : PlannerInput}

/-- An invariant of the planner that does not look at its limits survives a visit without them. -/
theorem PlannerInvariant.visitBlockUpTo {Q : PlannerState → Prop}
    {W : PlannerState → List AotInstructionRecord → Prop}
    (h : PlannerInvariant input Q fun _ _ _ s block => W s block)
    (hentered : ∀ {s : PlannerState} {entry : Word} {rest : List Word}, Q s → entry ∉ s.visitedBlocks →
      W (s.take entry rest) [])
    (limit : ℕ) {s : PlannerState} {entry : Word} {rest : List Word} (hq : Q s)
    (hpending : s.pending = entry :: rest) :
    Q (visitBlockUpTo input limit entry { s with pending := rest }) := by
  unfold Runtime.visitBlockUpTo
  by_cases hvisited : entry ∈ s.visitedBlocks
  · rw [if_pos hvisited]
    exact h.revisited hq hpending hvisited
  rw [if_neg hvisited]
  dsimp only
  have htaken : W (s.take entry rest) [] := hentered hq hvisited
  by_cases hexcluded : isExcludedGuestAddress input.excludedRanges entry = true
  · rw [if_pos hexcluded]
    exact @PlannerInvariant.excluded _ _ _ h 0 _ _ _ _ htaken hexcluded
  rw [if_neg hexcluded]
  rw [Bool.not_eq_true] at hexcluded
  cases hfind : findBytes input.image entry 1 with
  | none => exact h.outsideEntry hq hpending hvisited hexcluded hfind
  | some _ =>
    have hwalked : Q ((Runtime.walkBlock input limit entry (s.take entry rest) []).1.close entry
        (Runtime.walkBlock input limit entry (s.take entry rest) []).2) := h.walkBlock htaken
    exact hwalked

/-- What every reached state keeps. -/
structure Finite (s : PlannerState) : Prop where
  bounded : Bounded 0 0 s []
  unrepeated : Unrepeated s []

theorem Bounded.visitBlockUpTo {g j limit : ℕ} {s : PlannerState} {entry : Word} {rest : List Word}
    (h : Bounded g j s []) (hpending : s.pending = entry :: rest) :
    Bounded g j (visitBlockUpTo input limit entry { s with pending := rest }) [] :=
  (bounded_invariant input g j).visitBlockUpTo (fun hq hfresh => hq.take _ hfresh) limit h hpending

theorem Turn.finite {s s' : PlannerState} (h : Turn input s s') (hs : Finite s) : Finite s' := by
  cases h with
  | visit limit hpending =>
    refine ⟨hs.bounded.visitBlockUpTo hpending, ?_⟩
    apply (unrepeated_invariant input).visitBlockUpTo _ limit hs.unrepeated hpending
    intro s entry rest h _
    exact ⟨h.instructions, h.decoded⟩
  | sweep _ =>
    constructor
    · exact (bounded_invariant input 0 0).sweepBlocks [] s.blocks hs.bounded
    · exact (unrepeated_invariant input).sweepBlocks [] s.blocks hs.unrepeated

theorem Reached.finite {entry : Word} {s : PlannerState} (h : Reached input entry s) : Finite s := by
  induction h with
  | refl =>
    exact ⟨⟨List.nodup_nil, List.nodup_nil, rfl, le_rfl, le_rfl⟩, List.nodup_nil, le_rfl⟩
  | tail _ hturn ih => exact hturn.finite ih

/-! ## The measure -/

/-- The guards and jump tables that may still be found: at most one of each for an address. -/
def undiscovered (s : PlannerState) : ℕ := 2 ^ 33 - potential s

/-- The addresses that no block was entered at. -/
def unentered (s : PlannerState) : ℕ := 2 ^ 32 - s.visitedBlocks.length

/-- What every turn decreases, in this order of importance. -/
def turnMeasure (s : PlannerState) : ℕ ×ₗ ℕ ×ₗ ℕ :=
  toLex (undiscovered s, toLex (unentered s, s.pending.length))

theorem Finite.potential_le {s : PlannerState} (h : Finite s) : potential s ≤ 2 ^ 33 := by
  have hguards := length_le_of_nodup h.bounded.keys
  have hvisited := length_le_of_nodup h.unrepeated.instructions
  have htables : jumpTables s.records ≤ (s.records ++ []).countP ofImage := by
    rw [List.append_nil]
    apply List.countP_mono_left
    intro r _ hr
    simp only [ofImage, of_decide_eq_true hr, true_or, decide_true]
  have hdecoded := h.unrepeated.decoded
  rw [List.length_map] at hguards
  unfold potential
  omega

/-- A visit loses no guard and no jump table. -/
theorem potential_visitBlockUpTo {s : PlannerState} {entry : Word} {rest : List Word} (limit : ℕ)
    (hs : Finite s) (hpending : s.pending = entry :: rest) :
    potential s ≤ potential (visitBlockUpTo input limit entry { s with pending := rest }) := by
  have hstart : Bounded s.guards.length (jumpTables s.records) s [] :=
    ⟨hs.bounded.entries, hs.bounded.keys, hs.bounded.count, le_rfl, le_rfl⟩
  have hend : Bounded s.guards.length (jumpTables s.records)
      (visitBlockUpTo input limit entry { s with pending := rest }) [] := hstart.visitBlockUpTo hpending
  exact Nat.add_le_add hend.guards hend.tables

/-- Every turn of a reached state decreases the measure. -/
theorem Turn.measure_lt {s s' : PlannerState} (h : Turn input s s') (hs : Finite s) :
    turnMeasure s' < turnMeasure s := by
  have hroom := (h.finite hs).potential_le
  have hentries := length_le_of_nodup (h.finite hs).bounded.entries
  cases h with
  | sweep hchanged =>
    -- a sweep that changes something finds a guard or a table
    have hgained := sweep_potential hchanged
    apply Prod.Lex.toLex_lt_toLex.mpr
    left
    show 2 ^ 33 - _ < 2 ^ 33 - _
    omega
  | @visit entry rest limit hpending =>
    have hkept : potential s ≤ potential (visitBlockUpTo input limit entry { s with pending := rest }) :=
      potential_visitBlockUpTo limit hs hpending
    have hless : undiscovered (visitBlockUpTo input limit entry { s with pending := rest }) ≤
        undiscovered s := Nat.sub_le_sub_left hkept _
    apply Prod.Lex.toLex_lt_toLex.mpr
    rcases hless.lt_or_eq with hless | hsame
    · exact Or.inl hless
    refine Or.inr ⟨hsame, Prod.Lex.toLex_lt_toLex.mpr ?_⟩
    rcases @visitBlockUpTo_measure input limit entry { s with pending := rest } with
      ⟨-, heq⟩ | ⟨-, heq⟩
    · right
      rw [heq]
      refine ⟨rfl, ?_⟩
      show rest.length < s.pending.length
      rw [hpending]
      exact Nat.lt_succ_self _
    · left
      rw [heq, List.length_cons] at hentries
      show 2 ^ 32 - _ < 2 ^ 32 - s.visitedBlocks.length
      rw [heq, List.length_cons]
      have hentries : s.visitedBlocks.length + 1 ≤ 2 ^ 32 := hentries
      show 2 ^ 32 - (s.visitedBlocks.length + 1) < _
      omega

/-- No run of turns goes on forever. -/
theorem Finite.acc {s : PlannerState} (hs : Finite s) : Acc (fun s' s => Turn input s s') s := by
  generalize hmeasure : turnMeasure s = m
  induction m using WellFoundedLT.induction generalizing s with
  | ind m ih =>
    constructor
    intro s' hturn
    have hless := hturn.measure_lt hs
    rw [hmeasure] at hless
    exact ih _ hless (hturn.finite hs) rfl

/-! ## The walk of a block -/

/-- The walk of a block ends by itself: past the number of addresses not yet visited, a larger limit
makes no difference. -/
theorem walkBlock_limit {n : ℕ} {address : Word} {s : PlannerState} {block : List AotInstructionRecord}
    (hvisited : s.visitedInstructions.Nodup) (hn : 2 ^ 32 < n + s.visitedInstructions.length) :
    walkBlock input (n + 1) address s block = walkBlock input n address s block := by
  induction n generalizing address s block with
  | zero =>
    have := length_le_of_nodup hvisited
    omega
  | succ n ih =>
    rw [walkBlock_succ input (n + 1), walkBlock_succ input n]
    by_cases hexcluded : isExcludedGuestAddress input.excludedRanges address = true
    · rw [if_pos hexcluded, if_pos hexcluded]
    by_cases hfresh : address ∈ s.visitedInstructions
    · rw [if_neg hexcluded, if_neg hexcluded, if_pos hfresh, if_pos hfresh]
    rw [if_neg hexcluded, if_neg hexcluded, if_neg hfresh, if_neg hfresh]
    cases findBytes input.image address maxInstructionLength with
    | none => rfl
    | some _ =>
      cases decodeAt input address with
      | none => rfl
      | some decoded =>
        obtain ⟨i, bytes⟩ := decoded
        dsimp only
        by_cases hon : (classifyAt input s.guards block address i bytes).goesOn = true
        · rw [if_pos hon, if_pos hon]
          -- one address fewer is left for the rest of the block
          apply ih
          · exact List.nodup_cons.mpr ⟨hfresh, hvisited⟩
          · show 2 ^ 32 < n + (s.visitedInstructions.length + 1)
            omega
        · rw [if_neg hon, if_neg hon]

/-! ## The planner's loops -/

/-- The pending loop takes turns. -/
theorem drainPending_turns {fuel : ℕ} {s s' : PlannerState} (h : drainPending input fuel s = some s') :
    Relation.ReflTransGen (Turn input) s s' := by
  induction fuel generalizing s with
  | zero =>
    rcases drainPending_cases h with ⟨rfl, -⟩ | ⟨n, _, _, hn, _⟩
    · exact .refl
    · cases hn
  | succ fuel ih =>
    rcases drainPending_cases h with ⟨rfl, -⟩ | ⟨n, entry, rest, hn, hpending, -, hrest⟩
    · exact .refl
    · cases hn
      rw [visitBlock_eq] at hrest
      exact .head (.visit kMaximumBlockInstructions hpending) (ih hrest)

/-- The outer loop takes turns, but for a last sweep that changes nothing. -/
theorem planLoop_turns {fuel : ℕ} {s s' : PlannerState} (h : planLoop input fuel s = some s') :
    ∃ t, Relation.ReflTransGen (Turn input) s t ∧ (s' = t ∨ s' = sweep input t) := by
  induction fuel generalizing s with
  | zero => cases h
  | succ fuel ih =>
    obtain ⟨n, t, hn, hdrain, hcases⟩ := planLoop_cases h
    cases hn
    have hturns := drainPending_turns hdrain
    rcases hcases with ⟨-, rfl⟩ | ⟨-, -, rfl⟩ | ⟨-, hchanged, hrest⟩
    · exact ⟨_, hturns, Or.inl rfl⟩
    · exact ⟨t, hturns, Or.inr rfl⟩
    · obtain ⟨u, hmore, hend⟩ := ih hrest
      exact ⟨u, (hturns.tail (.sweep hchanged)).trans hmore, hend⟩

end

/-- The planner ends.  What its loops do from an entry point are turns; every turn decreases the
measure, so that none of their runs goes on forever, whatever the limits; and so does the walk of a
block.  With the limits it has, the planner returns a plan. -/
theorem planner_terminates (table : Table) (image : RelocatedRuntimeImage) (entry : Word)
    (excluded : List AotExcludedGuestRange) :
    let input : PlannerInput := ⟨table, image, excluded, planCodeModeRanges image⟩
    (∀ fuel s, planLoop input fuel { pending := [entry] } = some s →
      ∃ t, Reached input entry t ∧ (s = t ∨ s = sweep input t)) ∧
    (∀ s s', Reached input entry s → Turn input s s' → turnMeasure s' < turnMeasure s) ∧
    (∀ s, Reached input entry s → Acc (fun s' s => Turn input s s') s) ∧
    (∀ s, Reached input entry s → ∀ address block n, 2 ^ 32 < n + s.visitedInstructions.length →
      walkBlock input (n + 1) address s block = walkBlock input n address s block) ∧
    ∃ fuel plan, ∀ m, fuel ≤ m →
      buildAotTranslationPlanFromEntry table m image entry excluded = some plan := by
  intro input
  refine ⟨fun _ _ h => planLoop_turns h, ?_, ?_, ?_, ?_⟩
  · intro s s' hs hturn
    exact hturn.measure_lt hs.finite
  · intro s hs
    exact hs.finite.acc
  · intro s hs address block n hn
    exact walkBlock_limit hs.finite.unrepeated.instructions hn
  · exact buildAotTranslationPlanFromEntry_total table image entry excluded

end Repiu.Runtime
