import Repiu.Runtime.PlannerRuns

/-!
# The planner ends

The pending loop visits each address once as a block entry.  A sweep that makes the
outer loop start over has found a guard or recovered a jump table, and there are
finitely many of both below the instruction limit.
-/

namespace Repiu.Runtime

open Repiu.X86

/-! ## Guards -/

/-- The guards only grow, at addresses that had none. -/
structure GuardsGrow (guards guards' : Guards) : Prop where
  length : guards.length ≤ guards'.length
  nodup : (guards.map Prod.fst).Nodup → (guards'.map Prod.fst).Nodup

theorem GuardsGrow.refl (guards : Guards) : GuardsGrow guards guards := ⟨le_rfl, fun h => h⟩

theorem GuardsGrow.trans {a b c : Guards} (h : GuardsGrow a b) (h' : GuardsGrow b c) : GuardsGrow a c :=
  ⟨h.length.trans h'.length, fun hn => h'.nodup (h.nodup hn)⟩

theorem Guards.find_eq_none {guards : Guards} {address : Word} :
    guards.find address = none ↔ address ∉ guards.map Prod.fst := by
  unfold Guards.find
  rw [Option.map_eq_none_iff, List.find?_eq_none]
  simp only [List.mem_map, not_exists, not_and, decide_eq_true_eq]

theorem guardsGrow_emplace (guards : Guards) (address : Word) (g : JumpTableGuard) :
    GuardsGrow guards (guards.emplace address g).2 := by
  unfold Guards.emplace
  cases hfind : guards.find address with
  | some _ => exact GuardsGrow.refl guards
  | none =>
    refine ⟨by simp, fun hnodup => ?_⟩
    have hfresh := Guards.find_eq_none.mp hfind
    simp only [Option.isSome_none, Bool.false_eq_true, if_false, List.map_append, List.map_singleton]
    rw [List.nodup_append]
    refine ⟨hnodup, List.nodup_singleton _, ?_⟩
    intro a ha b hb heq
    rw [List.mem_singleton.mp hb] at heq
    exact hfresh (heq ▸ ha)

theorem emplace_length {guards : Guards} {address : Word} {g : JumpTableGuard}
    (h : (guards.emplace address g).1 = true) :
    guards.length < (guards.emplace address g).2.length := by
  unfold Guards.emplace at h ⊢
  cases hfind : guards.find address with
  | some _ =>
    rw [hfind] at h
    cases h
  | none => simp

theorem readGuardRegisterId_eq_some {r : Register} {id : ℕ} (h : readGuardRegisterId r = some id) :
    r = .gpr32 id := by
  unfold readGuardRegisterId at h
  split at h
  · split at h
    · rw [Option.some.inj h]
    · cases h
  · cases h

theorem readLowByteParentRegisterId_eq_some {r : Register} {id : ℕ}
    (h : readLowByteParentRegisterId r = some id) : r = .gpr8 id ∧ id ≤ 3 := by
  unfold readLowByteParentRegisterId at h
  split at h
  · split at h
    · rename_i hle
      rw [Option.some.inj h] at hle ⊢
      exact ⟨rfl, hle⟩
    · cases h
  · cases h

/-- The instructions that turn a guarded low byte into an index: `and r32, 0xFF`, `movzx r32, r8`,
and `xor r32, r32` (or `sub`) with `mov r8, r8` behind it. -/
inductive Normalizes (i : Instruction) (g : JumpTableGuard) : JumpTableGuard → Prop
  | mask {dst src : Operand} {signed relative : Bool} (hmnemonic : i.mnemonic = .and)
      (hvisible : i.visible = [dst, src]) (hdst : dst.kind = .register (.gpr32 g.indexRegister))
      (hsrc : src.kind = .immediate signed relative 0xFF) :
      Normalizes i g { g with requiresLowByteNormalization := false, zeroedRegister := 0xFF }
  | extend {dst src : Operand} {d : ℕ} (hmnemonic : i.mnemonic = .movzx)
      (hvisible : i.visible = [dst, src]) (hdst : dst.kind = .register (.gpr32 d))
      (hsrc : src.kind = .register (.gpr8 g.indexRegister)) (hlow : g.indexRegister ≤ 3) :
      Normalizes i g
        { g with requiresLowByteNormalization := false, indexRegister := d, zeroedRegister := 0xFF }
  | clear {dst src : Operand} {d : ℕ} (hmnemonic : i.mnemonic = .xor ∨ i.mnemonic = .sub)
      (hvisible : i.visible = [dst, src]) (hdst : dst.kind = .register (.gpr32 d))
      (hsrc : src.kind = .register (.gpr32 d)) (hother : d ≠ g.indexRegister) :
      Normalizes i g { g with zeroedRegister := d }
  | move {dst src : Operand} (hmnemonic : i.mnemonic = .mov) (hvisible : i.visible = [dst, src])
      (hzeroed : g.zeroedRegister ≠ 0xFF) (hdst : dst.kind = .register (.gpr8 g.zeroedRegister))
      (hsrc : src.kind = .register (.gpr8 g.indexRegister)) (hlow : g.zeroedRegister ≤ 3 ∧ g.indexRegister ≤ 3) :
      Normalizes i g
        { g with
          requiresLowByteNormalization := false, indexRegister := g.zeroedRegister,
          zeroedRegister := 0xFF }

theorem matchLowByteJumpTableNormalization_eq_true {i : Instruction} {expected : ℕ}
    (h : matchLowByteJumpTableNormalization i expected = true) :
    ∃ dst src signed relative, i.mnemonic = .and ∧ i.visible = [dst, src] ∧
      dst.kind = .register (.gpr32 expected) ∧ src.kind = .immediate signed relative 0xFF := by
  unfold matchLowByteJumpTableNormalization at h
  split at h
  · rename_i dst src hmnemonic hvisible
    split at h
    · rename_i r signed relative mask hdst hsrc
      obtain ⟨hregister, rfl⟩ := of_decide_eq_true h
      rw [readGuardRegisterId_eq_some hregister] at hdst
      exact ⟨dst, src, signed, relative, hmnemonic, hvisible, hdst, hsrc⟩
    · cases h
  · cases h

/-- A propagation leaves the guards, or adds one behind an instruction that normalizes. -/
theorem propagateLowByteJumpTableGuard_cases (i : Instruction) (next : Word) (guard : JumpTableGuard)
    (guards : Guards) :
    propagateLowByteJumpTableGuard i next guard guards = (false, guards) ∨
      ∃ g, Normalizes i guard g ∧
        propagateLowByteJumpTableGuard i next guard guards = guards.emplace next g := by
  unfold propagateLowByteJumpTableGuard
  split
  · exact Or.inl rfl
  split
  · rename_i hmask
    obtain ⟨dst, src, signed, relative, hmnemonic, hvisible, hdst, hsrc⟩ :=
      matchLowByteJumpTableNormalization_eq_true hmask
    exact Or.inr ⟨_, .mask hmnemonic hvisible hdst hsrc, rfl⟩
  split
  · rename_i dst src hvisible
    split
    · rename_i d s hdst hsrc
      split
      · rename_i hmnemonic
        split
        · rename_i destination sourceParent hd hs
          split
          · exact Or.inl rfl
          · rename_i hsource
            rw [not_not] at hsource
            subst hsource
            obtain ⟨rfl, hlow⟩ := readLowByteParentRegisterId_eq_some hs
            rw [readGuardRegisterId_eq_some hd] at hdst
            exact Or.inr ⟨_, .extend hmnemonic hvisible hdst hsrc hlow, rfl⟩
        · exact Or.inl rfl
      · rename_i hmnemonic
        split
        · rename_i destination source hd hs
          split
          · exact Or.inl rfl
          · rename_i hregisters
            rw [not_or, not_not] at hregisters
            obtain ⟨rfl, hother⟩ := hregisters
            rw [readGuardRegisterId_eq_some hd] at hdst
            rw [readGuardRegisterId_eq_some hs] at hsrc
            exact Or.inr ⟨_, .clear (Or.inl hmnemonic) hvisible hdst hsrc hother, rfl⟩
        · exact Or.inl rfl
      · rename_i hmnemonic
        split
        · rename_i destination source hd hs
          split
          · exact Or.inl rfl
          · rename_i hregisters
            rw [not_or, not_not] at hregisters
            obtain ⟨rfl, hother⟩ := hregisters
            rw [readGuardRegisterId_eq_some hd] at hdst
            rw [readGuardRegisterId_eq_some hs] at hsrc
            exact Or.inr ⟨_, .clear (Or.inr hmnemonic) hvisible hdst hsrc hother, rfl⟩
        · exact Or.inl rfl
      · rename_i hmnemonic
        split
        · exact Or.inl rfl
        · rename_i hzeroed
          split
          · rename_i destinationParent sourceParent hd hs
            split
            · exact Or.inl rfl
            · rename_i hparents
              rw [not_or, not_not, not_not] at hparents
              obtain ⟨rfl, rfl⟩ := hparents
              obtain ⟨rfl, hlowd⟩ := readLowByteParentRegisterId_eq_some hd
              obtain ⟨rfl, hlows⟩ := readLowByteParentRegisterId_eq_some hs
              exact Or.inr ⟨_, .move hmnemonic hvisible hzeroed hdst hsrc ⟨hlowd, hlows⟩, rfl⟩
          · exact Or.inl rfl
      · exact Or.inl rfl
    · exact Or.inl rfl
  · exact Or.inl rfl

theorem guardsGrow_propagate (i : Instruction) (next : Word) (guard : JumpTableGuard) (guards : Guards) :
    GuardsGrow guards (propagateLowByteJumpTableGuard i next guard guards).2 := by
  rcases propagateLowByteJumpTableGuard_cases i next guard guards with heq | ⟨g, -, heq⟩
  · rw [heq]
    exact GuardsGrow.refl guards
  · rw [heq]
    exact guardsGrow_emplace guards next g

section
variable (input : PlannerInput) (guards : Guards) (block : List AotInstructionRecord) (i : Instruction)
  (codeMode : GuestCodeDefaultOperandSize) (record : AotInstructionRecord)

theorem guardsGrow_classifyBranch :
    GuardsGrow guards (classifyBranch input guards block i codeMode record).guards := by
  unfold classifyBranch
  dsimp only
  repeat' first
    | exact GuardsGrow.refl guards
    | exact guardsGrow_emplace guards _ _
    | split

theorem guardsGrow_classifyPlain :
    GuardsGrow guards (classifyPlain input guards block i codeMode record).guards := by
  unfold classifyPlain
  dsimp only
  repeat' first
    | exact GuardsGrow.refl guards
    | exact guardsGrow_classifyBranch input guards block i codeMode record
    | split

theorem guardsGrow_classifyInstruction :
    GuardsGrow guards (classifyInstruction input guards block i codeMode record).guards := by
  unfold classifyInstruction
  split
  · exact guardsGrow_classifyPlain input guards block i codeMode record
  split
  · exact (guardsGrow_propagate i _ _ guards).trans
      (guardsGrow_classifyPlain input _ block i codeMode record)
  split
  · exact guardsGrow_classifyPlain input guards block i codeMode record
  split
  · exact guardsGrow_classifyPlain input guards block i codeMode record
  · dsimp only
    split
    · exact GuardsGrow.refl guards
    · exact guardsGrow_classifyPlain input guards block i codeMode _

end

/-- A sweep's propagation: the guards stay, or one is added and the sweep says so. -/
theorem sweptGuards_cases (input : PlannerInput) (record : AotInstructionRecord) (guards : Guards) :
    GuardsGrow guards (sweptGuards input record guards) ∧
      ((tryPropagateLowByteJumpTableGuard input.table
        (decoderMode record.guestCodeDefaultOperandSize) guards record).1 = true →
        guards.length < (sweptGuards input record guards).length) := by
  unfold sweptGuards tryPropagateLowByteJumpTableGuard
  have hsame : GuardsGrow guards (false, guards).2 ∧
      ((false, guards).1 = true → guards.length < (false, guards).2.length) :=
    ⟨GuardsGrow.refl guards, fun h => absurd h Bool.false_ne_true⟩
  split
  · exact hsame
  split
  · exact hsame
  split
  · exact hsame
  split
  · exact hsame
  · refine ⟨guardsGrow_propagate _ _ _ guards, ?_⟩
    rename_i i _
    intro hadded
    rcases propagateLowByteJumpTableGuard_cases i record.next _ guards with heq | ⟨g, -, heq⟩
    · rw [heq] at hadded
      cases hadded
    · rw [heq] at hadded ⊢
      exact emplace_length hadded

/-! ## Bounds -/

/-- The jump tables among some records. -/
def jumpTables (records : List AotInstructionRecord) : ℕ :=
  records.countP fun r => r.kind = .kJumpTable

/-- What bounds a run: entries and guards at different addresses, one count for each record, and
no fewer guards and jump tables than at its start. -/
structure Bounded (guards tables : ℕ) (s : PlannerState) (block : List AotInstructionRecord) : Prop where
  entries : s.visitedBlocks.Nodup
  keys : (s.guards.map Prod.fst).Nodup
  count : s.records.length + block.length = s.instructionCount
  guards : guards ≤ s.guards.length
  tables : tables ≤ jumpTables s.records

section
variable {input : PlannerInput} {g j : ℕ} {s : PlannerState} {block : List AotInstructionRecord}

theorem Bounded.close (h : Bounded g j s block) (entry : Word) : Bounded g j (s.close entry block) [] where
  entries := h.entries
  keys := h.keys
  count := by
    rw [records_close, List.length_append, List.length_nil, Nat.add_zero]
    exact h.count
  guards := h.guards
  tables := by
    rw [records_close, jumpTables, List.countP_append]
    exact h.tables.trans (Nat.le_add_right _ _)

theorem Bounded.take (h : Bounded g j s []) {entry : Word} (rest : List Word)
    (hfresh : entry ∉ s.visitedBlocks) : Bounded g j (s.take entry rest) [] where
  entries := List.nodup_cons.mpr ⟨hfresh, h.entries⟩
  keys := h.keys
  count := h.count
  guards := h.guards
  tables := h.tables

theorem Bounded.snoc_excluded (h : Bounded g j s block) (r : AotInstructionRecord) :
    Bounded g j s.countExcluded (block ++ [r]) where
  entries := h.entries
  keys := h.keys
  count := by
    have := h.count
    rw [List.length_append, List.length_singleton]
    show s.records.length + (block.length + 1) = s.instructionCount + 1
    omega
  guards := h.guards
  tables := h.tables

theorem Bounded.absorb (h : Bounded g j s block) {c : Classified} (address : Word)
    (hgrow : GuardsGrow s.guards c.guards) :
    Bounded g j ((s.visit address).absorb c) (block ++ [c.record]) where
  entries := h.entries
  keys := hgrow.nodup h.keys
  count := by
    have := h.count
    rw [List.length_append, List.length_singleton]
    show s.records.length + (block.length + 1) = s.instructionCount + 1
    omega
  guards := h.guards.trans hgrow.length
  tables := h.tables

/-- The guards and jump tables of a state. -/
def potential (s : PlannerState) : ℕ := s.guards.length + jumpTables s.records

section
variable {before after : List AotBasicBlock} {entry : Word} {done todo : List AotInstructionRecord}
  {record : AotInstructionRecord}

/-- One record of a sweep: no guard or jump table is lost, and one is gained where the sweep says
that something changed. -/
theorem sweepRecord_grows :
    let swept := (sweepRecord input record s).2.2.withBlocks
      (before ++ ⟨entry, done ++ (sweepRecord input record s).2.1 :: todo⟩ :: after)
    let unswept := s.withBlocks (before ++ ⟨entry, done ++ record :: todo⟩ :: after)
    GuardsGrow unswept.guards swept.guards ∧ jumpTables unswept.records ≤ jumpTables swept.records ∧
      ((sweepRecord input record s).1 = true → potential unswept < potential swept) := by
  intro swept unswept
  have hguards := sweptGuards_cases input record s.guards
  rcases sweepRecord_cases input record s with ⟨targets, -, heq⟩ | ⟨guard, targets, hre, heq⟩
  · -- the record keeps its kind
    have hswept : swept = PlannerState.withBlocks { s with guards := sweptGuards input record s.guards }
        (before ++ ⟨entry, done ++ { record with tableTargets := targets } :: todo⟩ :: after) := by
      show (sweepRecord input record s).2.2.withBlocks _ = _
      rw [heq]
    have hsame : jumpTables swept.records = jumpTables unswept.records := by
      rw [hswept, records_withBlocks, records_withBlocks]
      simp only [jumpTables, List.countP_append, List.countP_cons]
    have hlength : swept.guards = sweptGuards input record s.guards := by rw [hswept]; rfl
    refine ⟨by rw [hlength]; exact hguards.1, hsame.ge, fun hchanged => ?_⟩
    have hpropagated : (sweepRecord input record s).1 = (tryPropagateLowByteJumpTableGuard input.table
        (decoderMode record.guestCodeDefaultOperandSize) s.guards record).1 := by
      rw [heq]
    rw [hpropagated] at hchanged
    have := hguards.2 hchanged
    show s.guards.length + _ < _
    rw [potential, hsame, hlength]
    exact Nat.add_lt_add_right this _
  · have hswept : swept = PlannerState.withBlocks { s with
          toPlanCounters := s.toPlanCounters.reclassify record.kind targets
          guards := sweptGuards input record s.guards
          hleBoundaryCount := s.hleBoundaryCount - (decide (record.kind = .kHleBoundary)).toNat
          pending := targets.reverse ++ s.pending }
        (before ++ ⟨entry, done ++ { record with
          tableTargets := targets, tableIndexRegister := guard.indexRegister, kind := .kJumpTable } ::
            todo⟩ :: after) := by
      show (sweepRecord input record s).2.2.withBlocks _ = _
      rw [heq]
    have hkind : record.kind ≠ .kJumpTable := by
      rcases hre.kind with h | h <;> rw [h] <;> decide
    have hmore : jumpTables swept.records = jumpTables unswept.records + 1 := by
      rw [hswept, records_withBlocks, records_withBlocks]
      simp only [jumpTables, List.countP_append, List.countP_cons, hkind, decide_true, decide_false,
        if_true, Bool.false_eq_true, if_false]
      omega
    have hlength : swept.guards = sweptGuards input record s.guards := by rw [hswept]; rfl
    refine ⟨by rw [hlength]; exact hguards.1, by omega, fun _ => ?_⟩
    have := hguards.1.length
    show s.guards.length + _ < _
    rw [potential, hmore, hlength]
    omega

end

theorem bounded_invariant (input : PlannerInput) (g j : ℕ) :
    PlannerInvariant input (fun s => Bounded g j s [])
      (fun _ _ _ s block => Bounded g j s block) where
  revisited := fun h _ _ => ⟨h.entries, h.keys, h.count, h.guards, h.tables⟩
  excludedEntry := fun h _ _ hfresh _ => ((h.take _ hfresh).snoc_excluded _).close _
  outsideEntry := by
    intro s entry rest h _ hfresh _ _
    have := h.take rest hfresh
    exact ⟨this.entries, this.keys, this.count, this.guards, this.tables⟩
  entered := fun h _ _ hfresh _ => h.take _ hfresh
  excluded := fun h _ => (h.snoc_excluded _).close _
  visited := fun h _ => h.close _
  outside := by
    intro fuel entry address s block h _ _ _
    have hcounted : Bounded g j (s.visit address).countOutside block :=
      ⟨h.entries, h.keys, h.count, h.guards, h.tables⟩
    exact hcounted.close entry
  undecodable := by
    intro fuel entry address s block h _ _ _ _
    have hcounted : Bounded g j (s.visit address).countUndecodable block :=
      ⟨h.entries, h.keys, h.count, h.guards, h.tables⟩
    exact hcounted.close entry
  ended := fun h _ _ _ _ => (h.absorb _ (guardsGrow_classifyInstruction _ _ _ _ _ _)).close _
  wentOn := fun h _ _ _ _ => h.absorb _ (guardsGrow_classifyInstruction _ _ _ _ _ _)
  full := fun h => h.close _
  swept := by
    intro s before after entry done todo record h
    obtain ⟨hguards, htables, -⟩ := @sweepRecord_grows input s before after entry done todo record
    obtain ⟨hentries, -, hinstructions⟩ := sweepRecord_visits input record s
    refine ⟨?_, hguards.nodup h.keys, ?_, h.guards.trans hguards.length, h.tables.trans htables⟩
    · show (sweepRecord input record s).2.2.visitedBlocks.Nodup
      rw [hentries]
      exact h.entries
    · have hcount : _ = s.instructionCount := h.count
      rw [records_withBlocks] at hcount ⊢
      show _ = (sweepRecord input record s).2.2.instructionCount
      rw [hinstructions]
      simpa using hcount

/-! ## The pending loop -/

theorem walkBlock_visitedBlocks (fuel : ℕ) (address : Word) (s : PlannerState)
    (block : List AotInstructionRecord) :
    (walkBlock input fuel address s block).1.visitedBlocks = s.visitedBlocks := by
  induction fuel generalizing address s block with
  | zero => rfl
  | succ fuel ih =>
    rw [walkBlock_succ]
    split
    · rfl
    split
    · rfl
    split
    · rfl
    split
    · rfl
    · dsimp only
      split
      · exact ih _ _ _
      · rfl

/-- `visitBlock` with a limit of its own on the length of the block. -/
def visitBlockUpTo (input : PlannerInput) (limit : ℕ) (entry : Word) (s : PlannerState) : PlannerState :=
  if entry ∈ s.visitedBlocks then s
  else
    let s := { s with visitedBlocks := entry :: s.visitedBlocks }
    if isExcludedGuestAddress input.excludedRanges entry then
      s.countExcluded.close entry [excludedBoundary entry]
    else if (findBytes input.image entry 1).isNone then s.countOutside
    else (walkBlock input limit entry s []).1.close entry (walkBlock input limit entry s []).2

theorem visitBlock_eq (entry : Word) (s : PlannerState) :
    visitBlock input entry s = visitBlockUpTo input kMaximumBlockInstructions entry s := rfl

/-- A visit takes its entry from the pending ones, or counts it as visited for the first time. -/
theorem visitBlockUpTo_measure (limit : ℕ) (entry : Word) (s : PlannerState) :
    (entry ∈ s.visitedBlocks ∧ visitBlockUpTo input limit entry s = s) ∨
      (entry ∉ s.visitedBlocks ∧
        (visitBlockUpTo input limit entry s).visitedBlocks = entry :: s.visitedBlocks) := by
  unfold visitBlockUpTo
  by_cases hvisited : entry ∈ s.visitedBlocks
  · rw [if_pos hvisited]
    exact Or.inl ⟨hvisited, rfl⟩
  rw [if_neg hvisited]
  refine Or.inr ⟨hvisited, ?_⟩
  dsimp only
  split
  · rfl
  split
  · rfl
  · exact walkBlock_visitedBlocks _ _ _ _

/-- More fuel changes nothing. -/
theorem drainPending_mono {n m : ℕ} (hnm : n ≤ m) {s s' : PlannerState}
    (h : drainPending input n s = some s') : drainPending input m s = some s' := by
  induction n generalizing m s with
  | zero =>
    rcases drainPending_cases h with ⟨rfl, hend⟩ | ⟨k, _, _, hk, _⟩
    · exact drainPending_ends m hend
    · cases hk
  | succ n ih =>
    rcases drainPending_cases h with ⟨rfl, hend⟩ | ⟨k, entry, rest, hk, hpending, hcount, hrest⟩
    · exact drainPending_ends m hend
    · cases hk
      obtain ⟨m, rfl⟩ : ∃ l, m = l + 1 := ⟨m - 1, by omega⟩
      rw [drainPending_step hpending hcount]
      exact ih (by omega) hrest

/-- There are no more than `2 ^ 32` different addresses. -/
theorem length_le_of_nodup {addresses : List Word} (h : addresses.Nodup) : addresses.length ≤ 2 ^ 32 := by
  have hfin : (addresses.map BitVec.equivFin).Nodup := h.map BitVec.equivFin.injective
  have hcard := hfin.length_le_card
  rwa [List.length_map, Fintype.card_fin] at hcard

/-- The pending loop ends: every turn makes a new address a visited entry, or has fewer pending. -/
theorem drainPending_total (input : PlannerInput) (k n : ℕ) (s : PlannerState)
    (hentries : s.visitedBlocks.Nodup) (hk : 2 ^ 32 - s.visitedBlocks.length = k)
    (hn : s.pending.length = n) : ∃ fuel s', drainPending input fuel s = some s' := by
  induction k using Nat.strong_induction_on generalizing n s with
  | _ k ihk =>
    induction n generalizing s with
    | zero => exact ⟨0, s, drainPending_ends 0 (Or.inl (List.length_eq_zero_iff.mp hn))⟩
    | succ n ihn =>
      by_cases hcount : kMaximumInstructions ≤ s.instructionCount
      · exact ⟨0, s, drainPending_ends 0 (Or.inr hcount)⟩
      obtain ⟨entry, rest, hpending⟩ := List.exists_cons_of_length_eq_add_one hn
      rw [hpending, List.length_cons, Nat.add_right_cancel_iff] at hn
      obtain ⟨fuel, s', hrest⟩ : ∃ fuel s', drainPending input fuel
          (visitBlock input entry { s with pending := rest }) = some s' := by
        rw [visitBlock_eq]
        rcases visitBlockUpTo_measure kMaximumBlockInstructions entry { s with pending := rest } with ⟨-, heq⟩ | ⟨hfresh, heq⟩
        · rw [heq]
          exact ihn { s with pending := rest } hentries hk hn
        · have hnodup : (entry :: s.visitedBlocks).Nodup := List.nodup_cons.mpr ⟨hfresh, hentries⟩
          have hroom := length_le_of_nodup hnodup
          rw [List.length_cons] at hroom
          refine ihk (2 ^ 32 - (entry :: s.visitedBlocks).length) ?_ _ _ (heq ▸ hnodup) ?_ rfl
          · rw [List.length_cons]
            omega
          · rw [heq]
      exact ⟨fuel + 1, s', by rw [drainPending_step hpending (Nat.lt_of_not_le hcount), hrest]⟩

/-! ## The outer loop -/

theorem sweepRecords_potential (before after : List AotBasicBlock) (entry : Word)
    (done records : List AotInstructionRecord) (s : PlannerState) :
    let swept := (sweepRecords input records s).2.2.withBlocks
      (before ++ ⟨entry, done ++ (sweepRecords input records s).2.1⟩ :: after)
    let unswept := s.withBlocks (before ++ ⟨entry, done ++ records⟩ :: after)
    potential unswept ≤ potential swept ∧
      ((sweepRecords input records s).1 = true → potential unswept < potential swept) := by
  induction records generalizing done s with
  | nil => exact ⟨le_rfl, fun h => absurd h Bool.false_ne_true⟩
  | cons record records ih =>
    intro swept unswept
    obtain ⟨hguards, htables, hstrict⟩ :=
      @sweepRecord_grows input s before after entry done records record
    have hrest := ih (done ++ [(sweepRecord input record s).2.1]) (sweepRecord input record s).2.2
    simp only [List.append_assoc, List.singleton_append] at hrest
    have hstep : potential unswept ≤ potential ((sweepRecord input record s).2.2.withBlocks
        (before ++ ⟨entry, done ++ (sweepRecord input record s).2.1 :: records⟩ :: after)) :=
      Nat.add_le_add hguards.length htables
    refine ⟨hstep.trans hrest.1, fun hchanged => ?_⟩
    rcases Bool.or_eq_true_iff.mp hchanged with hchanged | hchanged
    · exact (hstrict hchanged).trans_le hrest.1
    · exact hstep.trans_lt (hrest.2 hchanged)

theorem sweepBlocks_potential (before blocks : List AotBasicBlock) (s : PlannerState) :
    let swept := (sweepBlocks input blocks s).2.2.withBlocks
      (before ++ (sweepBlocks input blocks s).2.1)
    let unswept := s.withBlocks (before ++ blocks)
    potential unswept ≤ potential swept ∧
      ((sweepBlocks input blocks s).1 = true → potential unswept < potential swept) := by
  induction blocks generalizing before s with
  | nil => exact ⟨le_rfl, fun h => absurd h Bool.false_ne_true⟩
  | cons b blocks ih =>
    intro swept unswept
    have hstep := @sweepRecords_potential input before blocks b.guestAddress [] b.instructions s
    have hrest := ih (before ++ [⟨b.guestAddress, (sweepRecords input b.instructions s).2.1⟩])
      (sweepRecords input b.instructions s).2.2
    simp only [List.append_assoc, List.singleton_append] at hrest
    refine ⟨hstep.1.trans hrest.1, fun hchanged => ?_⟩
    rcases Bool.or_eq_true_iff.mp hchanged with hchanged | hchanged
    · exact (hstep.2 hchanged).trans_le hrest.1
    · exact hstep.1.trans_lt (hrest.2 hchanged)

/-- A sweep that changes something gains a guard or a jump table. -/
theorem sweep_potential {s : PlannerState} (h : (sweepBlocks input s.blocks s).1 = true) :
    potential s < potential (sweep input s) :=
  (@sweepBlocks_potential input [] s.blocks s).2 h

/-- Below the instruction limit there is room for finitely many guards and jump tables. -/
theorem Bounded.potential_lt {g j : ℕ} {s : PlannerState} (h : Bounded g j s [])
    (hcount : s.instructionCount < kMaximumInstructions) :
    potential s < 2 ^ 32 + kMaximumInstructions := by
  have hkeys := length_le_of_nodup h.keys
  rw [List.length_map] at hkeys
  have htables : jumpTables s.records ≤ s.records.length := List.countP_le_length
  have hrecords : s.records.length + 0 = s.instructionCount := h.count
  unfold potential
  omega

theorem planLoop_total (input : PlannerInput) (k : ℕ) (s : PlannerState) (hs : Bounded 0 0 s [])
    (hk : 2 ^ 32 + kMaximumInstructions - potential s = k) :
    ∃ n s', ∀ m, n ≤ m → planLoop input m s = some s' := by
  induction k using Nat.strong_induction_on generalizing s with
  | _ k ih =>
    obtain ⟨n, t, hdrain⟩ := drainPending_total input _ _ s hs.entries rfl rfl
    have hbounded : Bounded s.guards.length (jumpTables s.records) t [] :=
      (bounded_invariant input s.guards.length (jumpTables s.records)).drainPending
        ⟨hs.entries, hs.keys, hs.count, le_rfl, le_rfl⟩ hdrain
    have hgrown : potential s ≤ potential t := Nat.add_le_add hbounded.guards hbounded.tables
    have hloop : ∀ m, n ≤ m → planLoop input (m + 1) s =
        if kMaximumInstructions ≤ t.instructionCount then some t
        else if (sweepBlocks input t.blocks t).1 = true then planLoop input m (sweep input t)
        else some (sweep input t) := by
      intro m hm
      rw [planLoop, drainPending_mono hm hdrain]
      rfl
    by_cases hcount : kMaximumInstructions ≤ t.instructionCount
    · refine ⟨n + 1, t, fun m hm => ?_⟩
      obtain ⟨m, rfl⟩ : ∃ l, m = l + 1 := ⟨m - 1, by omega⟩
      rw [hloop m (by omega), if_pos hcount]
    by_cases hchanged : (sweepBlocks input t.blocks t).1 = true
    · have hswept : Bounded 0 0 (sweep input t) [] :=
        (bounded_invariant input 0 0).sweepBlocks [] t.blocks
          ⟨hbounded.entries, hbounded.keys, hbounded.count, Nat.zero_le _, Nat.zero_le _⟩
      have hmore := sweep_potential hchanged
      have hroom := hbounded.potential_lt (Nat.lt_of_not_le hcount)
      obtain ⟨n', s', hrest⟩ := ih _ (by omega) (sweep input t) hswept rfl
      refine ⟨max n n' + 1, s', fun m hm => ?_⟩
      obtain ⟨m, rfl⟩ : ∃ l, m = l + 1 := ⟨m - 1, by omega⟩
      rw [hloop m (by omega), if_neg hcount, if_pos hchanged]
      exact hrest m (by omega)
    · refine ⟨n + 1, sweep input t, fun m hm => ?_⟩
      obtain ⟨m, rfl⟩ : ∃ l, m = l + 1 := ⟨m - 1, by omega⟩
      rw [hloop m (by omega), if_neg hcount, if_neg hchanged]

end

/-- The planner returns a plan, and the same one with any further fuel. -/
theorem buildAotTranslationPlanFromEntry_total (table : Table) (image : RelocatedRuntimeImage)
    (entry : Word) (excluded : List AotExcludedGuestRange) :
    ∃ fuel plan, ∀ m, fuel ≤ m →
      buildAotTranslationPlanFromEntry table m image entry excluded = some plan := by
  by_cases hvalid : ¬image.valid
  · exact ⟨0, {}, fun m _ => by rw [buildAotTranslationPlanFromEntry, if_pos hvalid]⟩
  · have hstart : Bounded 0 0 { pending := [entry] } [] :=
      ⟨List.nodup_nil, List.nodup_nil, rfl, le_rfl, le_rfl⟩
    obtain ⟨fuel, s, hs⟩ := planLoop_total ⟨table, image, excluded, planCodeModeRanges image⟩ _ _
      hstart rfl
    have hsame : ∀ m, fuel ≤ m → buildAotTranslationPlanFromEntry table m image entry excluded =
        buildAotTranslationPlanFromEntry table fuel image entry excluded := by
      intro m hm
      simp only [buildAotTranslationPlanFromEntry, if_neg hvalid, hs m hm, hs fuel le_rfl]
    have hsome : (buildAotTranslationPlanFromEntry table fuel image entry excluded).isSome := by
      simp only [buildAotTranslationPlanFromEntry, if_neg hvalid, hs fuel le_rfl]
      rfl
    obtain ⟨plan, hplan⟩ := Option.isSome_iff_exists.mp hsome
    exact ⟨fuel, plan, fun m hm => (hsame m hm).trans hplan⟩

end Repiu.Runtime
