import Repiu.Runtime.PlanClosure

/-!
# Jump tables

A recovered jump table goes back to a compare and a `ja`, with the instructions that
turn a compared low byte into an index behind them.  On a path that runs through this
chain the index is below the number of recovered targets; the planner does not look for
other ways into the chain.
-/

namespace Repiu.Runtime

open Repiu.X86

/-! ## Chains of guards -/

/-- A planned instruction with its address and code mode. -/
structure Link where
  address : Word
  instruction : Instruction
  codeMode : GuestCodeDefaultOperandSize

/-- The address behind a link. -/
def Link.next (l : Link) : Word := l.address + BitVec.ofNat 32 l.instruction.length

/-- A link is planned: some record has its address and instruction. -/
def Link.In (table : Table) (records : List AotInstructionRecord) (l : Link) : Prop :=
  ∃ r ∈ records, r.guestAddress = l.address ∧ r.guestCodeDefaultOperandSize = l.codeMode ∧
    RecordOf table r l.instruction

/-- What `ReadJumpTableGuard` reads off a decoded compare. -/
def compareGuard (i : Instruction) : Option JumpTableGuard :=
  match i.visible with
  | lhs :: rhs :: _ =>
    match lhs.kind, rhs.kind with
    | .register r, .immediate _ _ bound =>
      if bound < 0 ∨ (kMaximumJumpTableEntries : ℤ) < bound + 1 then none
      else
        match readGuardRegisterId r, readLowByteParentRegisterId r with
        | some id, _ => some ⟨id, bound.toNat + 1, false, 0xFF⟩
        | none, some id => some ⟨id, bound.toNat + 1, true, 0xFF⟩
        | none, none => none
    | _, _ => none
  | _ => none

theorem readJumpTableGuard_eq_some {table : Table} {mode : MachineMode} {compare : AotInstructionRecord}
    {g : JumpTableGuard} (h : readJumpTableGuard table mode compare = some g) :
    compare.kind = .kCopy ∧ compare.mnemonic = .cmp ∧
      ∃ i, decode table mode compare.bytes = some i ∧ compareGuard i = some g := by
  unfold readJumpTableGuard at h
  split at h
  · cases h
  · rename_i hcompare
    rw [not_or, not_not, not_not] at hcompare
    split at h
    · cases h
    · rename_i i hi
      exact ⟨hcompare.1, hcompare.2, i, hi, h⟩

/-- The chain behind a guard: its last link, the links before it and the guard.  The compare is
decoded in the mode of its branch. -/
inductive GuardChain (table : Table) (records : List AotInstructionRecord) :
    Link → List Link → JumpTableGuard → Prop
  | compare {c j : Link} {g : JumpTableGuard} (hc : c.In table records) (hj : j.In table records)
      (haddress : j.address = c.next) (hcmp : c.instruction.mnemonic = .cmp)
      (hja : j.instruction.mnemonic = .jnbe)
      (hguard : decoderMode c.codeMode = decoderMode j.codeMode → compareGuard c.instruction = some g) :
      GuardChain table records j [c] g
  | normalize {m p : Link} {before : List Link} {g g' : JumpTableGuard}
      (h : GuardChain table records p before g) (hm : m.In table records) (haddress : m.address = p.next)
      (hrequires : g.requiresLowByteNormalization = true) (hnormalizes : Normalizes m.instruction g g') :
      GuardChain table records m (p :: before) g'

theorem GuardChain.mono {table : Table} {records records' : List AotInstructionRecord} {l : Link}
    {before : List Link} {g : JumpTableGuard} (h : GuardChain table records l before g)
    (hin : ∀ l : Link, l.In table records → l.In table records') : GuardChain table records' l before g := by
  induction h with
  | compare hc hj haddress hcmp hja hguard => exact .compare (hin _ hc) (hin _ hj) haddress hcmp hja hguard
  | normalize _ hm haddress hrequires hnormalizes ih =>
    exact .normalize ih (hin _ hm) haddress hrequires hnormalizes

/-! ## Guards of a classification -/

theorem Guards.mem_of_find {guards : Guards} {address : Word} {g : JumpTableGuard}
    (h : guards.find address = some g) : (address, g) ∈ guards := by
  unfold Guards.find at h
  obtain ⟨p, hp, rfl⟩ := Option.map_eq_some_iff.mp h
  have haddress := List.find?_some hp
  have hmem := List.mem_of_find?_eq_some hp
  rw [← of_decide_eq_true haddress]
  exact hmem

theorem mem_emplace {guards : Guards} {address : Word} {g : JumpTableGuard} {p : Word × JumpTableGuard}
    (h : p ∈ (guards.emplace address g).2) : p ∈ guards ∨ p = (address, g) := by
  unfold Guards.emplace at h
  split at h
  · exact Or.inl h
  · exact (List.mem_append.mp h).imp_right List.mem_singleton.mp

theorem subset_emplace {guards : Guards} {address : Word} {g : JumpTableGuard} {p : Word × JumpTableGuard}
    (h : p ∈ guards) : p ∈ (guards.emplace address g).2 := by
  unfold Guards.emplace
  split
  · exact h
  · exact List.mem_append_left _ h

/-- A guard that an instruction adds: one behind a normalizing instruction that is guarded itself,
or one behind a `ja` with a compare in front of it. -/
def AddedGuard (input : PlannerInput) (guards : Guards) (block : List AotInstructionRecord)
    (i : Instruction) (codeMode : GuestCodeDefaultOperandSize) (record : AotInstructionRecord)
    (p : Word × JumpTableGuard) : Prop :=
  p.1 = record.next ∧
    ((∃ guard, guards.find record.guestAddress = some guard ∧
        guard.requiresLowByteNormalization = true ∧ Normalizes i guard p.2) ∨
      (i.mnemonic = .jnbe ∧ ∃ compare, block.getLast? = some compare ∧
        readJumpTableGuard input.table (decoderMode codeMode) compare = some p.2))

section
variable {input : PlannerInput} {guards : Guards} {block : List AotInstructionRecord} {i : Instruction}
  {codeMode : GuestCodeDefaultOperandSize} {record : AotInstructionRecord}

theorem mem_classifyBranch_guards {p : Word × JumpTableGuard}
    (h : p ∈ (classifyBranch input guards block i codeMode record).guards) :
    p ∈ guards ∨ (p.1 = record.next ∧ i.mnemonic = .jnbe ∧ ∃ compare, block.getLast? = some compare ∧
      readJumpTableGuard input.table (decoderMode codeMode) compare = some p.2) := by
  unfold classifyBranch at h
  dsimp only at h
  split at h
  · exact Or.inl h
  split at h
  · exact Or.inl h
  · dsimp only at h
    split at h
    · rename_i hja
      split at h
      · exact Or.inl h
      · rename_i compare hlast
        split at h
        · exact Or.inl h
        · rename_i g hread
          rcases mem_emplace h with h | rfl
          · exact Or.inl h
          · exact Or.inr ⟨rfl, hja, compare, hlast, hread⟩
    · exact Or.inl h
  · exact Or.inl h

theorem mem_classifyPlain_guards {p : Word × JumpTableGuard}
    (h : p ∈ (classifyPlain input guards block i codeMode record).guards) :
    p ∈ guards ∨ (p.1 = record.next ∧ i.mnemonic = .jnbe ∧ ∃ compare, block.getLast? = some compare ∧
      readJumpTableGuard input.table (decoderMode codeMode) compare = some p.2) := by
  unfold classifyPlain at h
  dsimp only at h
  repeat' first
    | exact Or.inl h
    | exact mem_classifyBranch_guards h
    | split at h

theorem mem_classifyInstruction_guards {p : Word × JumpTableGuard}
    (h : p ∈ (classifyInstruction input guards block i codeMode record).guards) :
    p ∈ guards ∨ AddedGuard input guards block i codeMode record p := by
  have hplain : ∀ {guards' : Guards} {record' : AotInstructionRecord},
      p ∈ (classifyPlain input guards' block i codeMode record').guards → record'.next = record.next →
      p ∈ guards' ∨ AddedGuard input guards block i codeMode record p := by
    intro guards' record' h hnext
    exact (mem_classifyPlain_guards h).imp_right fun hnew => ⟨hnew.1.trans hnext, Or.inr hnew.2⟩
  unfold classifyInstruction at h
  split at h
  · exact hplain h rfl
  rename_i guard hguard
  split at h
  · rename_i hrequires
    rcases hplain h rfl with h | h
    · rcases propagateLowByteJumpTableGuard_cases i record.next guard guards with heq | ⟨g, hnormalizes, heq⟩
      · rw [heq] at h
        exact Or.inl h
      · rw [heq] at h
        rcases mem_emplace h with h | rfl
        · exact Or.inl h
        · exact Or.inr ⟨rfl, Or.inl ⟨guard, hguard, hrequires, hnormalizes⟩⟩
    · exact Or.inr h
  split at h
  · exact hplain h rfl
  split at h
  · exact hplain h rfl
  · dsimp only at h
    split at h
    · exact Or.inl h
    · exact hplain h rfl

theorem subset_classifyBranch_guards {p : Word × JumpTableGuard} (h : p ∈ guards) :
    p ∈ (classifyBranch input guards block i codeMode record).guards := by
  unfold classifyBranch
  dsimp only
  repeat' first
    | exact h
    | exact subset_emplace h
    | split

theorem subset_classifyPlain_guards {p : Word × JumpTableGuard} (h : p ∈ guards) :
    p ∈ (classifyPlain input guards block i codeMode record).guards := by
  unfold classifyPlain
  dsimp only
  repeat' first
    | exact h
    | exact subset_classifyBranch_guards h
    | split

theorem subset_propagate {i : Instruction} {next : Word} {guard : JumpTableGuard} {p : Word × JumpTableGuard}
    (h : p ∈ guards) : p ∈ (propagateLowByteJumpTableGuard i next guard guards).2 := by
  rcases propagateLowByteJumpTableGuard_cases i next guard guards with heq | ⟨g, -, heq⟩
  · rw [heq]
    exact h
  · rw [heq]
    exact subset_emplace h

theorem subset_classifyInstruction_guards {p : Word × JumpTableGuard} (h : p ∈ guards) :
    p ∈ (classifyInstruction input guards block i codeMode record).guards := by
  unfold classifyInstruction
  split
  · exact subset_classifyPlain_guards h
  split
  · exact subset_classifyPlain_guards (subset_propagate h)
  split
  · exact subset_classifyPlain_guards h
  split
  · exact subset_classifyPlain_guards h
  · dsimp only
    split
    · exact h
    · exact subset_classifyPlain_guards h

end

/-! ## Recovered tables -/

theorem readJumpTableEntries_length {image : RelocatedRuntimeImage} {tableAddress : Word} (n index : ℕ)
    {read targets : List Word} (h : readJumpTableEntries image tableAddress n index read = (true, targets)) :
    targets.length = read.length + n := by
  induction n generalizing index read with
  | zero =>
    rw [readJumpTableEntries] at h
    rw [(Prod.mk.inj h).2]
    rfl
  | succ n ih =>
    unfold readJumpTableEntries at h
    split at h
    · dsimp only at h
      split at h
      · cases h
      · rw [ih _ h, List.length_append, List.length_singleton]
        omega
    · cases h

theorem readJumpTableTargets_length {image : RelocatedRuntimeImage} {tableAddress : Word} {entryCount : ℕ}
    {old targets : List Word}
    (h : readJumpTableTargets image tableAddress entryCount old = (true, targets)) :
    targets.length = entryCount := by
  unfold readJumpTableTargets at h
  split at h
  · cases h
  · rw [readJumpTableEntries_length _ _ h, List.length_nil, Nat.zero_add]

/-- A jump table and the guard it was recovered with. -/
def TableOf (guards : Guards) (r : AotInstructionRecord) : Prop :=
  ∃ g, (r.guestAddress, g) ∈ guards ∧ g.requiresLowByteNormalization = false ∧
    g.indexRegister = r.tableIndexRegister ∧ g.entryCount = r.tableTargets.length

section
variable {input : PlannerInput} {guards : Guards} {block : List AotInstructionRecord} {i : Instruction}
  {codeMode : GuestCodeDefaultOperandSize} {record : AotInstructionRecord}

theorem classifyBranch_ne_jumpTable :
    (classifyBranch input guards block i codeMode record).record.kind ≠ .kJumpTable := by
  unfold classifyBranch
  dsimp only
  split
  · intro h
    cases h
  · split
    all_goals
      intro h
      cases h

theorem classifyPlain_ne_jumpTable :
    (classifyPlain input guards block i codeMode record).record.kind ≠ .kJumpTable := by
  unfold classifyPlain
  dsimp only
  repeat' first
    | exact classifyBranch_ne_jumpTable
    | (intro h; cases h)
    | split

theorem tableOf_classifyInstruction
    (h : (classifyInstruction input guards block i codeMode record).record.kind = .kJumpTable) :
    TableOf guards (classifyInstruction input guards block i codeMode record).record := by
  unfold classifyInstruction at h ⊢
  cases hguard : guards.find record.guestAddress with
  | none =>
    rw [hguard] at h
    exact absurd h classifyPlain_ne_jumpTable
  | some guard =>
    rw [hguard] at h
    dsimp only at h ⊢
    by_cases hrequires : guard.requiresLowByteNormalization = true
    · rw [if_pos hrequires] at h
      exact absurd h classifyPlain_ne_jumpTable
    rw [if_neg hrequires] at h ⊢
    cases hmatch : matchJumpTableBranch i with
    | none =>
      rw [hmatch] at h
      exact absurd h classifyPlain_ne_jumpTable
    | some branch =>
      obtain ⟨branchRegister, tableAddress⟩ := branch
      rw [hmatch] at h
      dsimp only at h ⊢
      by_cases hregister : branchRegister ≠ guard.indexRegister
      · rw [if_pos hregister] at h
        exact absurd h classifyPlain_ne_jumpTable
      rw [if_neg hregister] at h ⊢
      rw [not_not] at hregister
      cases hread : readJumpTableTargets input.image tableAddress guard.entryCount
        record.tableTargets with
      | mk ok targets =>
        rw [hread] at h
        cases ok with
        | false => exact absurd h classifyPlain_ne_jumpTable
        | true =>
          exact ⟨guard, Guards.mem_of_find hguard, by simpa using hrequires, hregister.symm,
            (readJumpTableTargets_length hread).symm⟩

end

/-! ## The planner's guards -/

/-- Every guard has a chain among the records so far, and every jump table a guard. -/
structure Guarding (input : PlannerInput) (s : PlannerState) (block : List AotInstructionRecord) : Prop where
  planned : ∀ r ∈ s.records ++ block, Planned input.table r
  guards : ∀ p ∈ s.guards, ∃ l before, GuardChain input.table (s.records ++ block) l before p.2 ∧
    l.next = p.1
  tables : ∀ r ∈ s.records ++ block, r.kind = .kJumpTable → TableOf s.guards r

/-- While a block is walked, its records lie one behind the other. -/
def GuardingWalk (input : PlannerInput) (address : Word) (s : PlannerState)
    (block : List AotInstructionRecord) : Prop :=
  Guarding input s block ∧ ∀ r, block.getLast? = some r → r.next = address

section
variable {input : PlannerInput} {s s' : PlannerState} {block : List AotInstructionRecord}

theorem link_in_subset {table : Table} {records records' : List AotInstructionRecord}
    (h : ∀ r ∈ records, r ∈ records') (l : Link) (hl : l.In table records) : l.In table records' := by
  obtain ⟨r, hr, hrest⟩ := hl
  exact ⟨r, h r hr, hrest⟩

/-- The state may change in everything but its records and guards. -/
theorem Guarding.congr (h : Guarding input s block) (hblocks : s'.blocks = s.blocks)
    (hguards : s'.guards = s.guards) : Guarding input s' block := by
  have hrecords : s'.records = s.records := by rw [PlannerState.records, hblocks]; rfl
  exact ⟨hrecords ▸ h.planned, by rw [hguards, hrecords]; exact h.guards,
    by rw [hguards, hrecords]; exact h.tables⟩

theorem Guarding.close (h : Guarding input s block) (entry : Word) :
    Guarding input (s.close entry block) [] := by
  have hrecords : (s.close entry block).records ++ [] = s.records ++ block := by
    rw [records_close, List.append_nil]
  refine ⟨?_, ?_, ?_⟩
  · rw [hrecords]
    exact h.planned
  · rw [hrecords]
    exact h.guards
  · rw [hrecords]
    exact h.tables

theorem Guarding.snoc_excluded (h : Guarding input s block) (address : Word) :
    Guarding input s.countExcluded (block ++ [excludedBoundary address]) := by
  have hmem : ∀ r ∈ s.records ++ (block ++ [excludedBoundary address]),
      r ∈ s.records ++ block ∨ r = excludedBoundary address := by
    intro r hr
    rw [← List.append_assoc] at hr
    exact (List.mem_append.mp hr).imp_right List.mem_singleton.mp
  have hsubset : ∀ r ∈ s.records ++ block, r ∈ s.records ++ (block ++ [excludedBoundary address]) := by
    intro r hr
    rw [← List.append_assoc]
    exact List.mem_append_left _ hr
  refine ⟨?_, ?_, ?_⟩
  · intro r hr
    rcases hmem r hr with hr | rfl
    · exact h.planned r hr
    · exact Or.inl ⟨rfl, rfl⟩
  · intro p hp
    obtain ⟨l, before, hchain, hnext⟩ := h.guards p hp
    exact ⟨l, before, hchain.mono (link_in_subset hsubset), hnext⟩
  · intro r hr hkind
    rcases hmem r hr with hr | rfl
    · exact h.tables r hr hkind
    · cases hkind

variable {address : Word} {i : Instruction} {bytes : List Byte}

theorem recordOf_classifyAt (guards : Guards) (block : List AotInstructionRecord)
    (hdecode : decodeAt input address = some (i, bytes)) :
    RecordOf input.table (classifyAt input guards block address i bytes).record i := by
  unfold decodeAt at hdecode
  obtain ⟨bytes', -, hmap⟩ := Option.bind_eq_some_iff.mp hdecode
  obtain ⟨i', hi, heq⟩ := Option.map_eq_some_iff.mp hmap
  obtain ⟨rfl, rfl⟩ := Prod.mk.inj heq
  exact (recordOf_decodedRecord address hi).sameInstruction
    (sameInstruction_classifyInstruction input guards block i' _ _)

/-- A new instruction: its record and the guards it adds. -/
theorem GuardingWalk.absorb (h : GuardingWalk input address s block)
    (hdecode : decodeAt input address = some (i, bytes)) :
    GuardingWalk input (classifyAt input s.guards block address i bytes).record.next
      ((s.visit address).absorb (classifyAt input s.guards block address i bytes))
      (block ++ [(classifyAt input s.guards block address i bytes).record]) := by
  set c := classifyAt input s.guards block address i bytes with hc
  have hsame := sameInstruction_classifyInstruction input s.guards block i
    (guestCodeDefaultOperandSizeForAddress input.image address)
    (decodedRecord address (guestCodeDefaultOperandSizeForAddress input.image address) i bytes)
  have hrecordOf : RecordOf input.table c.record i := recordOf_classifyAt s.guards block hdecode
  have hmem : ∀ r ∈ s.records ++ (block ++ [c.record]), r ∈ s.records ++ block ∨ r = c.record := by
    intro r hr
    rw [← List.append_assoc] at hr
    exact (List.mem_append.mp hr).imp_right List.mem_singleton.mp
  have hsubset : ∀ r ∈ s.records ++ block, r ∈ s.records ++ (block ++ [c.record]) := by
    intro r hr
    rw [← List.append_assoc]
    exact List.mem_append_left _ hr
  -- the instruction itself as a link
  have hself : c.record ∈ s.records ++ (block ++ [c.record]) := by simp
  have hlink : Link.In input.table (s.records ++ (block ++ [c.record]))
      ⟨address, i, guestCodeDefaultOperandSizeForAddress input.image address⟩ :=
    ⟨c.record, hself, hsame.guestAddress, hsame.size, hrecordOf⟩
  have hnext : Link.next ⟨address, i, guestCodeDefaultOperandSizeForAddress input.image address⟩ =
      (decodedRecord address (guestCodeDefaultOperandSizeForAddress input.image address) i bytes).next :=
    rfl
  refine ⟨⟨?_, ?_, ?_⟩, ?_⟩
  · intro r hr
    rcases hmem r hr with hr | rfl
    · exact h.1.planned r hr
    · exact Or.inr ⟨i, hrecordOf⟩
  · intro p hp
    rcases mem_classifyInstruction_guards hp with hold | ⟨hp, hadded⟩
    · obtain ⟨l, before, hchain, hl⟩ := h.1.guards p hold
      exact ⟨l, before, hchain.mono (link_in_subset hsubset), hl⟩
    rcases hadded with ⟨guard, hfind, hrequires, hnormalizes⟩ | ⟨hja, compare, hlast, hread⟩
    · obtain ⟨l, before, hchain, hl⟩ := h.1.guards _ (Guards.mem_of_find hfind)
      exact ⟨_, _, .normalize (hchain.mono (link_in_subset hsubset)) hlink hl.symm hrequires
        hnormalizes, hnext.trans hp.symm⟩
    · obtain ⟨hkind, hcmp, i', hi', hguard⟩ := readJumpTableGuard_eq_some hread
      have hin : compare ∈ s.records ++ block :=
        List.mem_append_right _ (List.mem_of_getLast? hlast)
      rcases h.1.planned compare hin with ⟨-, hboundary⟩ | ⟨ic, hic⟩
      · rw [hkind] at hboundary
        cases hboundary
      have hclink : Link.In input.table (s.records ++ (block ++ [c.record]))
          ⟨compare.guestAddress, ic, compare.guestCodeDefaultOperandSize⟩ :=
        ⟨compare, hsubset compare hin, rfl, rfl, hic⟩
      have hcnext : Link.next ⟨compare.guestAddress, ic, compare.guestCodeDefaultOperandSize⟩ =
          compare.next := by
        rw [AotInstructionRecord.next, hic.length]
        rfl
      refine ⟨_, _, .compare hclink hlink ((h.2 compare hlast).symm.trans hcnext.symm) ?_ hja ?_,
        hnext.trans hp.symm⟩
      · exact hic.mnemonic.symm.trans hcmp
      · intro hmode
        have hdecoded := hic.decodes
        dsimp only at hmode
        rw [hmode, hi', Option.some.injEq] at hdecoded
        rw [← hdecoded]
        exact hguard
  · intro r hr hkind
    rcases hmem r hr with hr | rfl
    · obtain ⟨g, hg, hrest⟩ := h.1.tables r hr hkind
      exact ⟨g, subset_classifyInstruction_guards hg, hrest⟩
    · obtain ⟨g, hg, hrest⟩ := tableOf_classifyInstruction hkind
      exact ⟨g, subset_classifyInstruction_guards hg, hrest⟩
  · intro r hr
    rw [List.getLast?_concat, Option.some.injEq] at hr
    rw [← hr]

end

/-! ## Guards in a sweep -/

theorem sameInstruction_sweepRecord (input : PlannerInput) (record : AotInstructionRecord)
    (s : PlannerState) : SameInstruction record (sweepRecord input record s).2.1 := by
  rcases sweepRecord_cases input record s with ⟨targets, -, heq⟩ | ⟨guard, targets, -, heq⟩
  all_goals
    rw [heq]
    exact ⟨rfl, rfl, rfl, rfl, rfl⟩

theorem sweepRecord_guards (input : PlannerInput) (record : AotInstructionRecord) (s : PlannerState) :
    (sweepRecord input record s).2.2.guards = sweptGuards input record s.guards := by
  rcases sweepRecord_cases input record s with ⟨targets, -, heq⟩ | ⟨guard, targets, -, heq⟩
  all_goals rw [heq]

theorem mem_sweptGuards {input : PlannerInput} {record : AotInstructionRecord} {guards : Guards}
    {p : Word × JumpTableGuard} (h : p ∈ sweptGuards input record guards) :
    p ∈ guards ∨ (p.1 = record.next ∧ ∃ guard i, guards.find record.guestAddress = some guard ∧
      guard.requiresLowByteNormalization = true ∧
      decode input.table (decoderMode record.guestCodeDefaultOperandSize) record.bytes = some i ∧
      Normalizes i guard p.2) := by
  unfold sweptGuards tryPropagateLowByteJumpTableGuard at h
  split at h
  · exact Or.inl h
  split at h
  · exact Or.inl h
  rename_i guard hguard
  split at h
  · exact Or.inl h
  rename_i hrequires
  split at h
  · exact Or.inl h
  rename_i i hi
  rcases propagateLowByteJumpTableGuard_cases i record.next guard guards with heq | ⟨g, hnormalizes, heq⟩
  · rw [heq] at h
    exact Or.inl h
  · rw [heq] at h
    rcases mem_emplace h with h | rfl
    · exact Or.inl h
    · exact Or.inr ⟨rfl, guard, i, hguard, not_not.mp hrequires, hi, hnormalizes⟩

theorem subset_sweptGuards {input : PlannerInput} {record : AotInstructionRecord} {guards : Guards}
    {p : Word × JumpTableGuard} (h : p ∈ guards) : p ∈ sweptGuards input record guards := by
  unfold sweptGuards tryPropagateLowByteJumpTableGuard
  repeat' first
    | exact h
    | exact subset_propagate h
    | split

/-- What a sweep recovers has a guard. -/
theorem tableOf_sweepRecord {input : PlannerInput} {record : AotInstructionRecord} {s : PlannerState}
    (h : (sweepRecord input record s).2.1.kind = .kJumpTable)
    (hold : record.kind = .kJumpTable → TableOf s.guards record) :
    TableOf (sweptGuards input record s.guards) (sweepRecord input record s).2.1 := by
  rcases sweepRecord_cases input record s with ⟨targets, htargets, heq⟩ | ⟨guard, targets, hre, heq⟩
  · rw [heq] at h ⊢
    have hkind : record.kind = .kJumpTable := h
    rcases htargets with rfl | ⟨hother, -⟩
    · obtain ⟨g, hg, hrest⟩ := hold hkind
      exact ⟨g, subset_sweptGuards hg, hrest⟩
    · rw [hkind] at hother
      rcases hother with hother | hother <;> cases hother
  · rw [heq]
    obtain ⟨i, tableAddress, -, -, hread⟩ := hre.branch
    exact ⟨guard, Guards.mem_of_find hre.guarded, hre.normal, rfl,
      (readJumpTableTargets_length hread).symm⟩

section
variable {input : PlannerInput} {before after : List AotBasicBlock} {entry : Word}
  {done todo : List AotInstructionRecord} {record : AotInstructionRecord} {s : PlannerState}

theorem Guarding.swept
    (h : Guarding input (s.withBlocks (before ++ ⟨entry, done ++ record :: todo⟩ :: after)) []) :
    Guarding input ((sweepRecord input record s).2.2.withBlocks
      (before ++ ⟨entry, done ++ (sweepRecord input record s).2.1 :: todo⟩ :: after)) [] := by
  have hsame := sameInstruction_sweepRecord input record s
  have hguards := sweepRecord_guards input record s
  have htable := @tableOf_sweepRecord input record s
  have hboundary := (sweepRecord_successors input record s).1.boundary
  generalize (sweepRecord input record s).2.1 = record' at hsame htable hboundary ⊢
  generalize (sweepRecord input record s).2.2 = s' at hguards ⊢
  have hmem : ∀ r ∈ (s'.withBlocks (before ++ ⟨entry, done ++ record' :: todo⟩ :: after)).records ++ [],
      r = record' ∨
        r ∈ (s.withBlocks (before ++ ⟨entry, done ++ record :: todo⟩ :: after)).records ++ [] := by
    intro r hr
    rw [List.append_nil] at hr ⊢
    exact mem_withBlocks s' hr
  have hrecord : record ∈
      (s.withBlocks (before ++ ⟨entry, done ++ record :: todo⟩ :: after)).records ++ [] := by
    rw [List.append_nil, records_withBlocks]
    simp
  have hrecord' : record' ∈
      (s'.withBlocks (before ++ ⟨entry, done ++ record' :: todo⟩ :: after)).records ++ [] := by
    rw [List.append_nil, records_withBlocks]
    simp
  -- a link of the swept record is one of the new record
  have hin : ∀ l : Link,
      l.In input.table ((s.withBlocks
        (before ++ ⟨entry, done ++ record :: todo⟩ :: after)).records ++ []) →
      l.In input.table ((s'.withBlocks
        (before ++ ⟨entry, done ++ record' :: todo⟩ :: after)).records ++ []) := by
    rintro l ⟨r, hr, haddress, hmode, hof⟩
    rw [List.append_nil] at hr
    rcases @mem_withBlocks _ _ _ _ _ record' record s' r s hr with rfl | hr
    · exact ⟨record', hrecord', hsame.guestAddress.trans haddress, hsame.size.trans hmode,
        hof.sameInstruction hsame⟩
    · exact ⟨r, by rwa [List.append_nil], haddress, hmode, hof⟩
  have hplanned : Planned input.table record' := by
    rcases h.planned record hrecord with ⟨hbytes, hkind⟩ | ⟨i, hi⟩
    · rw [hboundary hbytes]
      exact Or.inl ⟨hbytes, hkind⟩
    · exact Or.inr ⟨i, hi.sameInstruction hsame⟩
  refine ⟨?_, ?_, ?_⟩
  · intro r hr
    rcases hmem r hr with rfl | hr
    · exact hplanned
    · exact h.planned r hr
  · intro p hp
    have hp : p ∈ sweptGuards input record s.guards := hguards ▸ hp
    rcases mem_sweptGuards hp with hold | ⟨hnext, guard, i, hfind, hrequires, hi, hnormalizes⟩
    · obtain ⟨l, chain, hchain, hl⟩ := h.guards p hold
      exact ⟨l, chain, hchain.mono hin, hl⟩
    · obtain ⟨l, chain, hchain, hl⟩ := h.guards _ (Guards.mem_of_find hfind)
      rcases h.planned record hrecord with ⟨hbytes, -⟩ | ⟨i', hi'⟩
      · rw [hbytes] at hi
        have hlength : ([] : List Byte).length = i.length := by
          simpa using (decode_take hi).1
        exact absurd hlength.symm (Nat.ne_of_gt i.length_pos)
      · have heq : i' = i := by
          have := hi'.decodes
          rw [hi, Option.some.injEq] at this
          exact this.symm
        rw [heq] at hi'
        have hlink : Link.In input.table ((s.withBlocks
            (before ++ ⟨entry, done ++ record :: todo⟩ :: after)).records ++ [])
            ⟨record.guestAddress, i, record.guestCodeDefaultOperandSize⟩ :=
          ⟨record, hrecord, rfl, rfl, hi'⟩
        refine ⟨_, _, .normalize (hchain.mono hin) (hin _ hlink) hl.symm hrequires hnormalizes, ?_⟩
        rw [hnext, AotInstructionRecord.next, hi'.length]
        rfl
  · intro r hr hkind
    show TableOf s'.guards r
    rw [hguards]
    rcases hmem r hr with rfl | hr
    · exact htable hkind fun hold => h.tables record hrecord hold
    · obtain ⟨g, hg, hrest⟩ := h.tables r hr hkind
      exact ⟨g, subset_sweptGuards hg, hrest⟩

end

theorem guarding_invariant (input : PlannerInput) :
    PlannerInvariant input (fun s => Guarding input s [])
      (fun _ _ address s block => GuardingWalk input address s block) where
  revisited := fun h _ _ => h.congr rfl rfl
  excludedEntry := by
    intro s entry rest h _ _ _ _
    have htaken : Guarding input (s.take entry rest) [] := h.congr rfl rfl
    exact (htaken.snoc_excluded entry).close entry
  outsideEntry := fun h _ _ _ _ => h.congr rfl rfl
  entered := fun h _ _ _ _ => ⟨h.congr rfl rfl, by intro r hr; cases hr⟩
  excluded := fun h _ => (h.1.snoc_excluded _).close _
  visited := fun h _ => h.1.close _
  outside := by
    intro fuel entry address s block h _ _ _
    have hcounted : Guarding input (s.visit address).countOutside block := h.1.congr rfl rfl
    exact hcounted.close entry
  undecodable := by
    intro fuel entry address s block h _ _ _ _
    have hcounted : Guarding input (s.visit address).countUndecodable block := h.1.congr rfl rfl
    exact hcounted.close entry
  ended := fun h _ _ hdecode _ => (h.absorb hdecode).1.close _
  wentOn := fun h _ _ hdecode _ => h.absorb hdecode
  full := fun h => h.1.close _
  swept := fun h => h.swept

section
variable {table : Table} {fuel : ℕ} {image : RelocatedRuntimeImage} {entry : Word}
  {excluded : List AotExcludedGuestRange} {plan : AotTranslationPlan}
  (hplan : buildAotTranslationPlanFromEntry table fuel image entry excluded = some plan)
include hplan

/-- Every jump table of a plan has a chain that ends in front of it. -/
theorem jumpTable_guarded {r : AotInstructionRecord} (hr : r ∈ plan.records) (hkind : r.kind = .kJumpTable) :
    ∃ l before g, GuardChain table plan.records l before g ∧ l.next = r.guestAddress ∧
      g.requiresLowByteNormalization = false ∧ g.indexRegister = r.tableIndexRegister ∧
      g.entryCount = r.tableTargets.length := by
  have hstart : Guarding ⟨table, image, excluded, planCodeModeRanges image⟩ { pending := [entry] } [] := by
    refine ⟨?_, ?_, ?_⟩
    all_goals
      intro x hx
      cases hx
  rcases (guarding_invariant _).plan hstart hplan with rfl | ⟨s, hguarding, hblocks, -⟩
  · cases hr
  have hrecords : s.records ++ [] = plan.records := by
    rw [List.append_nil, PlannerState.records, ← hblocks]
    rfl
  rw [← hrecords] at hr ⊢
  obtain ⟨g, hg, hrequires, hindex, hcount⟩ := hguarding.tables r hr hkind
  obtain ⟨l, before, hchain, hl⟩ := hguarding.guards _ hg
  exact ⟨l, before, g, hchain, hl, hrequires, hindex, hcount⟩

/-- An instruction of a plan is planned once. -/
theorem record_unique {r r' : AotInstructionRecord} {i : Instruction} (hr : r ∈ plan.records)
    (hr' : r' ∈ plan.records) (hi : RecordOf table r i) (haddress : r'.guestAddress = r.guestAddress) :
    r' = r := by
  rcases (closed_invariant _).plan (closed_start _ entry) hplan with rfl | ⟨s, hclosed, hblocks, -⟩
  · cases hr
  have hrecords : s.records ++ [] = plan.records := by
    rw [List.append_nil, PlannerState.records, ← hblocks]
    rfl
  rw [← hrecords] at hr hr'
  -- an excluded address has no instruction
  have hplain : isExcludedGuestAddress excluded r.guestAddress = false := by
    by_contra hexcluded
    rw [Bool.not_eq_false] at hexcluded
    have hbytes := hi.bytes_length
    rw [hclosed.1.boundary r hr hexcluded] at hbytes
    exact absurd hbytes.symm (Nat.ne_of_gt i.length_pos)
  have hunique := hclosed.1.unique
  rw [PlannerState.addresses, List.filter_map] at hunique
  have hmem : r ∈ (s.records ++ []).filter
      ((fun a => !isExcludedGuestAddress excluded a) ∘ AotInstructionRecord.guestAddress) := by
    rw [List.mem_filter]
    exact ⟨hr, by simp [hplain]⟩
  have hmem' : r' ∈ (s.records ++ []).filter
      ((fun a => !isExcludedGuestAddress excluded a) ∘ AotInstructionRecord.guestAddress) := by
    rw [List.mem_filter]
    exact ⟨hr', by simp [haddress, hplain]⟩
  exact List.inj_on_of_nodup_map hunique hmem' hmem haddress

end

/-! ## The guest processor -/

/-- A guest processor, as far as a guard chain depends on it: the general registers, the two flags an
unsigned compare is read from, and what an instruction can do to the state. -/
structure GuestCpu (σ : Type) where
  gpr : σ → ℕ → Word
  carry : σ → Bool
  zero : σ → Bool
  executes : Instruction → σ → σ → Prop

/-- The architecture's rules for the instructions of a guard chain. -/
structure GuestCpuRules {σ : Type} (cpu : GuestCpu σ) : Prop where
  compare : ∀ {i s s' dst src rest id signed relative bound}, cpu.executes i s s' → i.mnemonic = .cmp →
    i.visible = dst :: src :: rest → dst.kind = .register (.gpr32 id) →
    src.kind = .immediate signed relative bound →
    cpu.gpr s' = cpu.gpr s ∧ cpu.carry s' = decide (cpu.gpr s id < BitVec.ofInt 32 bound) ∧
      cpu.zero s' = decide (cpu.gpr s id = BitVec.ofInt 32 bound)
  compareByte : ∀ {i s s' dst src rest id signed relative bound}, cpu.executes i s s' →
    i.mnemonic = .cmp → i.visible = dst :: src :: rest → dst.kind = .register (.gpr8 id) → id ≤ 3 →
    src.kind = .immediate signed relative bound →
    cpu.gpr s' = cpu.gpr s ∧
      cpu.carry s' = decide ((cpu.gpr s id).setWidth 8 < BitVec.ofInt 8 bound) ∧
      cpu.zero s' = decide ((cpu.gpr s id).setWidth 8 = BitVec.ofInt 8 bound)
  branch : ∀ {i s s'}, cpu.executes i s s' → i.mnemonic = .jnbe → cpu.gpr s' = cpu.gpr s
  mask : ∀ {i s s' dst src id signed relative value}, cpu.executes i s s' → i.mnemonic = .and →
    i.visible = [dst, src] → dst.kind = .register (.gpr32 id) →
    src.kind = .immediate signed relative value → cpu.gpr s' id = cpu.gpr s id &&& BitVec.ofInt 32 value
  extend : ∀ {i s s' dst src d id}, cpu.executes i s s' → i.mnemonic = .movzx → i.visible = [dst, src] →
    dst.kind = .register (.gpr32 d) → src.kind = .register (.gpr8 id) → id ≤ 3 →
    cpu.gpr s' d = ((cpu.gpr s id).setWidth 8).setWidth 32
  clear : ∀ {i s s' dst src d}, cpu.executes i s s' → i.mnemonic = .xor ∨ i.mnemonic = .sub →
    i.visible = [dst, src] → dst.kind = .register (.gpr32 d) → src.kind = .register (.gpr32 d) →
    cpu.gpr s' d = 0 ∧ ∀ id ≠ d, cpu.gpr s' id = cpu.gpr s id
  moveByte : ∀ {i s s' dst src d id}, cpu.executes i s s' → i.mnemonic = .mov → i.visible = [dst, src] →
    dst.kind = .register (.gpr8 d) → src.kind = .register (.gpr8 id) → d ≤ 3 → id ≤ 3 →
    cpu.gpr s' d = cpu.gpr s d &&& 0xFFFFFF00 ||| ((cpu.gpr s id).setWidth 8).setWidth 32

section
variable {σ : Type} {cpu : GuestCpu σ} {st st' : σ} {g g' : JumpTableGuard}

/-- What a guard promises of the state: a bounded low byte, with the register that was cleared for
it, or a bounded index. -/
def JumpTableGuard.Holds (g : JumpTableGuard) (cpu : GuestCpu σ) (st : σ) : Prop :=
  if g.requiresLowByteNormalization then
    ((cpu.gpr st g.indexRegister).setWidth 8).toNat < g.entryCount ∧
      (g.zeroedRegister ≠ 0xFF → cpu.gpr st g.zeroedRegister = 0)
  else (cpu.gpr st g.indexRegister).toNat < g.entryCount

theorem lowByte_toNat (w : Word) : ((w.setWidth 8).setWidth 32 : Word).toNat = (w.setWidth 8).toNat := by
  rw [BitVec.toNat_setWidth, Nat.mod_eq_of_lt]
  exact (w.setWidth 8).isLt.trans (by decide)

theorem mask_toNat (w : Word) : (w &&& BitVec.ofInt 32 0xFF).toNat = (w.setWidth 8).toNat := by
  have hmask : BitVec.ofInt 32 0xFF = 0xFF#32 := by decide
  rw [hmask, BitVec.toNat_and, BitVec.toNat_setWidth]
  exact Nat.and_two_pow_sub_one_eq_mod w.toNat 8

/-- A normalizing instruction turns one promise into the next. -/
theorem Normalizes.holds {i : Instruction} (hcpu : GuestCpuRules cpu) (h : Normalizes i g g')
    (hrequires : g.requiresLowByteNormalization = true) (hg : g.Holds cpu st)
    (hexec : cpu.executes i st st') : g'.Holds cpu st' := by
  unfold JumpTableGuard.Holds at hg
  rw [if_pos hrequires] at hg
  cases h with
  | mask hmnemonic hvisible hdst hsrc =>
    show (cpu.gpr st' g.indexRegister).toNat < g.entryCount
    rw [hcpu.mask hexec hmnemonic hvisible hdst hsrc, mask_toNat]
    exact hg.1
  | extend hmnemonic hvisible hdst hsrc hlow =>
    rename_i d
    show (cpu.gpr st' d).toNat < g.entryCount
    rw [hcpu.extend hexec hmnemonic hvisible hdst hsrc hlow, lowByte_toNat]
    exact hg.1
  | clear hmnemonic hvisible hdst hsrc hother =>
    rename_i d
    obtain ⟨hzero, hkeeps⟩ := hcpu.clear hexec hmnemonic hvisible hdst hsrc
    show if g.requiresLowByteNormalization then
      ((cpu.gpr st' g.indexRegister).setWidth 8).toNat < g.entryCount ∧
        (d ≠ 0xFF → cpu.gpr st' d = 0) else _
    rw [if_pos hrequires, hkeeps _ hother.symm]
    exact ⟨hg.1, fun _ => hzero⟩
  | move hmnemonic hvisible hzeroed hdst hsrc hlow =>
    show (cpu.gpr st' g.zeroedRegister).toNat < g.entryCount
    have hcleared : (0 : Word) &&& 0xFFFFFF00 = 0#32 := by decide
    rw [hcpu.moveByte hexec hmnemonic hvisible hdst hsrc hlow.1 hlow.2, hg.2 hzeroed, hcleared,
      BitVec.zero_or, lowByte_toNat]
    exact hg.1

theorem ofInt_toNat {width : ℕ} {bound : ℤ} (hlow : 0 ≤ bound) (hhigh : bound < 2 ^ width) :
    (BitVec.ofInt width bound).toNat = bound.toNat := by
  rw [BitVec.toNat_ofInt]
  congr 1
  apply Int.emod_eq_of_lt hlow
  exact_mod_cast hhigh

/-- The two forms of a guarding compare. -/
theorem compareGuard_eq_some {i : Instruction} (h : compareGuard i = some g) :
    ∃ dst src rest signed relative bound id, i.visible = dst :: src :: rest ∧
      src.kind = .immediate signed relative bound ∧ 0 ≤ bound ∧ bound < kMaximumJumpTableEntries ∧
      ((dst.kind = .register (.gpr32 id) ∧ g = ⟨id, bound.toNat + 1, false, 0xFF⟩) ∨
        (dst.kind = .register (.gpr8 id) ∧ id ≤ 3 ∧ g = ⟨id, bound.toNat + 1, true, 0xFF⟩)) := by
  unfold compareGuard at h
  split at h
  · rename_i dst src rest hvisible
    split at h
    · rename_i r signed relative bound hdst hsrc
      split at h
      · cases h
      rename_i hbound
      rw [not_or, not_lt, not_lt] at hbound
      have hlt : bound < kMaximumJumpTableEntries := by omega
      split at h
      · rename_i id hid
        rw [readGuardRegisterId_eq_some hid] at hdst
        exact ⟨dst, src, rest, signed, relative, bound, id, hvisible, hsrc, hbound.1, hlt,
          Or.inl ⟨hdst, (Option.some.inj h).symm⟩⟩
      · rename_i id _ hid
        obtain ⟨rfl, hle⟩ := readLowByteParentRegisterId_eq_some hid
        exact ⟨dst, src, rest, signed, relative, bound, id, hvisible, hsrc, hbound.1, hlt,
          Or.inr ⟨hdst, hle, (Option.some.inj h).symm⟩⟩
      · cases h
    · cases h
  · cases h

/-- Not above: the compared value is at most the bound. -/
theorem le_of_flags {width : ℕ} {x : BitVec width} {bound : ℤ} (hlow : 0 ≤ bound) (hhigh : bound < 2 ^ width)
    (h : (decide (x < BitVec.ofInt width bound) || decide (x = BitVec.ofInt width bound)) = true) :
    x.toNat < bound.toNat + 1 := by
  rw [Bool.or_eq_true, decide_eq_true_eq, decide_eq_true_eq, BitVec.lt_def] at h
  rcases h with h | h
  · rw [ofInt_toNat hlow hhigh] at h
    omega
  · rw [h, ofInt_toNat hlow hhigh]
    omega

/-- A compare and a `ja` that is not taken make the guard's promise. -/
theorem compareGuard_holds {c j : Instruction} {st'' : σ} (hcpu : GuestCpuRules cpu)
    (hg : compareGuard c = some g) (hcmp : c.mnemonic = .cmp) (hja : j.mnemonic = .jnbe)
    (hexec : cpu.executes c st st') (hbranch : cpu.executes j st' st'')
    (hflags : (cpu.carry st' || cpu.zero st') = true) : g.Holds cpu st'' := by
  obtain ⟨dst, src, rest, signed, relative, bound, id, hvisible, hsrc, hlow, hhigh, hform⟩ :=
    compareGuard_eq_some hg
  have hgpr := hcpu.branch hbranch hja
  have hsmall : bound < 61 := hhigh
  rcases hform with ⟨hdst, rfl⟩ | ⟨hdst, hle, rfl⟩
  · obtain ⟨hsame, hcarry, hzero⟩ := hcpu.compare hexec hcmp hvisible hdst hsrc
    show (cpu.gpr st'' id).toNat < bound.toNat + 1
    rw [hgpr, hsame]
    rw [hcarry, hzero] at hflags
    exact le_of_flags hlow (by omega) hflags
  · obtain ⟨hsame, hcarry, hzero⟩ := hcpu.compareByte hexec hcmp hvisible hdst hle hsrc
    show ((cpu.gpr st'' id).setWidth 8).toNat < bound.toNat + 1 ∧ _
    rw [hgpr, hsame]
    rw [hcarry, hzero] at hflags
    exact ⟨le_of_flags hlow (by omega) hflags, fun hne => absurd rfl hne⟩

end

/-! ## Paths through a plan -/

section
variable {σ : Type}

/-- One step along an edge of a plan: the record's instruction is executed and control goes to one of
the record's successors, by the flags where the instruction is a `ja`. -/
def PlanStep (table : Table) (cpu : GuestCpu σ) (plan : AotTranslationPlan) (a : Word) (st : σ) (b : Word)
    (st' : σ) : Prop :=
  ∃ r ∈ plan.records, ∃ i, r.guestAddress = a ∧ RecordOf table r i ∧ cpu.executes i st st' ∧
    b ∈ r.successors ∧
    (i.mnemonic = .jnbe → b = if (cpu.carry st || cpu.zero st) = true then r.next else r.directTarget)

/-- A step enters a chain (latest link first) only at its compare, and moves in it link by link. -/
def EntersAtCompare (chain : List Link) (a b : Word) : Prop :=
  ∀ front q p rest, chain = front ++ q :: p :: rest → b = q.address → a = p.address

/-- The paths of edges of a plan from its entry, with every step entering a chain at its compare. -/
inductive PlanPath (table : Table) (cpu : GuestCpu σ) (plan : AotTranslationPlan) (chain : List Link) :
    Word → σ → Prop
  | start {st : σ} (hentry : ∀ q ∈ chain.dropLast, q.address ≠ plan.entryAddress) :
      PlanPath table cpu plan chain plan.entryAddress st
  | step {a b : Word} {st st' : σ} (h : PlanPath table cpu plan chain a st)
      (hstep : PlanStep table cpu plan a st b st') (henters : EntersAtCompare chain a b) :
      PlanPath table cpu plan chain b st'

/-- The compare of a chain is decoded in its own mode, and its `ja` does not lead to the instruction
behind it. -/
def ComparesFairly (plan : AotTranslationPlan) (chain : List Link) : Prop :=
  ∀ front j c, chain = front ++ [j, c] → decoderMode c.codeMode = decoderMode j.codeMode ∧
    ∀ r ∈ plan.records, r.guestAddress = j.address → r.directTarget ≠ r.next

variable {table : Table} {cpu : GuestCpu σ} {plan : AotTranslationPlan} {chain : List Link}

/-- Such a path comes to a link from the link before it. -/
theorem PlanPath.before {front rest : List Link} {q p : Link} {a : Word} {st' : σ}
    (h : PlanPath table cpu plan chain a st') (hchain : chain = front ++ q :: p :: rest)
    (ha : a = q.address) :
    ∃ st, PlanPath table cpu plan chain p.address st ∧ PlanStep table cpu plan p.address st q.address st' := by
  cases h with
  | start hentry =>
    refine absurd ha.symm (hentry q ?_)
    rw [hchain, List.dropLast_append_of_ne_nil (List.cons_ne_nil _ _)]
    exact List.mem_append_right _ List.mem_cons_self
  | step h hstep henters =>
    have hp := henters front q p rest hchain ha
    rw [hp] at h hstep
    rw [ha] at hstep
    exact ⟨_, h, hstep⟩

variable {fuel : ℕ} {image : RelocatedRuntimeImage} {entry : Word} {excluded : List AotExcludedGuestRange}
  (hplan : buildAotTranslationPlanFromEntry table fuel image entry excluded = some plan)
include hplan

/-- A step from a link executes the link's instruction. -/
theorem PlanStep.link {l : Link} (hl : l.In table plan.records) {b : Word} {st st' : σ}
    (h : PlanStep table cpu plan l.address st b st') :
    cpu.executes l.instruction st st' ∧ ∃ r ∈ plan.records, r.guestAddress = l.address ∧ r.next = l.next ∧
      (l.instruction.mnemonic = .jnbe →
        b = if (cpu.carry st || cpu.zero st) = true then r.next else r.directTarget) := by
  obtain ⟨r, hr, i, haddress, hi, hexec, -, hbranch⟩ := h
  obtain ⟨r', hr', haddress', -, hi'⟩ := hl
  have hsame := record_unique hplan hr' hr hi' (haddress.trans haddress'.symm)
  rw [hsame] at hi
  have heq : i = l.instruction := by
    have := hi.decodes
    rw [hi'.decodes, Option.some.injEq] at this
    exact this.symm
  rw [heq] at hexec hbranch
  refine ⟨hexec, r, hr, haddress, ?_, hbranch⟩
  rw [hsame, AotInstructionRecord.next, hi'.length, haddress']
  rfl

/-- Behind a chain its guard holds. -/
theorem GuardChain.holds (hcpu : GuestCpuRules cpu) (hfair : ComparesFairly plan chain) {l : Link}
    {before : List Link} {g : JumpTableGuard} (h : GuardChain table plan.records l before g)
    (front : List Link) {q : Link} {st' : σ} (hchain : chain = front ++ q :: l :: before)
    (hq : q.address = l.next) (hpath : PlanPath table cpu plan chain q.address st') : g.Holds cpu st' := by
  induction h generalizing front q st' with
  | compare hc hj haddress hcmp hja hguard =>
    rename_i c j g
    obtain ⟨st, hpathj, hstepj⟩ := hpath.before hchain rfl
    obtain ⟨hexecj, r, hr, hrj, hnext, hbranch⟩ := PlanStep.link hplan hj hstepj
    have hchainj : chain = (front ++ [q]) ++ j :: c :: [] := by rw [hchain]; simp
    obtain ⟨st₀, -, hstepc⟩ := hpathj.before hchainj rfl
    obtain ⟨hexecc, -⟩ := PlanStep.link hplan hc hstepc
    obtain ⟨hmode, htarget⟩ := hfair (front ++ [q]) j c hchainj
    have hflags : (cpu.carry st || cpu.zero st) = true := by
      by_contra hflags
      have hb := hbranch hja
      rw [if_neg hflags, hq, ← hnext] at hb
      exact htarget r hr hrj hb.symm
    exact compareGuard_holds hcpu (hguard hmode) hcmp hja hexecc hexecj hflags
  | normalize _ hm haddress hrequires hnormalizes ih =>
    rename_i m p before g g' _
    obtain ⟨st, hpathm, hstepm⟩ := hpath.before hchain rfl
    obtain ⟨hexecm, -⟩ := PlanStep.link hplan hm hstepm
    have hg : g.Holds cpu st := ih (front ++ [q]) (by rw [hchain]; simp) haddress hpathm
    exact hnormalizes.holds hcpu hrequires hg hexecm

end

/-- Every jump table of a plan has a chain of a compare, a `ja` and normalizing instructions in front of
it; on every path that enters the chain at its compare, the index is below the number of targets. -/
theorem jumpTable_index_lt {σ : Type} {cpu : GuestCpu σ} (hcpu : GuestCpuRules cpu) {table : Table}
    {fuel : ℕ} {image : RelocatedRuntimeImage} {entry : Word} {excluded : List AotExcludedGuestRange}
    {plan : AotTranslationPlan}
    (hplan : buildAotTranslationPlanFromEntry table fuel image entry excluded = some plan) :
    ∀ r ∈ plan.records, r.kind = .kJumpTable → ∃ l before g i,
      GuardChain table plan.records l before g ∧ l.next = r.guestAddress ∧ RecordOf table r i ∧
      (ComparesFairly plan (⟨r.guestAddress, i, r.guestCodeDefaultOperandSize⟩ :: l :: before) →
        ∀ st, PlanPath table cpu plan
          (⟨r.guestAddress, i, r.guestCodeDefaultOperandSize⟩ :: l :: before) r.guestAddress st →
        (cpu.gpr st r.tableIndexRegister).toNat < r.tableTargets.length) := by
  intro r hr hkind
  obtain ⟨l, before, g, hchain, hl, hrequires, hindex, hcount⟩ := jumpTable_guarded hplan hr hkind
  obtain ⟨b, hb, hrb⟩ : ∃ b ∈ plan.blocks, r ∈ b.instructions := by
    simpa [AotTranslationPlan.records, List.mem_flatten] using hr
  rcases planned_records hplan b hb r hrb with ⟨-, hboundary⟩ | ⟨i, hi⟩
  · rw [hkind] at hboundary
    cases hboundary
  refine ⟨l, before, g, i, hchain, hl, hi, fun hfair st hpath => ?_⟩
  have hholds := hchain.holds hplan hcpu hfair [] rfl hl.symm hpath
  unfold JumpTableGuard.Holds at hholds
  rw [if_neg (by rw [hrequires]; decide), hindex, hcount] at hholds
  exact hholds

/-! ## A guarded table with a second way in -/

/-- A processor with the state a guard chain depends on. -/
structure SampleState where
  gpr : ℕ → Word
  carry : Bool
  zero : Bool

/-- Another value of a register. -/
def SampleState.set (s : SampleState) (id : ℕ) (w : Word) : SampleState :=
  { s with gpr := fun k => if k = id then w else s.gpr k }

/-- The flags of a compare. -/
def SampleState.compare {width : ℕ} (s : SampleState) (a b : BitVec width) : SampleState :=
  { s with carry := decide (a < b), zero := decide (a = b) }

/-- What the instructions of a guard chain do; no other is told apart. -/
def SampleState.execute (i : Instruction) (s : SampleState) : SampleState :=
  match i.mnemonic, i.visible with
  | .cmp, dst :: src :: _ =>
    match dst.kind, src.kind with
    | .register (.gpr32 id), .immediate _ _ bound => s.compare (s.gpr id) (BitVec.ofInt 32 bound)
    | .register (.gpr8 id), .immediate _ _ bound =>
      s.compare ((s.gpr id).setWidth 8) (BitVec.ofInt 8 bound)
    | _, _ => s
  | .and, [dst, src] =>
    match dst.kind, src.kind with
    | .register (.gpr32 id), .immediate _ _ value => s.set id (s.gpr id &&& BitVec.ofInt 32 value)
    | _, _ => s
  | .movzx, [dst, src] =>
    match dst.kind, src.kind with
    | .register (.gpr32 d), .register (.gpr8 id) => s.set d (((s.gpr id).setWidth 8).setWidth 32)
    | _, _ => s
  | .xor, [dst, src] | .sub, [dst, src] =>
    match dst.kind, src.kind with
    | .register (.gpr32 d), .register (.gpr32 id) => if d = id then s.set d 0 else s
    | _, _ => s
  | .mov, [dst, src] =>
    match dst.kind, src.kind with
    | .register (.gpr8 d), .register (.gpr8 id) =>
      s.set d (s.gpr d &&& 0xFFFFFF00 ||| ((s.gpr id).setWidth 8).setWidth 32)
    | _, _ => s
  | _, _ => s

/-- The processor of these instructions. -/
def sampleCpu : GuestCpu SampleState where
  gpr := SampleState.gpr
  carry := SampleState.carry
  zero := SampleState.zero
  executes := fun i s s' => s' = s.execute i

theorem sampleCpu_rules : GuestCpuRules sampleCpu where
  compare := by
    intro i s s' dst src rest id signed relative bound hexec hcmp hvisible hdst hsrc
    simp only [sampleCpu] at hexec ⊢
    rw [hexec]
    simp only [SampleState.execute, hcmp, hvisible, hdst, hsrc, SampleState.compare]
    exact ⟨trivial, rfl, rfl⟩
  compareByte := by
    intro i s s' dst src rest id signed relative bound hexec hcmp hvisible hdst _ hsrc
    simp only [sampleCpu] at hexec ⊢
    rw [hexec]
    simp only [SampleState.execute, hcmp, hvisible, hdst, hsrc, SampleState.compare]
    exact ⟨trivial, rfl, rfl⟩
  branch := by
    intro i s s' hexec hja
    simp only [sampleCpu] at hexec ⊢
    rw [hexec]
    simp [SampleState.execute, hja]
  mask := by
    intro i s s' dst src id signed relative value hexec hand hvisible hdst hsrc
    simp only [sampleCpu] at hexec ⊢
    rw [hexec]
    simp [SampleState.execute, hand, hvisible, hdst, hsrc, SampleState.set]
  extend := by
    intro i s s' dst src d id hexec hmovzx hvisible hdst hsrc _
    simp only [sampleCpu] at hexec ⊢
    rw [hexec]
    simp [SampleState.execute, hmovzx, hvisible, hdst, hsrc, SampleState.set]
  clear := by
    intro i s s' dst src d hexec hclear hvisible hdst hsrc
    simp only [sampleCpu] at hexec ⊢
    rw [hexec]
    rcases hclear with hclear | hclear
    all_goals
      simp only [SampleState.execute, hclear, hvisible, hdst, hsrc, SampleState.set, if_true]
      exact ⟨trivial, fun id hid => if_neg hid⟩
  moveByte := by
    intro i s s' dst src d id hexec hmov hvisible hdst hsrc _ _
    simp only [sampleCpu] at hexec ⊢
    rw [hexec]
    simp [SampleState.execute, hmov, hvisible, hdst, hsrc, SampleState.set]

/-- A switch over two cases at `0x1002`, and `jz` in front of it that leads behind its guard: `jz 0x1007`,
`cmp eax, 1`, `ja 0x100E`, `jmp [eax*4 + 0x1020]`. -/
def switchSource : RelocatedRuntimeImage :=
  { valid := true
    objects :=
      [{ relocatedBaseAddress := 0x1000
         virtualSize := 64
         flags := 0
         bytes := [0x74, 0x05, 0x83, 0xF8, 0x01, 0x77, 0x07, 0xFF, 0x24, 0x85, 0x20, 0x10, 0x00, 0x00,
           0xE9, 0xFB, 0xFF, 0xFF, 0xFF] ++ List.replicate 13 0x90 ++
           [0x0E, 0x10, 0x00, 0x00, 0x0E, 0x10, 0x00, 0x00] ++ List.replicate 24 0x90 }]
    codeModeRanges := [] }

/-- The plan of the switch from its compare on. -/
def switchPlan : AotTranslationPlan :=
  (buildAotTranslationPlanFromEntry controlTable 8 switchSource 0x1002 []).get (by decide +kernel)

/-- The plan with the second way in. -/
def bypassPlan : AotTranslationPlan :=
  (buildAotTranslationPlanFromEntry controlTable 16 switchSource 0x1000 []).get (by decide +kernel)

theorem switchPlan_built :
    buildAotTranslationPlanFromEntry controlTable 8 switchSource 0x1002 [] = some switchPlan :=
  (Option.some_get _).symm

theorem bypassPlan_built :
    buildAotTranslationPlanFromEntry controlTable 16 switchSource 0x1000 [] = some bypassPlan :=
  (Option.some_get _).symm

attribute [irreducible] switchPlan bypassPlan

/-- The table is recovered with two targets, and no way leads behind its guard. -/
theorem jumpTable_index_lt_switch :
    (∃ r ∈ switchPlan.records, r.kind = .kJumpTable ∧ r.tableTargets.length = 2) ∧
    ∀ r ∈ switchPlan.records, r.kind = .kJumpTable → ∃ l before g i,
      GuardChain controlTable switchPlan.records l before g ∧ l.next = r.guestAddress ∧
      RecordOf controlTable r i ∧
      (ComparesFairly switchPlan (⟨r.guestAddress, i, r.guestCodeDefaultOperandSize⟩ :: l :: before) →
        ∀ st, PlanPath controlTable sampleCpu switchPlan
          (⟨r.guestAddress, i, r.guestCodeDefaultOperandSize⟩ :: l :: before) r.guestAddress st →
        (sampleCpu.gpr st r.tableIndexRegister).toNat < r.tableTargets.length) := by
  refine ⟨?_, jumpTable_index_lt sampleCpu_rules switchPlan_built⟩
  have htable : ((buildAotTranslationPlanFromEntry controlTable 8 switchSource 0x1002 []).any fun plan =>
      plan.records.any fun r => r.kind = .kJumpTable ∧ r.tableTargets.length = 2) = true := by
    decide +kernel
  rw [switchPlan_built, Option.any_some, List.any_eq_true] at htable
  obtain ⟨r, hr, h⟩ := htable
  exact ⟨r, hr, of_decide_eq_true h⟩

/-- Over the `jz` control comes to the table with any index: here 5, with two targets. -/
theorem jumpTable_bypassed :
    ∃ r ∈ bypassPlan.records, r.kind = .kJumpTable ∧
      ∃ st, PlanPath controlTable sampleCpu bypassPlan [] r.guestAddress st ∧
        ¬(sampleCpu.gpr st r.tableIndexRegister).toNat < r.tableTargets.length := by
  have hplan : ((buildAotTranslationPlanFromEntry controlTable 16 switchSource 0x1000 []).any fun plan =>
      plan.records.any fun b => b.guestAddress = plan.entryAddress ∧ b.kind = .kConditionalBranch ∧
        b.mnemonic = .jz ∧ plan.records.any fun r => r.kind = .kJumpTable ∧
          r.guestAddress ∈ b.successors ∧ r.tableTargets.length = 2) = true := by
    decide +kernel
  rw [bypassPlan_built, Option.any_some, List.any_eq_true] at hplan
  obtain ⟨b, hb, hb'⟩ := hplan
  obtain ⟨hentry, hkind, hjz, hr'⟩ := of_decide_eq_true hb'
  obtain ⟨r, hr, hr'⟩ := List.any_eq_true.1 hr'
  obtain ⟨htable, hsuccessor, hcount⟩ := of_decide_eq_true hr'
  obtain ⟨block, hblock, hbb⟩ : ∃ block ∈ bypassPlan.blocks, b ∈ block.instructions := by
    simpa [AotTranslationPlan.records, List.mem_flatten] using hb
  rcases planned_records bypassPlan_built block hblock b hbb with ⟨-, hboundary⟩ | ⟨i, hi⟩
  · rw [hkind] at hboundary
    cases hboundary
  have hmnemonic : i.mnemonic = .jz := hi.mnemonic.symm.trans hjz
  -- The zero flag is set, so `jz` is taken; it leaves the registers alone.
  let st : SampleState := ⟨fun _ => 5, false, true⟩
  have hexec : st.execute i = st := by
    simp [SampleState.execute, hmnemonic]
  have hstart : PlanPath controlTable sampleCpu bypassPlan [] bypassPlan.entryAddress st :=
    PlanPath.start (by simp)
  have hstep : PlanStep controlTable sampleCpu bypassPlan bypassPlan.entryAddress st r.guestAddress st :=
    ⟨b, hb, i, hentry, hi, hexec.symm, hsuccessor, fun hja => by rw [hmnemonic] at hja; cases hja⟩
  refine ⟨r, hr, htable, st, hstart.step hstep (by simp [EntersAtCompare]), ?_⟩
  rw [hcount]
  show ¬(5 : Word).toNat < 2
  decide

end Repiu.Runtime
