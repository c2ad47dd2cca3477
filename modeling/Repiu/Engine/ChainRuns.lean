import Repiu.Engine.GuardChains

/-!
# Running a guard chain

A guard is vacant, and jumps to the end of its chain, or learned, and goes on to
the next guard when the branch value is not the one it holds.  `ChainOk` says that
every guard of a site is one or the other; under it the chain of a site is a
lookup that stops at the first vacant guard.
-/

namespace Repiu.Engine

open Repiu.Runtime Repiu.Memory Repiu.X86

/-! ## The chain as a lookup -/

/-- Where a learned guard goes on a mismatch. -/
def linkOf (guards : List AotInlineCacheEntry) (chainEnd k : ℕ) : ℕ :=
  match guards[k + 1]? with
  | some next => next.compareOffset
  | none => chainEnd

/-- A guard with its fixed bytes in place that is vacant or learned. -/
structure GuardOk (mem : Memory) (chainEnd link : ℕ) (g : AotInlineCacheEntry) : Prop where
  compare : mem g.compareOffset = 0x81
  popfd : mem (g.guardOffset + 6) = 0x9D
  jump : mem (g.jumpDisplacementOffset - 1) = 0xE9
  state : (mem g.guardOffset = 0xE9 ∧ relativeTarget mem (g.guardOffset + 1) = chainEnd) ∨
    (mem g.guardOffset = 0x0F ∧ mem (g.guardOffset + 1) = 0x85 ∧
      relativeTarget mem (g.guardOffset + 2) = link)

/-- Every guard of a chain is vacant or learned. -/
def ChainOk (mem : Memory) (chainEnd : ℕ) (guards : List AotInlineCacheEntry) : Prop :=
  ∀ k g, guards[k]? = some g → GuardOk mem chainEnd (linkOf guards chainEnd k) g

/-- No two guards hold the same target. -/
def Distinct (mem : Memory) (guards : List AotInlineCacheEntry) : Prop :=
  ∀ (j k : ℕ) (g g' : AotInlineCacheEntry), guards[j]? = some g → guards[k]? = some g' →
    mem g.guardOffset = 0x0F →
    mem g'.guardOffset = 0x0F →
    mem.get32 g.targetImmediateOffset = mem.get32 g'.targetImmediateOffset → j = k

/-- What the chain finds for a branch value: nothing behind a vacant guard. -/
def chainLookup (mem : Memory) (value : Word) : List AotInlineCacheEntry → Option ℤ
  | [] => none
  | g :: gs =>
    if mem g.guardOffset = 0xE9 then none
    else if mem.get32 g.targetImmediateOffset = value then
      some (relativeTarget mem g.jumpDisplacementOffset)
    else chainLookup mem value gs

/-- The outcome of a lookup. -/
def lookupOutcome (baseAddress : ℕ) : Option ℤ → ChainOutcome
  | none => .miss
  | some d => .jump (baseAddress + d)

theorem ChainOk.tail {mem : Memory} {chainEnd : ℕ} {g : AotInlineCacheEntry}
    {gs : List AotInlineCacheEntry} (h : ChainOk mem chainEnd (g :: gs)) : ChainOk mem chainEnd gs :=
  fun k g' hg' => h (k + 1) g' hg'

/-- Running a chain is looking the value up. -/
theorem runGuards_eq {mem : Memory} {chainEnd : ℕ} {guards : List AotInlineCacheEntry}
    (hne : guards ≠ []) (hok : ChainOk mem chainEnd guards)
    (hend : ∀ g ∈ guards, g.compareOffset < chainEnd) (baseAddress : ℕ) (value : Word) :
    runGuards mem baseAddress chainEnd value guards =
      lookupOutcome baseAddress (chainLookup mem value guards) := by
  induction guards with
  | nil => contradiction
  | cons g gs ih =>
    have hg := hok 0 g rfl
    unfold runGuards runGuard chainLookup
    rw [if_neg (not_not.mpr hg.compare)]
    rcases hg.state with ⟨hvacant, htarget⟩ | ⟨hbyte, hbyte', hlink⟩
    · simp only [hvacant, if_true, htarget, lookupOutcome]
    · have hnot : mem g.guardOffset ≠ 0xE9 := by
        rw [hbyte]
        decide
      rw [if_neg hnot, if_pos ⟨hbyte, hbyte'⟩, if_neg hnot]
      by_cases hvalue : mem.get32 g.targetImmediateOffset = value
      · rw [if_neg (not_not.mpr hvalue.symm), if_pos ⟨hg.popfd, hg.jump⟩, if_pos hvalue]
        rfl
      · rw [if_pos (Ne.symm hvalue), if_neg hvalue]
        simp only [hlink]
        cases gs with
        | nil => simp [linkOf, chainLookup, lookupOutcome]
        | cons next rest =>
          have hlt := hend next (by simp)
          have hne' : ((linkOf (g :: next :: rest) chainEnd 0 : ℕ) : ℤ) ≠ chainEnd := by
            simp only [linkOf, List.getElem?_cons_succ, List.getElem?_cons_zero]
            omega
          have hnext : ((linkOf (g :: next :: rest) chainEnd 0 : ℕ) : ℤ) = next.compareOffset := by
            simp [linkOf]
          rw [if_neg hne']
          simp only
          rw [if_pos hnext]
          exact ih (by simp) hok.tail fun g' hg' => hend g' (List.mem_cons_of_mem g hg')

/-- The lookup finds a learned guard with the value, with no vacant guard up to it. -/
theorem chainLookup_eq_some {mem : Memory} {value : Word} {guards : List AotInlineCacheEntry} {d : ℤ}
    (h : chainLookup mem value guards = some d) :
    ∃ (k : ℕ) (g : AotInlineCacheEntry), guards[k]? = some g ∧ mem g.guardOffset ≠ 0xE9 ∧
      mem.get32 g.targetImmediateOffset = value ∧ relativeTarget mem g.jumpDisplacementOffset = d ∧
      ∀ j < k, ∀ g' : AotInlineCacheEntry, guards[j]? = some g' → mem g'.guardOffset ≠ 0xE9 := by
  induction guards with
  | nil => simp [chainLookup] at h
  | cons g gs ih =>
    unfold chainLookup at h
    split_ifs at h with hvacant hvalue
    · exact ⟨0, g, rfl, hvacant, hvalue, Option.some.inj h, by simp⟩
    · obtain ⟨k, g', hg', hv, himm, hd, hbefore⟩ := ih h
      refine ⟨k + 1, g', hg', hv, himm, hd, ?_⟩
      intro j hj g'' hg''
      cases j with
      | zero =>
        simp only [List.getElem?_cons_zero, Option.some.injEq] at hg''
        exact hg'' ▸ hvacant
      | succ j => exact hbefore j (by omega) g'' hg''

/-- A guard is found when no guard before it is vacant or holds its value. -/
theorem chainLookup_of_first {mem : Memory} {guards : List AotInlineCacheEntry} {k : ℕ}
    {g : AotInlineCacheEntry} (hg : guards[k]? = some g) (hv : mem g.guardOffset ≠ 0xE9)
    (hbefore : ∀ j < k, ∀ g', guards[j]? = some g' → mem g'.guardOffset ≠ 0xE9 ∧
      mem.get32 g'.targetImmediateOffset ≠ mem.get32 g.targetImmediateOffset) :
    chainLookup mem (mem.get32 g.targetImmediateOffset) guards =
      some (relativeTarget mem g.jumpDisplacementOffset) := by
  induction guards generalizing k with
  | nil => simp at hg
  | cons x xs ih =>
    unfold chainLookup
    cases k with
    | zero =>
      simp only [List.getElem?_cons_zero, Option.some.injEq] at hg
      rw [hg, if_neg hv, if_pos rfl]
    | succ k =>
      obtain ⟨hx, hne⟩ := hbefore 0 (by omega) x rfl
      rw [if_neg hx, if_neg hne]
      exact ih (k := k) hg fun j hj g' hg' => hbefore (j + 1) (by omega) g' hg'

/-! ## Fresh chains -/

theorem toInt_ofInt_small {n : ℤ} (h : -2 ^ 31 ≤ n) (h' : n < 2 ^ 31) : (BitVec.ofInt 32 n).toInt = n :=
  BitVec.toInt_ofInt_eq_self (by omega) h h'

/-- A displacement that was stored for a target leads there. -/
theorem relativeTarget_of_get32 {mem : Memory} {offset : ℕ} {target : ℤ}
    (h : mem.get32 offset = BitVec.ofInt 32 (target - (offset + 4)))
    (hlo : -2 ^ 31 ≤ target - (offset + 4)) (hhi : target - (offset + 4) < 2 ^ 31) :
    relativeTarget mem offset = target := by
  rw [relativeTarget, h, toInt_ofInt_small hlo hhi]
  ring

/-- A fresh chain is in order, and holds nothing. -/
theorem ChainFresh.chainOk {mem : Memory} {site : AotIndirectInlineCacheSite} {lo hi : ℕ}
    (h : ChainFresh mem site) (hin : ChainIn site lo hi) :
    ChainOk mem (aotInlineCacheGuardTargetOffset site) (siteGuards site) ∧
      ∀ g ∈ siteGuards site, mem g.guardOffset = 0xE9 := by
  rw [siteGuards_eq hin.entries_ne]
  refine ⟨?_, fun g hg => (h g hg).guard⟩
  intro k g hg
  have hmem := List.mem_of_getElem? hg
  have hf := h g hmem
  have hb := hin.guards.bounds hmem
  have := hin.miss_ge
  have := hin.miss_lt
  have := hin.short
  refine ⟨hf.compare, hf.popfd, hf.jump, Or.inl ⟨hf.guard, ?_⟩⟩
  refine relativeTarget_of_get32 ?_ ?_ ?_
  · rw [hf.link, rel32]
  · push_cast
    omega
  · push_cast
    omega

/-! ## What the writers do to a guard -/

section Guard

variable {m m' : Memory} {chainEnd link : ℕ} {g : AotInlineCacheEntry}

/-- The state of a guard is in its own bytes. -/
theorem GuardOk.congr (h : GuardOk m chainEnd link g) (hshape : GuardShape g)
    (heq : ∀ a, GuardRegion g a → m' a = m a) : GuardOk m' chainEnd link g := by
  have h₁ := hshape.immediate_ge
  have h₂ := hshape.guard_eq
  have h₃ := hshape.jump_ge
  have hbyte : ∀ a, g.compareOffset ≤ a → a < g.jumpDisplacementOffset + 4 → m' a = m a :=
    fun a hlo hhi => heq a ⟨hlo, hhi⟩
  have htarget : ∀ a, g.compareOffset ≤ a → a + 4 ≤ g.jumpDisplacementOffset + 4 →
      relativeTarget m' a = relativeTarget m a := by
    intro a hlo hhi
    rw [relativeTarget, relativeTarget, get32_congr fun i hi hi' => hbyte i (by omega) (by omega)]
  refine ⟨?_, ?_, ?_, ?_⟩
  · rw [hbyte _ (by omega) (by omega)]
    exact h.compare
  · rw [hbyte _ (by omega) (by omega)]
    exact h.popfd
  · rw [hbyte _ (by omega) (by omega)]
    exact h.jump
  · rw [hbyte g.guardOffset (by omega) (by omega), hbyte (g.guardOffset + 1) (by omega) (by omega),
      htarget (g.guardOffset + 1) (by omega) (by omega), htarget (g.guardOffset + 2) (by omega) (by omega)]
    exact h.state

/-- Writing the immediate alone. -/
theorem GuardOk.set_immediate (h : GuardOk m chainEnd link g) (hshape : GuardShape g) (target : Word) :
    GuardOk (m.set32 g.targetImmediateOffset target) chainEnd link g := by
  have h₁ := hshape.immediate_ge
  have h₂ := hshape.guard_eq
  have h₃ := hshape.jump_ge
  have hbyte : ∀ a, a < g.targetImmediateOffset ∨ g.targetImmediateOffset + 4 ≤ a →
      m.set32 g.targetImmediateOffset target a = m a := fun a ha => set32_out m target ha
  have htarget : ∀ a, g.targetImmediateOffset + 4 ≤ a →
      relativeTarget (m.set32 g.targetImmediateOffset target) a = relativeTarget m a := by
    intro a ha
    rw [relativeTarget, relativeTarget, get32_congr fun i hi hi' => hbyte i (by omega)]
  refine ⟨?_, ?_, ?_, ?_⟩
  · rw [hbyte _ (by omega)]
    exact h.compare
  · rw [hbyte _ (by omega)]
    exact h.popfd
  · rw [hbyte _ (by omega)]
    exact h.jump
  · rw [hbyte g.guardOffset (by omega), hbyte (g.guardOffset + 1) (by omega),
      htarget (g.guardOffset + 1) (by omega), htarget (g.guardOffset + 2) (by omega)]
    exact h.state

/-- A learned guard: its bytes, its target and its jump. -/
theorem learnGuard_spec (hshape : GuardShape g) (m : Memory) (link : ℕ) (target : Word) (relative : ℤ) :
    let m' := learnGuard m g link target relative
    m' g.guardOffset = 0x0F ∧ m' (g.guardOffset + 1) = 0x85 ∧ m'.get32 g.targetImmediateOffset = target ∧
      m'.get32 g.jumpDisplacementOffset = BitVec.ofInt 32 relative ∧
      m'.get32 (g.guardOffset + 2) = BitVec.ofNat 32 link - BitVec.ofNat 32 (g.guardOffset + 6) ∧
      ∀ a, (a < g.targetImmediateOffset ∨ g.guardOffset + 6 ≤ a) →
        (a < g.jumpDisplacementOffset ∨ g.jumpDisplacementOffset + 4 ≤ a) → m' a = m a := by
  intro m'
  have h₂ := hshape.guard_eq
  have h₃ := hshape.jump_ge
  have hout : ∀ a, a < g.guardOffset ∨ g.guardOffset + 6 ≤ a →
      m' a = ((m.set32 g.targetImmediateOffset target).set32 g.jumpDisplacementOffset
        (BitVec.ofInt 32 relative)) a := by
    intro a ha
    simp only [m', learnGuard]
    rw [set32_out _ _ (by omega), set_ne _ _ (by omega), set_ne _ _ (by omega)]
  refine ⟨?_, ?_, ?_, ?_, ?_, ?_⟩
  · simp only [m', learnGuard]
    rw [set32_out _ _ (by omega), set_ne _ _ (by omega), set_self]
  · simp only [m', learnGuard]
    rw [set32_out _ _ (by omega), set_self]
  · rw [get32_congr fun i hi hi' => hout i (by omega), get32_congr fun i hi hi' => set32_out _ _ (by omega),
      get32_set32]
  · rw [get32_congr fun i hi hi' => hout i (by omega), get32_set32]
  · exact get32_set32 _ _ _
  · intro a ha ha'
    rw [hout a (by omega), set32_out _ _ ha', set32_out _ _ (by omega)]

/-- Writing a guard changes its bytes behind the compare at most, and nothing where the cache cannot be
written. -/
theorem patchGuard_frame (hshape : GuardShape g) (call : PatchCall) (p : AotCodeCachePlacement) (link : ℕ) :
    ∃ m, (patchGuard call p g link).1 = { p with memory := m } ∧ (call.protectedWritable = true ∨ m = p.memory) ∧
      ∀ a, a < g.targetImmediateOffset ∨ g.jumpDisplacementOffset + 4 ≤ a → m a = p.memory a := by
  have h₂ := hshape.guard_eq
  have h₃ := hshape.jump_ge
  rcases patchGuard_cases call p g link with ⟨-, hr⟩ | ⟨hwritable, -, hr⟩ | ⟨hwritable, -, hr⟩
  · exact ⟨_, by rw [hr], Or.inr rfl, fun _ _ => rfl⟩
  · exact ⟨_, by rw [hr], Or.inl hwritable, fun a ha => set32_out _ _ (by omega)⟩
  · exact ⟨_, by rw [hr], Or.inl hwritable, fun a ha =>
      (learnGuard_spec hshape _ _ _ _).2.2.2.2.2 a (by omega) (by omega)⟩

theorem ofNat_sub_ofNat (a b : ℕ) :
    BitVec.ofNat 32 a - BitVec.ofNat 32 b = BitVec.ofInt 32 ((a : ℤ) - b) := by
  refine BitVec.eq_of_toInt_eq ?_
  rw [BitVec.toInt_sub, BitVec.toInt_ofNat', BitVec.toInt_ofNat', BitVec.toInt_ofInt, Int.sub_bmod_bmod,
    Int.bmod_sub_bmod]

/-- Learning makes a guard learned. -/
theorem GuardOk.learn (h : GuardOk m chainEnd link g) (hshape : GuardShape g)
    (hlink : g.guardOffset + 6 ≤ link) (hnear : link < g.guardOffset + 256) (target : Word) (relative : ℤ) :
    GuardOk (learnGuard m g link target relative) chainEnd link g := by
  have h₁ := hshape.immediate_ge
  have h₂ := hshape.guard_eq
  have h₃ := hshape.jump_ge
  obtain ⟨hguard, hguard', -, -, hget, hout⟩ := learnGuard_spec hshape m link target relative
  refine ⟨?_, ?_, ?_, Or.inr ⟨hguard, hguard', ?_⟩⟩
  · rw [hout _ (by omega) (by omega)]
    exact h.compare
  · rw [hout _ (by omega) (by omega)]
    exact h.popfd
  · rw [hout _ (by omega) (by omega)]
    exact h.jump
  · refine relativeTarget_of_get32 ?_ ?_ ?_
    · rw [hget, ofNat_sub_ofNat]
      congr 1
    · push_cast
      omega
    · push_cast
      omega

/-- A reset leaves a guard as it is, or vacant. -/
theorem resetGuard_cases (size : ℕ) (page : Word) (target : ℕ) (m : Memory) (g : AotInlineCacheEntry) :
    resetGuard size page target m g = m ∨
    resetGuard size page target m g =
      ((m.set g.guardOffset 0xE9).set32 (g.guardOffset + 1)
        (BitVec.ofInt 32 ((target : ℤ) - ((g.guardOffset : ℤ) + 5)))).set (g.guardOffset + 5) 0x90 := by
  unfold resetGuard
  split_ifs
  · exact Or.inl rfl
  · exact Or.inl rfl
  · exact Or.inl rfl
  · exact Or.inr rfl

theorem GuardOk.reset (h : GuardOk m chainEnd link g) (hshape : GuardShape g)
    (hend : g.guardOffset + 6 ≤ chainEnd) (hnear : chainEnd < g.guardOffset + 256) (size : ℕ)
    (page : Word) : GuardOk (resetGuard size page chainEnd m g) chainEnd link g := by
  have h₁ := hshape.immediate_ge
  have h₂ := hshape.guard_eq
  have h₃ := hshape.jump_ge
  rcases resetGuard_cases size page chainEnd m g with heq | heq
  · rw [heq]
    exact h
  rw [heq]
  have hout : ∀ a, a < g.guardOffset ∨ g.guardOffset + 6 ≤ a →
      ((m.set g.guardOffset 0xE9).set32 (g.guardOffset + 1)
        (BitVec.ofInt 32 ((chainEnd : ℤ) - ((g.guardOffset : ℤ) + 5)))).set (g.guardOffset + 5) 0x90 a =
      m a := by
    intro a ha
    rw [set_ne _ _ (by omega), set32_out _ _ (by omega), set_ne _ _ (by omega)]
  refine ⟨?_, ?_, ?_, Or.inl ⟨?_, ?_⟩⟩
  · rw [hout _ (by omega)]
    exact h.compare
  · rw [hout _ (by omega)]
    exact h.popfd
  · rw [hout _ (by omega)]
    exact h.jump
  · rw [set_ne _ _ (by omega), set32_out _ _ (by omega), set_self]
  · refine relativeTarget_of_get32 ?_ ?_ ?_
    · rw [get32_congr fun i hi hi' => set_ne _ _ (by omega), get32_set32]
      congr 1
    · push_cast
      omega
    · push_cast
      omega

end Guard

end Repiu.Engine
