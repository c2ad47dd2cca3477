import Repiu.Engine.RetiredCode

/-!
# Retirements that fail

`RetireAotGuestPage` writes its traps and resets its guards between two protection
calls.  Where the second one fails it reports a failure and returns, and what it wrote
stays.
-/

namespace Repiu.Engine

open Repiu.Runtime Repiu.Memory Repiu.X86

/-- A retirement that is reported as failed leaves the placement as it was: its code, its entries'
states, its pages and its retired addresses. -/
def FailsCleanly (p : AotCodeCachePlacement) (guestAddress : Word)
    (quarantine protectedWritable protectedExecute : Bool) : Prop :=
  (retireAotGuestPage guestAddress quarantine protectedWritable protectedExecute p).2.retired = false →
    (retireAotGuestPage guestAddress quarantine protectedWritable protectedExecute p).1 = p

/-- A guard has learned a target on the page. -/
def LearnedOn (mem : Memory) (page : Word) (g : AotInlineCacheEntry) : Prop :=
  mem g.guardOffset = 0x0F ∧ mem (g.guardOffset + 1) = 0x85 ∧
    aotGuestPage (mem.get32 g.targetImmediateOffset) = page

/-- What a retirement of the page would write is there already. -/
structure NothingToWrite (p : AotCodeCachePlacement) (page : Word) : Prop where
  traps : ∀ i ∈ selectedEntries p page, ∀ e, p.addressMap[i]? = some e → p.memory e.cacheOffset = 0xCC
  guards : ∀ site ∈ p.sites.indirectInlineCacheSites, ∀ g ∈ siteGuards site, ¬LearnedOn p.memory page g

section
variable {p : AotCodeCachePlacement}

/-! ## What is written -/

theorem trapEntries_same {selected : List ℕ} {m : Memory}
    (h : ∀ i ∈ selected, ∀ e, p.addressMap[i]? = some e → m e.cacheOffset = 0xCC) :
    trapEntries p selected m = m := by
  funext a
  by_cases ha : ∃ i ∈ selected, ∃ e, p.addressMap[i]? = some e ∧ a = e.cacheOffset
  · obtain ⟨i, hi, e, he, rfl⟩ := ha
    rw [trapEntries_selected p m hi he, h i hi e he]
  · apply trapEntries_frame
    intro i hi e he heq
    exact ha ⟨i, hi, e, he, heq⟩

/-- A guard that has learned nothing on the page stays as it is. -/
theorem resetGuard_of_not_learnedOn {size : ℕ} {page : Word} {target : ℕ} {m : Memory}
    {g : AotInlineCacheEntry} (h : ¬LearnedOn m page g) : resetGuard size page target m g = m := by
  unfold resetGuard
  split_ifs with hsize hbytes hpage
  · rfl
  · rfl
  · rfl
  · rw [not_or, not_not, not_not] at hbytes
    exact absurd ⟨hbytes.1, hbytes.2, not_not.mp hpage⟩ h

/-- The reset of a guard that has learned a target on the page is seen in its first byte. -/
theorem resetGuard_of_learnedOn {size : ℕ} {page : Word} {target : ℕ} {m : Memory}
    {g : AotInlineCacheEntry} (h : LearnedOn m page g)
    (hsize : g.guardOffset + 6 ≤ size ∧ g.targetImmediateOffset + 4 ≤ size ∧ target < size) :
    resetGuard size page target m g g.guardOffset = 0xE9 := by
  obtain ⟨hfirst, hsecond, hpage⟩ := h
  unfold resetGuard
  rw [if_neg (by omega), if_neg, if_neg (not_not.mpr hpage)]
  · rw [set_ne _ _ (by omega), set32_out _ _ (by omega), set_self]
  · rw [not_or, not_not, not_not]
    exact ⟨hfirst, hsecond⟩

/-- The bytes are as before exactly when nothing was left to write. -/
theorem Laid.retire_same_iff (h : Laid p) (page : Word) :
    resetInlineCacheGuardsTargetingPage p.size page p.sites.indirectInlineCacheSites
        (trapEntries p (selectedEntries p page) p.memory) = p.memory ↔ NothingToWrite p page := by
  constructor
  · intro hsame
    constructor
    · intro i hi e he
      have hout : ∀ site ∈ p.sites.indirectInlineCacheSites, ∀ g ∈ siteGuards site,
          ¬GuardRegion g e.cacheOffset := by
        intro site hs g hg ha
        obtain ⟨e', hof⟩ := h.guardOf hs hg
        exact hof.off_starts h ha (List.mem_of_getElem? he) rfl
      rw [← congrFun hsame e.cacheOffset, h.resets_out page _ hout]
      exact trapEntries_selected p _ hi he
    · intro site hs g hg hlearned
      obtain ⟨e, hof⟩ := h.guardOf hs hg
      have hin := hof.inside h
      have h₁ := hof.shape.immediate_ge
      have h₂ := hof.shape.guard_eq
      have h₃ := hof.shape.jump_ge
      have hregion : GuardRegion g g.guardOffset := ⟨by omega, by omega⟩
      have hbyte := congrFun hsame g.guardOffset
      rw [h.retire_at page _ _ hs hg hregion,
        resetGuard_of_learnedOn hlearned ⟨by omega, by omega, by omega⟩, hlearned.1] at hbyte
      exact absurd hbyte (by decide)
  · intro hnothing
    rw [trapEntries_same hnothing.traps]
    funext a
    by_cases ha : ∃ site ∈ p.sites.indirectInlineCacheSites, ∃ g ∈ siteGuards site, GuardRegion g a
    · obtain ⟨site, hs, g, hg, hregion⟩ := ha
      rw [h.resets_at page _ hs hg hregion, resetGuard_of_not_learnedOn (hnothing.guards site hs g hg)]
    · apply h.resets_out
      intro site hs g hg hregion
      exact ha ⟨site, hs, g, hg, hregion⟩

end

/-! ## When a failed retirement is clean -/

/-- A failed retirement leaves the placement alone except where it has selected entries, could make
the cache writable and could not restore it; and there only if all its bytes were in place before. -/
theorem retire_failsCleanly_iff {table : Table} (hpush : PushRows table) {p : AotCodeCachePlacement}
    (hreach : Reachable table p) (guestAddress : Word)
    (quarantine protectedWritable protectedExecute : Bool) :
    FailsCleanly p guestAddress quarantine protectedWritable protectedExecute ↔
      (p.placed = true → selectedEntries p (aotGuestPage guestAddress) ≠ [] → protectedWritable = true →
        protectedExecute = false → NothingToWrite p (aotGuestPage guestAddress)) := by
  unfold FailsCleanly
  by_cases hplaced : ¬p.placed
  · simp [retireAotGuestPage, hplaced]
  cases hstate : findGuestPageState p.guestPages (aotGuestPage guestAddress) with
  | none => simp [retireAotGuestPage, hplaced, hstate, selectedEntries]
  | some state =>
    have hselected : selectedEntries p (aotGuestPage guestAddress) =
        state.mapIndices.filter (retiresEntry p (aotGuestPage guestAddress)) := by
      simp only [selectedEntries, hstate]
    rw [← (hreach.laid hpush).retire_same_iff, hselected]
    unfold retireAotGuestPage
    simp only [if_neg hplaced, hstate]
    by_cases hnone : state.mapIndices.filter (retiresEntry p (aotGuestPage guestAddress)) = []
    · simp [hnone, AotGuestPageRetireResult.retired]
    rw [if_neg hnone]
    rw [not_not] at hplaced
    cases protectedWritable with
    | false => simp
    | true =>
      cases protectedExecute with
      | true => simp [AotGuestPageRetireResult.retired]
      | false =>
        -- the failure of the second protection call
        simp only [not_true_eq_false, if_false, Bool.false_eq_true, not_false_eq_true, if_true]
        constructor
        · intro hclean _ _ _ _
          exact congrArg AotCodeCachePlacement.memory (hclean rfl)
        · intro hsame _
          rw [hsame hplaced hnone trivial trivial]

/-- The second protection call fails behind the trap over the sample's second entry: the byte is
written, and the entry, the page and the retired addresses are as if it were not. -/
theorem retire_fails_halfway :
    Reachable sampleTable samplePlacement ∧
    (retireAotGuestPage 0x1000 false true false samplePlacement).2.retired = false ∧
    ¬FailsCleanly samplePlacement 0x1000 false true false ∧
    let p' := (retireAotGuestPage 0x1000 false true false samplePlacement).1
    samplePlacement.memory 12 = 0xB8 ∧ p'.memory 12 = 0xCC ∧ p'.isActive 1 = true ∧
      p'.addressMapStates = samplePlacement.addressMapStates ∧
      p'.guestPages = samplePlacement.guestPages ∧
      p'.inactiveMapIndices = samplePlacement.inactiveMapIndices := by
  have hfails : (retireAotGuestPage 0x1000 false true false samplePlacement).2.retired = false := by
    decide +kernel
  have hbefore : samplePlacement.memory 12 = 0xB8 := by decide +kernel
  have hafter : (retireAotGuestPage 0x1000 false true false samplePlacement).1.memory 12 = 0xCC := by
    decide +kernel
  refine ⟨reachable_samplePlacement, hfails, ?_, hbefore, hafter, by decide +kernel, by decide +kernel,
    by decide +kernel, by decide +kernel⟩
  intro hclean
  rw [hclean hfails, hbefore] at hafter
  exact absurd hafter (by decide)

/-- A retirement of the sample that cannot make the cache writable is clean. -/
theorem retire_failsCleanly_sample : FailsCleanly samplePlacement 0x1000 false false false :=
  (retire_failsCleanly_iff pushRows_sampleTable reachable_samplePlacement 0x1000 false false false).mpr
    fun _ _ hwritable => absurd hwritable Bool.false_ne_true

end Repiu.Engine
