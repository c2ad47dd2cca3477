import Repiu.Engine.SiteRuns

/-!
# Inline-cache runs

`SiteSound` holds of a site in every run; from it, when a patched target is
reached, and that a run whose patches all complete only jumps to what was learned
last.
-/

namespace Repiu.Engine

open Repiu.Runtime Repiu.Memory Repiu.X86

/-! ## Choosing a guard -/

section Choose

variable {m : Memory} {guards : List AotInlineCacheEntry} {target : Word} {cursor : ℕ}

theorem holdsTarget_iff {g : AotInlineCacheEntry} :
    holdsTarget m target g = true ↔ m g.guardOffset = 0x0F ∧ m.get32 g.targetImmediateOffset = target := by
  simp [holdsTarget]

theorem isVacant_iff {g : AotInlineCacheEntry} : isVacant m g = true ↔ m g.guardOffset = 0xE9 := by
  simp [isVacant]

/-- The chosen guard holds the target, or no guard does and it is the first vacant one if there
is one. -/
theorem chooseGuard_spec (m : Memory) (guards : List AotInlineCacheEntry) (target : Word) (cursor : ℕ) :
    let i := (chooseGuard m guards target cursor).1
    (∃ g, guards[i]? = some g ∧ holdsTarget m target g = true) ∨
    ((∀ g ∈ guards, holdsTarget m target g = false) ∧
      ∀ j < i, ∀ g, guards[j]? = some g → isVacant m g = false) := by
  intro i
  cases hfind : guards.findIdx? (holdsTarget m target) with
  | some index =>
    have hi : i = index := by simp only [i, chooseGuard, hfind]
    obtain ⟨hlt, hholds, -⟩ := List.findIdx?_eq_some_iff_getElem.mp hfind
    exact Or.inl ⟨guards[index], by rw [hi, List.getElem?_eq_getElem hlt], hholds⟩
  | none =>
    refine Or.inr ⟨fun g hg => by simpa using List.findIdx?_eq_none_iff.mp hfind g hg, ?_⟩
    cases hvacant : guards.findIdx? (isVacant m) with
    | some index =>
      have hi : i = index := by simp only [i, chooseGuard, hfind, hvacant]
      obtain ⟨hlt, -, hbefore⟩ := List.findIdx?_eq_some_iff_getElem.mp hvacant
      intro j hj g hg
      obtain ⟨hj', rfl⟩ := List.getElem?_eq_some_iff.mp hg
      simpa using hbefore j (hi ▸ hj)
    | none =>
      intro j _ g hg
      simpa using List.findIdx?_eq_none_iff.mp hvacant g (List.mem_of_getElem? hg)

/-- No guard but the chosen one holds the target. -/
theorem chooseGuard_others (hdistinct : Distinct m guards) {j : ℕ} {g : AotInlineCacheEntry}
    (hg : guards[j]? = some g) (hj : j ≠ (chooseGuard m guards target cursor).1) :
    holdsTarget m target g = false := by
  rcases chooseGuard_spec m guards target cursor with
    ⟨g', hg', hholds⟩ | ⟨hnone, -⟩
  · by_contra h
    rw [Bool.not_eq_false, holdsTarget_iff] at h
    rw [holdsTarget_iff] at hholds
    exact hj (hdistinct j _ g g' hg hg' h.1 hholds.1 (h.2.trans hholds.2.symm))
  · exact hnone g (List.mem_of_getElem? hg)

end Choose

/-! ## Sound chains -/

/-- Every guard is vacant or learned, and no target is held twice. -/
structure SiteSound (m : Memory) (site : AotIndirectInlineCacheSite) : Prop where
  chain : ChainOk m (aotInlineCacheGuardTargetOffset site) (siteGuards site)
  distinct : Distinct m (siteGuards site)

section Sound

variable {m m' : Memory} {site : AotIndirectInlineCacheSite} {lo hi : ℕ}

/-- Where the guards of a chain and their links lie. -/
theorem guard_bounds (hin : ChainIn site lo hi) {i : ℕ} {g : AotInlineCacheEntry}
    (hg : (siteGuards site)[i]? = some g) :
    GuardShape g ∧ lo < g.compareOffset ∧
      g.jumpDisplacementOffset + 4 ≤ linkOf (siteGuards site) (aotInlineCacheGuardTargetOffset site) i ∧
      linkOf (siteGuards site) (aotInlineCacheGuardTargetOffset site) i ≤
        aotInlineCacheGuardTargetOffset site ∧
      aotInlineCacheGuardTargetOffset site < lo + 255 := by
  rw [siteGuards_eq hin.entries_ne] at hg ⊢
  have hmem := List.mem_of_getElem? hg
  obtain ⟨h₁, h₂, h₃, h₄, h₅⟩ := hin.guards.bounds hmem
  have := hin.miss_ge
  have := hin.miss_lt
  have := hin.short
  refine ⟨⟨h₂, h₃, h₄⟩, by omega, ?_, ?_, by omega⟩
  · unfold linkOf
    split
    · rename_i next hnext
      obtain ⟨hi, rfl⟩ := List.getElem?_eq_some_iff.mp hg
      obtain ⟨hi', rfl⟩ := List.getElem?_eq_some_iff.mp hnext
      exact List.pairwise_iff_getElem.mp (pairwise_of_guardsAt hin.guards) i (i + 1) hi hi' (by omega)
    · exact h₅
  · unfold linkOf
    split
    · rename_i next hnext
      have := hin.guards.bounds (List.mem_of_getElem? hnext)
      omega
    · exact le_rfl

/-- A learned guard is not vacant, and the other way round. -/
theorem SiteSound.not_vacant_iff (h : SiteSound m site) {i : ℕ} {g : AotInlineCacheEntry}
    (hg : (siteGuards site)[i]? = some g) : m g.guardOffset ≠ 0xE9 ↔ m g.guardOffset = 0x0F := by
  rcases (h.chain i g hg).state with ⟨hvacant, -⟩ | ⟨hlearned, -⟩
  · rw [hvacant]
    decide
  · rw [hlearned]
    decide

/-- The bytes of a guard that a learned state is read from. -/
theorem GuardShape.reads {g : AotInlineCacheEntry} (hshape : GuardShape g)
    (heq : ∀ a, GuardRegion g a → m' a = m a) :
    m' g.guardOffset = m g.guardOffset ∧
      m'.get32 g.targetImmediateOffset = m.get32 g.targetImmediateOffset ∧
      relativeTarget m' g.jumpDisplacementOffset = relativeTarget m g.jumpDisplacementOffset := by
  have h₁ := hshape.immediate_ge
  have h₂ := hshape.guard_eq
  have h₃ := hshape.jump_ge
  refine ⟨heq _ ⟨by omega, by omega⟩, get32_congr fun i _ _ => heq i ⟨by omega, by omega⟩, ?_⟩
  rw [relativeTarget, relativeTarget, get32_congr fun i _ _ => heq i ⟨by omega, by omega⟩]

/-- Writing one guard, to a target no other guard holds. -/
theorem SiteSound.write (h : SiteSound m site) (hin : ChainIn site lo hi) {i : ℕ}
    {g : AotInlineCacheEntry} (hg : (siteGuards site)[i]? = some g) {target : Word}
    (hothers : ∀ (j : ℕ) (g' : AotInlineCacheEntry), (siteGuards site)[j]? = some g' → j ≠ i →
      holdsTarget m target g' = false)
    (hframe : ∀ a, ¬GuardRegion g a → m' a = m a) (himm : m'.get32 g.targetImmediateOffset = target)
    (hok : GuardOk m' (aotInlineCacheGuardTargetOffset site)
      (linkOf (siteGuards site) (aotInlineCacheGuardTargetOffset site) i) g) : SiteSound m' site := by
  have hsame : ∀ (j : ℕ) (g' : AotInlineCacheEntry), (siteGuards site)[j]? = some g' → j ≠ i →
      ∀ a, GuardRegion g' a → m' a = m a := by
    intro j g' hg' hj a ha
    exact hframe a (guards_apart_of_chainIn hin hg' hg hj ha)
  have hother : ∀ (j : ℕ) (g' : AotInlineCacheEntry), (siteGuards site)[j]? = some g' → j ≠ i →
      m' g'.guardOffset = 0x0F → m'.get32 g'.targetImmediateOffset ≠ target := by
    intro j g' hg' hj hlearned himm'
    obtain ⟨hbyte, hword, -⟩ := (guard_bounds hin hg').1.reads (hsame j g' hg' hj)
    have := hothers j g' hg' hj
    rw [Bool.eq_false_iff, ne_eq, holdsTarget_iff] at this
    exact this ⟨hbyte ▸ hlearned, hword ▸ himm'⟩
  refine ⟨?_, ?_⟩
  · intro j g' hg'
    by_cases hj : j = i
    · subst hj
      obtain rfl : g' = g := Option.some.inj (hg'.symm.trans hg)
      exact hok
    · exact (h.chain j g' hg').congr (guard_bounds hin hg').1 (hsame j g' hg' hj)
  · intro j k x y hx hy hlx hly heq
    by_cases hj : j = i <;> by_cases hk : k = i
    · rw [hj, hk]
    · subst hj
      obtain rfl : x = g := Option.some.inj (hx.symm.trans hg)
      exact absurd (heq.symm.trans himm) (hother k y hy hk hly)
    · subst hk
      obtain rfl : y = g := Option.some.inj (hy.symm.trans hg)
      exact absurd (heq.trans himm) (hother j x hx hj hlx)
    · obtain ⟨hbx, hwx, -⟩ := (guard_bounds hin hx).1.reads (hsame j x hx hj)
      obtain ⟨hby, hwy, -⟩ := (guard_bounds hin hy).1.reads (hsame k y hy hk)
      exact h.distinct j k x y hx hy (hbx ▸ hlx) (hby ▸ hly) (hwx ▸ hwy ▸ heq)

/-- Each guard left alone or made vacant. -/
theorem SiteSound.vacate (h : SiteSound m site) (hin : ChainIn site lo hi)
    (hguards : ∀ (j : ℕ) (g : AotInlineCacheEntry), (siteGuards site)[j]? = some g →
      GuardOk m' (aotInlineCacheGuardTargetOffset site)
        (linkOf (siteGuards site) (aotInlineCacheGuardTargetOffset site) j) g ∧
      (m' g.guardOffset = 0x0F → ∀ a, GuardRegion g a → m' a = m a)) : SiteSound m' site := by
  refine ⟨fun j g hg => (hguards j g hg).1, ?_⟩
  intro j k x y hx hy hlx hly heq
  obtain ⟨hbx, hwx, -⟩ := (guard_bounds hin hx).1.reads ((hguards j x hx).2 hlx)
  obtain ⟨hby, hwy, -⟩ := (guard_bounds hin hy).1.reads ((hguards k y hy).2 hly)
  exact h.distinct j k x y hx hy (hbx ▸ hlx) (hby ▸ hly) (hwx ▸ hwy ▸ heq)

/-- A guard that is learned behind a reset was not reset. -/
theorem resetGuard_learned {size : ℕ} {page : Word} {target : ℕ} {g : AotInlineCacheEntry}
    (h : resetGuard size page target m g g.guardOffset = 0x0F) : resetGuard size page target m g = m := by
  rcases resetGuard_cases size page target m g with heq | heq
  · exact heq
  · rw [heq, set_ne _ _ (by omega), set32_out _ _ (by omega), set_self] at h
    exact absurd h (by decide)

end Sound

/-! ## One operation -/

section Step

variable {p p' : AotCodeCachePlacement} {k : ℕ} {site : AotIndirectInlineCacheSite} {op : Operation}

theorem Laid.chainIn (hlaid : Laid p) (hs : p.sites.indirectInlineCacheSites[k]? = some site) :
    ∃ lo hi, ChainIn site lo hi := by
  obtain ⟨e, -, hin⟩ := hlaid.sites.chains_in site (List.mem_of_getElem? hs)
  exact ⟨_, _, hin⟩

/-- The chosen guard with its target stays in its own bytes. -/
theorem learnGuard_frame {m : Memory} {g : AotInlineCacheEntry} (hshape : GuardShape g) (link : ℕ)
    (target : Word) (relative : ℤ) {a : ℕ} (ha : ¬GuardRegion g a) :
    learnGuard m g link target relative a = m a := by
  have h₁ := hshape.immediate_ge
  have h₂ := hshape.guard_eq
  have h₃ := hshape.jump_ge
  unfold GuardRegion at ha
  exact (learnGuard_spec hshape m link target relative).2.2.2.2.2 a (by omega) (by omega)

theorem SiteSound.step (h : SiteSound p.memory site) (hlaid : Laid p)
    (hs : p.sites.indirectInlineCacheSites[k]? = some site) (hstep : SiteStep p p' k site op) :
    SiteSound p'.memory site := by
  obtain ⟨lo, hi, hin⟩ := hlaid.chainIn hs
  cases hstep.effect with
  | kept _ hbytes =>
    refine h.vacate hin fun j g hg => ?_
    have hsame := hbytes g (List.mem_of_getElem? hg)
    exact ⟨(h.chain j g hg).congr (guard_bounds hin hg).1 hsame, fun _ => hsame⟩
  | reset page _ hbytes =>
    refine h.vacate hin fun j g hg => ?_
    obtain ⟨hshape, hlo, hlink, hle, hshort⟩ := guard_bounds hin hg
    have h₁ := hshape.immediate_ge
    have h₂ := hshape.guard_eq
    have h₃ := hshape.jump_ge
    have hsame := hbytes g (List.mem_of_getElem? hg)
    refine ⟨((h.chain j g hg).reset hshape (by omega) (by omega) p.size page).congr hshape hsame, ?_⟩
    intro hlearned a ha
    rw [hsame _ ⟨by omega, by omega⟩] at hlearned
    rw [hsame a ha, resetGuard_learned hlearned]
  | halfWritten call g _ _ _ hg _ _ hbytes =>
    obtain ⟨hshape, -⟩ := guard_bounds hin hg
    have h₁ := hshape.immediate_ge
    have h₂ := hshape.guard_eq
    have h₃ := hshape.jump_ge
    rw [hbytes]
    refine h.write hin hg (fun j g' hg' hj => chooseGuard_others h.distinct hg' hj) (fun a ha => ?_)
      (get32_set32 _ _ _) ((h.chain _ g hg).set_immediate hshape _)
    unfold GuardRegion at ha
    exact set32_out _ _ (by omega)
  | learned call g _ _ _ hg _ _ hbytes =>
    obtain ⟨hshape, hlo, hlink, hle, hshort⟩ := guard_bounds hin hg
    have h₁ := hshape.immediate_ge
    have h₂ := hshape.guard_eq
    have h₃ := hshape.jump_ge
    rw [hbytes]
    exact h.write hin hg (fun j g' hg' hj => chooseGuard_others h.distinct hg' hj)
      (fun a ha => learnGuard_frame hshape _ _ _ ha) (learnGuard_spec hshape _ _ _ _).2.2.1
      ((h.chain _ g hg).learn hshape (by omega) (by omega) _ _)

end Step

/-! ## Runs -/

theorem SiteSound.of_fresh {m : Memory} {site : AotIndirectInlineCacheSite} {lo hi : ℕ}
    (h : ChainFresh m site) (hin : ChainIn site lo hi) : SiteSound m site := by
  obtain ⟨hchain, hvacant⟩ := ChainFresh.chainOk h hin
  refine ⟨hchain, ?_⟩
  intro j k x y hx _ hlearned
  rw [hvacant x (List.mem_of_getElem? hx)] at hlearned
  exact absurd hlearned (by decide)

/-- A site that an operation adds is fresh. -/
theorem fresh_step {table : Table} (hpush : PushRows table) {p p' : AotCodeCachePlacement} {op : Operation}
    {failed : Bool} (hlaid : Laid p) (hstep : op.apply table p = some (p', failed)) {k : ℕ}
    (hold : p.sites.indirectInlineCacheSites.length ≤ k) {site : AotIndirectInlineCacheSite}
    (hs : p'.sites.indirectInlineCacheSites[k]? = some site) : ChainFresh p'.memory site := by
  rcases apply_cases hstep with hkept |
    ⟨emission, fuel, plan, image, resolved, request, env, hplan, hbuilt, -, hresolved, rfl⟩
  · have hlt := (List.getElem?_eq_some_iff.mp hs).1
    rcases hkept.sites with hsites | ⟨index, cursor, hsites⟩
    · rw [hsites] at hlt
      omega
    · rw [hsites, setCursor, List.length_modify] at hlt
      omega
  · have himage := imageSpec_buildAotCodeCacheImage ⟨hpush, planned_records hplan⟩ hbuilt
    obtain ⟨-, -, hsame⟩ := registerImage_spec p
      { p with
        nextGeneration := p.nextGeneration + 1
        memory := relinkEntries p request.guestEntry image resolved }
      request p.nextGeneration image
    simp only [registerSites, List.getElem?_append_right hold] at hs
    obtain ⟨s, hs', rfl⟩ := List.mem_map.mp (List.mem_of_getElem? hs)
    simp only [hsame.memory]
    exact fresh_append hlaid himage hresolved s hs'

section Run

variable {table : Table} {k : ℕ} {allowed : AotCodeCachePlacement → PatchCall → Prop}
  {p : AotCodeCachePlacement} {learned : Learned}

/-- The invariant rule of runs: what holds of fresh chains and is kept by what an operation can
do to a site holds in every run. -/
theorem SiteRun.induct (hpush : PushRows table)
    {P : AotCodeCachePlacement → AotIndirectInlineCacheSite → Learned → Prop}
    (hfresh : ∀ p site, Laid p → p.sites.indirectInlineCacheSites[k]? = some site →
      ChainFresh p.memory site → P p site fun _ => none)
    (hkeep : ∀ p p' site op learned cursor, Laid p → p.sites.indirectInlineCacheSites[k]? = some site →
      P p site learned → SiteStep p p' k site op → (∀ call, op = .patch call → allowed p call) →
      P p' { site with replaceCursor := cursor } (op.note p k learned))
    (h : SiteRun table k allowed p learned) :
    ∃ site, p.sites.indirectInlineCacheSites[k]? = some site ∧ P p site learned := by
  induction h with
  | placed hp hk =>
    have hs := List.getElem?_eq_getElem hk
    exact ⟨_, hs, hfresh _ _ (laid_place (hp.some.imageSpec hpush) hp.some.placed) hs
      (fresh_place (hp.some.imageSpec hpush) hp.some.placed _ (List.getElem_mem hk))⟩
  | appended hp hstep hold hk =>
    have hlaid := hp.laid hpush
    have hs := List.getElem?_eq_getElem hk
    exact ⟨_, hs, hfresh _ _ (hlaid.step hpush hstep) hs (fresh_step hpush hlaid hstep hold hs)⟩
  | step hrun hstep hactive hallowed ih =>
    obtain ⟨site, hs, hP⟩ := ih
    have hlaid := hrun.reachable.laid hpush
    have hsite := siteStep hlaid hs hstep hactive
    obtain ⟨cursor, hs'⟩ := hsite.site_eq
    exact ⟨_, hs', hkeep _ _ site _ _ cursor hlaid hs hP hsite hallowed⟩

/-- In every run the guards of the site are sound. -/
theorem SiteRun.sound (hpush : PushRows table) (h : SiteRun table k allowed p learned)
    {site : AotIndirectInlineCacheSite} (hs : p.sites.indirectInlineCacheSites[k]? = some site) :
    SiteSound p.memory site := by
  obtain ⟨site', hs', hsound⟩ := h.induct (P := fun p site _ => SiteSound p.memory site) hpush
    (fun p site hlaid hs hfresh => by
      obtain ⟨lo, hi, hin⟩ := hlaid.chainIn hs
      exact .of_fresh hfresh hin)
    (fun p p' site op _ _ hlaid hs hsound hstep _ => by
      have := hsound.step hlaid hs hstep
      exact ⟨this.chain, this.distinct⟩)
  obtain rfl : site' = site := Option.some.inj (hs'.symm.trans hs)
  exact hsound

/-- The run of a sound chain is a lookup. -/
theorem runChain_eq (hlaid : Laid p) {site : AotIndirectInlineCacheSite} {m : Memory}
    (hs : p.sites.indirectInlineCacheSites[k]? = some site) (hsound : SiteSound m site)
    (baseAddress : ℕ) (value : Word) :
    runGuards m baseAddress (aotInlineCacheGuardTargetOffset site) value (siteGuards site) =
      lookupOutcome baseAddress (chainLookup m value (siteGuards site)) := by
  obtain ⟨lo, hi, hin⟩ := hlaid.chainIn hs
  refine runGuards_eq ?_ hsound.chain ?_ baseAddress value
  · rw [siteGuards_eq hin.entries_ne]
    exact hin.entries_ne
  · intro g hg
    obtain ⟨i, hi', rfl⟩ := List.getElem_of_mem hg
    obtain ⟨hshape, hlo, hlink, hle, hshort⟩ := guard_bounds hin (List.getElem?_eq_getElem hi')
    have := hshape.immediate_ge
    have := hshape.guard_eq
    have := hshape.jump_ge
    omega

/-- The jump of a learned guard leads to the cache target. -/
theorem learnGuard_target {m : Memory} {g : AotInlineCacheEntry} (hshape : GuardShape g) (link : ℕ)
    (target cacheTarget : Word) {baseAddress : ℕ}
    (hfits : fitsRel32 (patchRelative baseAddress g cacheTarget) = true) :
    (baseAddress : ℤ) + relativeTarget (learnGuard m g link target (patchRelative baseAddress g cacheTarget))
      g.jumpDisplacementOffset = cacheTarget.toNat := by
  simp only [fitsRel32, decide_eq_true_eq] at hfits
  rw [relativeTarget, (learnGuard_spec hshape m link target _).2.2.2.1,
    toInt_ofInt_small hfits.1 hfits.2, patchRelative]
  ring

/-! ### Reaching the patched target -/

/-- Behind a patch of the site, the lookup finds the chosen guard unless a vacant guard precedes it. -/
theorem chainLookup_learned {m m' : Memory} {site : AotIndirectInlineCacheSite} {lo hi i : ℕ}
    {g : AotInlineCacheEntry} {target : Word} (hin : ChainIn site lo hi) (h : SiteSound m site)
    (hg : (siteGuards site)[i]? = some g)
    (hothers : ∀ (j : ℕ) (g' : AotInlineCacheEntry), (siteGuards site)[j]? = some g' → j ≠ i →
      holdsTarget m target g' = false)
    (hframe : ∀ a, ¬GuardRegion g a → m' a = m a) (hlearned : m' g.guardOffset = 0x0F)
    (himm : m'.get32 g.targetImmediateOffset = target) :
    chainLookup m' target (siteGuards site) =
      if ∀ j < i, ∀ g' : AotInlineCacheEntry, (siteGuards site)[j]? = some g' → isVacant m g' = false then
        some (relativeTarget m' g.jumpDisplacementOffset)
      else none := by
  have hreads : ∀ (j : ℕ) (g' : AotInlineCacheEntry), (siteGuards site)[j]? = some g' → j ≠ i →
      m' g'.guardOffset = m g'.guardOffset ∧
        m'.get32 g'.targetImmediateOffset = m.get32 g'.targetImmediateOffset := by
    intro j g' hg' hj
    have := (guard_bounds hin hg').1.reads fun a ha => hframe a (guards_apart_of_chainIn hin hg' hg hj ha)
    exact ⟨this.1, this.2.1⟩
  -- no other guard is learned with the target
  have hnone : ∀ (j : ℕ) (g' : AotInlineCacheEntry), (siteGuards site)[j]? = some g' → j ≠ i →
      m' g'.guardOffset ≠ 0xE9 → m'.get32 g'.targetImmediateOffset ≠ target := by
    intro j g' hg' hj hv himm'
    obtain ⟨hbyte, hword⟩ := hreads j g' hg' hj
    rw [hbyte] at hv
    have := hothers j g' hg' hj
    rw [Bool.eq_false_iff, ne_eq, holdsTarget_iff] at this
    exact this ⟨(h.not_vacant_iff hg').mp hv, hword ▸ himm'⟩
  have hnot : m' g.guardOffset ≠ 0xE9 := by
    rw [hlearned]
    decide
  split_ifs with hbefore
  · rw [← himm]
    refine chainLookup_of_first hg hnot fun j hj g' hg' => ?_
    have hvacant : m' g'.guardOffset ≠ 0xE9 := by
      rw [(hreads j g' hg' (by omega)).1]
      have := hbefore j hj g' hg'
      rwa [Bool.eq_false_iff, ne_eq, isVacant_iff] at this
    refine ⟨hvacant, ?_⟩
    rw [himm]
    exact hnone j g' hg' (by omega) hvacant
  · rw [Option.eq_none_iff_forall_ne_some]
    intro d hd
    obtain ⟨k, g', hg', hv, himm', -, hclear⟩ := chainLookup_eq_some hd
    have hk : k = i := by
      by_contra hk
      exact hnone k g' hg' hk hv himm'
    refine hbefore fun j hj x hx => ?_
    rw [Bool.eq_false_iff, ne_eq, isVacant_iff, ← (hreads j x hx (by omega)).1]
    exact hclear j (by omega) x hx

/-- A vacant guard precedes the chosen one exactly when it precedes one that holds the target. -/
theorem vacant_before_chosen {m : Memory} {site : AotIndirectInlineCacheSite} (h : SiteSound m site)
    (target : Word) (cursor : ℕ) :
    (∀ j < (chooseGuard m (siteGuards site) target cursor).1, ∀ g : AotInlineCacheEntry,
      (siteGuards site)[j]? = some g → isVacant m g = false) ↔
    ∀ (i j : ℕ) (g g' : AotInlineCacheEntry), (siteGuards site)[i]? = some g →
      (siteGuards site)[j]? = some g' → holdsTarget m target g = true → isVacant m g' = true → i < j := by
  rcases chooseGuard_spec m (siteGuards site) target cursor with
    ⟨x, hx, hholds⟩ | ⟨hnone, hbefore⟩
  · constructor
    · intro hclear i j g g' hg hg' hg₁ hg₂
      have hi : i = (chooseGuard m (siteGuards site) target cursor).1 := by
        by_contra hne
        rw [chooseGuard_others h.distinct hg hne] at hg₁
        contradiction
      rcases Nat.lt_trichotomy i j with hlt | heq | hlt
      · exact hlt
      · subst heq
        obtain rfl : g = g' := Option.some.inj (hg.symm.trans hg')
        rw [holdsTarget_iff] at hg₁
        rw [isVacant_iff, hg₁.1] at hg₂
        exact absurd hg₂ (by decide)
      · rw [hclear j (hi ▸ hlt) g' hg'] at hg₂
        contradiction
    · intro hall j hj g hg
      by_contra hv
      rw [Bool.not_eq_false] at hv
      have := hall _ j x g hx hg hholds hv
      omega
  · constructor
    · intro _ i j g g' hg _ hg₁ _
      rw [hnone g (List.mem_of_getElem? hg)] at hg₁
      contradiction
    · intro _
      exact hbefore

/-- In every run: behind a patch that is reported as done, the chain takes the guest target to the
cache target exactly when, before the patch, no vacant guard precedes one that holds the target. -/
theorem patch_reaches_iff (hpush : PushRows table)
    (hrun : SiteRun table k (fun _ _ => True) p learned) {site : AotIndirectInlineCacheSite}
    (hs : p.sites.indirectInlineCacheSites[k]? = some site) (call : PatchCall)
    (hselect : selectSite p call = some k) (hpatched : (patchAotIndirectInlineCache call p).2 = .patched) :
    runChain (patchAotIndirectInlineCache call p).1 site call.guestTarget =
        .jump call.cacheTarget.toNat ↔
      ∀ (i j : ℕ) (g g' : AotInlineCacheEntry), (siteGuards site)[i]? = some g →
        (siteGuards site)[j]? = some g' → holdsTarget p.memory call.guestTarget g = true →
        isVacant p.memory g' = true → i < j := by
  have hlaid := hrun.reachable.laid hpush
  have hsound := hrun.sound hpush hs
  have hstep := siteStep_patch hlaid hs call
  have hsound' := hsound.step hlaid hs hstep
  have hat : (Operation.patch call).patchedAt p k = some call := by
    simp [Operation.patchedAt, hselect, hpatched]
  obtain ⟨lo, hi, hin⟩ := hlaid.chainIn hs
  rw [runChain, runChain_eq hlaid hs hsound', ← vacant_before_chosen hsound call.guestTarget
    site.replaceCursor]
  cases hstep.effect with
  | kept hun _ =>
    rw [hat] at hun
    contradiction
  | reset _ hun _ =>
    rw [hat] at hun
    contradiction
  | halfWritten _ _ _ _ hun _ _ _ _ =>
    rw [hat] at hun
    contradiction
  | learned call' g hpatch _ _ hg hfits _ hbytes =>
    obtain rfl : call = call' := Operation.patch.inj hpatch
    obtain ⟨hshape, -⟩ := guard_bounds hin hg
    have hspec := learnGuard_spec hshape p.memory
      (guardLink site (chooseGuard p.memory (siteGuards site) call.guestTarget site.replaceCursor).1)
      call.guestTarget (patchRelative p.baseAddress g call.cacheTarget)
    rw [hbytes, chainLookup_learned hin hsound hg
      (fun j g' hg' hj => chooseGuard_others hsound.distinct hg' hj)
      (fun a ha => learnGuard_frame hshape _ _ _ ha) hspec.1 hspec.2.2.1]
    split_ifs with hclear
    · rw [lookupOutcome, hstep.base_eq, learnGuard_target hshape _ _ _ hfits]
      exact ⟨fun _ => hclear, fun _ => rfl⟩
    · exact ⟨fun h => by simp [lookupOutcome] at h, fun h => absurd h hclear⟩

end Run

/-- The sample guest: both targets learned, then the page of the first retired. -/
def sampleRetired : AotCodeCachePlacement :=
  (retireAotGuestPage 0x1000 false true true
    (patchAotIndirectInlineCache (sampleCall 0x2003 0x400011) sampleLearned).1).1

theorem siteRun_samplePlacement {allowed : AotCodeCachePlacement → PatchCall → Prop} :
    SiteRun sampleTable 0 allowed samplePlacement fun _ => none :=
  .placed ⟨samplePlaces⟩ (by decide +kernel)

theorem siteRun_sampleRetired :
    ∃ learned, SiteRun sampleTable 0 (fun _ _ => True) sampleRetired learned := by
  have h₀ : SiteRun sampleTable 0 (fun _ _ => True) samplePlacement fun _ => none :=
    siteRun_samplePlacement
  have h₁ := h₀.step apply_sampleLearned (by simp) (by simp)
  have h₂ := h₁.step (apply_patch sampleTable sampleLearned (sampleCall 0x2003 0x400011)) (by simp) (by simp)
  have h₃ := h₂.step (apply_retire sampleTable _ 0x1000 false true true) (by simp) (by simp)
  exact ⟨_, h₃⟩

attribute [irreducible] sampleRetired

/-- The first target of a fresh site is reached. -/
theorem patch_reaches_sample :
    let site := samplePlacement.sites.indirectInlineCacheSites.get ⟨0, by decide +kernel⟩
    let call := sampleCall 0x1FFE 0x40000C
    runChain (patchAotIndirectInlineCache call samplePlacement).1 site call.guestTarget =
      .jump call.cacheTarget.toNat := by
  intro site call
  have hvacant : ∀ g ∈ siteGuards site, holdsTarget samplePlacement.memory 0x1FFE g = false := by
    decide +kernel
  have hsite : samplePlacement.sites.indirectInlineCacheSites[0]? = some site := List.getElem?_eq_getElem _
  refine (patch_reaches_iff pushRows_sampleTable siteRun_samplePlacement hsite call (by decide +kernel) (by decide +kernel)).mpr ?_
  intro i j g g' hg _ hholds _
  rw [show call.guestTarget = 0x1FFE from rfl, hvacant g (List.mem_of_getElem? hg)] at hholds
  contradiction

/-- A target that was learned behind a guard that is reset since is patched again in its place, and
missed. -/
theorem patch_misses_behind_reset :
    let site := sampleRetired.sites.indirectInlineCacheSites.get ⟨0, by decide +kernel⟩
    let call := sampleCall 0x2003 0x400011
    (∃ learned, SiteRun sampleTable 0 (fun _ _ => True) sampleRetired learned) ∧
    selectSite sampleRetired call = some 0 ∧
    (patchAotIndirectInlineCache call sampleRetired).2 = .patched ∧
    runChain (patchAotIndirectInlineCache call sampleRetired).1 site call.guestTarget = .miss := by
  exact ⟨siteRun_sampleRetired, by decide +kernel, by decide +kernel, by decide +kernel⟩

section Run

variable {table : Table} {k : ℕ} {p : AotCodeCachePlacement} {learned : Learned}

/-! ### Jumping only to what was learned -/

/-- A patch that gets to writing goes through: the displacement of the chosen guard fits, and the
protection is restored. -/
def PatchCompletes (p : AotCodeCachePlacement) (call : PatchCall) : Prop :=
  ∀ x ∈ chosenGuard p call, call.protectedWritable = true →
    call.protectedExecute = true ∧ fitsRel32 (patchRelative p.baseAddress x.2 call.cacheTarget) = true

instance (p : AotCodeCachePlacement) (call : PatchCall) : Decidable (PatchCompletes p call) :=
  inferInstanceAs (Decidable (∀ x ∈ chosenGuard p call, _ → _))

/-- Every learned guard jumps to what was learned last for its target. -/
def Remembers (p : AotCodeCachePlacement) (site : AotIndirectInlineCacheSite) (learned : Learned) : Prop :=
  ∀ g ∈ siteGuards site, p.memory g.guardOffset = 0x0F →
    ∃ c, learned (p.memory.get32 g.targetImmediateOffset) = some c ∧
      (p.baseAddress : ℤ) + relativeTarget p.memory g.jumpDisplacementOffset = c.toNat

/-- Guards that are learned and were not written. -/
theorem Remembers.congr {p p' : AotCodeCachePlacement} {site : AotIndirectInlineCacheSite}
    {learned : Learned} (h : Remembers p site learned) (hbase : p'.baseAddress = p.baseAddress)
    (hsame : ∀ g ∈ siteGuards site, p'.memory g.guardOffset = 0x0F →
      GuardShape g ∧ ∀ a, GuardRegion g a → p'.memory a = p.memory a) : Remembers p' site learned := by
  intro g hg hlearned
  obtain ⟨hshape, hbytes⟩ := hsame g hg hlearned
  obtain ⟨hbyte, hword, hjump⟩ := hshape.reads hbytes
  rw [hword, hjump, hbase]
  exact h g hg (hbyte ▸ hlearned)

theorem Remembers.step {p p' : AotCodeCachePlacement} {site : AotIndirectInlineCacheSite} {op : Operation}
    {learned : Learned} (h : Remembers p site learned) (hsound : SiteSound p.memory site) (hlaid : Laid p)
    (hs : p.sites.indirectInlineCacheSites[k]? = some site) (hstep : SiteStep p p' k site op)
    (hcompletes : ∀ call, op = .patch call → PatchCompletes p call) :
    Remembers p' site (op.note p k learned) := by
  obtain ⟨lo, hi, hin⟩ := hlaid.chainIn hs
  have hshapes : ∀ g ∈ siteGuards site, GuardShape g := by
    intro g hg
    obtain ⟨i, hi, rfl⟩ := List.getElem_of_mem hg
    exact (guard_bounds hin (List.getElem?_eq_getElem hi)).1
  cases hstep.effect with
  | kept hun hbytes =>
    simp only [Operation.note, hun]
    exact h.congr hstep.base_eq fun g hg _ => ⟨hshapes g hg, hbytes g hg⟩
  | reset page hun hbytes =>
    simp only [Operation.note, hun]
    refine h.congr hstep.base_eq fun g hg hlearned => ⟨hshapes g hg, fun a ha => ?_⟩
    have h₁ := (hshapes g hg).immediate_ge
    have h₂ := (hshapes g hg).guard_eq
    have h₃ := (hshapes g hg).jump_ge
    rw [hbytes g hg _ ⟨by omega, by omega⟩] at hlearned
    rw [hbytes g hg a ha, resetGuard_learned hlearned]
  | halfWritten call g hpatch hselect _ hg hwritable hfits _ =>
    have := (hcompletes call hpatch _ (chosenGuard_eq_some hselect hs hg) hwritable).2
    rw [hfits] at this
    contradiction
  | learned call g hpatch hselect hat hg hfits hwritable hbytes =>
    rw [if_pos (hcompletes call hpatch _ (chosenGuard_eq_some hselect hs hg) hwritable).1] at hat
    simp only [Operation.note, hat]
    have hshape := hshapes g (List.mem_of_getElem? hg)
    have hspec := learnGuard_spec hshape p.memory
      (guardLink site (chooseGuard p.memory (siteGuards site) call.guestTarget site.replaceCursor).1)
      call.guestTarget (patchRelative p.baseAddress g call.cacheTarget)
    intro g' hmem hlearned
    obtain ⟨j, hj, rfl⟩ := List.getElem_of_mem hmem
    have hg' := List.getElem?_eq_getElem hj
    by_cases hchosen : j = (chooseGuard p.memory (siteGuards site) call.guestTarget site.replaceCursor).1
    · -- the chosen guard holds the target of the call
      have hgg : (siteGuards site)[j] = g := by
        rw [← hchosen, hg'] at hg
        exact Option.some.inj hg
      refine ⟨call.cacheTarget, ?_, ?_⟩
      · rw [hgg, hbytes, hspec.2.2.1, Function.update_self]
      · rw [hgg, hbytes, hstep.base_eq]
        exact learnGuard_target hshape _ _ _ hfits
    · -- the others keep theirs, which is not the target of the call
      have hsame : ∀ a, GuardRegion (siteGuards site)[j] a → p'.memory a = p.memory a := by
        intro a ha
        rw [hbytes]
        exact learnGuard_frame hshape _ _ _ (guards_apart_of_chainIn hin hg' hg hchosen ha)
      obtain ⟨hbyte, hword, hjump⟩ := (hshapes _ hmem).reads hsame
      have hother := chooseGuard_others hsound.distinct hg' hchosen
      rw [Bool.eq_false_iff, ne_eq, holdsTarget_iff] at hother
      rw [hbyte] at hlearned
      rw [hword, hjump, hstep.base_eq, Function.update_of_ne fun heq => hother ⟨hlearned, heq⟩]
      exact h _ hmem hlearned

/-- In every run whose patches all complete: whatever the branch value, the chain misses or jumps to
the cache target learned last for it, and a further such patch that is not reported as done changes
no byte. -/
theorem siteRun_safe (hpush : PushRows table) (hrun : SiteRun table k PatchCompletes p learned)
    {site : AotIndirectInlineCacheSite} (hs : p.sites.indirectInlineCacheSites[k]? = some site) :
    (∀ value, runChain p site value = .miss ∨
      ∃ c, learned value = some c ∧ runChain p site value = .jump c.toNat) ∧
    ∀ call, PatchCompletes p call → (patchAotIndirectInlineCache call p).2 ≠ .patched →
      (patchAotIndirectInlineCache call p).1.memory = p.memory := by
  have hlaid := hrun.reachable.laid hpush
  have hsound := hrun.sound hpush hs
  obtain ⟨site', hs', -, hremembers⟩ := hrun.induct
    (P := fun p site learned => SiteSound p.memory site ∧ Remembers p site learned) hpush
    (fun p site hlaid hs hfresh => by
      obtain ⟨lo, hi, hin⟩ := hlaid.chainIn hs
      refine ⟨.of_fresh hfresh hin, fun g hg hlearned => ?_⟩
      rw [(ChainFresh.chainOk hfresh hin).2 g hg] at hlearned
      exact absurd hlearned (by decide))
    (fun p p' site op learned _ hlaid hs hboth hstep hallowed => by
      have hsound := hboth.1.step hlaid hs hstep
      exact ⟨⟨hsound.chain, hsound.distinct⟩, hboth.2.step hboth.1 hlaid hs hstep hallowed⟩)
  obtain rfl : site' = site := Option.some.inj (hs'.symm.trans hs)
  refine ⟨?_, ?_⟩
  · intro value
    rw [runChain, runChain_eq hlaid hs hsound]
    cases hlookup : chainLookup p.memory value (siteGuards site') with
    | none => exact Or.inl rfl
    | some d =>
      obtain ⟨i, g, hg, hv, himm, hd, -⟩ := chainLookup_eq_some hlookup
      obtain ⟨c, hc, htarget⟩ := hremembers g (List.mem_of_getElem? hg) ((hsound.not_vacant_iff hg).mp hv)
      rw [himm] at hc
      rw [hd] at htarget
      exact Or.inr ⟨c, hc, by rw [lookupOutcome, htarget]⟩
  · intro call hcompletes hstatus
    rcases patchAotIndirectInlineCache_cases call p with
      ⟨hsame, -⟩ | ⟨index, site', guard, cursor, hselect, hsite', -, -, hguard, -, heq⟩
    · rw [hsame]
    · rw [heq] at hstatus ⊢
      rcases patchGuard_cases call { p with sites := setCursor p.sites index cursor } guard
        (guardLink site' (chooseGuard p.memory (siteGuards site') call.guestTarget site'.replaceCursor).1)
        with ⟨-, hr⟩ | ⟨hwritable, hfits, -⟩ | ⟨hwritable, hfits, hr⟩
      · rw [hr]
      · have := (hcompletes _ (chosenGuard_eq_some hselect hsite' hguard) hwritable).2
        rw [hfits] at this
        contradiction
      · rw [hr, if_pos (hcompletes _ (chosenGuard_eq_some hselect hsite' hguard) hwritable).1] at hstatus
        contradiction

end Run

/-- A run of one patch. -/
theorem siteRun_safe_sample :
    let site := sampleLearned.sites.indirectInlineCacheSites.get ⟨0, by decide +kernel⟩
    (∀ value, runChain sampleLearned site value = .miss ∨
      ∃ c, (Operation.patch (sampleCall 0x1FFE 0x40000C)).note samplePlacement 0 (fun _ => none) value =
        some c ∧ runChain sampleLearned site value = .jump c.toNat) ∧
    ∀ call, PatchCompletes sampleLearned call → (patchAotIndirectInlineCache call sampleLearned).2 ≠ .patched →
      (patchAotIndirectInlineCache call sampleLearned).1.memory = sampleLearned.memory := by
  intro site
  have hsite : sampleLearned.sites.indirectInlineCacheSites[0]? = some site := List.getElem?_eq_getElem _
  refine siteRun_safe pushRows_sampleTable ?_ hsite
  refine .step siteRun_samplePlacement apply_sampleLearned (by simp) ?_
  intro call hcall
  obtain rfl := Operation.patch.inj hcall
  decide +kernel

/-- A patch whose cache target is out of range reports so, and has already put the new guest target
into a guard. -/
theorem patch_outOfRange_writes :
    let call := sampleCall 0x3000 0xC0000000
    (∃ learned, SiteRun sampleTable 0 (fun _ _ => True) samplePlacement learned) ∧
    (patchAotIndirectInlineCache call samplePlacement).2 = .outOfRange ∧
    (patchAotIndirectInlineCache call samplePlacement).1.memory 21 ≠ samplePlacement.memory 21 :=
  ⟨⟨_, siteRun_samplePlacement⟩, by decide +kernel, by decide +kernel⟩

end Repiu.Engine
