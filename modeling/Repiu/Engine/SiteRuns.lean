import Repiu.Engine.StepFrames

/-!
# Runs of one inline-cache site

What each operation can do to the guards of one site, and what a run of
operations therefore keeps of them.
-/

namespace Repiu.Engine

open Repiu.Runtime Repiu.Memory Repiu.X86

/-! ## Runs -/

/-- The entry of a site is active. -/
def SiteActive (p : AotCodeCachePlacement) (k : ℕ) : Prop :=
  ∀ site, p.sites.indirectInlineCacheSites[k]? = some site →
    ∀ (i : ℕ) (e : AotAddressMapEntry), p.addressMap[i]? = some e → e.cacheOffset = site.cacheOffset →
      p.isActive i = true

/-- The call of a patch that learned a target at the site. -/
def Operation.patchedAt (p : AotCodeCachePlacement) (k : ℕ) : Operation → Option PatchCall
  | .patch call =>
    if selectSite p call = some k ∧ (patchAotIndirectInlineCache call p).2 = .patched then some call
    else none
  | _ => none

/-- The cache target of the most recent patch for every guest target. -/
abbrev Learned := Word → Option Word

/-- Note the patch of an operation. -/
def Operation.note (p : AotCodeCachePlacement) (k : ℕ) (op : Operation) (learned : Learned) : Learned :=
  match op.patchedAt p k with
  | some call => Function.update learned call.guestTarget (some call.cacheTarget)
  | none => learned

/-- The runs of a site from its emission on.  An append may come between while the site's entry
is active, since it redirects inactive entries. -/
inductive SiteRun (table : Table) (k : ℕ) (allowed : AotCodeCachePlacement → PatchCall → Prop) :
    AotCodeCachePlacement → Learned → Prop
  | placed {p : AotCodeCachePlacement} : Nonempty (Places table p) →
      k < p.sites.indirectInlineCacheSites.length → SiteRun table k allowed p fun _ => none
  | appended {p p' : AotCodeCachePlacement} {op : Operation} {failed : Bool} : Reachable table p →
      op.apply table p = some (p', failed) → p.sites.indirectInlineCacheSites.length ≤ k →
      k < p'.sites.indirectInlineCacheSites.length → SiteRun table k allowed p' fun _ => none
  | step {p p' : AotCodeCachePlacement} {op : Operation} {failed : Bool} {learned : Learned} :
      SiteRun table k allowed p learned → op.apply table p = some (p', failed) →
      (∀ emission fuel request env, op = .append emission fuel request env → SiteActive p k) →
      (∀ call, op = .patch call → allowed p call) → SiteRun table k allowed p' (op.note p k learned)

theorem SiteRun.reachable {table : Table} {k : ℕ} {allowed : AotCodeCachePlacement → PatchCall → Prop}
    {p : AotCodeCachePlacement} {learned : Learned} (h : SiteRun table k allowed p learned) :
    Reachable table p := by
  induction h with
  | placed hp _ => exact .place hp
  | appended hp hstep _ _ => exact .step hp hstep
  | step _ hstep _ _ ih => exact .step ih hstep

/-! ## Guards of a site are apart -/

/-- Two guards of a placement at different places have no byte in common. -/
theorem Laid.guards_apart {p : AotCodeCachePlacement} (h : Laid p) {k k' i i' : ℕ}
    {site site' : AotIndirectInlineCacheSite} {g g' : AotInlineCacheEntry}
    (hs : p.sites.indirectInlineCacheSites[k]? = some site)
    (hs' : p.sites.indirectInlineCacheSites[k']? = some site')
    (hg : (siteGuards site)[i]? = some g) (hg' : (siteGuards site')[i']? = some g')
    (hne : k ≠ k' ∨ i ≠ i') {a : ℕ} (ha : GuardRegion g a) : ¬GuardRegion g' a := by
  intro ha'
  obtain ⟨e, hof⟩ := h.guardOf (List.mem_of_getElem? hs) (List.mem_of_getElem? hg)
  obtain ⟨e', hof'⟩ := h.guardOf (List.mem_of_getElem? hs') (List.mem_of_getElem? hg')
  have hin := hof.inside h
  have hin' := hof'.inside h
  have hgt := hof.compare_gt
  have hgt' := hof'.compare_gt
  rcases eq_or_ne k k' with rfl | hkk
  · obtain rfl : site = site' := Option.some.inj (hs.symm.trans hs')
    have hii : i ≠ i' := hne.resolve_left fun hkk => hkk rfl
    exact guards_apart_of_chainIn hof.chain hg hg' hii ha ha'
  · obtain ⟨hk, rfl⟩ := List.getElem?_eq_some_iff.mp hs
    obtain ⟨hk', rfl⟩ := List.getElem?_eq_some_iff.mp hs'
    have hstart := hof.chain.start_eq
    have hstart' := hof'.chain.start_eq
    unfold GuardRegion at ha ha'
    rcases Nat.lt_or_gt_of_ne hkk with hlt | hlt
    · have := List.pairwise_iff_getElem.mp h.sites.chains_apart k k' hk hk' hlt
      have := limit_le_of_lt h.sites.entries_apart hof.entry hof'.entry (by omega)
      omega
    · have := List.pairwise_iff_getElem.mp h.sites.chains_apart k' k hk' hk hlt
      have := limit_le_of_lt h.sites.entries_apart hof'.entry hof.entry (by omega)
      omega

/-! ## One operation -/

/-- What an operation may do to the guards of a site. -/
inductive ChainEffect (p p' : AotCodeCachePlacement) (k : ℕ) (site : AotIndirectInlineCacheSite)
    (op : Operation) : Prop
  /-- Nothing. -/
  | kept (unpatched : op.patchedAt p k = none)
      (bytes : ∀ g ∈ siteGuards site, ∀ a, GuardRegion g a → p'.memory a = p.memory a)
  /-- Each guard on its own is reset, if it holds a target of the page. -/
  | reset (page : Word) (unpatched : op.patchedAt p k = none)
      (bytes : ∀ g ∈ siteGuards site, ∀ a, GuardRegion g a → p'.memory a =
        resetGuard p.size page (aotInlineCacheGuardTargetOffset site) p.memory g a)
  /-- The immediate of the chosen guard alone is written. -/
  | halfWritten (call : PatchCall) (g : AotInlineCacheEntry) (patch : op = .patch call)
      (selected : selectSite p call = some k) (unpatched : op.patchedAt p k = none)
      (chosen : (siteGuards site)[(chooseGuard p.memory (siteGuards site) call.guestTarget
        site.replaceCursor).1]? = some g)
      (writable : call.protectedWritable = true)
      (outOfRange : fitsRel32 (patchRelative p.baseAddress g call.cacheTarget) = false)
      (bytes : p'.memory = p.memory.set32 g.targetImmediateOffset call.guestTarget)
  /-- The chosen guard is written. -/
  | learned (call : PatchCall) (g : AotInlineCacheEntry) (patch : op = .patch call)
      (selected : selectSite p call = some k)
      (patched : op.patchedAt p k = if call.protectedExecute then some call else none)
      (chosen : (siteGuards site)[(chooseGuard p.memory (siteGuards site) call.guestTarget
        site.replaceCursor).1]? = some g)
      (inRange : fitsRel32 (patchRelative p.baseAddress g call.cacheTarget) = true)
      (writable : call.protectedWritable = true)
      (bytes : p'.memory = learnGuard p.memory g
        (guardLink site (chooseGuard p.memory (siteGuards site) call.guestTarget site.replaceCursor).1)
        call.guestTarget (patchRelative p.baseAddress g call.cacheTarget))

/-- The site after an operation is the site before it but for the cursor. -/
structure SiteStep (p p' : AotCodeCachePlacement) (k : ℕ) (site : AotIndirectInlineCacheSite)
    (op : Operation) : Prop where
  site_eq : ∃ cursor, p'.sites.indirectInlineCacheSites[k]? = some { site with replaceCursor := cursor }
  base_eq : p'.baseAddress = p.baseAddress
  effect : ChainEffect p p' k site op

section Step

variable {table : Table} {p p' : AotCodeCachePlacement} {k : ℕ} {site : AotIndirectInlineCacheSite}

theorem guardRegion_lt_size (hlaid : Laid p) (hs : p.sites.indirectInlineCacheSites[k]? = some site)
    {g : AotInlineCacheEntry} (hg : g ∈ siteGuards site) {a : ℕ} (ha : GuardRegion g a) :
    site.cacheOffset < a ∧ a < aotInlineCacheGuardTargetOffset site ∧ a < p.size := by
  obtain ⟨e, hof⟩ := hlaid.guardOf (List.mem_of_getElem? hs) hg
  have := hof.inside hlaid
  have := hof.compare_gt
  have := hof.jump_le
  have := hof.chain.start_eq
  unfold GuardRegion at ha
  omega

/-- An append does not touch the chain of an active entry. -/
theorem Laid.relink_chain (hlaid : Laid p) (hs : p.sites.indirectInlineCacheSites[k]? = some site)
    (hactive : SiteActive p k) (guestEntry : Word) (image : AotCodeCacheImage) (m : Memory)
    {g : AotInlineCacheEntry} (hg : g ∈ siteGuards site) {a : ℕ} (ha : GuardRegion g a) :
    relinkEntries p guestEntry image m a = m a := by
  obtain ⟨e, hof⟩ := hlaid.guardOf (List.mem_of_getElem? hs) hg
  have hin := hof.inside hlaid
  have hgt := hof.compare_gt
  refine relinkEntries_frame m fun i e' he' hinactive hlen => ?_
  unfold GuardRegion at ha
  have hmem' := List.mem_of_getElem? he'
  rcases Nat.lt_trichotomy e.cacheOffset e'.cacheOffset with hlt | heq | hlt
  · have := limit_le_of_lt hlaid.sites.entries_apart hof.entry hmem' hlt
    omega
  · have := hactive site hs i e' he' (heq.symm.trans hof.chain.start_eq.symm)
    rw [this] at hinactive
    contradiction
  · have := limit_le_of_lt hlaid.sites.entries_apart hmem' hof.entry hlt
    unfold AotAddressMapEntry.limit at this
    omega

theorem siteStep_append (hlaid : Laid p)
    (hs : p.sites.indirectInlineCacheSites[k]? = some site) (hactive : SiteActive p k)
    {emission : Host} {fuel : ℕ} {request : AppendRequest} {env : AppendEnvironment}
    {r : AotCodeCachePlacement × AotDynamicAppendResult}
    (h : appendDynamicAotTranslation table emission fuel request env p = some r) :
    SiteStep p r.1 k site (.append emission fuel request env) := by
  rcases appendDynamicAotTranslation_cases h with ⟨hsame, -⟩ | ⟨plan, image, -, -, -, -, rfl⟩
  · rw [hsame]
    exact ⟨⟨site.replaceCursor, hs⟩, rfl, .kept rfl fun _ _ _ _ => rfl⟩
  -- the old bytes behind a resolved and relinked image
  have hrelinked : ∀ resolved, resolveImage p.size (p.baseAddress + p.size) env.host
      (request.segmentTable.getD .empty) image
      (p.memory.setBytes p.size (closeInactiveEntries p request.guestEntry image)) = .ok resolved →
      ∀ g ∈ siteGuards site, ∀ a, GuardRegion g a →
        relinkEntries p request.guestEntry image resolved a = p.memory a := by
    intro resolved hresolved g hg a ha
    rw [hlaid.relink_chain hs hactive _ _ _ hg ha,
      resolveImage_before hresolved (guardRegion_lt_size hlaid hs hg ha).2.2]
  rcases publishImage_cases request env image p with
    ⟨generation, heq, -⟩ | ⟨-, memory, generation, hmemory, heq⟩ | ⟨-, resolved, hresolved, heq⟩
  · rw [heq]
    exact ⟨⟨site.replaceCursor, hs⟩, rfl, .kept rfl fun _ _ _ _ => rfl⟩
  · rw [heq]
    refine ⟨⟨site.replaceCursor, hs⟩, rfl, .kept rfl fun g hg a ha => ?_⟩
    rcases hmemory with rfl | ⟨resolved, hresolved, rfl⟩
    · exact setBytes_out _ _ (Or.inl (guardRegion_lt_size hlaid hs hg ha).2.2)
    · exact hrelinked resolved hresolved g hg a ha
  · rw [heq]
    obtain ⟨-, -, hsame⟩ := registerImage_spec p
      { p with
        nextGeneration := p.nextGeneration + 1
        memory := relinkEntries p request.guestEntry image resolved }
      request p.nextGeneration image
    refine ⟨⟨site.replaceCursor, ?_⟩, hsame.baseAddress, .kept rfl fun g hg a ha => ?_⟩
    · have hk := (List.getElem?_eq_some_iff.mp hs).1
      simp only [registerSites]
      rw [List.getElem?_append_left hk]
      exact hs
    · simp only [hsame.memory]
      exact hrelinked resolved hresolved g hg a ha

theorem siteStep_retire (hlaid : Laid p) (hs : p.sites.indirectInlineCacheSites[k]? = some site)
    (guestAddress : Word) (quarantine protectedWritable protectedExecute : Bool) :
    SiteStep p (retireAotGuestPage guestAddress quarantine protectedWritable protectedExecute p).1 k site
      (.retire guestAddress quarantine protectedWritable protectedExecute) := by
  have hreset : ∀ selected, ∀ g ∈ siteGuards site, ∀ a, GuardRegion g a →
      resetInlineCacheGuardsTargetingPage p.size (aotGuestPage guestAddress)
          p.sites.indirectInlineCacheSites (trapEntries p selected p.memory) a =
        resetGuard p.size (aotGuestPage guestAddress) (aotInlineCacheGuardTargetOffset site) p.memory g a :=
    fun selected g hg a ha => hlaid.retire_at _ selected _ (List.mem_of_getElem? hs) hg ha
  unfold retireAotGuestPage
  simp only
  split
  · exact ⟨⟨site.replaceCursor, hs⟩, rfl, .kept rfl fun _ _ _ _ => rfl⟩
  split
  · exact ⟨⟨site.replaceCursor, hs⟩, rfl, .kept rfl fun _ _ _ _ => rfl⟩
  split
  · exact ⟨⟨site.replaceCursor, hs⟩, rfl, .kept rfl fun _ _ _ _ => rfl⟩
  split
  · exact ⟨⟨site.replaceCursor, hs⟩, rfl, .kept rfl fun _ _ _ _ => rfl⟩
  split
  · exact ⟨⟨site.replaceCursor, hs⟩, rfl, .reset _ rfl (hreset _)⟩
  · exact ⟨⟨site.replaceCursor, hs⟩, rfl, .reset _ rfl (hreset _)⟩

theorem siteStep_reResolve (hlaid : Laid p) (hs : p.sites.indirectInlineCacheSites[k]? = some site)
    (segments : AotSegmentTable) (host : PlacementHost) (protectedWritable : Bool) :
    SiteStep p (reResolveWin32AotSegmentOverrides segments host protectedWritable p) k site
      (.reResolve segments host protectedWritable) := by
  unfold reResolveWin32AotSegmentOverrides
  split
  · exact ⟨⟨site.replaceCursor, hs⟩, rfl, .kept rfl fun _ _ _ _ => rfl⟩
  · refine ⟨⟨site.replaceCursor, hs⟩, rfl, .kept rfl fun g hg a ha => ?_⟩
    obtain ⟨hlo, hhi, -⟩ := guardRegion_lt_size hlaid hs hg ha
    have := (resolves_reResolveSegments segments host p.sites p.memory).chain hlaid.sites
      (windowSpec_nil _ _ _) (List.mem_of_getElem? hs) hlo hhi
    rwa [Nat.zero_add] at this

theorem siteStep_patch (hlaid : Laid p) (hs : p.sites.indirectInlineCacheSites[k]? = some site)
    (call : PatchCall) :
    SiteStep p (patchAotIndirectInlineCache call p).1 k site (.patch call) := by
  rcases patchAotIndirectInlineCache_cases call p with
    ⟨hsame, hstatus⟩ | ⟨index, site', guard, cursor, hselect, hsite', -, -, hguard, -, heq⟩
  · refine ⟨⟨site.replaceCursor, ?_⟩, by rw [hsame], .kept ?_ fun _ _ _ _ => by rw [hsame]⟩
    · rw [hsame]
      exact hs
    rcases hstatus with h | h <;> simp [Operation.patchedAt, h]
  have hsites : ∀ memory, ∃ cursor', ({ p with
      sites := setCursor p.sites index cursor, memory := memory } : AotCodeCachePlacement).sites
      |>.indirectInlineCacheSites[k]? = some { site with replaceCursor := cursor' } := by
    intro memory
    simp only [setCursor, List.getElem?_modify, hs]
    by_cases hik : index = k
    · exact ⟨cursor, by simp [hik]⟩
    · exact ⟨site.replaceCursor, by simp [hik]⟩
  by_cases hik : index = k
  · subst hik
    obtain rfl : site' = site := Option.some.inj (hsite'.symm.trans hs)
    rcases patchGuard_cases call { p with sites := setCursor p.sites index cursor } guard
      (guardLink site' (chooseGuard p.memory (siteGuards site') call.guestTarget site'.replaceCursor).1)
      with ⟨-, hr⟩ | ⟨hwritable, hfits, hr⟩ | ⟨hwritable, hfits, hr⟩
    · rw [heq, hr]
      refine ⟨hsites p.memory, rfl, .kept ?_ fun _ _ _ _ => rfl⟩
      simp [Operation.patchedAt, heq, hr]
    · rw [heq, hr]
      refine ⟨hsites _, rfl, .halfWritten call guard rfl hselect ?_ hguard hwritable hfits rfl⟩
      simp [Operation.patchedAt, heq, hr]
    · rw [heq, hr]
      refine ⟨hsites _, rfl, .learned call guard rfl hselect ?_ hguard hfits hwritable rfl⟩
      cases hexec : call.protectedExecute <;>
        simp [Operation.patchedAt, heq, hr, hselect, hexec]
  · -- the chosen guard is another site's
    have hunpatched : (Operation.patch call).patchedAt p k = none := by
      simp [Operation.patchedAt, hselect, hik]
    have hshape := (hlaid.guardOf (List.mem_of_getElem? hsite') (List.mem_of_getElem? hguard)).choose_spec.shape
    have h₁ := hshape.immediate_ge
    obtain ⟨m, hr, -, hframe⟩ := patchGuard_frame hshape call { p with sites := setCursor p.sites index cursor }
      (guardLink site' (chooseGuard p.memory (siteGuards site') call.guestTarget site'.replaceCursor).1)
    rw [heq, hr]
    refine ⟨hsites m, rfl, .kept hunpatched fun g hg a ha => hframe a ?_⟩
    obtain ⟨i, hi, rfl⟩ := List.getElem_of_mem hg
    have hapart : ¬GuardRegion guard a :=
      hlaid.guards_apart hs hsite' (List.getElem?_eq_getElem hi) hguard (Or.inl fun h => hik h.symm) ha
    unfold GuardRegion at hapart
    omega

/-- What an operation does to a site. -/
theorem siteStep {op : Operation} {failed : Bool} (hlaid : Laid p)
    (hs : p.sites.indirectInlineCacheSites[k]? = some site) (h : op.apply table p = some (p', failed))
    (hactive : ∀ emission fuel request env, op = .append emission fuel request env → SiteActive p k) :
    SiteStep p p' k site op := by
  cases op with
  | append emission fuel request env =>
    obtain ⟨r, hr, heq⟩ := Option.map_eq_some_iff.mp h
    simp only [Prod.mk.injEq] at heq
    rw [← heq.1]
    exact siteStep_append hlaid hs (hactive _ _ _ _ rfl) hr
  | retire guestAddress quarantine protectedWritable protectedExecute =>
    simp only [Operation.apply, Option.some.injEq, Prod.mk.injEq] at h
    rw [← h.1]
    exact siteStep_retire hlaid hs guestAddress quarantine protectedWritable protectedExecute
  | reResolve segments host protectedWritable =>
    simp only [Operation.apply, Option.some.injEq, Prod.mk.injEq] at h
    rw [← h.1]
    exact siteStep_reResolve hlaid hs segments host protectedWritable
  | patch call =>
    simp only [Operation.apply, Option.some.injEq, Prod.mk.injEq] at h
    rw [← h.1]
    exact siteStep_patch hlaid hs call

end Step

end Repiu.Engine
