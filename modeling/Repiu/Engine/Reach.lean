import Repiu.Engine.Frames
import Repiu.Engine.InlineCache
import Repiu.Runtime.Resolution

/-!
# Reachable placements

The operations of the engine on one placed cache as a state machine, and the
layout that holds in every state it reaches.
-/

namespace Repiu.Engine

open Repiu.Runtime Repiu.X86

/-! ## The state machine -/

/-- The operations on a placed cache. -/
inductive Operation
  | append (emission : Host) (fuel : ℕ) (request : AppendRequest) (env : AppendEnvironment)
  | retire (guestAddress : Word) (quarantine protectedWritable protectedExecute : Bool)
  | reResolve (table : AotSegmentTable) (host : PlacementHost) (protectedWritable : Bool)
  | patch (call : PatchCall)

/-- The placement behind an operation, and whether the operation reported it unsafe; `none`
while the planner has not finished. -/
def Operation.apply (table : Table) (p : AotCodeCachePlacement) :
    Operation → Option (AotCodeCachePlacement × Bool)
  | .append emission fuel request env =>
    (appendDynamicAotTranslation table emission fuel request env p).map fun r =>
      (r.1, r.2.status.unsafeFailure)
  | .retire guestAddress quarantine protectedWritable protectedExecute =>
    some ((retireAotGuestPage guestAddress quarantine protectedWritable protectedExecute p).1, false)
  | .reResolve segments host protectedWritable =>
    some (reResolveWin32AotSegmentOverrides segments host protectedWritable p, false)
  | .patch call => some ((patchAotIndirectInlineCache call p).1, false)

theorem apply_retire (table : Table) (p : AotCodeCachePlacement) (guestAddress : Word)
    (quarantine protectedWritable protectedExecute : Bool) :
    (Operation.retire guestAddress quarantine protectedWritable protectedExecute).apply table p =
      some ((retireAotGuestPage guestAddress quarantine protectedWritable protectedExecute p).1, false) := rfl

theorem apply_reResolve (table : Table) (p : AotCodeCachePlacement) (segments : AotSegmentTable)
    (host : PlacementHost) (protectedWritable : Bool) :
    (Operation.reResolve segments host protectedWritable).apply table p =
      some (reResolveWin32AotSegmentOverrides segments host protectedWritable p, false) := rfl

theorem apply_patch (table : Table) (p : AotCodeCachePlacement) (call : PatchCall) :
    (Operation.patch call).apply table p = some ((patchAotIndirectInlineCache call p).1, false) := rfl

/-- `PlaceAotCodeCache` on an image built from a plan. -/
structure Places (table : Table) (p : AotCodeCachePlacement) where
  fuel : ℕ
  source : RelocatedRuntimeImage
  entry : Word
  excluded : List AotExcludedGuestRange
  emission : Host
  options : AotCodeCacheBuildOptions
  env : PlaceEnvironment
  plan : AotTranslationPlan
  image : AotCodeCacheImage
  planned : buildAotTranslationPlanFromEntry table fuel source entry excluded = some plan
  built : buildAotCodeCacheImage ⟨table, emission, options⟩ plan = some image
  placed : placeAotCodeCache env image = some p

/-- The placements that operations lead to. -/
inductive Reachable (table : Table) : AotCodeCachePlacement → Prop
  | place {p} : Nonempty (Places table p) → Reachable table p
  | step {p p' : AotCodeCachePlacement} {op : Operation} {failed : Bool} : Reachable table p → op.apply table p = some (p', failed) →
      Reachable table p'

/-! ## Registration -/

/-- Nothing but the map and the page states differs. -/
structure SameCode (p q : AotCodeCachePlacement) : Prop where
  placed : q.placed = p.placed
  baseAddress : q.baseAddress = p.baseAddress
  size : q.size = p.size
  memory : q.memory = p.memory
  sites : q.sites = p.sites
  options : q.options = p.options

theorem SameCode.refl (p : AotCodeCachePlacement) : SameCode p p := ⟨rfl, rfl, rfl, rfl, rfl, rfl⟩

theorem SameCode.trans {p q r : AotCodeCachePlacement} (h : SameCode p q) (h' : SameCode q r) :
    SameCode p r :=
  ⟨h'.placed.trans h.placed, h'.baseAddress.trans h.baseAddress, h'.size.trans h.size,
    h'.memory.trans h.memory, h'.sites.trans h.sites, h'.options.trans h.options⟩

/-- Registering a list of entries appends them to the map. -/
theorem foldl_register (page : AotAddressMapEntry → Word) (entry : AotAddressMapEntry → AotAddressMapEntry)
    (state : AotAddressMapEntry → AotAddressMapState) (l : List AotAddressMapEntry)
    (p : AotCodeCachePlacement) :
    let q := l.foldl (fun p e => registerAotAddressMap (page e) p (entry e) (state e)) p
    q.addressMap = p.addressMap ++ l.map entry ∧
      q.addressMapStates = p.addressMapStates ++ l.map state ∧ SameCode p q := by
  induction l generalizing p with
  | nil => exact ⟨by simp, by simp, SameCode.refl p⟩
  | cons e es ih =>
    obtain ⟨hmap, hstates, hsame⟩ := ih (registerAotAddressMap (page e) p (entry e) (state e))
    have hone : SameCode p (registerAotAddressMap (page e) p (entry e) (state e)) :=
      ⟨rfl, rfl, rfl, rfl, rfl, rfl⟩
    refine ⟨?_, ?_, hone.trans hsame⟩
    · rw [List.foldl_cons, hmap]
      simp [registerAotAddressMap]
    · rw [List.foldl_cons, hstates]
      simp [registerAotAddressMap]

/-- A segment slot of a placement is an old one, or one of the image at its new place. -/
theorem mem_segmentViews_registerSites {registered image : Fragment} {base : ℕ}
    (himage : ∀ v ∈ image.segmentViews, ∀ w ∈ v.windows, 0 < w.1) {v : PatchView}
    (hv : v ∈ (registerSites registered base image).segmentViews) :
    v ∈ registered.segmentViews ∨ ∃ v' ∈ image.segmentViews, v = v'.move base := by
  have hcounters : ∀ (shadow pair0 pair1 store success fallback success' fallback' : ℕ) (counters : Bool),
      (counters = true → success = success' ∧ fallback = fallback') →
      guardedWindows shadow pair0 pair1 store success fallback counters =
        guardedWindows shadow pair0 pair1 store success' fallback' counters := by
    intro shadow pair0 pair1 store success fallback success' fallback' counters h
    cases counters with
    | false => simp [guardedWindows]
    | true =>
      obtain ⟨rfl, rfl⟩ := h rfl
      rfl
  simp only [Fragment.segmentViews, registerSites, List.mem_append] at hv himage ⊢
  rcases hv with ((h | h) | h) | h
  · rcases mem_map_moved h fun s _ => s.view_move _ with h | ⟨v', h', rfl⟩
    · simp only [h, true_or]
    · exact Or.inr ⟨v', by simp only [h', true_or], rfl⟩
  · have hpos : ∀ s ∈ image.guardedSegmentPopSites, ∀ w ∈ s.view.windows, 0 < w.1 :=
      fun s hs => himage _ (by simp [List.mem_map_of_mem hs])
    have hview : ∀ s ∈ image.guardedSegmentPopSites,
        (relocatePopSite base s).view = s.view.move base := by
      intro s hs
      rw [← s.view_move base (hpos s hs)]
      simp only [AotGuardedSegmentPopSite.view, relocatePopSite, AotGuardedSegmentPopSite.move]
      congr 1
      refine hcounters _ _ _ _ _ _ _ _ _ fun hc => ?_
      have h₁ := hpos s hs (s.successCounterAddressOffset, 4)
        (by simp [AotGuardedSegmentPopSite.view, guardedWindows, hc])
      have h₂ := hpos s hs (s.fallbackCounterAddressOffset, 4)
        (by simp [AotGuardedSegmentPopSite.view, guardedWindows, hc])
      simp only at h₁ h₂
      simp only [moveOptional, if_pos (show s.successCounterAddressOffset ≠ 0 by omega),
        if_pos (show s.fallbackCounterAddressOffset ≠ 0 by omega), and_self]
    rcases mem_map_moved h hview with h | ⟨v', h', rfl⟩
    · simp only [h, true_or, or_true]
    · exact Or.inr ⟨v', by simp only [h', true_or, or_true], rfl⟩
  · have hpos : ∀ s ∈ image.guardedSegmentLoadSites, ∀ w ∈ s.view.windows, 0 < w.1 :=
      fun s hs => himage _ (by simp [List.mem_map_of_mem hs])
    have hview : ∀ s ∈ image.guardedSegmentLoadSites,
        (relocateLoadSite base s).view = s.view.move base := by
      intro s hs
      rw [← s.view_move base (hpos s hs)]
      simp only [AotGuardedSegmentLoadSite.view, relocateLoadSite, AotGuardedSegmentLoadSite.move]
      congr 1
      refine hcounters _ _ _ _ _ _ _ _ _ fun hc => ?_
      have h₁ := hpos s hs (s.successCounterAddressOffset, 4)
        (by simp [AotGuardedSegmentLoadSite.view, guardedWindows, hc])
      have h₂ := hpos s hs (s.fallbackCounterAddressOffset, 4)
        (by simp [AotGuardedSegmentLoadSite.view, guardedWindows, hc])
      simp only at h₁ h₂
      simp only [moveOptional, if_pos (show s.successCounterAddressOffset ≠ 0 by omega),
        if_pos (show s.fallbackCounterAddressOffset ≠ 0 by omega), and_self]
    rcases mem_map_moved h hview with h | ⟨v', h', rfl⟩
    · simp only [h, true_or, or_true]
    · exact Or.inr ⟨v', by simp only [h', true_or, or_true], rfl⟩
  · rcases mem_map_moved h fun s _ => s.view_move _ with h | ⟨v', h', rfl⟩
    · simp only [h, true_or, or_true]
    · exact Or.inr ⟨v', by simp only [h', or_true], rfl⟩

/-! ## The layout of a placement -/

/-- The sites of a placement lie in its entries, and every entry has a state. -/
structure Laid (p : AotCodeCachePlacement) : Prop where
  sites : SiteSpec p.sites.segmentViews p.sites.indirectInlineCacheSites p.addressMap p.size
  states : p.addressMapStates.length = p.addressMap.length

/-- The layout of an image the engine works with. -/
theorem Places.imageSpec {table : Table} (hpush : PushRows table) {p : AotCodeCachePlacement}
    (h : Places table p) : ImageSpec h.image.code h.image.addressMap :=
  imageSpec_buildAotCodeCacheImage ⟨hpush, planned_records h.planned⟩ h.built

/-- What a placed image becomes. -/
theorem placeAotCodeCache_eq_some {env : PlaceEnvironment} {image : AotCodeCacheImage}
    {p : AotCodeCachePlacement} (h : placeAotCodeCache env image = some p) :
    ∃ base memory, base < 2 ^ 32 ∧ image.bytes.length < 2 ^ 32 ∧
      resolveImage 0 base env.host .empty image (Memory.setBytes (fun _ => 0) 0 image.bytes) =
        .ok memory ∧
      p = initializeAotPageCoherence (placedImage base memory image) image.addressMap := by
  unfold placeAotCodeCache at h
  split at h
  · contradiction
  rename_i hbad
  simp only [not_or, not_le] at hbad
  split at h
  · contradiction
  rename_i base _
  split at h
  · contradiction
  rename_i hbase
  split at h
  · contradiction
  rename_i memory hmem
  split at h
  · contradiction
  · exact ⟨base, memory, not_le.mp hbase, hbad.2.2, hmem, (Option.some.inj h).symm⟩

theorem initializeAotPageCoherence_spec (p : AotCodeCachePlacement) (entries : List AotAddressMapEntry) :
    (initializeAotPageCoherence p entries).addressMap = p.addressMap ++ entries ∧
      (initializeAotPageCoherence p entries).addressMapStates =
        p.addressMapStates ++ entries.map (fun _ => ⟨1, true, true⟩) ∧
      SameCode p (initializeAotPageCoherence p entries) := by
  have h := foldl_register (fun e => aotGuestPage e.guestAddress) id (fun _ => ⟨1, true, true⟩) entries
    { p with nextGeneration := 2 }
  simp only [id, List.map_id] at h
  exact ⟨h.1, h.2.1, ⟨h.2.2.placed, h.2.2.baseAddress, h.2.2.size, h.2.2.memory, h.2.2.sites,
    h.2.2.options⟩⟩

theorem laid_place {env : PlaceEnvironment} {image : AotCodeCacheImage} {p : AotCodeCachePlacement}
    (himage : ImageSpec image.code image.addressMap) (h : placeAotCodeCache env image = some p) :
    Laid p := by
  obtain ⟨base, memory, -, -, -, rfl⟩ := placeAotCodeCache_eq_some h
  obtain ⟨hmap, hstates, hsame⟩ :=
    initializeAotPageCoherence_spec (placedImage base memory image) image.addressMap
  refine ⟨?_, ?_⟩
  · rw [hsame.sites, hmap, hsame.size]
    exact himage.sites
  · rw [hstates, hmap]
    simp [placedImage]

/-- What is registered behind an append that succeeded. -/
theorem registerImage_spec (p q : AotCodeCachePlacement) (request : AppendRequest) (generation : ℕ)
    (image : AotCodeCacheImage) :
    (registerImage p q request generation image).addressMap =
        q.addressMap ++ image.addressMap.map (AotAddressMapEntry.move p.size) ∧
      (registerImage p q request generation image).addressMapStates =
        q.addressMapStates ++ image.addressMap.map (fun entry =>
          { generation := generation
            active := activatesEntry p request.guestEntry entry
            tracksGuestBytes := aotAddressMapTracksGuestBytes entry request.excludedRanges }) ∧
      SameCode q (registerImage p q request generation image) :=
  foldl_register (fun _ => aotGuestPage request.guestEntry) (AotAddressMapEntry.move p.size) _
    image.addressMap q

/-- The ways an append can end, as far as they change the placement. -/
theorem publishImage_cases (request : AppendRequest) (env : AppendEnvironment)
    (image : AotCodeCacheImage) (p : AotCodeCachePlacement) :
    let r := publishImage request env image p
    let copied := p.memory.setBytes p.size (closeInactiveEntries p request.guestEntry image)
    (∃ generation, r.1 = { p with nextGeneration := generation } ∧ r.2.status ≠ .appended) ∨
    (r.2.status.unsafeFailure = true ∧ ∃ memory generation,
      (memory = copied ∨ ∃ resolved,
        resolveImage p.size (p.baseAddress + p.size) env.host (request.segmentTable.getD .empty) image
          copied = .ok resolved ∧ memory = relinkEntries p request.guestEntry image resolved) ∧
      r.1 = { p with memory := memory, nextGeneration := generation }) ∨
    (r.2.status = .appended ∧ ∃ resolved,
      resolveImage p.size (p.baseAddress + p.size) env.host (request.segmentTable.getD .empty) image
        copied = .ok resolved ∧
      r.1 =
        { registerImage p
            { p with
              nextGeneration := p.nextGeneration + 1
              memory := relinkEntries p request.guestEntry image resolved }
            request p.nextGeneration image with
          sites := registerSites p.sites p.size image.code
          size := p.size + image.bytes.length }) := by
  intro r copied
  simp only [r, publishImage]
  split
  · exact Or.inl ⟨p.nextGeneration, rfl, by simp⟩
  split
  · exact Or.inl ⟨p.nextGeneration, rfl, by simp⟩
  split
  · exact Or.inl ⟨p.nextGeneration + 1, rfl, by simp⟩
  split
  · exact Or.inr (Or.inl ⟨rfl, _, _, Or.inl rfl, rfl⟩)
  rename_i resolved hresolved
  split
  · exact Or.inr (Or.inl ⟨rfl, _, _, Or.inr ⟨resolved, hresolved, rfl⟩, rfl⟩)
  · exact Or.inr (Or.inr ⟨rfl, resolved, hresolved, rfl⟩)

/-- An append leaves the placement as it is, or publishes an image built from a plan. -/
theorem appendDynamicAotTranslation_cases {table : Table} {emission : Host} {fuel : ℕ}
    {request : AppendRequest} {env : AppendEnvironment} {p : AotCodeCachePlacement}
    {r : AotCodeCachePlacement × AotDynamicAppendResult}
    (h : appendDynamicAotTranslation table emission fuel request env p = some r) :
    (r.1 = p ∧ r.2.status ≠ .appended) ∨
    ∃ plan image,
      buildAotTranslationPlanFromEntry table fuel (arenaView p request) request.guestEntry
        request.excludedRanges = some plan ∧
      buildAotCodeCacheImage ⟨table, emission, appendOptions p⟩ plan = some image ∧
      image.bytes.length ≤ p.capacity - p.size ∧ p.placed = true ∧
      r = publishImage request env image p := by
  unfold appendDynamicAotTranslation at h
  split at h
  · rw [← Option.some.inj h]
    exact Or.inl ⟨rfl, by simp⟩
  rename_i hplaced
  split at h
  · rw [← Option.some.inj h]
    exact Or.inl ⟨rfl, by simp⟩
  split at h
  · contradiction
  rename_i plan hplan
  split at h
  · rw [← Option.some.inj h]
    exact Or.inl ⟨rfl, by simp⟩
  rename_i image himage
  split at h
  · rw [← Option.some.inj h]
    exact Or.inl ⟨rfl, by simp⟩
  split at h
  · rw [← Option.some.inj h]
    exact Or.inl ⟨rfl, by simp⟩
  split at h
  · rw [← Option.some.inj h]
    exact Or.inl ⟨rfl, by simp⟩
  rename_i hcapacity
  rw [not_or, not_not] at hplaced
  exact Or.inr ⟨plan, image, hplan, himage, not_lt.mp hcapacity, hplaced.1, (Option.some.inj h).symm⟩

/-- An image behind the placement. -/
theorem Laid.append {p : AotCodeCachePlacement} (h : Laid p) {image : AotCodeCacheImage}
    (himage : ImageSpec image.code image.addressMap) :
    SiteSpec (registerSites p.sites p.size image.code).segmentViews
      (registerSites p.sites p.size image.code).indirectInlineCacheSites
      (p.addressMap ++ image.addressMap.map (AotAddressMapEntry.move p.size))
      (p.size + image.bytes.length) := by
  refine h.sites.append himage.sites fun v hv => ?_
  refine mem_segmentViews_registerSites ?_ hv
  intro v' hv' w hw
  obtain ⟨e, -, hin⟩ := himage.sites.views_in v' hv'
  have := hin.windows_in w hw
  omega

/-! ## Every operation keeps the layout -/

/-- The cursor is no part of the shape of a site. -/
theorem chainIn_cursor {site : AotIndirectInlineCacheSite} {lo hi : ℕ} (h : ChainIn site lo hi)
    (cursor : ℕ) : ChainIn { site with replaceCursor := cursor } lo hi :=
  ⟨h.start_eq, h.entries_ne, h.first_immediate, h.first_guard, h.first_jump, h.guards, h.miss_ge,
    h.miss_lt, h.short⟩

theorem mem_setCursor {sites : Fragment} {index cursor : ℕ} {s : AotIndirectInlineCacheSite}
    (hs : s ∈ (setCursor sites index cursor).indirectInlineCacheSites) :
    ∃ s' ∈ sites.indirectInlineCacheSites, s = s' ∨ s = { s' with replaceCursor := cursor } := by
  obtain ⟨i, hi, rfl⟩ := List.getElem_of_mem hs
  simp only [setCursor, List.length_modify] at hi
  refine ⟨sites.indirectInlineCacheSites[i], List.getElem_mem hi, ?_⟩
  simp only [setCursor, List.getElem_modify]
  split_ifs
  · exact Or.inr rfl
  · exact Or.inl rfl

theorem siteSpec_setCursor {sites : Fragment} {map : List AotAddressMapEntry} {size : ℕ}
    (h : SiteSpec sites.segmentViews sites.indirectInlineCacheSites map size) (index cursor : ℕ) :
    SiteSpec (setCursor sites index cursor).segmentViews
      (setCursor sites index cursor).indirectInlineCacheSites map size where
  entries_in := h.entries_in
  entries_apart := h.entries_apart
  views_in := h.views_in
  chains_in := by
    intro s hs
    obtain ⟨s', hs', rfl | rfl⟩ := mem_setCursor hs
    · exact h.chains_in s hs'
    · obtain ⟨e, he, hin⟩ := h.chains_in s' hs'
      exact ⟨e, he, chainIn_cursor hin cursor⟩
  chains_apart := by
    rw [List.pairwise_iff_getElem]
    intro i j hi hj hij
    simp only [setCursor, List.length_modify] at hi hj
    have := List.pairwise_iff_getElem.mp h.chains_apart i j hi hj hij
    simp only [setCursor, List.getElem_modify]
    split_ifs <;> exact this
  views_chains := by
    intro v hv s hs
    obtain ⟨s', hs', rfl | rfl⟩ := mem_setCursor hs
    · exact h.views_chains v hv s hs'
    · exact h.views_chains v hv s' hs'

/-- What a patch can do: nothing, half a guard, or a whole one. -/
theorem patchAotIndirectInlineCache_cases (call : PatchCall) (p : AotCodeCachePlacement) :
    let r := patchAotIndirectInlineCache call p
    (r.1 = p ∧ (r.2 = .unavailable ∨ r.2 = .siteNotFound)) ∨
    ∃ index site guard cursor,
      selectSite p call = some index ∧ p.sites.indirectInlineCacheSites[index]? = some site ∧
      siteInBounds p.size site = true ∧ p.placed = true ∧
      (siteGuards site)[(chooseGuard p.memory (siteGuards site) call.guestTarget
        site.replaceCursor).1]? = some guard ∧
      (chooseGuard p.memory (siteGuards site) call.guestTarget site.replaceCursor).2 = cursor ∧
      r = patchGuard call { p with sites := setCursor p.sites index cursor } guard
        (guardLink site (chooseGuard p.memory (siteGuards site) call.guestTarget site.replaceCursor).1) := by
  intro r
  simp only [r, patchAotIndirectInlineCache]
  split
  · exact Or.inl ⟨rfl, Or.inl rfl⟩
  rename_i hplaced
  split
  · exact Or.inl ⟨rfl, Or.inr rfl⟩
  rename_i index hindex
  split
  · exact Or.inl ⟨rfl, Or.inr rfl⟩
  rename_i site hsite
  split
  · exact Or.inl ⟨rfl, Or.inr rfl⟩
  rename_i hbounds
  split
  · exact Or.inl ⟨rfl, Or.inr rfl⟩
  rename_i guard hguard
  rw [not_or, not_not] at hplaced
  exact Or.inr ⟨index, site, guard, _, hindex, hsite, by simpa using hbounds, hplaced.1, hguard, rfl, rfl⟩

/-- What writing the chosen guard can do. -/
theorem patchGuard_cases (call : PatchCall) (p : AotCodeCachePlacement) (guard : AotInlineCacheEntry)
    (link : ℕ) :
    let r := patchGuard call p guard link
    let relative := patchRelative p.baseAddress guard call.cacheTarget
    (call.protectedWritable = false ∧ r = (p, .notWritable)) ∨
    (call.protectedWritable = true ∧ fitsRel32 relative = false ∧
      r = ({ p with memory := p.memory.set32 guard.targetImmediateOffset call.guestTarget }, .outOfRange)) ∨
    (call.protectedWritable = true ∧ fitsRel32 relative = true ∧
      r = ({ p with memory := learnGuard p.memory guard link call.guestTarget relative },
        if call.protectedExecute then .patched else .notExecutable)) := by
  intro r relative
  simp only [r, patchGuard]
  split
  · rename_i hwritable
    exact Or.inl ⟨by simpa using hwritable, rfl⟩
  rename_i hwritable
  split
  · rename_i hfits
    exact Or.inr (Or.inl ⟨by simpa using hwritable, by simpa using hfits, rfl⟩)
  · rename_i hfits
    exact Or.inr (Or.inr ⟨by simpa using hwritable, by simpa using hfits, rfl⟩)

theorem deactivate_length (selected : List ℕ) (states : List AotAddressMapState) :
    (deactivate selected states).length = states.length := by
  unfold deactivate
  induction selected generalizing states with
  | nil => rfl
  | cons i is ih => rw [List.foldl_cons, ih, List.length_modify]

/-- Behind an operation that publishes nothing, up to the code: the sites are the same but for a cursor,
and entries can have become inactive. -/
structure KeepsEntries (p p' : AotCodeCachePlacement) : Prop where
  addressMap : p'.addressMap = p.addressMap
  size : p'.size = p.size
  capacity : p'.capacity = p.capacity
  sites : p'.sites = p.sites ∨ ∃ index cursor, p'.sites = setCursor p.sites index cursor
  states : p'.addressMapStates = p.addressMapStates ∧ p'.inactiveMapIndices = p.inactiveMapIndices ∨
    ∃ selected, p'.addressMapStates = deactivate selected p.addressMapStates ∧
      p'.inactiveMapIndices = p.inactiveMapIndices ++ selected

theorem KeepsEntries.refl (p : AotCodeCachePlacement) : KeepsEntries p p :=
  ⟨rfl, rfl, rfl, Or.inl rfl, Or.inl ⟨rfl, rfl⟩⟩

theorem keepsEntries_retire (guestAddress : Word) (quarantine protectedWritable protectedExecute : Bool)
    (p : AotCodeCachePlacement) :
    KeepsEntries p (retireAotGuestPage guestAddress quarantine protectedWritable protectedExecute p).1 := by
  unfold retireAotGuestPage
  dsimp only
  split
  · exact .refl p
  split
  · exact .refl p
  split
  · exact ⟨rfl, rfl, rfl, Or.inl rfl, Or.inl ⟨rfl, rfl⟩⟩
  split
  · exact .refl p
  split
  · exact ⟨rfl, rfl, rfl, Or.inl rfl, Or.inl ⟨rfl, rfl⟩⟩
  · exact ⟨rfl, rfl, rfl, Or.inl rfl, Or.inr ⟨_, rfl, rfl⟩⟩

theorem keepsEntries_patch (call : PatchCall) (p : AotCodeCachePlacement) :
    KeepsEntries p (patchAotIndirectInlineCache call p).1 := by
  rcases patchAotIndirectInlineCache_cases call p with
    ⟨hsame, -⟩ | ⟨index, site, guard, cursor, -, -, -, -, -, -, heq⟩
  · rw [hsame]
    exact .refl p
  · rcases patchGuard_cases call { p with sites := setCursor p.sites index cursor } guard
      (guardLink site (chooseGuard p.memory (siteGuards site) call.guestTarget site.replaceCursor).1)
      with ⟨-, hr⟩ | ⟨-, -, hr⟩ | ⟨-, -, hr⟩
    all_goals
      rw [heq, hr]
      exact ⟨rfl, rfl, rfl, Or.inr ⟨index, cursor, rfl⟩, Or.inl ⟨rfl, rfl⟩⟩

/-- What an operation can do to what is recorded: nothing, or what an append publishes. -/
theorem apply_cases {table : Table} {p p' : AotCodeCachePlacement} {op : Operation} {failed : Bool}
    (hstep : op.apply table p = some (p', failed)) :
    KeepsEntries p p' ∨ ∃ emission fuel plan image resolved, ∃ (request : AppendRequest) (env : AppendEnvironment),
      buildAotTranslationPlanFromEntry table fuel (arenaView p request) request.guestEntry
        request.excludedRanges = some plan ∧
      buildAotCodeCacheImage ⟨table, emission, appendOptions p⟩ plan = some image ∧
      image.bytes.length ≤ p.capacity - p.size ∧
      resolveImage p.size (p.baseAddress + p.size) env.host (request.segmentTable.getD .empty) image
        (p.memory.setBytes p.size (closeInactiveEntries p request.guestEntry image)) = .ok resolved ∧
      p' =
        { registerImage p
            { p with
              nextGeneration := p.nextGeneration + 1
              memory := relinkEntries p request.guestEntry image resolved }
            request p.nextGeneration image with
          sites := registerSites p.sites p.size image.code
          size := p.size + image.bytes.length } := by
  cases op with
  | append emission fuel request env =>
    obtain ⟨r, hr, heq⟩ := Option.map_eq_some_iff.mp hstep
    simp only [Prod.mk.injEq] at heq
    obtain ⟨rfl, -⟩ := heq
    rcases appendDynamicAotTranslation_cases hr with ⟨hsame, -⟩ | ⟨plan, image, hplan, hbuilt, hroom, -, rfl⟩
    · rw [hsame]
      exact Or.inl (.refl p)
    rcases publishImage_cases request env image p with
      ⟨generation, heq, -⟩ | ⟨-, memory, generation, -, heq⟩ | ⟨-, resolved, hresolved, heq⟩
    · rw [heq]
      exact Or.inl ⟨rfl, rfl, rfl, Or.inl rfl, Or.inl ⟨rfl, rfl⟩⟩
    · rw [heq]
      exact Or.inl ⟨rfl, rfl, rfl, Or.inl rfl, Or.inl ⟨rfl, rfl⟩⟩
    · exact Or.inr ⟨_, _, plan, image, resolved, request, env, hplan, hbuilt, hroom, hresolved, heq⟩
  | retire guestAddress quarantine protectedWritable protectedExecute =>
    rw [apply_retire, Option.some.injEq, Prod.mk.injEq] at hstep
    exact Or.inl (hstep.1 ▸ keepsEntries_retire guestAddress quarantine protectedWritable protectedExecute p)
  | reResolve segments host protectedWritable =>
    rw [apply_reResolve, Option.some.injEq, Prod.mk.injEq] at hstep
    rw [← hstep.1, reResolveWin32AotSegmentOverrides]
    left
    split
    · exact .refl p
    · exact ⟨rfl, rfl, rfl, Or.inl rfl, Or.inl ⟨rfl, rfl⟩⟩
  | patch call =>
    rw [apply_patch, Option.some.injEq, Prod.mk.injEq] at hstep
    exact Or.inl (hstep.1 ▸ keepsEntries_patch call p)

/-- One operation. -/
theorem Laid.step {table : Table} (hpush : PushRows table) {p p' : AotCodeCachePlacement}
    {op : Operation} {failed : Bool} (h : Laid p) (hstep : op.apply table p = some (p', failed)) :
    Laid p' := by
  rcases apply_cases hstep with hkept |
    ⟨emission, fuel, plan, image, resolved, request, env, hplan, hbuilt, -, -, rfl⟩
  · refine ⟨?_, ?_⟩
    · rw [hkept.addressMap, hkept.size]
      rcases hkept.sites with hsites | ⟨index, cursor, hsites⟩
      · rw [hsites]
        exact h.sites
      · rw [hsites]
        exact siteSpec_setCursor h.sites index cursor
    · rw [hkept.addressMap]
      rcases hkept.states with ⟨hstates, -⟩ | ⟨selected, hstates, -⟩
      · rw [hstates]
        exact h.states
      · rw [hstates]
        exact (deactivate_length _ _).trans h.states
  · have himage := imageSpec_buildAotCodeCacheImage ⟨hpush, planned_records hplan⟩ hbuilt
    obtain ⟨hmap, hstates, -⟩ := registerImage_spec p
      { p with
        nextGeneration := p.nextGeneration + 1
        memory := relinkEntries p request.guestEntry image resolved }
      request p.nextGeneration image
    refine ⟨?_, ?_⟩
    · simp only [hmap]
      exact h.append himage
    · simp only [hmap, hstates, List.length_append, List.length_map, h.states]

/-- Every reachable placement is laid out. -/
theorem Reachable.laid {table : Table} (hpush : PushRows table) {p : AotCodeCachePlacement}
    (h : Reachable table p) : Laid p := by
  induction h with
  | place hp => exact laid_place (hp.some.imageSpec hpush) hp.some.placed
  | step _ hstep ih => exact ih.step hpush hstep

end Repiu.Engine
