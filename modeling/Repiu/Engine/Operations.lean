import Repiu.Engine.Placement
import Repiu.Runtime.Planner

/-!
# Operations on a placed cache

`PlaceAotCodeCache`, `AppendDynamicAotTranslation`, `RetireAotGuestPage` and
`ReResolveWin32AotSegmentOverrides` (`aot_code_cache.cpp`,
`aot_page_coherence.cpp`).  Whether a memory-protection call succeeds is an input
of every operation.
-/

namespace Repiu.Engine

open Repiu.Runtime Repiu.X86

/-! ## Placement -/

/-- `kDynamicCacheCapacity`. -/
def kDynamicCacheCapacity : ℕ := 16 * 1024 * 1024

/-- What `PlaceAotCodeCache` gets from the host: the reserved address, and whether the memory
could be made executable. -/
structure PlaceEnvironment where
  reservation : Option ℕ
  protectedExecute : Bool
  host : PlacementHost

/-- `InitializeAotPageCoherence` with generation 1. -/
def initializeAotPageCoherence (p : AotCodeCachePlacement) (entries : List AotAddressMapEntry) :
    AotCodeCachePlacement :=
  entries.foldl
    (fun p entry => registerAotAddressMap (aotGuestPage entry.guestAddress) p entry
      { generation := 1, active := true, tracksGuestBytes := true })
    { p with nextGeneration := 2 }

/-- The placement of an image at a base address, before its pages are registered. -/
def placedImage (base : ℕ) (memory : Memory) (image : AotCodeCacheImage) : AotCodeCachePlacement :=
  { placed := true
    baseAddress := base
    size := image.bytes.length
    capacity := max image.bytes.length kDynamicCacheCapacity
    entryAddress := base + image.entryCacheOffset
    memory := memory
    codeModeRanges := image.codeModeRanges
    sites := { image.code with bytes := [] }
    options := image.options }

/-- `PlaceAotCodeCache`; `none` where the result is not placed. -/
def placeAotCodeCache (env : PlaceEnvironment) (image : AotCodeCacheImage) :
    Option AotCodeCachePlacement :=
  if ¬image.valid ∨ image.bytes = [] ∨ 2 ^ 32 ≤ image.bytes.length then none
  else
    match env.reservation with
    | none => none
    | some base =>
      if 2 ^ 32 ≤ base then none
      else
        match resolveImage 0 base env.host .empty image
          (Memory.setBytes (fun _ => 0) 0 image.bytes) with
        | .error _ => none
        | .ok memory =>
          if ¬env.protectedExecute then none
          else some (initializeAotPageCoherence (placedImage base memory image) image.addressMap)

/-! ## Dynamic append -/

/-- The shift of a pop site: the counter offsets move even where the slot has no counters. -/
def relocatePopSite (base : ℕ) (site : AotGuardedSegmentPopSite) : AotGuardedSegmentPopSite :=
  { site.move base with
    successCounterAddressOffset := base + site.successCounterAddressOffset
    fallbackCounterAddressOffset := base + site.fallbackCounterAddressOffset }

/-- The shift of a load site. -/
def relocateLoadSite (base : ℕ) (site : AotGuardedSegmentLoadSite) : AotGuardedSegmentLoadSite :=
  { site.move base with
    successCounterAddressOffset := base + site.successCounterAddressOffset
    fallbackCounterAddressOffset := base + site.fallbackCounterAddressOffset }

/-- Register the fixups and sites of an image appended at `base`. -/
def registerSites (registered : Fragment) (base : ℕ) (image : Fragment) : Fragment :=
  { bytes := registered.bytes
    fixups := registered.fixups ++ image.fixups.map (AotCodeCacheFixup.move base)
    indirectInlineCacheSites := registered.indirectInlineCacheSites ++
      image.indirectInlineCacheSites.map (AotIndirectInlineCacheSite.move base)
    dbtReturnDispatchSites := registered.dbtReturnDispatchSites ++
      image.dbtReturnDispatchSites.map (AotDbtReturnDispatchSite.move base)
    dbtHleDispatchSites := registered.dbtHleDispatchSites ++
      image.dbtHleDispatchSites.map (AotDbtHleDispatchSite.move base)
    dbtDirectEdgeDispatchSites := registered.dbtDirectEdgeDispatchSites ++
      image.dbtDirectEdgeDispatchSites.map (AotDbtDirectEdgeDispatchSite.move base)
    jumpTableSites := registered.jumpTableSites ++
      image.jumpTableSites.map (AotJumpTableSite.move base)
    guardedSegmentPopSites := registered.guardedSegmentPopSites ++
      image.guardedSegmentPopSites.map (relocatePopSite base)
    guardedSegmentReadSites := registered.guardedSegmentReadSites ++
      image.guardedSegmentReadSites.map (AotGuardedSegmentReadSite.move base)
    guardedSegmentLoadSites := registered.guardedSegmentLoadSites ++
      image.guardedSegmentLoadSites.map (relocateLoadSite base)
    segmentOverrideSites := registered.segmentOverrideSites ++
      image.segmentOverrideSites.map (AotSegmentOverrideSite.move base)
    timerSafePointSites := registered.timerSafePointSites ++
      image.timerSafePointSites.map (AotTimerSafePointSite.move base)
    directReturnProbeSites := registered.directReturnProbeSites ++
      image.directReturnProbeSites.map (AotDirectReturnProbeSite.move base) }

/-- The arguments of an append: the guest arena with its current bytes, the entry to translate,
the ranges to leave out and the live descriptors. -/
structure AppendRequest where
  runtimeBase : Word
  runtimeSize : Word
  arena : List Byte
  guestEntry : Word
  excludedRanges : List AotExcludedGuestRange := []
  segmentTable : Option AotSegmentTable := none

/-- What an append gets from the host.  `hleCovered` is the verdict of
`ValidateAotCodeCacheHleCoverage` on the new image. -/
structure AppendEnvironment where
  arenaReadable : Bool := true
  rejected : Bool := false
  hleCovered : Bool := true
  watchesInstalled : Bool := true
  protectedWritable : Bool := true
  protectedExecute : Bool := true
  host : PlacementHost := {}

/-- How an append ended. -/
inductive AppendStatus
  | outsideArena | arenaUnreadable | translationFailed | rejected | uncovered | capacityExhausted
  | entryInactive | watchesFailed | notWritable | resolveFailed (failure : ResolveFailure)
  | notExecutable | appended
  deriving DecidableEq, Repr

/-- `unsafe_failure`: the append wrote to the cache and could not finish. -/
def AppendStatus.unsafeFailure : AppendStatus → Bool
  | .resolveFailed _ | .notExecutable => true
  | _ => false

/-- `AotDynamicAppendResult`, without the counters that only reports read. -/
structure AotDynamicAppendResult where
  status : AppendStatus
  cacheEntry : ℕ := 0
  generation : ℕ := 0
  deriving DecidableEq, Repr

/-- The arena as the planner sees it. -/
def arenaView (p : AotCodeCachePlacement) (request : AppendRequest) : RelocatedRuntimeImage :=
  { valid := true
    objects :=
      [{ relocatedBaseAddress := request.runtimeBase
         virtualSize := request.runtimeSize
         flags := 0
         bytes := request.arena }]
    codeModeRanges := p.codeModeRanges }

/-- The build options of an append; the segment-override switch keeps its default. -/
def appendOptions (p : AotCodeCachePlacement) : AotCodeCacheBuildOptions :=
  { p.options with enableLongModeSegmentOverride := true }

/-- Whether an entry of the new image is activated.  The requested entry may span a retired
page, because the image was built from that page's current bytes. -/
def activatesEntry (p : AotCodeCachePlacement) (guestEntry : Word) (entry : AotAddressMapEntry) : Bool :=
  canActivateAotAddressMapEntry p entry (aotGuestPage guestEntry) ||
    (entry.guestAddress = guestEntry && !entrySpansQuarantinedPage p entry)

/-- The bytes of the new image with a trap over every entry that is not activated. -/
def closeInactiveEntries (p : AotCodeCachePlacement) (guestEntry : Word) (image : AotCodeCacheImage) :
    List Byte :=
  image.addressMap.foldl
    (fun bytes entry =>
      if activatesEntry p guestEntry entry then bytes else bytes.set entry.cacheOffset 0xCC)
    image.bytes

/-- Redirect one inactive entry to the fresh one. -/
def relinkEntry (p : AotCodeCachePlacement) (freshOffset : ℕ) (mem : Memory) (index : ℕ) : Memory :=
  match p.addressMap[index]? with
  | none => mem
  | some stale =>
    let relative : ℤ := (freshOffset : ℤ) - ((stale.cacheOffset : ℤ) + 5)
    if p.isActive index ∨ stale.emittedLength < 5 ∨ relative < -2 ^ 31 ∨ 2 ^ 31 ≤ relative then mem
    else (mem.set stale.cacheOffset 0xE9).set32 (stale.cacheOffset + 1) (BitVec.ofInt 32 relative)

/-- The relink loop over the activated entries of the new image. -/
def relinkEntries (p : AotCodeCachePlacement) (guestEntry : Word) (image : AotCodeCacheImage)
    (mem : Memory) : Memory :=
  image.addressMap.foldl
    (fun mem fresh =>
      if activatesEntry p guestEntry fresh then
        (p.inactiveByGuestAddress fresh.guestAddress).foldl
          (relinkEntry p (p.size + fresh.cacheOffset)) mem
      else mem)
    mem

/-- Register the entries of the new image. -/
def registerImage (p q : AotCodeCachePlacement) (request : AppendRequest) (generation : ℕ)
    (image : AotCodeCacheImage) : AotCodeCachePlacement :=
  image.addressMap.foldl
    (fun r entry =>
      registerAotAddressMap (aotGuestPage request.guestEntry) r
        { entry with cacheOffset := p.size + entry.cacheOffset }
        { generation := generation
          active := activatesEntry p request.guestEntry entry
          tracksGuestBytes := aotAddressMapTracksGuestBytes entry request.excludedRanges })
    q

/-- The publication of a built image: everything behind the capacity check. -/
def publishImage (request : AppendRequest) (env : AppendEnvironment) (image : AotCodeCacheImage)
    (p : AotCodeCachePlacement) : AotCodeCachePlacement × AotDynamicAppendResult :=
  match image.addressMap.find? fun entry =>
    activatesEntry p request.guestEntry entry && entry.guestAddress = request.guestEntry with
  | none => (p, ⟨.entryInactive, 0, 0⟩)
  | some entry =>
    if ¬env.watchesInstalled then (p, ⟨.watchesFailed, 0, 0⟩)
    else
      let generation := p.nextGeneration
      let q := { p with nextGeneration := p.nextGeneration + 1 }
      if ¬env.protectedWritable then (q, ⟨.notWritable, 0, 0⟩)
      else
        let copied := p.memory.setBytes p.size (closeInactiveEntries p request.guestEntry image)
        match resolveImage p.size (p.baseAddress + p.size) env.host
          (request.segmentTable.getD .empty) image copied with
        | .error failure => ({ q with memory := copied }, ⟨.resolveFailed failure, 0, 0⟩)
        | .ok resolved =>
          let memory := relinkEntries p request.guestEntry image resolved
          if ¬env.protectedExecute then ({ q with memory := memory }, ⟨.notExecutable, 0, 0⟩)
          else
            let r := registerImage p { q with memory := memory } request generation image
            ({ r with
               sites := registerSites p.sites p.size image.code
               size := p.size + image.bytes.length },
              ⟨.appended, p.baseAddress + p.size + entry.cacheOffset, generation⟩)

/-- `AppendDynamicAotTranslation`.  The planner runs on `fuel`; `none` is an unfinished run. -/
def appendDynamicAotTranslation (table : Table) (emission : Host) (fuel : ℕ) (request : AppendRequest)
    (env : AppendEnvironment) (p : AotCodeCachePlacement) :
    Option (AotCodeCachePlacement × AotDynamicAppendResult) :=
  if ¬p.placed ∨ request.runtimeSize = 0 ∨ request.guestEntry < request.runtimeBase ∨
      request.runtimeSize ≤ request.guestEntry - request.runtimeBase then
    some (p, ⟨.outsideArena, 0, 0⟩)
  else if ¬env.arenaReadable then some (p, ⟨.arenaUnreadable, 0, 0⟩)
  else
    match buildAotTranslationPlanFromEntry table fuel (arenaView p request) request.guestEntry
      request.excludedRanges with
    | none => none
    | some plan =>
      match buildAotCodeCacheImage ⟨table, emission, appendOptions p⟩ plan with
      | none => some (p, ⟨.translationFailed, 0, 0⟩)
      | some image =>
        if env.rejected then some (p, ⟨.rejected, 0, 0⟩)
        else if ¬env.hleCovered then some (p, ⟨.uncovered, 0, 0⟩)
        else if p.capacity - p.size < image.bytes.length then some (p, ⟨.capacityExhausted, 0, 0⟩)
        else some (publishImage request env image p)

/-! ## Retirement -/

/-- The guards of a site; a site without entries has the one its own fields name. -/
def siteGuards (site : AotIndirectInlineCacheSite) : List AotInlineCacheEntry :=
  if site.entries.isEmpty then
    [{ compareOffset := site.cacheOffset
       targetImmediateOffset := site.targetImmediateOffset
       guardOffset := site.guardOffset
       jumpDisplacementOffset := site.jumpDisplacementOffset }]
  else site.entries

/-- The body of the loop of `ResetInlineCacheGuardsTargetingPage`. -/
def resetGuard (size : ℕ) (page : Word) (guardTarget : ℕ) (mem : Memory) (guard : AotInlineCacheEntry) :
    Memory :=
  if size < guard.guardOffset + 6 ∨ size < guard.targetImmediateOffset + 4 ∨ size ≤ guardTarget then mem
  else if mem guard.guardOffset ≠ 0x0F ∨ mem (guard.guardOffset + 1) ≠ 0x85 then mem
  else if aotGuestPage (mem.get32 guard.targetImmediateOffset) ≠ page then mem
  else
    ((mem.set guard.guardOffset 0xE9).set32 (guard.guardOffset + 1)
      (BitVec.ofInt 32 ((guardTarget : ℤ) - ((guard.guardOffset : ℤ) + 5)))).set
      (guard.guardOffset + 5) 0x90

/-- `ResetInlineCacheGuardsTargetingPage` on one site. -/
def resetSiteGuards (size : ℕ) (page : Word) (mem : Memory) (site : AotIndirectInlineCacheSite) :
    Memory :=
  (siteGuards site).foldl (resetGuard size page (aotInlineCacheGuardTargetOffset site)) mem

/-- `ResetInlineCacheGuardsTargetingPage`. -/
def resetInlineCacheGuardsTargetingPage (size : ℕ) (page : Word)
    (sites : List AotIndirectInlineCacheSite) (mem : Memory) : Memory :=
  sites.foldl (resetSiteGuards size page) mem

/-- Whether retiring the page makes the entry of this index inactive. -/
def retiresEntry (p : AotCodeCachePlacement) (page : Word) (index : ℕ) : Bool :=
  match p.addressMap[index]?, p.addressMapStates[index]? with
  | some entry, some state =>
    state.active && state.tracksGuestBytes &&
      rangesOverlap page.toNat kGuestPageSize entry.guestAddress.toNat entry.guestLength
  | _, _ => false

/-- How a retirement ended. -/
inductive RetireStatus
  | unavailable | noProvenance | alreadyRetired | notWritable | notExecutable | retired
  deriving DecidableEq, Repr

/-- `AotGuestPageRetireResult`. -/
structure AotGuestPageRetireResult where
  guestPage : Word
  status : RetireStatus
  retiredEntries : List ℕ := []
  deriving DecidableEq, Repr

/-- `result->retired`. -/
def AotGuestPageRetireResult.retired (r : AotGuestPageRetireResult) : Bool :=
  r.status = .alreadyRetired ∨ r.status = .retired

/-- Mark a page retired. -/
def markRetired (quarantine : Bool) (page : Word) (pages : List AotGuestPageState) :
    List AotGuestPageState :=
  updateGuestPageState page
    (fun s => { s with retired := true, quarantined := s.quarantined || quarantine }) pages

/-- Trap over the entries. -/
def trapEntries (p : AotCodeCachePlacement) (selected : List ℕ) (mem : Memory) : Memory :=
  selected.foldl
    (fun mem index =>
      match p.addressMap[index]? with
      | some entry => mem.set entry.cacheOffset 0xCC
      | none => mem)
    mem

/-- Make the entries inactive. -/
def deactivate (selected : List ℕ) (states : List AotAddressMapState) : List AotAddressMapState :=
  selected.foldl (fun states index => states.modify index fun s => { s with active := false }) states

/-- `RetireAotGuestPage`. -/
def retireAotGuestPage (guestAddress : Word) (quarantine protectedWritable protectedExecute : Bool)
    (p : AotCodeCachePlacement) : AotCodeCachePlacement × AotGuestPageRetireResult :=
  let page := aotGuestPage guestAddress
  if ¬p.placed then (p, ⟨page, .unavailable, []⟩)
  else
    match findGuestPageState p.guestPages page with
    | none => (p, ⟨page, .noProvenance, []⟩)
    | some state =>
      let selected := state.mapIndices.filter (retiresEntry p page)
      if selected = [] then
        ({ p with guestPages := markRetired quarantine page p.guestPages },
          ⟨page, .alreadyRetired, []⟩)
      else if ¬protectedWritable then (p, ⟨page, .notWritable, []⟩)
      else
        let memory := resetInlineCacheGuardsTargetingPage p.size page p.sites.indirectInlineCacheSites
          (trapEntries p selected p.memory)
        if ¬protectedExecute then ({ p with memory := memory }, ⟨page, .notExecutable, []⟩)
        else
          ({ p with
             memory := memory
             addressMapStates := deactivate selected p.addressMapStates
             inactiveMapIndices := p.inactiveMapIndices ++ selected
             guestPages := markRetired quarantine page p.guestPages },
            ⟨page, .retired, selected⟩)

/-! ## Re-resolution -/

/-- Whether the placement has a segment site. -/
def hasSegmentSites (sites : Fragment) : Bool :=
  !sites.segmentOverrideSites.isEmpty || !sites.guardedSegmentPopSites.isEmpty ||
    !sites.guardedSegmentReadSites.isEmpty || !sites.guardedSegmentLoadSites.isEmpty

/-- The four patchers in the order re-resolution calls them. -/
def reResolveSegments (table : AotSegmentTable) (host : PlacementHost) (sites : Fragment)
    (mem : Memory) : Memory :=
  patchAotGuardedSegmentReadSites 0 table sites.guardedSegmentReadSites
    (patchAotGuardedSegmentPopSites 0 table host.popCounters sites.guardedSegmentPopSites
      (patchAotGuardedSegmentLoadSites 0 table host.loadCounters sites.guardedSegmentLoadSites
        (patchAotSegmentOverrideSites 0 table sites.segmentOverrideSites mem)))

/-- `ReResolveWin32AotSegmentOverrides`. -/
def reResolveWin32AotSegmentOverrides (table : AotSegmentTable) (host : PlacementHost)
    (protectedWritable : Bool) (p : AotCodeCachePlacement) : AotCodeCachePlacement :=
  if ¬p.placed ∨ ¬hasSegmentSites p.sites ∨ ¬protectedWritable then p
  else { p with memory := reResolveSegments table host p.sites p.memory }

end Repiu.Engine
