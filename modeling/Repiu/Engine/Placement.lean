import Repiu.Engine.SegmentPatch
import Repiu.Runtime.Builder

/-!
# Placed code caches

The state of a placed cache and its page coherence (`aot_code_cache.h`,
`aot_page_coherence.cpp`).  The cache bytes are a memory indexed by the offset
from `baseAddress`.
-/

namespace Repiu.Engine

open Repiu.Runtime

/-- `kGuestPageSize`. -/
def kGuestPageSize : ℕ := 4096

/-- `AotGuestPage`. -/
def aotGuestPage (address : Word) : Word := address &&& 0xFFFFF000

/-- `AotAddressMapState`. -/
structure AotAddressMapState where
  generation : ℕ := 0
  active : Bool := false
  tracksGuestBytes : Bool := false
  deriving DecidableEq, Repr

/-- `AotGuestPageState`. -/
structure AotGuestPageState where
  guestPage : Word
  latestGeneration : ℕ := 0
  mapIndices : List ℕ := []
  retired : Bool := false
  quarantined : Bool := false
  deriving DecidableEq, Repr

/-- `AotCodeCachePlacement`.  The fixups and sites are kept in `sites`, whose byte list stays
empty; the inactive map indices are in the order of their retirement. -/
structure AotCodeCachePlacement where
  placed : Bool := false
  baseAddress : ℕ := 0
  size : ℕ := 0
  capacity : ℕ := 0
  entryAddress : ℕ := 0
  memory : Memory
  codeModeRanges : List RuntimeCodeModeRange := []
  addressMap : List AotAddressMapEntry := []
  addressMapStates : List AotAddressMapState := []
  sites : Fragment := {}
  guestPages : List AotGuestPageState := []
  inactiveMapIndices : List ℕ := []
  nextGeneration : ℕ := 1
  options : AotCodeCacheBuildOptions := {}

/-! ## Pages -/

/-- `RangesOverlap`. -/
def rangesOverlap (left leftSize right rightSize : ℕ) : Bool :=
  left < right + rightSize ∧ right < left + leftSize

/-- The pages an instruction lies on; none for an empty one or one past the address space. -/
def entryPages (entry : AotAddressMapEntry) : List Word :=
  let last := entry.guestAddress.toNat + entry.guestLength - 1
  if entry.guestLength = 0 ∨ 2 ^ 32 ≤ last then []
  else
    let first := (aotGuestPage entry.guestAddress).toNat
    (List.range ((last - first) / kGuestPageSize + 1)).map fun k =>
      BitVec.ofNat 32 (first + k * kGuestPageSize)

/-- `FindGuestPageState`. -/
def findGuestPageState (pages : List AotGuestPageState) (page : Word) : Option AotGuestPageState :=
  pages.find? fun state => state.guestPage = page

/-- `EnsureGuestPageState` and the update the caller makes through it.  The pages stay sorted. -/
def updateGuestPageState (page : Word) (f : AotGuestPageState → AotGuestPageState) :
    List AotGuestPageState → List AotGuestPageState
  | [] => [f { guestPage := page }]
  | state :: pages =>
    if state.guestPage < page then state :: updateGuestPageState page f pages
    else if state.guestPage = page then f state :: pages
    else f { guestPage := page } :: state :: pages

/-- `RegisterAddressMapPages`, without the list of active pages it reports. -/
def registerAddressMapPages (pages : List AotGuestPageState) (entry : AotAddressMapEntry)
    (mapIndex : ℕ) (state : AotAddressMapState) : List AotGuestPageState :=
  (entryPages entry).foldl
    (fun pages page =>
      updateGuestPageState page
        (fun s =>
          { s with
            mapIndices := s.mapIndices ++ [mapIndex]
            latestGeneration :=
              if state.active then max s.latestGeneration state.generation else s.latestGeneration })
        pages)
    pages

/-- `RegisterAotAddressMap` for an entry at the end of the map. -/
def registerAotAddressMap (requestedPage : Word) (p : AotCodeCachePlacement)
    (entry : AotAddressMapEntry) (state : AotAddressMapState) : AotCodeCachePlacement :=
  let mapIndex := p.addressMap.length
  let registered :=
    if state.tracksGuestBytes then registerAddressMapPages p.guestPages entry mapIndex state
    else p.guestPages
  { p with
    addressMap := p.addressMap ++ [entry]
    addressMapStates := p.addressMapStates ++ [state]
    guestPages :=
      if state.tracksGuestBytes ∧ state.active ∧ aotGuestPage entry.guestAddress = requestedPage then
        updateGuestPageState requestedPage
          (fun s => { s with retired := false, latestGeneration := state.generation }) registered
      else registered
    inactiveMapIndices :=
      if state.active then p.inactiveMapIndices else p.inactiveMapIndices ++ [mapIndex] }

/-- Whether an entry of the map is active. -/
def AotCodeCachePlacement.isActive (p : AotCodeCachePlacement) (index : ℕ) : Bool :=
  (p.addressMapStates[index]?.map AotAddressMapState.active).getD false

/-- `inactive_map_indices_by_guest_address`. -/
def AotCodeCachePlacement.inactiveByGuestAddress (p : AotCodeCachePlacement) (address : Word) : List ℕ :=
  p.inactiveMapIndices.filter fun index =>
    (p.addressMap[index]?.map AotAddressMapEntry.guestAddress) = some address

/-- `CanActivateAotAddressMapEntry`. -/
def canActivateAotAddressMapEntry (p : AotCodeCachePlacement) (entry : AotAddressMapEntry)
    (requestedPage : Word) : Bool :=
  entryPages entry ≠ [] ∧ (entryPages entry).all fun page =>
    match findGuestPageState p.guestPages page with
    | none => true
    | some state => !(state.quarantined || (state.retired && page ≠ requestedPage))

/-- `EntrySpansQuarantinedPage`. -/
def entrySpansQuarantinedPage (p : AotCodeCachePlacement) (entry : AotAddressMapEntry) : Bool :=
  entryPages entry = [] ∨ (entryPages entry).any fun page =>
    match findGuestPageState p.guestPages page with
    | none => false
    | some state => state.quarantined

/-- `AotAddressMapTracksGuestBytes`. -/
def aotAddressMapTracksGuestBytes (entry : AotAddressMapEntry)
    (excludedRanges : List AotExcludedGuestRange) : Bool :=
  excludedRanges.all fun range =>
    range.byteCount = 0 ||
      !rangesOverlap entry.guestAddress.toNat entry.guestLength range.guestAddress.toNat
        range.byteCount.toNat

/-! ## Resolving the sites of an image

`base` is the offset of the image in the cache and `absolute` the address of that offset. -/

/-- `ResolveAotTimerSafePoints`. -/
def resolveAotTimerSafePoints (base : ℕ) (request : Word) (image : AotCodeCacheImage) (mem : Memory) :
    Memory :=
  image.code.timerSafePointSites.foldl
    (fun mem site => mem.set32 (base + site.requestAddressOffset) request) mem

/-- The words of a resolved jump table. -/
def jumpTableWords (absolute : ℕ) (image : AotCodeCacheImage) (site : AotJumpTableSite) : List Byte :=
  site.guestTargets.flatMap fun target =>
    le32 (BitVec.ofNat 32 (absolute +
      ((findEntry image.addressMap target).map AotAddressMapEntry.cacheOffset).getD
        site.fallbackOffset))

/-- `ResolveAotJumpTables`. -/
def resolveAotJumpTables (base absolute : ℕ) (image : AotCodeCacheImage) (mem : Memory) : Memory :=
  image.code.jumpTableSites.foldl
    (fun mem site =>
      (mem.set32 (base + site.displacementPatchOffset)
        (BitVec.ofNat 32 (absolute + site.tableCacheOffset))).setBytes
        (base + site.tableCacheOffset) (jumpTableWords absolute image site))
    mem

/-- A dispatch stub: the address it reports and the jump to its thunk. -/
def resolveDispatch (base absolute : ℕ) (thunk : Word) (reported immediateOffset thunkOffset : ℕ)
    (mem : Memory) : Memory :=
  (mem.set32 (base + immediateOffset) (BitVec.ofNat 32 (absolute + reported))).set32
    (base + thunkOffset) (thunk - BitVec.ofNat 32 (absolute + thunkOffset + 4))

/-- `ResolveAotDbtReturnDispatchSites`. -/
def resolveAotDbtReturnDispatchSites (base absolute : ℕ) (thunk : Word) (image : AotCodeCacheImage)
    (mem : Memory) : Memory :=
  image.code.dbtReturnDispatchSites.foldl
    (fun mem site => resolveDispatch base absolute thunk site.missCacheOffset
      site.missAddressImmediateOffset site.thunkDisplacementOffset mem) mem

/-- `ResolveAotDbtDirectEdgeDispatchSites`. -/
def resolveAotDbtDirectEdgeDispatchSites (base absolute : ℕ) (thunk : Word)
    (image : AotCodeCacheImage) (mem : Memory) : Memory :=
  image.code.dbtDirectEdgeDispatchSites.foldl
    (fun mem site => resolveDispatch base absolute thunk site.dispatchCacheOffset
      site.dispatchAddressImmediateOffset site.thunkDisplacementOffset mem) mem

/-- `ResolveAotDbtHleDispatchSites`. -/
def resolveAotDbtHleDispatchSites (base absolute : ℕ) (thunk : Word) (image : AotCodeCacheImage)
    (mem : Memory) : Memory :=
  image.code.dbtHleDispatchSites.foldl
    (fun mem site => resolveDispatch base absolute thunk site.dispatchCacheOffset
      site.dispatchAddressImmediateOffset site.thunkDisplacementOffset mem) mem

/-- The direct-return table as the probes see it. -/
structure DirectReturnTable where
  keyAddress : Word
  mask : Word
  hitCounterAddress : Word
  deriving DecidableEq, Repr

/-- `PatchAotDirectReturnProbe` on a site whose operands lie in the image. -/
def patchAotDirectReturnProbe (base : ℕ) (table : DirectReturnTable) (mem : Memory)
    (site : AotDirectReturnProbeSite) : Memory :=
  (((mem.set32 (base + site.maskImmediateOffset) table.mask).set32
    (base + site.keyAddressOffset) table.keyAddress).set32
    (base + site.targetAddressOffset) (table.keyAddress + 4)).set32
    (base + site.hitCounterAddressOffset) table.hitCounterAddress

/-- The bounds `PatchAotDirectReturnProbe` checks. -/
def probeInBounds (size : ℕ) (site : AotDirectReturnProbeSite) : Bool :=
  site.maskImmediateOffset + 4 ≤ size ∧ site.keyAddressOffset + 4 ≤ size ∧
    site.targetAddressOffset + 4 ≤ size ∧ site.hitCounterAddressOffset + 4 ≤ size

/-- What an operation on the cache reads of the host.  An absent thunk or table is one that
does not exist or does not fit 32 bits. -/
structure PlacementHost where
  timerRequest : Option Word := none
  returnThunk : Option Word := none
  directEdgeThunk : Option Word := none
  hleThunk : Option Word := none
  directReturnTable : Option DirectReturnTable := none
  popCounters : CounterAddresses := {}
  loadCounters : CounterAddresses := {}
  deriving DecidableEq, Repr

/-- Which resolution step of an image failed. -/
inductive ResolveFailure
  | timerSafePoint | returnThunk | directReturnTable | directEdgeThunk | hleThunk
  deriving DecidableEq, Repr

/-- The value a family of sites needs; none is needed where there are no sites. -/
def requireFor {α β : Type} (sites : List α) (value : Option β) (fallback : β)
    (failure : ResolveFailure) : Except ResolveFailure β :=
  if sites.isEmpty then .ok fallback
  else
    match value with
    | some v => .ok v
    | none => .error failure

/-- The four segment resolvers. -/
def resolveSegments (base : ℕ) (host : PlacementHost) (table : AotSegmentTable)
    (image : AotCodeCacheImage) (mem : Memory) : Memory :=
  patchAotGuardedSegmentLoadSites base table host.loadCounters image.code.guardedSegmentLoadSites
    (patchAotGuardedSegmentReadSites base table image.code.guardedSegmentReadSites
      (patchAotGuardedSegmentPopSites base table host.popCounters image.code.guardedSegmentPopSites
        (patchAotSegmentOverrideSites base table image.code.segmentOverrideSites mem)))

/-- The resolution steps in the order `PlaceAotCodeCache` and `AppendDynamicAotTranslation` take
them.  The error of a failed step is what they report; the bytes are abandoned. -/
def resolveImage (base absolute : ℕ) (host : PlacementHost) (table : AotSegmentTable)
    (image : AotCodeCacheImage) (mem : Memory) : Except ResolveFailure Memory := do
  let code := image.code
  let request ← requireFor code.timerSafePointSites host.timerRequest 0 .timerSafePoint
  let mem := resolveAotTimerSafePoints base request image mem
  let mem := resolveAotJumpTables base absolute image mem
  let mem := resolveSegments base host table image mem
  let returnThunk ← requireFor code.dbtReturnDispatchSites host.returnThunk 0 .returnThunk
  let mem := resolveAotDbtReturnDispatchSites base absolute returnThunk image mem
  let probes ← requireFor code.directReturnProbeSites host.directReturnTable ⟨0, 0, 0⟩ .directReturnTable
  if code.directReturnProbeSites.any fun site => !probeInBounds image.bytes.length site then
    throw .directReturnTable
  let mem := code.directReturnProbeSites.foldl (patchAotDirectReturnProbe base probes) mem
  let directEdgeThunk ←
    requireFor code.dbtDirectEdgeDispatchSites host.directEdgeThunk 0 .directEdgeThunk
  let mem := resolveAotDbtDirectEdgeDispatchSites base absolute directEdgeThunk image mem
  let hleThunk ← requireFor code.dbtHleDispatchSites host.hleThunk 0 .hleThunk
  return resolveAotDbtHleDispatchSites base absolute hleThunk image mem

end Repiu.Engine
