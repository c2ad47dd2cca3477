import Repiu.Runtime.TranslationPlan

/-!
# Code cache image

The data model of an emitted image (`aot_code_cache.h`): the address map, the
fixups and the sites later code patches.  A `Fragment` is a run of emitted bytes
together with the sites in it.  Emitters produce a fragment whose offsets are
relative to its first byte; `Fragment.append` puts it behind the bytes emitted so
far, which is what appending to `image->bytes` and recording
`image->bytes.size()` comes to.
-/

namespace Repiu.Runtime

/-- `AotFixupKind`. -/
inductive AotFixupKind
  | kDirectCall | kDirectJump | kBlockFallthrough | kConditionalBranch | kHleBoundary
  | kIndirectExit
  deriving DecidableEq, Repr

/-- `AotAddressMapEntry`. -/
structure AotAddressMapEntry where
  guestAddress : Word
  cacheOffset : ℕ
  guestLength : ℕ
  emittedLength : ℕ
  deriving DecidableEq, Repr

/-- `AotCodeCacheFixup`. -/
structure AotCodeCacheFixup where
  kind : AotFixupKind
  guestSource : Word
  guestTarget : Word
  cachePatchOffset : ℕ
  resolved : Bool := false
  deriving DecidableEq, Repr

/-- `AotInlineCacheEntry`. -/
structure AotInlineCacheEntry where
  compareOffset : ℕ
  targetImmediateOffset : ℕ
  guardOffset : ℕ
  jumpDisplacementOffset : ℕ
  deriving DecidableEq, Repr

/-- `AotIndirectInlineCacheSite`.  A zero `missProbeCacheOffset` means no probe. -/
structure AotIndirectInlineCacheSite where
  guestSource : Word
  cacheOffset : ℕ
  missCacheOffset : ℕ
  missProbeCacheOffset : ℕ := 0
  targetImmediateOffset : ℕ
  guardOffset : ℕ
  jumpDisplacementOffset : ℕ
  entries : List AotInlineCacheEntry
  replaceCursor : ℕ := 0
  isCall : Bool := false
  isReturn : Bool := false
  deriving DecidableEq, Repr

/-- `AotInlineCacheGuardTargetOffset`. -/
def aotInlineCacheGuardTargetOffset (site : AotIndirectInlineCacheSite) : ℕ :=
  if site.missProbeCacheOffset ≠ 0 then site.missProbeCacheOffset else site.missCacheOffset

/-- `AotDbtReturnDispatchSite`. -/
structure AotDbtReturnDispatchSite where
  guestSource : Word
  missCacheOffset : ℕ
  missAddressImmediateOffset : ℕ
  thunkDisplacementOffset : ℕ
  fallbackCacheOffset : ℕ
  successCacheOffset : ℕ
  deriving DecidableEq, Repr

/-- `AotDbtHleDispatchSite`. -/
structure AotDbtHleDispatchSite where
  guestSource : Word
  dispatchCacheOffset : ℕ
  dispatchAddressImmediateOffset : ℕ
  thunkDisplacementOffset : ℕ
  fallbackCacheOffset : ℕ
  successCacheOffset : ℕ
  deriving DecidableEq, Repr

/-- `AotDbtDirectEdgeDispatchSite`. -/
structure AotDbtDirectEdgeDispatchSite where
  guestSource : Word
  guestTarget : Word
  dispatchCacheOffset : ℕ
  dispatchAddressImmediateOffset : ℕ
  thunkDisplacementOffset : ℕ
  fallbackCacheOffset : ℕ
  successCacheOffset : ℕ
  deriving DecidableEq, Repr

/-- `AotJumpTableSite`. -/
structure AotJumpTableSite where
  guestSource : Word
  cacheOffset : ℕ
  displacementPatchOffset : ℕ
  fallbackOffset : ℕ
  tableCacheOffset : ℕ
  guestTargets : List Word
  deriving DecidableEq, Repr

/-- `kAotSegmentGuardPrologueBytes`. -/
def kAotSegmentGuardPrologueBytes : ℕ := 5

/-- `AotSegmentOverrideSite`. -/
structure AotSegmentOverrideSite where
  guestSource : Word
  cacheOffset : ℕ
  displacementOffset : ℕ
  guardAddressOffset : ℕ
  guardSelectorOffset : ℕ
  originalDisplacement : Word
  segmentRegister : ℕ
  guardPrologue : List Byte
  deriving DecidableEq, Repr

/-- `AotGuardedSegmentPopSite`.  Zero pair offsets mark the long-mode slot. -/
structure AotGuardedSegmentPopSite where
  guestSource : Word
  cacheOffset : ℕ
  shadowAddressOffset : ℕ
  pair0AddressOffset : ℕ := 0
  pair1AddressOffset : ℕ := 0
  shadowStoreOffset : ℕ := 0
  successCounterAddressOffset : ℕ := 0
  fallbackCounterAddressOffset : ℕ := 0
  fallbackOffset : ℕ
  segmentRegister : ℕ
  guardPrologue : List Byte
  hasCounterOperands : Bool := false
  deriving DecidableEq, Repr

/-- `AotGuardedSegmentLoadSite`. -/
structure AotGuardedSegmentLoadSite where
  guestSource : Word
  cacheOffset : ℕ
  shadowAddressOffset : ℕ
  pair0AddressOffset : ℕ := 0
  pair1AddressOffset : ℕ := 0
  shadowStoreOffset : ℕ := 0
  successCounterAddressOffset : ℕ := 0
  fallbackCounterAddressOffset : ℕ := 0
  fallbackOffset : ℕ
  segmentRegister : ℕ
  gprRegister : ℕ
  guardPrologue : List Byte
  hasCounterOperands : Bool := false
  deriving DecidableEq, Repr

/-- `AotGuardedSegmentReadSite`. -/
structure AotGuardedSegmentReadSite where
  guestSource : Word
  cacheOffset : ℕ
  shadowAddressOffset : ℕ
  loadShadowAddressOffset : ℕ
  fallbackOffset : ℕ
  segmentRegister : ℕ
  gprRegister : ℕ
  guardPrologue : List Byte
  deriving DecidableEq, Repr

/-- `AotTimerSafePointSite`. -/
structure AotTimerSafePointSite where
  guestSource : Word
  cacheOffset : ℕ
  requestAddressOffset : ℕ
  breakpointOffset : ℕ
  deriving DecidableEq, Repr

/-- `AotDirectReturnProbeSite`. -/
structure AotDirectReturnProbeSite where
  guestSource : Word
  cacheOffset : ℕ
  maskImmediateOffset : ℕ
  keyAddressOffset : ℕ
  targetAddressOffset : ℕ
  hitCounterAddressOffset : ℕ
  deriving DecidableEq, Repr

/-! ## Moving sites -/

/-- Move an offset field that is zero when the slot has no such operand. -/
def moveOptional (base offset : ℕ) : ℕ := if offset ≠ 0 then base + offset else 0

/-- Move a fixup. -/
def AotCodeCacheFixup.move (base : ℕ) (f : AotCodeCacheFixup) : AotCodeCacheFixup :=
  { f with cachePatchOffset := base + f.cachePatchOffset }

/-- Move an inline-cache entry. -/
def AotInlineCacheEntry.move (base : ℕ) (e : AotInlineCacheEntry) : AotInlineCacheEntry :=
  { compareOffset := base + e.compareOffset
    targetImmediateOffset := base + e.targetImmediateOffset
    guardOffset := base + e.guardOffset
    jumpDisplacementOffset := base + e.jumpDisplacementOffset }

/-- Move an inline-cache site. -/
def AotIndirectInlineCacheSite.move (base : ℕ) (s : AotIndirectInlineCacheSite) :
    AotIndirectInlineCacheSite :=
  { s with
    cacheOffset := base + s.cacheOffset
    missCacheOffset := base + s.missCacheOffset
    missProbeCacheOffset := moveOptional base s.missProbeCacheOffset
    targetImmediateOffset := base + s.targetImmediateOffset
    guardOffset := base + s.guardOffset
    jumpDisplacementOffset := base + s.jumpDisplacementOffset
    entries := s.entries.map (AotInlineCacheEntry.move base) }

/-- Move a return-dispatch site. -/
def AotDbtReturnDispatchSite.move (base : ℕ) (s : AotDbtReturnDispatchSite) :
    AotDbtReturnDispatchSite :=
  { s with
    missCacheOffset := base + s.missCacheOffset
    missAddressImmediateOffset := base + s.missAddressImmediateOffset
    thunkDisplacementOffset := base + s.thunkDisplacementOffset
    fallbackCacheOffset := base + s.fallbackCacheOffset
    successCacheOffset := base + s.successCacheOffset }

/-- Move an HLE-dispatch site. -/
def AotDbtHleDispatchSite.move (base : ℕ) (s : AotDbtHleDispatchSite) : AotDbtHleDispatchSite :=
  { s with
    dispatchCacheOffset := base + s.dispatchCacheOffset
    dispatchAddressImmediateOffset := base + s.dispatchAddressImmediateOffset
    thunkDisplacementOffset := base + s.thunkDisplacementOffset
    fallbackCacheOffset := base + s.fallbackCacheOffset
    successCacheOffset := base + s.successCacheOffset }

/-- Move a direct-edge dispatch site. -/
def AotDbtDirectEdgeDispatchSite.move (base : ℕ) (s : AotDbtDirectEdgeDispatchSite) :
    AotDbtDirectEdgeDispatchSite :=
  { s with
    dispatchCacheOffset := base + s.dispatchCacheOffset
    dispatchAddressImmediateOffset := base + s.dispatchAddressImmediateOffset
    thunkDisplacementOffset := base + s.thunkDisplacementOffset
    fallbackCacheOffset := base + s.fallbackCacheOffset
    successCacheOffset := base + s.successCacheOffset }

/-- Move a jump-table site. -/
def AotJumpTableSite.move (base : ℕ) (s : AotJumpTableSite) : AotJumpTableSite :=
  { s with
    cacheOffset := base + s.cacheOffset
    displacementPatchOffset := base + s.displacementPatchOffset
    fallbackOffset := base + s.fallbackOffset
    tableCacheOffset := base + s.tableCacheOffset }

/-- Move a segment-override site. -/
def AotSegmentOverrideSite.move (base : ℕ) (s : AotSegmentOverrideSite) : AotSegmentOverrideSite :=
  { s with
    cacheOffset := base + s.cacheOffset
    displacementOffset := base + s.displacementOffset
    guardAddressOffset := base + s.guardAddressOffset
    guardSelectorOffset := base + s.guardSelectorOffset }

/-- Move a guarded segment pop site. -/
def AotGuardedSegmentPopSite.move (base : ℕ) (s : AotGuardedSegmentPopSite) :
    AotGuardedSegmentPopSite :=
  { s with
    cacheOffset := base + s.cacheOffset
    shadowAddressOffset := base + s.shadowAddressOffset
    pair0AddressOffset := moveOptional base s.pair0AddressOffset
    pair1AddressOffset := moveOptional base s.pair1AddressOffset
    shadowStoreOffset := moveOptional base s.shadowStoreOffset
    successCounterAddressOffset := moveOptional base s.successCounterAddressOffset
    fallbackCounterAddressOffset := moveOptional base s.fallbackCounterAddressOffset
    fallbackOffset := base + s.fallbackOffset }

/-- Move a guarded segment load site. -/
def AotGuardedSegmentLoadSite.move (base : ℕ) (s : AotGuardedSegmentLoadSite) :
    AotGuardedSegmentLoadSite :=
  { s with
    cacheOffset := base + s.cacheOffset
    shadowAddressOffset := base + s.shadowAddressOffset
    pair0AddressOffset := moveOptional base s.pair0AddressOffset
    pair1AddressOffset := moveOptional base s.pair1AddressOffset
    shadowStoreOffset := moveOptional base s.shadowStoreOffset
    successCounterAddressOffset := moveOptional base s.successCounterAddressOffset
    fallbackCounterAddressOffset := moveOptional base s.fallbackCounterAddressOffset
    fallbackOffset := base + s.fallbackOffset }

/-- Move a guarded segment read site. -/
def AotGuardedSegmentReadSite.move (base : ℕ) (s : AotGuardedSegmentReadSite) :
    AotGuardedSegmentReadSite :=
  { s with
    cacheOffset := base + s.cacheOffset
    shadowAddressOffset := base + s.shadowAddressOffset
    loadShadowAddressOffset := base + s.loadShadowAddressOffset
    fallbackOffset := base + s.fallbackOffset }

/-- Move a timer safe point. -/
def AotTimerSafePointSite.move (base : ℕ) (s : AotTimerSafePointSite) : AotTimerSafePointSite :=
  { s with
    cacheOffset := base + s.cacheOffset
    requestAddressOffset := base + s.requestAddressOffset
    breakpointOffset := base + s.breakpointOffset }

/-- Move a direct-return probe. -/
def AotDirectReturnProbeSite.move (base : ℕ) (s : AotDirectReturnProbeSite) :
    AotDirectReturnProbeSite :=
  { s with
    cacheOffset := base + s.cacheOffset
    maskImmediateOffset := base + s.maskImmediateOffset
    keyAddressOffset := base + s.keyAddressOffset
    targetAddressOffset := base + s.targetAddressOffset
    hitCounterAddressOffset := base + s.hitCounterAddressOffset }

/-! ## Fragments -/

/-- Emitted bytes with the fixups and sites in them. -/
structure Fragment where
  bytes : List Byte := []
  fixups : List AotCodeCacheFixup := []
  indirectInlineCacheSites : List AotIndirectInlineCacheSite := []
  dbtReturnDispatchSites : List AotDbtReturnDispatchSite := []
  dbtHleDispatchSites : List AotDbtHleDispatchSite := []
  dbtDirectEdgeDispatchSites : List AotDbtDirectEdgeDispatchSite := []
  jumpTableSites : List AotJumpTableSite := []
  guardedSegmentPopSites : List AotGuardedSegmentPopSite := []
  guardedSegmentReadSites : List AotGuardedSegmentReadSite := []
  guardedSegmentLoadSites : List AotGuardedSegmentLoadSite := []
  segmentOverrideSites : List AotSegmentOverrideSite := []
  timerSafePointSites : List AotTimerSafePointSite := []
  directReturnProbeSites : List AotDirectReturnProbeSite := []
  deriving DecidableEq, Repr

namespace Fragment

/-- Put a fragment behind another. -/
def append (a b : Fragment) : Fragment :=
  let base := a.bytes.length
  { bytes := a.bytes ++ b.bytes
    fixups := a.fixups ++ b.fixups.map (AotCodeCacheFixup.move base)
    indirectInlineCacheSites := a.indirectInlineCacheSites ++
      b.indirectInlineCacheSites.map (AotIndirectInlineCacheSite.move base)
    dbtReturnDispatchSites := a.dbtReturnDispatchSites ++
      b.dbtReturnDispatchSites.map (AotDbtReturnDispatchSite.move base)
    dbtHleDispatchSites := a.dbtHleDispatchSites ++
      b.dbtHleDispatchSites.map (AotDbtHleDispatchSite.move base)
    dbtDirectEdgeDispatchSites := a.dbtDirectEdgeDispatchSites ++
      b.dbtDirectEdgeDispatchSites.map (AotDbtDirectEdgeDispatchSite.move base)
    jumpTableSites := a.jumpTableSites ++ b.jumpTableSites.map (AotJumpTableSite.move base)
    guardedSegmentPopSites := a.guardedSegmentPopSites ++
      b.guardedSegmentPopSites.map (AotGuardedSegmentPopSite.move base)
    guardedSegmentReadSites := a.guardedSegmentReadSites ++
      b.guardedSegmentReadSites.map (AotGuardedSegmentReadSite.move base)
    guardedSegmentLoadSites := a.guardedSegmentLoadSites ++
      b.guardedSegmentLoadSites.map (AotGuardedSegmentLoadSite.move base)
    segmentOverrideSites := a.segmentOverrideSites ++
      b.segmentOverrideSites.map (AotSegmentOverrideSite.move base)
    timerSafePointSites := a.timerSafePointSites ++
      b.timerSafePointSites.map (AotTimerSafePointSite.move base)
    directReturnProbeSites := a.directReturnProbeSites ++
      b.directReturnProbeSites.map (AotDirectReturnProbeSite.move base) }

/-- Only bytes. -/
def ofBytes (bytes : List Byte) : Fragment := { bytes := bytes }

@[simp] theorem append_bytes (a b : Fragment) : (a.append b).bytes = a.bytes ++ b.bytes := rfl

@[simp] theorem append_bytes_length (a b : Fragment) :
    (a.append b).bytes.length = a.bytes.length + b.bytes.length := by
  simp only [append_bytes, List.length_append]

end Fragment

/-- `AotCodeCacheBuildOptions`. -/
structure AotCodeCacheBuildOptions where
  indirectInlineCacheEntryCount : ℕ := 4
  enableDbtReturnMissDispatch : Bool := false
  enableDbtDirectEdgeDispatch : Bool := false
  enableGuardedSegmentPop : Bool := false
  enableGuardedSegmentRead : Bool := false
  enableGuardedSegmentLoad : Bool := false
  enableDbtHleDispatch : Bool := false
  enableDbtPortIoDispatch : Bool := false
  enableTimerSafePoints : Bool := false
  enableDirectReturnTable : Bool := false
  enableLongModeEmission : Bool := false
  enableLongModeSegmentOverride : Bool := true
  deriving DecidableEq, Repr

/-- `AotCodeCacheImage`: what placement and the dynamic append read.  The long-mode counters and
the decode-failure samples feed reports only. -/
structure AotCodeCacheImage where
  valid : Bool := false
  entryCacheOffset : ℕ := 0
  code : Fragment := {}
  codeModeRanges : List RuntimeCodeModeRange := []
  addressMap : List AotAddressMapEntry := []
  options : AotCodeCacheBuildOptions := {}
  deriving DecidableEq, Repr

namespace AotCodeCacheImage

/-- The emitted bytes. -/
def bytes (image : AotCodeCacheImage) : List Byte := image.code.bytes

end AotCodeCacheImage

/-- What emission reads of the host it emits for. -/
structure Host where
  /-- `LongModeReturnThunkAddress()`, zero where the thunk does not exist. -/
  longModeReturnThunk : BitVec 64 := 0
  /-- The observers below exist on this host. -/
  linuxX64 : Bool := false
  stackTraceEnabled : Bool := false
  guestEspTraceEnabled : Bool := false
  memoryWriteTraceEnabled : Bool := false
  lfbNativeStoreCensusEnabled : Bool := false
  dispatchFramePointerAddress : BitVec 64 := 0
  guestEspTraceSiteAddress : BitVec 64 := 0
  guestEspTraceValueAddress : BitVec 64 := 0
  nativeMemoryWriteTraceAddress : BitVec 64 := 0
  lfbNativeStoreCensusActiveFlagAddress : BitVec 64 := 0
  deriving DecidableEq, Repr

end Repiu.Runtime
