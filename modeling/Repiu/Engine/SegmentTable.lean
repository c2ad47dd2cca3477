import Repiu.Engine.Operations

/-!
# Segment tables

What a segment register resolves to (`BuildAotSegmentResolution`,
`aot_code_cache.cpp`), the table of all of them, and the re-resolution that only
patches when this table differs from the one it remembers
(`aot_runtime_dispatch.cpp`).
-/

namespace Repiu.Engine

open Repiu.Runtime Repiu.X86

/-! ## Descriptors -/

/-- `GuestDescriptor`, as far as resolution reads it. -/
structure GuestDescriptor where
  selector : BitVec 16
  base : Word
  limit : Word
  flags : Word := 0
  present : Bool := true
  deriving DecidableEq, Repr

/-- `SelectorTable`. -/
structure SelectorTable where
  valid : Bool := true
  descriptors : List GuestDescriptor
  deriving DecidableEq, Repr

/-- `FindDescriptor`. -/
def findDescriptor (table : SelectorTable) (selector : BitVec 16) : Option GuestDescriptor :=
  if ¬table.valid ∨ selector = 0 then none
  else table.descriptors.find? fun descriptor => descriptor.selector = selector && descriptor.present

/-- `kDosLowMemorySize`. -/
def kDosLowMemorySize : ℕ := 0x10000

/-- The policy of a descriptor: a segment past the address space is left unresolved, and one in
low memory is emulated. -/
def descriptorPolicy (descriptor : GuestDescriptor) : AotSegmentAccessPolicy :=
  let last := descriptor.base.toNat + descriptor.limit.toNat
  if 2 ^ 32 ≤ last then .kUnresolved
  else if descriptor.base.toNat < kDosLowMemorySize ∧ last < kDosLowMemorySize then .kHleLowMemory
  else .kNativeFolded

/-- `BuildAotSegmentResolution`. -/
def buildAotSegmentResolution (table : SelectorTable) (shadowAddress : Word) (selector : BitVec 16) :
    AotSegmentResolution :=
  if shadowAddress = 0 then { selector := selector }
  else if selector = 0 then
    { shadowAddress := shadowAddress, selector := selector, policy := .kHleLowMemory }
  else
    match findDescriptor table selector with
    | none => { shadowAddress := shadowAddress, selector := selector }
    | some descriptor =>
      { shadowAddress := shadowAddress
        selector := selector
        base := descriptor.base
        limit := descriptor.limit
        flags := descriptor.flags
        policy := descriptorPolicy descriptor }

/-! ## The table -/

/-- `AotShadowSelectorBlock` and its address: six selectors, and behind them two accepted selectors
for each. -/
structure AotShadowSelectorBlock where
  address : ℕ
  selectors : Fin 6 → BitVec 16

/-- The segment state of a thread: the selectors in `guest_es` to `guest_gs` and where these fields
are, the shadow block, the descriptors, and the loader's flat selectors. -/
structure SegmentState where
  guestSelectors : Fin 6 → BitVec 16
  guestAddresses : Fin 6 → ℕ
  shadowSelectors : Option AotShadowSelectorBlock := none
  selectorTable : SelectorTable
  flatStackSelector : BitVec 16 := 0
  flatDataSelector : BitVec 16 := 0

/-- `SyncGuestSegmentsFromShadow`; CS has no shadow. -/
def syncGuestSegmentsFromShadow (state : SegmentState) : SegmentState :=
  match state.shadowSelectors with
  | none => state
  | some block =>
    { state with
      guestSelectors := fun seg => if seg = 1 then state.guestSelectors seg else block.selectors seg }

/-- An address as a 32-bit operand; zero where it does not fit. -/
def operandAddress (address : ℕ) : Word := if address < 2 ^ 32 then BitVec.ofNat 32 address else 0

/-- Where the selector of a register is compared. -/
def shadowAddress (state : SegmentState) (seg : Fin 6) : Word :=
  match state.shadowSelectors with
  | some block => operandAddress (block.address + 2 * seg)
  | none => operandAddress (state.guestAddresses seg)

/-- Where the accepted selectors of a register are; zero where there are none. -/
def pairAddresses (state : SegmentState) (seg : Fin 6) : Word × Word :=
  match state.shadowSelectors with
  | none => (0, 0)
  | some block =>
    let pairBase := block.address + 12 + 4 * seg
    if shadowAddress state seg ≠ 0 ∧ pairBase + 2 < 2 ^ 32 then
      (BitVec.ofNat 32 pairBase, BitVec.ofNat 32 (pairBase + 2))
    else (0, 0)

/-- `ApplyFlatStackSegmentFold`. -/
def applyFlatStackSegmentFold (flatSelector : BitVec 16) (resolution : AotSegmentResolution) :
    AotSegmentResolution :=
  if flatSelector = 0 ∨ resolution.selector ≠ flatSelector ∨ resolution.policy ≠ .kNativeFolded then
    resolution
  else { resolution with base := 0 }

/-- `ApplyFlatSegmentFolds`. -/
def applyFlatSegmentFolds (flatStackSelector flatDataSelector : BitVec 16) (table : AotSegmentTable) :
    AotSegmentTable :=
  ⟨fun seg =>
    if seg = 1 then table.segments seg
    else applyFlatStackSegmentFold flatDataSelector
      (applyFlatStackSegmentFold flatStackSelector (table.segments seg))⟩

/-- `BuildAotSegmentTable`. -/
def buildAotSegmentTable (state : SegmentState) : AotSegmentTable :=
  let synced := syncGuestSegmentsFromShadow state
  applyFlatSegmentFolds state.flatStackSelector state.flatDataSelector
    ⟨fun seg =>
      if seg = 1 then {}
      else
        { buildAotSegmentResolution state.selectorTable (shadowAddress state seg)
            (synced.guestSelectors seg) with
          pair0Address := (pairAddresses state seg).1
          pair1Address := (pairAddresses state seg).2 }⟩

/-- `SameAotSegmentResolution`. -/
def sameAotSegmentResolution (left right : AotSegmentResolution) : Bool :=
  left.shadowAddress = right.shadowAddress ∧ left.pair0Address = right.pair0Address ∧
    left.pair1Address = right.pair1Address ∧ left.selector = right.selector ∧ left.base = right.base ∧
    left.limit = right.limit ∧ left.flags = right.flags ∧ left.policy = right.policy

theorem sameAotSegmentResolution_iff {left right : AotSegmentResolution} :
    sameAotSegmentResolution left right = true ↔ left = right := by
  cases left
  cases right
  simp [sameAotSegmentResolution]

/-! ## Re-resolution -/

/-- The part of `ThreadContext` that re-resolution works on. -/
structure ThreadContext where
  placement : AotCodeCachePlacement
  segments : SegmentState
  resolvedSegments : AotSegmentTable := .empty
  segmentResolutionsInitialized : Bool := false

/-- Whether the table differs from the remembered one. -/
def ThreadContext.segmentsChanged (c : ThreadContext) : Bool :=
  !c.segmentResolutionsInitialized ||
    (List.finRange 6).any fun seg =>
      !sameAotSegmentResolution ((buildAotSegmentTable c.segments).segments seg)
        (c.resolvedSegments.segments seg)

/-- The sites `ReResolveWin32AotSegmentOverrides` reports as processed; zero where it gives up. -/
def reResolvedSiteCount (protectedWritable : Bool) (p : AotCodeCachePlacement) : ℕ :=
  if ¬p.placed ∨ ¬hasSegmentSites p.sites ∨ ¬protectedWritable then 0
  else
    (p.sites.segmentOverrideSites.filter fun site => site.segmentRegister < 6).length +
      p.sites.guardedSegmentLoadSites.length + p.sites.guardedSegmentPopSites.length +
      p.sites.guardedSegmentReadSites.length

/-- How a re-resolution ended. -/
inductive ReResolveStatus
  | noSites | unchanged | failed | patched
  deriving DecidableEq, Repr

/-- `ReResolveAotSegmentOverrides`. -/
def reResolveAotSegmentOverrides (host : PlacementHost) (protectedWritable : Bool) (c : ThreadContext) :
    ThreadContext × ReResolveStatus :=
  if c.placement.sites.segmentOverrideSites.isEmpty && c.placement.sites.guardedSegmentPopSites.isEmpty then
    (c, .noSites)
  else
    let table := buildAotSegmentTable c.segments
    let synced := { c with segments := syncGuestSegmentsFromShadow c.segments }
    if ¬c.segmentsChanged then (synced, .unchanged)
    else
      let patched :=
        { synced with
          placement := reResolveWin32AotSegmentOverrides table host protectedWritable c.placement }
      if reResolvedSiteCount protectedWritable c.placement = 0 then (patched, .failed)
      else
        ({ patched with resolvedSegments := table, segmentResolutionsInitialized := true }, .patched)

/-- A finished re-resolution that finds its table unchanged has remembered the current one. -/
theorem ThreadContext.resolved_of_unchanged {c : ThreadContext} (h : c.segmentsChanged = false) :
    c.segmentResolutionsInitialized = true ∧ c.resolvedSegments = buildAotSegmentTable c.segments := by
  unfold segmentsChanged at h
  rw [Bool.or_eq_false_iff, Bool.not_eq_false', List.any_eq_false] at h
  refine ⟨h.1, ?_⟩
  have hsame : ∀ seg, c.resolvedSegments.segments seg = (buildAotSegmentTable c.segments).segments seg := by
    intro seg
    have := h.2 seg (List.mem_finRange seg)
    rw [Bool.not_eq_true', Bool.not_eq_false] at this
    exact (sameAotSegmentResolution_iff.1 this).symm
  cases hc : c.resolvedSegments
  cases ht : buildAotSegmentTable c.segments
  rw [hc, ht] at hsame
  exact congrArg AotSegmentTable.mk (funext hsame)

end Repiu.Engine
