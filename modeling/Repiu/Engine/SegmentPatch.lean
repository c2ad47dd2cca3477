import Repiu.Runtime.CodeCache

/-!
# Segment patching

The four patchers of `aot_segment_patch.cpp`.  They write into bytes that are
already writable; `base` is where the offsets of the sites count from.
-/

namespace Repiu.Engine

open Repiu.Runtime

/-- `AotSegmentAccessPolicy`. -/
inductive AotSegmentAccessPolicy
  | kUnresolved | kNativeFolded | kHleLowMemory
  deriving DecidableEq, Repr

/-- `AotSegmentResolution`. -/
structure AotSegmentResolution where
  shadowAddress : Word := 0
  pair0Address : Word := 0
  pair1Address : Word := 0
  selector : BitVec 16 := 0
  base : Word := 0
  limit : Word := 0
  flags : Word := 0
  policy : AotSegmentAccessPolicy := .kUnresolved
  deriving DecidableEq, Repr

/-- `AotSegmentTable`: ES, CS, SS, DS, FS, GS. -/
structure AotSegmentTable where
  segments : Fin 6 → AotSegmentResolution

namespace AotSegmentTable

/-- `EmptySegmentTable`: a placement without live descriptors. -/
def empty : AotSegmentTable := ⟨fun _ => {}⟩

/-- The resolution of a segment register number, if there is one. -/
def find (table : AotSegmentTable) (seg : ℕ) : Option AotSegmentResolution :=
  if h : seg < 6 then some (table.segments ⟨seg, h⟩) else none

end AotSegmentTable

/-- The addresses of a slot family's two counters; zero where they do not fit 32 bits. -/
structure CounterAddresses where
  success : Word := 0
  fallback : Word := 0
  deriving DecidableEq, Repr

namespace CounterAddresses

/-- `counters_ready`. -/
def ready (counters : CounterAddresses) (hasCounterOperands : Bool) : Bool :=
  !hasCounterOperands || (counters.success ≠ 0 && counters.fallback ≠ 0)

end CounterAddresses

/-! ## Override sites -/

/-- Whether the override patcher opens the slot rather than closing it. -/
def overrideOpens (table : AotSegmentTable) (site : AotSegmentOverrideSite) : Bool :=
  match table.find site.segmentRegister with
  | none => false
  | some r => r.shadowAddress ≠ 0 && r.policy = .kNativeFolded

/-- The body of the loop of `PatchAotSegmentOverrideSites`. -/
def patchSegmentOverrideSite (base : ℕ) (table : AotSegmentTable) (mem : Memory)
    (site : AotSegmentOverrideSite) : Memory :=
  match table.find site.segmentRegister with
  | none => mem
  | some r =>
    if r.shadowAddress = 0 ∨ r.policy ≠ .kNativeFolded then mem.set (base + site.cacheOffset) 0xCC
    else
      (((mem.setBytes (base + site.cacheOffset) site.guardPrologue).set32
        (base + site.guardAddressOffset) r.shadowAddress).setBytes
        (base + site.guardSelectorOffset) (le16 r.selector)).set32
        (base + site.displacementOffset) (site.originalDisplacement + r.base)

/-- `PatchAotSegmentOverrideSites`. -/
def patchAotSegmentOverrideSites (base : ℕ) (table : AotSegmentTable)
    (sites : List AotSegmentOverrideSite) (mem : Memory) : Memory :=
  sites.foldl (patchSegmentOverrideSite base table) mem

/-! ## Guarded load and pop sites -/

/-- The resolution under which a guarded slot is opened. -/
def guardedResolution (table : AotSegmentTable) (segment : ℕ) (prologue : List Byte)
    (countersReady : Bool) : Option AotSegmentResolution :=
  match table.find segment with
  | none => none
  | some r => if r.shadowAddress = 0 ∨ prologue = [] ∨ ¬countersReady then none else some r

/-- The address a pair compare takes: the shadow word where there is no pair word. -/
def pairAddress (pair shadow : Word) : Word := if pair ≠ 0 then pair else shadow

/-- The offsets of a guarded load or pop slot its patcher writes. -/
structure GuardedOperands where
  cacheOffset : ℕ
  shadowAddressOffset : ℕ
  pair0AddressOffset : ℕ
  pair1AddressOffset : ℕ
  shadowStoreOffset : ℕ
  successCounterAddressOffset : ℕ
  fallbackCounterAddressOffset : ℕ
  segmentRegister : ℕ
  guardPrologue : List Byte
  hasCounterOperands : Bool

/-- The loop body `PatchAotGuardedSegmentLoadSites` and `PatchAotGuardedSegmentPopSites` share. -/
def patchGuardedOperands (base : ℕ) (table : AotSegmentTable) (counters : CounterAddresses)
    (mem : Memory) (site : GuardedOperands) : Memory :=
  match guardedResolution table site.segmentRegister site.guardPrologue
    (counters.ready site.hasCounterOperands) with
  | none => mem.set (base + site.cacheOffset) 0xCC
  | some r =>
    let opened := (mem.setBytes (base + site.cacheOffset) site.guardPrologue).set32
      (base + site.shadowAddressOffset) r.shadowAddress
    let paired :=
      if site.pair0AddressOffset ≠ 0 then
        ((opened.set32 (base + site.pair0AddressOffset)
          (pairAddress r.pair0Address r.shadowAddress)).set32 (base + site.pair1AddressOffset)
          (pairAddress r.pair1Address r.shadowAddress)).set32 (base + site.shadowStoreOffset)
          r.shadowAddress
      else opened
    if site.hasCounterOperands then
      (paired.set32 (base + site.successCounterAddressOffset) counters.success).set32
        (base + site.fallbackCounterAddressOffset) counters.fallback
    else paired

/-- What the load patcher reads of a site. -/
def loadOperands (site : AotGuardedSegmentLoadSite) : GuardedOperands :=
  { cacheOffset := site.cacheOffset
    shadowAddressOffset := site.shadowAddressOffset
    pair0AddressOffset := site.pair0AddressOffset
    pair1AddressOffset := site.pair1AddressOffset
    shadowStoreOffset := site.shadowStoreOffset
    successCounterAddressOffset := site.successCounterAddressOffset
    fallbackCounterAddressOffset := site.fallbackCounterAddressOffset
    segmentRegister := site.segmentRegister
    guardPrologue := site.guardPrologue
    hasCounterOperands := site.hasCounterOperands }

/-- What the pop patcher reads of a site. -/
def popOperands (site : AotGuardedSegmentPopSite) : GuardedOperands :=
  { cacheOffset := site.cacheOffset
    shadowAddressOffset := site.shadowAddressOffset
    pair0AddressOffset := site.pair0AddressOffset
    pair1AddressOffset := site.pair1AddressOffset
    shadowStoreOffset := site.shadowStoreOffset
    successCounterAddressOffset := site.successCounterAddressOffset
    fallbackCounterAddressOffset := site.fallbackCounterAddressOffset
    segmentRegister := site.segmentRegister
    guardPrologue := site.guardPrologue
    hasCounterOperands := site.hasCounterOperands }

/-- `PatchAotGuardedSegmentLoadSites`. -/
def patchAotGuardedSegmentLoadSites (base : ℕ) (table : AotSegmentTable) (counters : CounterAddresses)
    (sites : List AotGuardedSegmentLoadSite) (mem : Memory) : Memory :=
  sites.foldl (fun mem site => patchGuardedOperands base table counters mem (loadOperands site)) mem

/-- `PatchAotGuardedSegmentPopSites`. -/
def patchAotGuardedSegmentPopSites (base : ℕ) (table : AotSegmentTable) (counters : CounterAddresses)
    (sites : List AotGuardedSegmentPopSite) (mem : Memory) : Memory :=
  sites.foldl (fun mem site => patchGuardedOperands base table counters mem (popOperands site)) mem

/-! ## Guarded read sites -/

/-- The body of the loop of `PatchAotGuardedSegmentReadSites`. -/
def patchGuardedReadSite (base : ℕ) (table : AotSegmentTable) (mem : Memory)
    (site : AotGuardedSegmentReadSite) : Memory :=
  match guardedResolution table site.segmentRegister site.guardPrologue true with
  | none => mem.set (base + site.cacheOffset) 0xCC
  | some r =>
    ((mem.setBytes (base + site.cacheOffset) site.guardPrologue).set32
      (base + site.shadowAddressOffset) r.shadowAddress).set32
      (base + site.loadShadowAddressOffset) r.shadowAddress

/-- `PatchAotGuardedSegmentReadSites`. -/
def patchAotGuardedSegmentReadSites (base : ℕ) (table : AotSegmentTable)
    (sites : List AotGuardedSegmentReadSite) (mem : Memory) : Memory :=
  sites.foldl (patchGuardedReadSite base table) mem

end Repiu.Engine
