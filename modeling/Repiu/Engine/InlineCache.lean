import Repiu.Engine.Operations

/-!
# Inline caches

`PatchAotIndirectInlineCache` (`aot_code_cache.cpp`) and what the processor does
in the guard chain of a site.
-/

namespace Repiu.Engine

open Repiu.Runtime

/-! ## Patching -/

/-- The site a miss address belongs to: the `popfd` of its miss tail or the byte behind it. -/
def findMissSite (sites : List AotIndirectInlineCacheSite) (missOffset : ℕ) : Option ℕ :=
  sites.findIdx? fun site =>
    missOffset = site.missCacheOffset ∨ missOffset = site.missCacheOffset + 1

/-- The bounds on the operands of a site. -/
def siteInBounds (size : ℕ) (site : AotIndirectInlineCacheSite) : Bool :=
  (site.entries.all fun e =>
    e.jumpDisplacementOffset + 4 ≤ size ∧ e.targetImmediateOffset + 4 ≤ size ∧
      e.guardOffset + 6 ≤ size) ∧
  site.jumpDisplacementOffset + 4 ≤ size ∧ site.targetImmediateOffset + 4 ≤ size ∧
    site.guardOffset + 6 ≤ size

/-- Whether a guard has learned the target. -/
def holdsTarget (mem : Memory) (target : Word) (guard : AotInlineCacheEntry) : Bool :=
  mem guard.guardOffset = 0x0F ∧ mem.get32 guard.targetImmediateOffset = target

/-- Whether a guard is empty or was reset. -/
def isVacant (mem : Memory) (guard : AotInlineCacheEntry) : Bool := mem guard.guardOffset = 0xE9

/-- The guard to write: the one holding the target, else the first vacant one, else the one
under the replace cursor.  The second component is the cursor afterwards. -/
def chooseGuard (mem : Memory) (guards : List AotInlineCacheEntry) (target : Word) (cursor : ℕ) :
    ℕ × ℕ :=
  match guards.findIdx? (holdsTarget mem target) with
  | some index => (index, cursor)
  | none =>
    match guards.findIdx? (isVacant mem) with
    | some index => (index, cursor)
    | none => (cursor % guards.length, (cursor % guards.length + 1) % guards.length)

/-- Where a learned guard goes on a mismatch: the next guard, or behind the chain. -/
def guardLink (site : AotIndirectInlineCacheSite) (index : ℕ) : ℕ :=
  match (siteGuards site)[index + 1]? with
  | some next => next.compareOffset
  | none => aotInlineCacheGuardTargetOffset site

/-- The three writes that make a guard hold a target. -/
def learnGuard (mem : Memory) (guard : AotInlineCacheEntry) (link : ℕ) (target : Word)
    (relative : ℤ) : Memory :=
  ((((mem.set32 guard.targetImmediateOffset target).set32 guard.jumpDisplacementOffset
    (BitVec.ofInt 32 relative)).set guard.guardOffset 0x0F).set (guard.guardOffset + 1) 0x85).set32
    (guard.guardOffset + 2) (BitVec.ofNat 32 link - BitVec.ofNat 32 (guard.guardOffset + 6))

/-- How a patch ended. -/
inductive PatchStatus
  | unavailable | siteNotFound | notWritable | outOfRange | notExecutable | patched
  deriving DecidableEq, Repr

/-- The `message` of the result. -/
def PatchStatus.message : PatchStatus → String
  | .unavailable => "AOT inline-cache placement is unavailable"
  | .siteNotFound => "AOT inline-cache miss site was not found"
  | .notWritable => "failed to make AOT inline cache writable"
  | .outOfRange => "AOT inline-cache target is outside rel32 range"
  | .notExecutable => "failed to restore AOT inline-cache RX protection"
  | .patched => "AOT indirect inline cache patched"

/-- The arguments of a patch and the outcomes of its two protection calls. -/
structure PatchCall where
  cacheMissAddress : Word
  guestTarget : Word
  cacheTarget : Word
  protectedWritable : Bool := true
  protectedExecute : Bool := true
  deriving DecidableEq, Repr

/-- The displacement that reaches the cache target from a guard's jump. -/
def patchRelative (baseAddress : ℕ) (guard : AotInlineCacheEntry) (cacheTarget : Word) : ℤ :=
  (cacheTarget.toNat : ℤ) - ((baseAddress : ℤ) + guard.jumpDisplacementOffset + 4)

/-- Whether a displacement fits the operand. -/
def fitsRel32 (relative : ℤ) : Bool := -2 ^ 31 ≤ relative ∧ relative < 2 ^ 31

/-- Store the cursor of a site. -/
def setCursor (sites : Fragment) (index cursor : ℕ) : Fragment :=
  { sites with
    indirectInlineCacheSites := sites.indirectInlineCacheSites.modify index fun s =>
      { s with replaceCursor := cursor } }

/-- The site a patch call selects, if the call gets as far as selecting one. -/
def selectSite (p : AotCodeCachePlacement) (call : PatchCall) : Option ℕ :=
  if ¬p.placed ∨ call.cacheMissAddress.toNat < p.baseAddress then none
  else findMissSite p.sites.indirectInlineCacheSites (call.cacheMissAddress.toNat - p.baseAddress)

/-- The site a patch call selects and the guard it would write. -/
def chosenGuard (p : AotCodeCachePlacement) (call : PatchCall) :
    Option (AotIndirectInlineCacheSite × AotInlineCacheEntry) :=
  (selectSite p call).bind fun k => p.sites.indirectInlineCacheSites[k]?.bind fun site =>
    (siteGuards site)[(chooseGuard p.memory (siteGuards site) call.guestTarget
      site.replaceCursor).1]?.map fun guard => (site, guard)

theorem chosenGuard_eq_some {p : AotCodeCachePlacement} {call : PatchCall} {k : ℕ}
    {site : AotIndirectInlineCacheSite} {guard : AotInlineCacheEntry} (hselect : selectSite p call = some k)
    (hsite : p.sites.indirectInlineCacheSites[k]? = some site)
    (hguard : (siteGuards site)[(chooseGuard p.memory (siteGuards site) call.guestTarget
      site.replaceCursor).1]? = some guard) : chosenGuard p call = some (site, guard) := by
  simp only [chosenGuard, hselect, hsite, hguard, Option.bind_some, Option.map_some]

/-- The part of `PatchAotIndirectInlineCache` behind the choice of the guard. -/
def patchGuard (call : PatchCall) (p : AotCodeCachePlacement) (guard : AotInlineCacheEntry)
    (link : ℕ) : AotCodeCachePlacement × PatchStatus :=
  if ¬call.protectedWritable then (p, .notWritable)
  else
    let relative := patchRelative p.baseAddress guard call.cacheTarget
    if ¬fitsRel32 relative then
      ({ p with memory := p.memory.set32 guard.targetImmediateOffset call.guestTarget }, .outOfRange)
    else
      ({ p with memory := learnGuard p.memory guard link call.guestTarget relative },
        if call.protectedExecute then .patched else .notExecutable)

/-- `PatchAotIndirectInlineCache`. -/
def patchAotIndirectInlineCache (call : PatchCall) (p : AotCodeCachePlacement) :
    AotCodeCachePlacement × PatchStatus :=
  if ¬p.placed ∨ call.cacheMissAddress.toNat < p.baseAddress then (p, .unavailable)
  else
    match selectSite p call with
    | none => (p, .siteNotFound)
    | some index =>
      match p.sites.indirectInlineCacheSites[index]? with
      | none => (p, .siteNotFound)
      | some site =>
        if ¬siteInBounds p.size site then (p, .siteNotFound)
        else
          let (chosen, cursor) := chooseGuard p.memory (siteGuards site) call.guestTarget
            site.replaceCursor
          match (siteGuards site)[chosen]? with
          | none => (p, .siteNotFound)
          | some guard =>
            patchGuard call { p with sites := setCursor p.sites index cursor } guard
              (guardLink site chosen)

/-! ## Running the guard chain -/

/-- Where the guard chain of a site takes control. -/
inductive ChainOutcome
  /-- The end of the chain: the probe or the miss tail. -/
  | miss
  /-- A jump out of the slot, to an address. -/
  | jump (address : ℤ)
  /-- Bytes the chain does not consist of. -/
  | lost
  deriving DecidableEq, Repr

/-- The destination of a relative jump whose displacement is at `offset`. -/
def relativeTarget (mem : Memory) (offset : ℕ) : ℤ := (offset : ℤ) + 4 + (mem.get32 offset).toInt

/-- What one guard does with the branch value: leave through its jump, or go to an offset of
the cache. -/
inductive GuardExit
  | leave (offset : ℤ)
  | goto (offset : ℤ)
  | lost

/-- Execute the bytes of one guard: `cmp`, the guard, and on a hit `popfd`, the stack
adjustment and the jump. -/
def runGuard (mem : Memory) (guard : AotInlineCacheEntry) (value : Word) : GuardExit :=
  if mem guard.compareOffset ≠ 0x81 then .lost
  else if mem guard.guardOffset = 0xE9 then .goto (relativeTarget mem (guard.guardOffset + 1))
  else if mem guard.guardOffset = 0x0F ∧ mem (guard.guardOffset + 1) = 0x85 then
    if value ≠ mem.get32 guard.targetImmediateOffset then
      .goto (relativeTarget mem (guard.guardOffset + 2))
    else if mem (guard.guardOffset + 6) = 0x9D ∧ mem (guard.jumpDisplacementOffset - 1) = 0xE9 then
      .leave (relativeTarget mem guard.jumpDisplacementOffset)
    else .lost
  else .lost

/-- Execute the chain from its first guard. -/
def runGuards (mem : Memory) (baseAddress chainEnd : ℕ) (value : Word) :
    List AotInlineCacheEntry → ChainOutcome
  | [] => .lost
  | guard :: rest =>
    match runGuard mem guard value with
    | .lost => .lost
    | .leave offset => .jump (baseAddress + offset)
    | .goto offset =>
      if offset = chainEnd then .miss
      else
        match rest with
        | [] => .lost
        | next :: _ =>
          if offset = next.compareOffset then runGuards mem baseAddress chainEnd value rest else .lost

/-- Execute the guard chain of a site with a branch value. -/
def runChain (p : AotCodeCachePlacement) (site : AotIndirectInlineCacheSite) (value : Word) :
    ChainOutcome :=
  runGuards p.memory p.baseAddress (aotInlineCacheGuardTargetOffset site) value (siteGuards site)

end Repiu.Engine
