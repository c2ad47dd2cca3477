import Repiu.Engine.Reach
import Repiu.Runtime.Sample

/-!
# A small guest, placed

The sample guest at a base address, and with one target learned.
-/

namespace Repiu.Engine

open Repiu.Runtime Repiu.X86

/-- The guest placed at `0x400000`. -/
def samplePlacement : AotCodeCachePlacement :=
  (placeAotCodeCache ⟨some 0x400000, true, {}⟩ sampleImage).get (by decide +kernel)

/-- How the guest was placed. -/
def samplePlaces : Places sampleTable samplePlacement where
  fuel := 8
  source := sampleSource
  entry := 0x1FFC
  excluded := []
  emission := {}
  options := sampleOptions
  env := ⟨some 0x400000, true, {}⟩
  plan := samplePlan
  image := sampleImage
  planned := planned_samplePlan
  built := built_sampleImage
  placed := (Option.some_get _).symm

/-- The miss of the only inline-cache site, resolved to a cache address. -/
def sampleCall (guestTarget cacheTarget : Word) : PatchCall :=
  { cacheMissAddress := 0x40005A, guestTarget := guestTarget, cacheTarget := cacheTarget }

/-- The placement with the spanning instruction learned. -/
def sampleLearned : AotCodeCachePlacement :=
  (patchAotIndirectInlineCache (sampleCall 0x1FFE 0x40000C) samplePlacement).1

theorem reachable_samplePlacement : Reachable sampleTable samplePlacement := .place ⟨samplePlaces⟩

theorem apply_sampleLearned :
    (Operation.patch (sampleCall 0x1FFE 0x40000C)).apply sampleTable samplePlacement =
      some (sampleLearned, false) := apply_patch sampleTable samplePlacement _

theorem reachable_sampleLearned : Reachable sampleTable sampleLearned :=
  .step reachable_samplePlacement apply_sampleLearned

-- the kernel evaluates these, the elaborator should not
attribute [irreducible] samplePlacement sampleLearned

end Repiu.Engine
