import Repiu.Runtime.Sample

/-!
# The address map

The address map of a finished image: its entries in order, apart and inside the
code, one for each guest address, and as long as the slots they stand for.
-/

namespace Repiu.Runtime

open Repiu.X86

/-- The plans of the planner are emittable. -/
theorem emittablePlan_of_planned {table : Table} (hpush : PushRows table) {fuel : ℕ}
    {source : RelocatedRuntimeImage} {entry : Word} {excluded : List AotExcludedGuestRange}
    {plan : AotTranslationPlan}
    (hplan : buildAotTranslationPlanFromEntry table fuel source entry excluded = some plan) :
    EmittablePlan table plan :=
  ⟨hpush, planned_records hplan⟩

/-- The entries of an image are strictly increasing and disjoint, name each guest address once, lie
inside the code, and carry the full length of the slot emitted for the address. -/
theorem addressMap_wellFormed {input : BuildInput} {plan : AotTranslationPlan} {image : AotCodeCacheImage}
    (hplan : EmittablePlan input.table plan) (h : buildAotCodeCacheImage input plan = some image) :
    (image.addressMap.Pairwise fun e e' => e.cacheOffset < e'.cacheOffset ∧
      e.cacheOffset + e.emittedLength ≤ e'.cacheOffset ∧ e.guestAddress ≠ e'.guestAddress) ∧
    ∀ e ∈ image.addressMap, e.cacheOffset + e.emittedLength ≤ image.bytes.length ∧
      ∃ r, (plan.records.find? fun r => r.guestAddress = e.guestAddress) = some r ∧
        e.emittedLength = (emitSlot input r).code.bytes.length ∧ 0 < e.emittedLength ∧
        e.emittedLength ≤ 255 := by
  have himage := imageSpec_buildAotCodeCacheImage hplan h
  obtain ⟨r, -, -, hmap, -⟩ := buildAotCodeCacheImage_eq_some h
  have hemitted := emitted_emitBlocks hplan.records
  have hdistinct := hemitted.distinct
  have hentries := hemitted.entries
  rw [← hmap] at hdistinct hentries
  refine ⟨?_, ?_⟩
  · refine (himage.sites.entries_apart.and hdistinct).imp_of_mem ?_
    intro e e' he _ hboth
    have hpos := himage.sites.entries_in e he
    unfold AotAddressMapEntry.limit at hboth
    exact ⟨by omega, hboth.1, hboth.2⟩
  · intro e he
    obtain ⟨record, hfind, -, hlen⟩ := hentries e he
    have hin := himage.sites.entries_in e he
    refine ⟨hin.2, record, hfind, hlen, hin.1, ?_⟩
    obtain ⟨block, hblock, hmem⟩ : ∃ block ∈ plan.blocks, record ∈ block.instructions := by
      have := List.mem_of_find?_eq_some hfind
      simpa [List.mem_flatten] using this
    rw [hlen]
    exact (slotSpec_emitSlot (hplan.records block hblock record hmem)).2

/-- The address map of the sample guest. -/
theorem addressMap_wellFormed_sample :
    (sampleImage.addressMap.Pairwise fun e e' => e.cacheOffset < e'.cacheOffset ∧
      e.cacheOffset + e.emittedLength ≤ e'.cacheOffset ∧ e.guestAddress ≠ e'.guestAddress) ∧
    ∀ e ∈ sampleImage.addressMap, e.cacheOffset + e.emittedLength ≤ sampleImage.bytes.length ∧
      ∃ r, (samplePlan.records.find? fun r => r.guestAddress = e.guestAddress) = some r ∧
        e.emittedLength = (emitSlot ⟨sampleTable, {}, sampleOptions⟩ r).code.bytes.length ∧
        0 < e.emittedLength ∧ e.emittedLength ≤ 255 :=
  addressMap_wellFormed (emittablePlan_of_planned pushRows_sampleTable planned_samplePlan)
    built_sampleImage

end Repiu.Runtime
