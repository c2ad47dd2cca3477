import Repiu.Exe.RelocationDryRun
import Mathlib.Order.Interval.Set.Disjoint
import Mathlib.Order.CompletePartialOrder

/-!
# The layout of a memory plan

Where the plans of the runtime memory put the objects of an LE image, and where the reserve of the
high-level emulation begins.
-/

namespace Repiu.Exe

open Repiu.Engine

/-! ## Ranges -/

/-- A range of a plan. -/
structure PlannedRange where
  base : Word
  size : Word
  deriving DecidableEq, Repr

/-- The end of a range, not wrapped. -/
def PlannedRange.finish (range : PlannedRange) : ℕ := range.base.toNat + range.size.toNat

/-- The addresses of a range, not wrapped. -/
def PlannedRange.addresses (range : PlannedRange) : Set ℕ := Set.Ico range.base.toNat range.finish

/-- The range the object table gives an object. -/
def LeMappedObject.range (object : LeMappedObject) : PlannedRange :=
  ⟨object.record.relocationBaseAddress, object.record.virtualSize⟩

def RuntimeObjectRegion.range (region : RuntimeObjectRegion) : PlannedRange :=
  ⟨region.baseAddress, region.virtualSize⟩

def RelocatableRuntimeObjectRegion.range (region : RelocatableRuntimeObjectRegion) : PlannedRange :=
  ⟨region.relocatedBaseAddress, region.virtualSize⟩

/-- The start of the last page of the address space. -/
def lastRuntimePage : ℕ := 2 ^ 32 - kRuntimePageSize.toNat

/-- Ranges planned for the objects of a table, all moved by one delta, and the reserve after them. -/
structure Layout (objects : List LeMappedObject) (delta : Word) (ranges : List PlannedRange) (hleReserveBase : Word) :
    Prop where
  length : ranges.length = objects.length
  noWrap : ∀ range ∈ ranges, range.finish < 2 ^ 32
  moved : ∀ i (hi : i < ranges.length) (ho : i < objects.length), ranges[i].size = objects[i].range.size ∧
    ranges[i].base.toNat = objects[i].range.base.toNat + delta.toNat
  /-- Two ranges are apart exactly when the table keeps their objects apart. -/
  apart : ∀ i j (hi : i < ranges.length) (hj : j < ranges.length) (hi' : i < objects.length) (hj' : j < objects.length),
    Disjoint ranges[i].addresses ranges[j].addresses ↔
      Disjoint objects[i].range.addresses objects[j].range.addresses
  aligned : hleReserveBase.toNat % kRuntimePageSize.toNat = 0
  above : (∀ range ∈ ranges, range.finish ≤ lastRuntimePage) → ∀ range ∈ ranges, range.finish ≤ hleReserveBase.toNat

/-! ## Rounding up -/

theorem toNat_alignUp (value : Word) :
    (alignUp value kRuntimePageSize).toNat = (value.toNat + 4095) / 4096 * 4096 % 2 ^ 32 := by
  have hlt := value.isLt
  have hremainder : (value % kRuntimePageSize).toNat = value.toNat % 4096 := BitVec.toNat_umod
  unfold alignUp
  by_cases hzero : value % kRuntimePageSize = 0
  · rw [hzero] at hremainder
    change 0 = _ at hremainder
    rw [if_pos hzero]
    omega
  · have hpos : 0 < value.toNat % 4096 := by
      rw [← hremainder]
      apply Nat.pos_of_ne_zero
      exact fun hnat => hzero (BitVec.eq_of_toNat_eq hnat)
    rw [if_neg hzero, BitVec.toNat_add, BitVec.toNat_sub, hremainder]
    show (value.toNat + (2 ^ 32 - value.toNat % 4096 + 4096) % 2 ^ 32) % 2 ^ 32 = _
    omega

/-- A bound on the end of the last object is one on every end. -/
theorem foldl_max_le_iff {α : Type} (finish : α → ℕ) {objects : List α} {first bound : ℕ} :
    objects.foldl (fun last object => max last (finish object)) first ≤ bound ↔
      first ≤ bound ∧ ∀ object ∈ objects, finish object ≤ bound := by
  induction objects generalizing first with
  | nil => simp
  | cons object objects ih => rw [List.foldl_cons, ih, max_le_iff, List.forall_mem_cons, and_assoc]

/-! ## Plans -/

/-- Ranges that are the objects' own ones, moved by one delta. -/
theorem Layout.of_moved {objects : List LeMappedObject} {delta : Word} {ranges : List PlannedRange}
    {hleReserveBase : Word} (hlength : ranges.length = objects.length)
    (hends : ∀ object ∈ objects, object.relocatedEnd delta ≤ 0xFFFFFFFF)
    (hmoved : ∀ i (hi : i < ranges.length) (ho : i < objects.length), ranges[i].size = objects[i].range.size ∧
      ranges[i].base.toNat = objects[i].range.base.toNat + delta.toNat)
    (hbase : hleReserveBase = alignUp (BitVec.ofNat 32
      (objects.foldl (fun last object => max last (object.relocatedEnd delta)) 0)) kRuntimePageSize) :
    Layout objects delta ranges hleReserveBase := by
  have hfinish : ∀ i (hi : i < ranges.length) (ho : i < objects.length),
      ranges[i].finish = objects[i].relocatedEnd delta := by
    intro i hi ho
    obtain ⟨hsize, hstart⟩ := hmoved i hi ho
    unfold PlannedRange.finish
    rw [hsize, hstart]
    rfl
  have hfinishMem : ∀ range ∈ ranges, ∃ object ∈ objects, range.finish = object.relocatedEnd delta := by
    intro range hrange
    obtain ⟨i, hi, rfl⟩ := List.mem_iff_getElem.mp hrange
    exact ⟨objects[i], List.getElem_mem _, hfinish i hi (hlength ▸ hi)⟩
  generalize hlast : objects.foldl (fun last object => max last (object.relocatedEnd delta)) 0 = last at hbase
  have hlastLe : last ≤ 0xFFFFFFFF := by
    rw [← hlast]
    exact (foldl_max_le_iff _).mpr ⟨Nat.zero_le _, hends⟩
  have hle : ∀ object ∈ objects, object.relocatedEnd delta ≤ last :=
    ((foldl_max_le_iff (LeMappedObject.relocatedEnd delta)).mp (le_of_eq hlast)).2
  have hreserve : hleReserveBase.toNat = (last + 4095) / 4096 * 4096 % 2 ^ 32 := by
    have hsmall : last % 2 ^ 32 = last := Nat.mod_eq_of_lt (by omega)
    rw [hbase, toNat_alignUp, BitVec.toNat_ofNat, hsmall]
  refine ⟨hlength, ?_, hmoved, ?_, ?_, ?_⟩
  · intro range hrange
    obtain ⟨object, hobject, heq⟩ := hfinishMem range hrange
    have := hends object hobject
    omega
  · intro i j hi hj hi' hj'
    unfold PlannedRange.addresses
    rw [Set.Ico_disjoint_Ico, Set.Ico_disjoint_Ico]
    obtain ⟨hsizeI, hstartI⟩ := hmoved i hi hi'
    obtain ⟨hsizeJ, hstartJ⟩ := hmoved j hj hj'
    unfold PlannedRange.finish
    rw [hsizeI, hstartI, hsizeJ, hstartJ]
    omega
  · rw [hreserve]
    show _ % 4096 = 0
    omega
  · intro hbelow range hrange
    have hlastBelow : last ≤ lastRuntimePage := by
      rw [← hlast]
      apply (foldl_max_le_iff _).mpr
      refine ⟨Nat.zero_le _, ?_⟩
      intro object hobject
      obtain ⟨i, hi, rfl⟩ := List.mem_iff_getElem.mp hobject
      rw [← hfinish i (hlength ▸ hi) hi]
      exact hbelow _ (List.getElem_mem _)
    obtain ⟨object, hobject, heq⟩ := hfinishMem range hrange
    have hbelowLast := hle object hobject
    change last ≤ 2 ^ 32 - 4096 at hlastBelow
    rw [heq, hreserve]
    omega

theorem layout_of_runtime_plan {load : Dos4gwLoadResult} {plan : RuntimeMemoryPlan}
    (h : buildRuntimeMemoryPlan load = .ok plan) :
    Layout load.image.mappedObjects 0 (plan.objectRegions.map RuntimeObjectRegion.range) plan.hleReserveBase := by
  unfold buildRuntimeMemoryPlan at h
  split_ifs at h with hvalid
  dsimp only at h
  by_cases hend : 0xFFFFFFFF < load.image.mappedObjects.foldl (fun last object => max last object.regionEnd) 0
  · rw [if_pos hend] at h
    cases h
  rw [if_neg hend] at h
  cases h
  have hends := ((foldl_max_le_iff LeMappedObject.regionEnd).mp (not_lt.mp hend)).2
  apply Layout.of_moved
  · rw [List.length_map, List.length_mapIdx]
  · exact hends
  · intro i hi ho
    rw [List.getElem_map, List.getElem_mapIdx]
    exact ⟨rfl, rfl⟩
  · rfl

theorem layout_of_relocatable_plan {load : Dos4gwLoadResult} {base : Word} {plan : RelocatableRuntimeImagePlan}
    (h : buildRelocatableRuntimeImagePlan load base = .ok plan) :
    Layout load.image.mappedObjects plan.relocationDelta (plan.objectRegions.map RelocatableRuntimeObjectRegion.range)
      plan.relocatedHleReserveBase := by
  obtain ⟨-, -, hends, hregions, hbase, -⟩ := buildRelocatableRuntimeImagePlan_ok h
  rw [hregions]
  apply Layout.of_moved _ hends _ hbase
  · rw [List.length_map, List.length_mapIdx]
  · intro i hi ho
    have hend := hends _ (List.getElem_mem ho)
    unfold LeMappedObject.relocatedEnd at hend
    rw [List.getElem_map, List.getElem_mapIdx]
    refine ⟨rfl, ?_⟩
    show (BitVec.ofNat 32 _).toNat = _
    rw [BitVec.toNat_ofNat, Nat.mod_eq_of_lt (by omega)]
    rfl

/-- The layout of both plans, of every object table at every base. -/
theorem memory_plan_layout (load : Dos4gwLoadResult) :
    (∀ plan, buildRuntimeMemoryPlan load = .ok plan →
      Layout load.image.mappedObjects 0 (plan.objectRegions.map RuntimeObjectRegion.range) plan.hleReserveBase) ∧
    ∀ base plan, buildRelocatableRuntimeImagePlan load base = .ok plan →
      Layout load.image.mappedObjects plan.relocationDelta (plan.objectRegions.map RelocatableRuntimeObjectRegion.range)
        plan.relocatedHleReserveBase :=
  ⟨fun _ => layout_of_runtime_plan, fun _ _ => layout_of_relocatable_plan⟩

theorem memory_plan_layout_code :
    (∃ plan, buildRuntimeMemoryPlan (sampleLoad [sampleCode] []) = .ok plan ∧ plan.hleReserveBase = 0x11000 ∧
      Layout [sampleCode] 0 (plan.objectRegions.map RuntimeObjectRegion.range) plan.hleReserveBase) ∧
    ∃ plan, buildRelocatableRuntimeImagePlan (sampleLoad [sampleCode] []) 0x400000 = .ok plan ∧
      plan.relocatedHleReserveBase = 0x401000 ∧
      Layout [sampleCode] plan.relocationDelta (plan.objectRegions.map RelocatableRuntimeObjectRegion.range)
        plan.relocatedHleReserveBase :=
  ⟨⟨_, rfl, by decide +kernel, (memory_plan_layout (sampleLoad [sampleCode] [])).1 _ rfl⟩,
    ⟨_, rfl, by decide +kernel, (memory_plan_layout (sampleLoad [sampleCode] [])).2 0x400000 _ rfl⟩⟩

/-- Sixteen bytes that end within the last page of the address space. -/
def sampleTop : LeMappedObject :=
  { sampleCode with record := { sampleCode.record with relocationBaseAddress := 0xFFFFFFE0 } }

/-- Objects that the table puts at one address are planned there, and a last object within the last page
puts the reserve at address zero. -/
theorem plans_keep_overlaps :
    (∃ plan, buildRuntimeMemoryPlan (sampleLoad [sampleCode, sampleCode] []) = .ok plan ∧ plan.valid = true ∧
      ∃ first second, (plan.objectRegions.map RuntimeObjectRegion.range) = [first, second] ∧
        ¬Disjoint first.addresses second.addresses) ∧
    (∃ plan, buildRelocatableRuntimeImagePlan (sampleLoad [sampleCode, sampleCode] []) 0x400000 = .ok plan ∧
      plan.valid = true ∧
      ∃ first second, (plan.objectRegions.map RelocatableRuntimeObjectRegion.range) = [first, second] ∧
        ¬Disjoint first.addresses second.addresses) ∧
    ∃ plan, buildRuntimeMemoryPlan (sampleLoad [sampleTop] []) = .ok plan ∧ plan.valid = true ∧
      (plan.objectRegions.map fun region => region.range.finish) = [0xFFFFFFF0] ∧ plan.hleReserveBase = 0 := by
  have hmeet : ∀ first : PlannedRange, first.size ≠ 0 → ¬Disjoint first.addresses first.addresses := by
    intro first hsize
    unfold PlannedRange.addresses PlannedRange.finish
    rw [Set.Ico_disjoint_Ico]
    have : first.size.toNat ≠ 0 := fun hnat => hsize (BitVec.eq_of_toNat_eq hnat)
    omega
  refine ⟨⟨_, rfl, by decide +kernel, ⟨0x10000, 16⟩, ⟨0x10000, 16⟩, by decide +kernel, hmeet _ (by decide)⟩,
    ⟨_, rfl, by decide +kernel, ⟨0x400000, 16⟩, ⟨0x400000, 16⟩, by decide +kernel, hmeet _ (by decide)⟩,
    ⟨_, rfl, by decide +kernel, by decide +kernel, by decide +kernel⟩⟩

end Repiu.Exe
